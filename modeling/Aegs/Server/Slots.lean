import Aegs.Server.DataPlane
import Aegs.Server.Response

/-!
# Slots

A session belongs to a token, and the tokens of a user are the slots of that user. What a
session recognises its packets by – its key id and its mask keys – is derived from the token
when the device is registered, and it is none of the things that handshakes, resumes and
data packets replace. The one exception is auto-slot balancing: a handshake that is moved
to another slot gives that slot the mask keys of the session it asked for, and makes it
serve the key id that was asked for besides its own (`Aegs.Server.Slot.serve`). Nothing
undoes that.

This file follows the slots through the runs of the server. A predicate of slots that every
new device has, and that the handshakes that are moved keep, holds of all sessions of the
table in every state reached (`Aegs.Server.Slots.advance`). With it goes what the indexes
promise: a session is found under its own key id, and the endpoint index has sessions of the
table only.
-/

namespace Aegs

namespace Server

open Bytes Handshake Wire

/-- What a session recognises its packets by, and the key it is derived from. -/
structure Slot where
  /-- `key_id_raw`. -/
  keyIdRaw : UInt64
  /-- `base_key_id_raw`. -/
  baseKeyIdRaw : UInt64
  /-- `master_key`. -/
  masterKey : Vector UInt8 32
  /-- `mask_key`. -/
  maskKey : Vector UInt8 32
  /-- `alt_mask_key`. -/
  altMaskKey : Vector UInt8 32
  /-- `has_alt_mask_key`. -/
  hasAltMaskKey : Bool

/-- The slot of a session. -/
def Session.slot (s : Session) : Slot where
  keyIdRaw := s.identity.keyIdRaw
  baseKeyIdRaw := s.identity.baseKeyIdRaw
  masterKey := s.crypto.masterKey
  maskKey := s.crypto.maskKey
  altMaskKey := s.crypto.altMaskKey
  hasAltMaskKey := s.crypto.hasAltMaskKey

/-- The slot after a device that asked for the key id of `orig` was moved to it. -/
def Slot.serve (x : Slot) (keyId : UInt64) (orig : Slot) : Slot := { x with
  baseKeyIdRaw := keyId
  maskKey := orig.maskKey
  altMaskKey := orig.altMaskKey
  hasAltMaskKey := orig.hasAltMaskKey }

/-- The session at this address is in the table. -/
def SessionTable.Present (t : SessionTable) (p : ℕ) : Prop := ∃ keyId, t.findByKeyId keyId = some p

/-- **Every slot of the table has the property `Q`**, and the indexes are in order. -/
structure Slots (Q : Slot → Prop) (st : State) : Prop where
  /-- A session is found under its key id. -/
  keyed : ∀ keyId p, st.sessions.findByKeyId keyId = some p →
    (st.sessions.heap p).slot.keyIdRaw = keyId
  /-- Sessions were made before the next one. -/
  fresh : ∀ p, st.sessions.Present p → p < st.sessions.next
  /-- The endpoint index has sessions of the table. -/
  cached : ∀ key p, st.sessions.findByEndpoint key = some p → st.sessions.Present p
  /-- No user has the key id zero. -/
  zero : st.userSlots.lookup 0 = none
  /-- The property. -/
  each : ∀ p, st.sessions.Present p → Q (st.sessions.heap p).slot

section

variable {Q : Slot → Prop} {st st' : State}

/-! ### The parts of a step -/

/-- The slots are in the session table and in the users' lists. -/
theorem Slots.congr (h : Slots Q st) (hsessions : st'.sessions = st.sessions)
    (huserSlots : st'.userSlots = st.userSlots) : Slots Q st' where
  keyed := hsessions ▸ h.keyed
  fresh := hsessions ▸ h.fresh
  cached := hsessions ▸ h.cached
  zero := huserSlots ▸ h.zero
  each := hsessions ▸ h.each

/-- A store to a session, of one with the same key id and the property. -/
theorem Slots.setSession (h : Slots Q st) {p : ℕ} {s : Session}
    (hkey : s.slot.keyIdRaw = (st.sessions.heap p).slot.keyIdRaw)
    (hQ : st.sessions.Present p → Q s.slot) :
    Slots Q { st with sessions := st.sessions.setSession p s } := by
  have hheap : ∀ q, q ≠ p → (st.sessions.setSession p s).heap q = st.sessions.heap q := by
    intro q hq
    simp [SessionTable.setSession, hq]
  have hself : (st.sessions.setSession p s).heap p = s := by simp [SessionTable.setSession]
  refine { h with keyed := fun keyId q hq => ?_, each := fun q hq => ?_ }
  · change ((st.sessions.setSession p s).heap q).slot.keyIdRaw = keyId
    rcases eq_or_ne q p with rfl | hne
    · rw [hself, hkey]
      exact h.keyed keyId q hq
    · rw [hheap q hne]
      exact h.keyed keyId q hq
  · change Q ((st.sessions.setSession p s).heap q).slot
    rcases eq_or_ne q p with rfl | hne
    · rw [hself]
      exact hQ hq
    · rw [hheap q hne]
      exact h.each q hq

/-- A store that leaves the slot alone. -/
theorem Slots.store (h : Slots Q st) {p : ℕ} {s : Session}
    (hslot : s.slot = (st.sessions.heap p).slot) :
    Slots Q { st with sessions := st.sessions.setSession p s } :=
  h.setSession (congrArg Slot.keyIdRaw hslot) fun hp => hslot ▸ h.each p hp

/-- A session of the table is entered for an endpoint. -/
theorem Slots.updateEndpoint (h : Slots Q st) (key : UInt64) {p : ℕ}
    (hp : st.sessions.Present p) :
    Slots Q { st with sessions := st.sessions.updateEndpoint key p } := by
  refine { h with cached := fun key' q hq => ?_ }
  rcases eq_or_ne key' key with rfl | hne
  · obtain rfl : p = q := Option.some.inj ((AList.lookup_insert _).symm.trans hq)
    exact hp
  · exact h.cached key' q ((AList.lookup_insert_ne hne).symm.trans hq)

/-- The entries of some sessions are erased. -/
theorem Slots.eraseEndpoints (h : Slots Q st) (gone : ℕ → Bool) :
    Slots Q { st with sessions := st.sessions.eraseEndpoints gone } :=
  { h with cached := fun key q hq =>
      h.cached key q (st.sessions.findByEndpoint_eraseEndpoints hq).1 }

/-- The routes do not matter. -/
theorem Slots.setRoutes (h : Slots Q st) (routes : AList fun _ : UInt32 => ℕ) :
    Slots Q { st with sessions := { st.sessions with routes := routes } } :=
  { h with }

theorem Slots.mapIp (h : Slots Q st) (ip : UInt32) (p : ℕ) :
    Slots Q { st with sessions := st.sessions.mapIp ip p } := by
  rw [SessionTable.mapIp]
  split
  · exact h
  · exact h.setRoutes _

theorem Slots.unmapIp (h : Slots Q st) (ip : UInt32) :
    Slots Q { st with sessions := st.sessions.unmapIp ip } := by
  rw [SessionTable.unmapIp]
  split
  · exact h
  · exact h.setRoutes _

/-- A new device is entered. -/
theorem Slots.insertSession (h : Slots Q st) {s : Session}
    (hnone : st.sessions.findByKeyId s.identity.keyIdRaw = none) (hQ : Q s.slot) :
    Slots Q { st with sessions := st.sessions.insertSession s } := by
  have hself : (st.sessions.insertSession s).heap st.sessions.next = s := by
    simp [SessionTable.insertSession]
  have hheap : ∀ q, st.sessions.Present q →
      (st.sessions.insertSession s).heap q = st.sessions.heap q := fun q hq => by
    simp [SessionTable.insertSession, (h.fresh q hq).ne]
  have hcases := fun keyId q =>
    st.sessions.findByKeyId_of_insertSession s keyId q
  refine ⟨fun keyId q hq => ?_, ?_, fun key q hq => ?_, h.zero, ?_⟩
  · change ((st.sessions.insertSession s).heap q).slot.keyIdRaw = keyId
    rcases hcases keyId q hq with ⟨rfl, rfl⟩ | hq
    · rw [hself]
      rfl
    · rw [hheap q ⟨keyId, hq⟩]
      exact h.keyed keyId q hq
  · rintro q ⟨keyId, hq⟩
    rcases hcases keyId q hq with ⟨-, rfl⟩ | hq
    · exact Nat.lt_succ_self _
    · exact Nat.lt_succ_of_lt (h.fresh q ⟨keyId, hq⟩)
  · obtain ⟨keyId, hkey⟩ := h.cached key q hq
    have hne : keyId ≠ s.identity.keyIdRaw := by
      rintro rfl
      exact absurd (hnone.symm.trans hkey) (by simp)
    exact ⟨keyId, by rw [SessionTable.findByKeyId_insertSession, if_neg hne, hkey]⟩
  · rintro q ⟨keyId, hq⟩
    change Q ((st.sessions.insertSession s).heap q).slot
    rcases hcases keyId q hq with ⟨-, rfl⟩ | hq
    · rwa [hself]
    · rw [hheap q ⟨keyId, hq⟩]
      exact h.each q ⟨keyId, hq⟩

/-- A session is removed and recycled. -/
theorem Slots.removeSession (h : Slots Q st) (keyId : UInt64) :
    Slots Q { st with sessions := st.sessions.removeSession keyId } := by
  rcases hfind : st.sessions.findByKeyId keyId with _ | p
  · rw [show st.sessions.removeSession keyId = st.sessions by
      rw [SessionTable.removeSession, hfind]]
    exact h
  · obtain ⟨hnext, hkeys, -, -, -⟩ := st.sessions.removeSession_eq hfind
    have hheap := fun q => st.sessions.heap_removeSession_of_ne hfind (q := q)
    -- a session has one key id, so what is still found is not the session removed
    have hold : ∀ k q, (st.sessions.removeSession keyId).findByKeyId k = some q →
        st.sessions.findByKeyId k = some q ∧ q ≠ p := by
      intro k q hq
      rw [SessionTable.findByKeyId, hkeys] at hq
      have hne : k ≠ keyId := by
        rintro rfl
        exact absurd ((AList.lookup_erase _ _).symm.trans hq) (by simp)
      have hk : st.sessions.findByKeyId k = some q := (AList.lookup_erase_ne hne).symm.trans hq
      refine ⟨hk, ?_⟩
      rintro rfl
      exact hne ((h.keyed k q hk).symm.trans (h.keyed keyId q hfind))
    refine ⟨fun k q hq => ?_, ?_, fun key q hq => ?_, h.zero, ?_⟩
    · obtain ⟨hk, hne⟩ := hold k q hq
      change ((st.sessions.removeSession keyId).heap q).slot.keyIdRaw = k
      rw [hheap q hne]
      exact h.keyed k q hk
    · rintro q ⟨k, hq⟩
      change q < (st.sessions.removeSession keyId).next
      rw [hnext]
      exact h.fresh q ⟨k, (hold k q hq).1⟩
    · obtain ⟨hq, hne⟩ := st.sessions.findByEndpoint_removeSession hfind hq
      obtain ⟨k, hk⟩ := h.cached key q hq
      have hkey : k ≠ keyId := by
        rintro rfl
        exact hne (Option.some.inj (hk.symm.trans hfind))
      refine ⟨k, ?_⟩
      change (st.sessions.removeSession keyId).byKeyId.lookup k = some q
      rw [hkeys, AList.lookup_erase_ne hkey]
      exact hk
    · rintro q ⟨k, hq⟩
      obtain ⟨hk, hne⟩ := hold k q hq
      change Q ((st.sessions.removeSession keyId).heap q).slot
      rw [hheap q hne]
      exact h.each q ⟨k, hk⟩

end

/-! ### The events -/

section

variable {S : Type} {L : Library S} {T : TokenCipher} {D : KeyDerivation} {C : DataCipher}
  {Q : Slot → Prop} {st : State}

/-- The slot of the session that a handshake installs. -/
theorem slot_install (s orig : Session) (keyId : UInt64) (moved : Bool) (keys : SessionKeys)
    (ip : UInt32) (d : Datagram) :
    (s.install orig keyId moved keys ip d).slot =
      if moved then s.slot.serve keyId orig.slot else s.slot := by
  cases moved <;> rfl

/-- A handshake is moved only where the key id has slots. -/
theorem keyId_ne_zero_of_moved {keyId : UInt64} {orig : ℕ} {caddr : Endpoint} {now : ℤ}
    (hzero : st.userSlots.lookup 0 = none) (h : st.chooseSlot keyId orig caddr now ≠ orig) :
    keyId ≠ 0 := by
  rintro rfl
  refine h ?_
  simp only [State.chooseSlot, hzero]
  split <;> rfl

/-- **A handshake** keeps the slots, unless it is moved. -/
theorem Slots.handshake (h : Slots Q st) (d : Datagram) (calls : HandshakeCalls S)
    (hmoved : ∀ keyId orig p st' ip, (st.admitted L d calls).2 = some (keyId, orig, p, st', ip) →
      p ≠ orig → Q ((st.sessions.heap p).slot.serve keyId (st.sessions.heap orig).slot)) :
    Slots Q (st.handshake L T d calls).1 := by
  rcases hadm : (st.admitted L d calls).2 with _ | ⟨keyId, orig, p, st', ip⟩
  · obtain ⟨hsessions, huserSlots⟩ := handshake_of_not_admitted L T hadm
    exact h.congr hsessions huserSlots
  · rw [handshake_of_admitted L T hadm]
    have hheap := heap_admitted L hadm
    obtain ⟨horig, rfl, huserSlots, hsessions⟩ := admitted_eq_some L hadm
    have h' : Slots Q st' := by
      rcases hsessions with hsessions | hsessions
      · exact h.congr hsessions huserSlots
      · exact (h.mapIp _ _).congr hsessions huserSlots
    have hpresent : st'.sessions.Present (st.chooseSlot keyId orig d.caddr d.now) := by
      obtain ⟨k, hk⟩ := chooseSlot_mem d.caddr d.now horig
      refine ⟨k, ?_⟩
      rcases hsessions with hsessions | hsessions
      · rwa [hsessions]
      · rwa [hsessions, SessionTable.findByKeyId, SessionTable.byKeyId_mapIp]
    generalize st.chooseSlot keyId orig d.caddr d.now = p at *
    refine ((h'.setSession ?_ fun _ => ?_).updateEndpoint _ hpresent).congr rfl rfl
    · rw [slot_install]
      split <;> rfl
    · rw [slot_install]
      split
      · rename_i hne
        rw [hheap]
        exact hmoved keyId orig p st' ip hadm (of_decide_eq_true hne)
      · exact h'.each p hpresent

/-- A token is verified. -/
theorem Slots.verifyToken (h : Slots Q st) (tok : ResumptionToken) (calls : ResumeCalls) :
    Slots Q (st.verifyToken L T tok calls).1 := by
  obtain ⟨-, hsessions, -⟩ := verifyToken_eq L T st tok calls
  refine h.congr hsessions ?_
  rw [State.verifyToken]
  split <;> rfl

/-- **A resume** keeps the slots. -/
theorem Slots.resume (h : Slots Q st) {p : ℕ} (hp : st.sessions.Present p) (sessionId : UInt64)
    (ip : UInt32) (recvKey sendKey : Vector UInt8 32) (d : Datagram) (calls : ResumeCalls) :
    Slots Q (st.resume L T p sessionId ip recvKey sendKey d calls).1 := by
  have hstore : Slots Q _ := h.store (p := p) (s := (st.sessions.heap p).resume sessionId recvKey
    sendKey (st.sessions.resumedIp p ip) d) rfl
  exact (hstore.updateEndpoint (makeEndpointKey d.caddr) hp).mapIp _ p

theorem Slots.fastResume (h : Slots Q st) (d : Datagram) (calls : ResumeCalls)
    (expand : ExpandCalls) : Slots Q (st.fastResume L T d calls expand).1 := by
  have h' := h.verifyToken (L := L) (T := T) (.read d.data 1) calls
  obtain ⟨-, hsessions, hfind⟩ := verifyToken_eq L T st (.read d.data 1) calls
  rw [State.fastResume]
  rcases hverify : st.verifyToken L T (.read d.data 1) calls with ⟨st', _ | ⟨p, sessionId, ip⟩⟩
  · rwa [hverify] at h'
  · rw [hverify] at h' hsessions hfind
    have hp : st'.sessions.Present p := ⟨_, hsessions ▸ hfind p sessionId ip rfl⟩
    exact h'.resume (L := L) (T := T) hp sessionId ip _ _ d calls

theorem Slots.pfsResume (h : Slots Q st) (d : Datagram) (calls : ResumeCalls)
    (pfs : PfsCalls S) : Slots Q (st.pfsResume L T d calls pfs).1 := by
  have h' := h.verifyToken (L := L) (T := T) (.read d.data 1) calls
  obtain ⟨-, hsessions, hfind⟩ := verifyToken_eq L T st (.read d.data 1) calls
  rw [State.pfsResume]
  rcases hverify : st.verifyToken L T (.read d.data 1) calls with ⟨st', _ | ⟨p, sessionId, ip⟩⟩
  · rwa [hverify] at h'
  · rw [hverify] at h' hsessions hfind
    have hp : st'.sessions.Present p := ⟨_, hsessions ▸ hfind p sessionId ip rfl⟩
    simp only
    split
    · exact h'
    · exact h'.resume (L := L) (T := T) hp sessionId ip _ _ d calls

/-- An idle session keeps its slot. -/
theorem Slots.cleanupSession (h : Slots Q st) (now : ℤ) (p : ℕ) :
    Slots Q (st.cleanupSession now p) := by
  have hidle : Slots Q _ := h.store (p := p) (s := (st.sessions.heap p).idle) rfl
  rw [State.cleanupSession]
  split
  · simp only
    split
    · exact (hidle.unmapIp _).congr rfl rfl
    · exact hidle
  · exact h

/-- **The collector** keeps the slots. -/
theorem Slots.cleanupMaps (h : Slots Q st) (now : ℤ) (order : List ℕ) :
    Slots Q (st.cleanupMaps now order) := by
  rw [State.cleanupMaps]
  split
  · exact h
  · exact List.foldlRecOn (motive := Slots Q) order _ ((h.eraseEndpoints _).congr rfl rfl)
      fun st h p _ => h.cleanupSession now p

/-- A device is registered. -/
theorem Slots.registerDevice (h : Slots Q st)
    (hnew : ∀ keyId masterKey now, Q (newDevice L keyId masterKey now).slot) (now : ℤ)
    (token kidHex : String) : Slots Q (st.registerDevice L D now token kidHex).1 := by
  simp only [State.registerDevice]
  split
  · exact h
  · rename_i hnone
    split
    · exact h
    · exact (h.insertSession hnone (hnew _ _ _)).congr rfl rfl

/-- The slots of a user are stored. -/
theorem Slots.setUserSlots (h : Slots Q st) {keyId : UInt64} (hne : keyId ≠ 0)
    (slots : List UInt64) (activeTokens : AList fun _ : String => UInt64) :
    Slots Q { st with
      userSlots := st.userSlots.insert keyId slots
      activeTokens := activeTokens } :=
  { h with zero := (AList.lookup_insert_ne hne.symm).trans h.zero }

/-- The slots of a user are forgotten. -/
theorem Slots.eraseUserSlots (h : Slots Q st) (keyId : UInt64) :
    Slots Q { st with userSlots := st.userSlots.erase keyId } := by
  refine { h with zero := ?_ }
  change (st.userSlots.erase keyId).lookup 0 = none
  rcases eq_or_ne 0 keyId with rfl | hne
  · exact AList.lookup_erase _ _
  · exact (AList.lookup_erase_ne hne).trans h.zero

/-- **A synchronisation** keeps the slots. -/
theorem Slots.sync (h : Slots Q st)
    (hnew : ∀ keyId masterKey now, Q (newDevice L keyId masterKey now).slot) (now : ℤ)
    (rows : List (String × String)) (revoked : List String) :
    Slots Q (revoked.foldl State.revokeUser (st.registerUsers L D now rows)) :=
  List.foldlRecOn (motive := Slots Q) revoked _
    (registerUsers_rec L D (fun h now token kidHex => h.registerDevice hnew now token kidHex)
      (fun h _ slots activeTokens hne => h.setUserSlots hne slots activeTokens) h now rows)
    fun _ h token _ => revokeUser_rec (fun h keyId => (h.removeSession keyId).congr rfl rfl)
      (fun h keyId => h.eraseUserSlots keyId) (fun h _ => h.congr rfl rfl) h token

/-- **A data packet** keeps the slots. -/
theorem Slots.dispatch (h : Slots Q st) (e : Arrival) : Slots Q (st.dispatch C e).1 := by
  rw [State.dispatch]
  split
  · exact h
  · split
    · rename_i m hslow
      obtain ⟨-, keyId, -, hfind, -⟩ := slowMatch_eq_some hslow
      exact h.updateEndpoint _ ⟨keyId, hfind⟩
    · exact h

theorem Slots.data (h : Slots Q st) (e : Arrival) : Slots Q (st.data C e).1 := by
  have h' := h.dispatch (C := C) e
  rw [State.data]
  split
  · exact h
  · rcases hdispatch : st.dispatch C e with ⟨st', _ | m⟩
    · rwa [hdispatch] at h'
    · rw [hdispatch] at h'
      simp only
      split
      · exact h'
      · exact h'.store rfl

/-- **A packet from the TUN device** keeps the slots. -/
theorem Slots.tun (h : Slots Q st) (isolation : Bool) (buffer : List UInt8) (now : ℤ)
    (draws : Option Draws) : Slots Q (st.tun C isolation buffer now draws).1 := by
  rcases tun_eq C st isolation buffer now draws with htun | ⟨p, htun⟩
  · rwa [htun]
  · rw [htun]
    exact h.store rfl

/-- **One event** keeps a property of the slots that new devices have, and that slots keep
when a device is moved to them. -/
theorem Slots.advance {isolation : Bool} {st' : State} {ev : Event S} (h : Slots Q st)
    (hnew : ∀ keyId masterKey now, Q (newDevice L keyId masterKey now).slot)
    (hmoved : ∀ d calls, ev = .op (.handshake d calls) → ∀ keyId orig p st' ip,
      (st.admitted L d calls).2 = some (keyId, orig, p, st', ip) → p ≠ orig →
        Q ((st.sessions.heap p).slot.serve keyId (st.sessions.heap orig).slot))
    (hstep : advance L T D C isolation st ev = some st') : Slots Q st' := by
  cases ev with
  | op op =>
    cases op with
    | handshake d calls =>
      obtain ⟨-, hst⟩ := Option.ite_none_right_eq_some.mp hstep
      obtain rfl := Option.some.inj hst
      exact h.handshake d calls (hmoved d calls rfl)
    | fastResume d calls expand =>
      obtain ⟨-, hst⟩ := Option.ite_none_right_eq_some.mp hstep
      obtain rfl := Option.some.inj hst
      exact h.fastResume d calls expand
    | pfsResume d calls pfs =>
      obtain ⟨-, hst⟩ := Option.ite_none_right_eq_some.mp hstep
      obtain rfl := Option.some.inj hst
      exact h.pfsResume d calls pfs
    | cleanup now order =>
      obtain ⟨-, hst⟩ := Option.ite_none_right_eq_some.mp hstep
      obtain rfl := Option.some.inj hst
      exact h.cleanupMaps now order
    | sync now rows revoked =>
      obtain ⟨-, hst⟩ := Option.ite_none_right_eq_some.mp hstep
      obtain rfl := Option.some.inj hst
      exact h.sync hnew now rows revoked
  | data e =>
    obtain ⟨-, hst⟩ := Option.ite_none_right_eq_some.mp hstep
    obtain rfl := Option.some.inj hst
    exact h.data e
  | tun buffer now draws =>
    obtain ⟨-, hst⟩ := Option.ite_none_right_eq_some.mp hstep
    obtain rfl := Option.some.inj hst
    exact h.tun isolation buffer now draws

/-- A server that has no session. -/
theorem slots_init (Q : Slot → Prop) (pool : IpPool) (bootSecret : Vector UInt8 32) :
    Slots Q (init pool bootSecret) where
  keyed keyId p hp := by simp [init, SessionTable.empty, SessionTable.findByKeyId] at hp
  fresh p hp := by
    obtain ⟨keyId, hp⟩ := hp
    simp [init, SessionTable.empty, SessionTable.findByKeyId] at hp
  cached key p hp := by simp [init, SessionTable.empty, SessionTable.findByEndpoint] at hp
  zero := rfl
  each p hp := by
    obtain ⟨keyId, hp⟩ := hp
    simp [init, SessionTable.empty, SessionTable.findByKeyId] at hp

end

end Server

end Aegs
