import Aegs.Server.Slots
import Aegs.Wire.RoundTrip

/-!
# Whose packet it is

A packet that is masked and sealed for a session should be handed to that session, whether
the sender's endpoint is in the index or the sessions are scanned. The matching looks at the
header only, and the first session that recognises it is the one: so the header has to say
which session it is, in every state (`Aegs.Server.Dispatches`).

As long as every session serves its own key id and no other, it does: headers with the magic
are of one mask key, the key id is that of one session, and the order of the scan does not
matter. Auto-slot balancing ends that. The slot a device is moved to takes over the mask keys
and the key id of the slot that the device asked for, and from then on two sessions recognise
the same headers. The endpoint index tells them apart; for a sender that is not in it, the
order of the shards decides (`Aegs.Server.not_dispatches`).
-/

namespace Aegs

namespace Server

open Bytes Handshake Transition Wire

/-- The keys under which a slot looks at a header. -/
def Slot.maskKeys (x : Slot) : List (Vector UInt8 32) :=
  x.maskKey :: if x.hasAltMaskKey then [x.altMaskKey] else []

section

variable (C : DataCipher)

/-- **The packet is one for the session `p`**: it is masked with `maskKey`, which is a key of
the session, has a key id that the session serves, and opens under the session's
`recv_key`. The masking is correct: no session's mask key but the one it is masked with
makes a header with the magic of it. -/
structure State.Genuine (st : State) (p : ℕ) (maskKey : Vector UInt8 32) (e : Arrival) : Prop where
  /-- The session is in the table. -/
  present : st.sessions.Present p
  /-- Its handshake is done. -/
  done : (st.sessions.heap p).crypto.v3HandshakeDone = true
  /-- The mask key is one of the session's. -/
  key : maskKey ∈ (st.sessions.heap p).slot.maskKeys
  /-- The header is one for the session. -/
  accepts : (st.sessions.heap p).identity.accepts (unmaskedHeader C maskKey e.d.data) = true
  /-- The packet is long enough. -/
  length : 56 ≤ e.d.data.length
  /-- It is long enough for its junk. -/
  fits : fits (unmaskedHeader C maskKey e.d.data) e.d.data = true
  /-- It authenticates. -/
  opens : (openPacket C (st.sessions.heap p).crypto.sessionKeys.recvKey
    (unmaskedHeader C maskKey e.d.data) e.d.data).isSome = true
  /-- The masking is correct. -/
  masked : ∀ q, st.sessions.Present q → ∀ k ∈ (st.sessions.heap q).slot.maskKeys,
    hasMagic (unmaskedHeader C k e.d.data) = true → k = maskKey

/-- **The dispatch agrees with the keys**: a packet for a session is handed to that session,
with the header it was masked with, whatever the index has for the sender's endpoint. -/
def Dispatches (st : State) : Prop := ∀ p maskKey e, st.Genuine C p maskKey e →
  st.sessions.ScanOrder e.order → e.roaming = true →
    ∃ m, (st.dispatch C e).2 = some m ∧ m.session = p ∧
      m.hdr = unmaskedHeader C maskKey e.d.data

/-- The handshake, if it is one, installs its keys in the session it asked for. -/
def notMoved {S : Type} (L : Library S) (st : State) : Event S → Bool
  | .op (.handshake d calls) => (st.admitted L d calls).2.all fun r => r.2.2.1 = r.2.1
  | _ => true

variable {C} {st : State}

/-- A session recognises a packet under one of its keys. -/
theorem matchHeader_eq_some {s : Session} {pkt : List UInt8} {r : Bool × Vector UInt8 16}
    (h : s.matchHeader C pkt = some r) :
    ∃ k ∈ s.slot.maskKeys, r.2 = unmaskedHeader C k pkt ∧ s.identity.accepts r.2 = true := by
  simp only [Session.matchHeader] at h
  split at h
  · rename_i haccepts
    obtain rfl := Option.some.inj h
    exact ⟨_, List.mem_cons_self, rfl, haccepts⟩
  · split at h
    · rename_i halt
      split at h
      · rename_i haccepts
        obtain rfl := Option.some.inj h
        refine ⟨s.crypto.altMaskKey, List.mem_cons_of_mem _ ?_, rfl, haccepts⟩
        rw [show s.slot.hasAltMaskKey = true from halt, if_pos rfl]
        exact List.mem_cons_self
      · cases h
    · cases h

/-- A session recognises a packet that one of its keys makes a header for it of. -/
theorem matchHeader_ne_none {s : Session} {pkt : List UInt8} {k : Vector UInt8 32}
    (hk : k ∈ s.slot.maskKeys) (haccepts : s.identity.accepts (unmaskedHeader C k pkt) = true) :
    s.matchHeader C pkt ≠ none := by
  simp only [Session.matchHeader]
  rcases List.mem_cons.mp hk with rfl | hk
  · rw [if_pos
      (show s.identity.accepts (unmaskedHeader C s.crypto.maskKey pkt) = true from haccepts)]
    exact Option.some_ne_none _
  · rw [List.mem_ite_nil_right, List.mem_singleton] at hk
    obtain ⟨halt, rfl⟩ := hk
    rw [if_pos (show s.crypto.hasAltMaskKey = true from halt),
      if_pos (show s.identity.accepts (unmaskedHeader C s.crypto.altMaskKey pkt) = true
        from haccepts)]
    split <;> exact Option.some_ne_none _

/-- **A packet is recognised by one session** where every session serves its own key id
only. -/
theorem Slots.eq_of_matchHeader (h : Slots (fun x => x.baseKeyIdRaw = 0) st) {p q : ℕ}
    {maskKey : Vector UInt8 32} {e : Arrival} (hp : st.Genuine C p maskKey e)
    (hq : st.sessions.Present q) {r : Bool × Vector UInt8 16}
    (hmatch : (st.sessions.heap q).matchHeader C e.d.data = some r) :
    q = p ∧ r.2 = unmaskedHeader C maskKey e.d.data := by
  have hown : ∀ {p hdr}, st.sessions.Present p →
      (st.sessions.heap p).identity.accepts hdr = true →
        hasKeyId (st.sessions.heap p).identity.keyIdRaw hdr = true ∧ hasMagic hdr = true := by
    intro p hdr hp haccepts
    have hbase : (st.sessions.heap p).identity.baseKeyIdRaw = 0 := h.each p hp
    simpa [SessionIdentity.accepts, hbase] using haccepts
  obtain ⟨k, hk, hhdr, haccepts⟩ := matchHeader_eq_some hmatch
  obtain ⟨hkeyq, hmagic⟩ := hown hq haccepts
  rw [hhdr] at hkeyq hmagic
  obtain rfl := hp.masked q hq k hk hmagic
  have hkey := eq_of_hasKeyId hkeyq (hown hp.present hp.accepts).1
  obtain ⟨keyId, hfindq⟩ := hq
  obtain ⟨keyId', hfindp⟩ := hp.present
  have hsame : keyId = keyId' :=
    (h.keyed keyId q hfindq).symm.trans (hkey.trans (h.keyed keyId' p hfindp))
  exact ⟨Option.some.inj (hfindq.symm.trans (hsame ▸ hfindp)), hhdr⟩

/-- **The dispatch agrees with the keys** where every session serves its own key id only. -/
theorem Slots.dispatches (h : Slots (fun x => x.baseKeyIdRaw = 0) st) : Dispatches C st := by
  intro p maskKey e hp horder hroaming
  have hmatch := matchHeader_ne_none hp.key hp.accepts
  obtain ⟨keyId, hfind⟩ := hp.present
  have hsome : (st.dispatch C e).2 ≠ none := by
    have hslow : st.slowMatch C e ≠ none := fun hnone =>
      hmatch (slowMatch_eq_none_iff.mp hnone hroaming keyId
        (horder.1.mem_iff.mpr (AList.mem_keys.mpr (AList.lookup_isSome.mp
          (Option.isSome_of_eq_some hfind)))) p hfind)
    rw [State.dispatch]
    rcases st.fastMatch C e with _ | m
    · obtain ⟨m, hm⟩ := Option.ne_none_iff_exists'.mp hslow
      simp [hm]
    · exact Option.some_ne_none m
  obtain ⟨m, hm⟩ := Option.ne_none_iff_exists'.mp hsome
  obtain ⟨hask, hwhere⟩ := dispatch_eq_some hm
  obtain ⟨r, hr, hmr⟩ := Option.map_eq_some_iff.mp hask
  have hpresent : st.sessions.Present m.session := hwhere.elim (h.cached _ _) id
  obtain ⟨hsame, hhdr⟩ := h.eq_of_matchHeader hp hpresent hr
  exact ⟨m, hm, hsame, hmr ▸ hhdr⟩

end

section

variable {S : Type} (L : Library S) (T : TokenCipher) (D : KeyDerivation) (C : DataCipher)

/-- What the condition says about the handshakes that are moved: there are none. -/
theorem notMoved_handshake {st : State} {ev : Event S} (h : notMoved L st ev = true)
    {d : Datagram} {calls : HandshakeCalls S} (hev : ev = .op (.handshake d calls))
    {keyId : UInt64} {orig p : ℕ} {st' : State} {ip : UInt32}
    (hadm : (st.admitted L d calls).2 = some (keyId, orig, p, st', ip)) : p = orig := by
  rw [hev, notMoved, hadm] at h
  exact of_decide_eq_true h

/-- **The dispatch agrees with the keys** in every state of a run in which auto-slot
balancing moves no handshake. -/
theorem dispatches_of_meets (isolation : Bool) (pool : IpPool) (bootSecret : Vector UInt8 32)
    (evs : List (Event S)) (st : State)
    (hok : Meets (advance L T D C isolation) (fun st ev => notMoved L st ev = true)
      (init pool bootSecret) evs)
    (hrun : runs (advance L T D C isolation) (init pool bootSecret) evs = some st) :
    Dispatches C st :=
  (inv_of_meets (I := Slots fun x => x.baseKeyIdRaw = 0)
    (fun h hok hstep => h.advance (fun _ _ _ => rfl)
      (fun _ _ hev _ _ _ _ _ hadm hne => absurd (notMoved_handshake L hok hev hadm) hne) hstep)
    (slots_init _ pool bootSecret) hok hrun).dispatches

end

/-! ### A handshake that is moved -/

section

variable {C : DataCipher} {st : State}

/-- **The matching looks at the header only.** -/
theorem dispatch_congr {e e' : Arrival} (hcaddr : e.d.caddr = e'.d.caddr)
    (horder : e.order = e'.order) (hroaming : e.roaming = e'.roaming)
    (hhdr : ∀ k, unmaskedHeader C k e.d.data = unmaskedHeader C k e'.d.data) :
    (st.dispatch C e).2 = (st.dispatch C e').2 := by
  have hmatch : ∀ s : Session, s.matchHeader C e.d.data = s.matchHeader C e'.d.data := by
    intro s
    simp only [Session.matchHeader, hhdr]
  have hask : st.sessions.ask C e.d.data = st.sessions.ask C e'.d.data := by
    funext p
    rw [SessionTable.ask, SessionTable.ask, hmatch]
  have hfast : st.fastMatch C e = st.fastMatch C e' := by
    rw [State.fastMatch, State.fastMatch, hask, Arrival.epKey, Arrival.epKey, hcaddr]
  have hslow : st.slowMatch C e = st.slowMatch C e' := by
    rw [State.slowMatch, State.slowMatch, hask, horder, hroaming]
  rw [State.dispatch, State.dispatch, hfast, hslow]
  rcases st.fastMatch C e' with _ | m
  · rcases st.slowMatch C e' with _ | m <;> rfl
  · rfl

/-- The header of a packet is ahead of what is sealed. -/
theorem unmaskedHeader_append (k : Vector UInt8 32) {outer : List UInt8} (hlen : 28 ≤ outer.length)
    (rest : List UInt8) : unmaskedHeader C k (outer ++ rest) = unmaskedHeader C k outer := by
  rw [unmaskedHeader, unmaskedHeader, copyOut_append_left _ _ (by omega),
    copyOut_append_left _ _ (by omega)]

/-- A packet for a session, in a short frame. -/
def packetFor (C : DataCipher) (keyId : UInt64) (maskKey recvKey : Vector UInt8 32) : List UInt8 :=
  sealPacket C (outerHeader C keyId maskKey 0 (Vector.replicate 12 0) []) recvKey
    (aeadNonce 1 (Vector.replicate 4 0)) [0, 0]

theorem unmaskedHeader_packetFor (keyId : UInt64) (maskKey recvKey k : Vector UInt8 32) :
    unmaskedHeader C k (packetFor C keyId maskKey recvKey) =
      unmaskedHeader C k (outerHeader C keyId maskKey 0 (Vector.replicate 12 0) []) := by
  rw [packetFor, sealPacket, List.append_assoc]
  exact unmaskedHeader_append k (by rw [length_outerHeader]; exact Nat.le_refl 28) _

theorem unmaskedHeader_packetFor_self (keyId : UInt64) (maskKey recvKey : Vector UInt8 32) :
    unmaskedHeader C maskKey (packetFor C keyId maskKey recvKey) =
      plainHeader keyId ([] : List UInt8).length.toUInt16 0 := by
  rw [packetFor, sealPacket, List.append_assoc, unmaskedHeader_outerHeader]

theorem length_packetFor (hC : C.Correct) (keyId : UInt64) (maskKey recvKey : Vector UInt8 32) :
    (packetFor C keyId maskKey recvKey).length = 58 := by
  rw [packetFor, length_sealPacket hC, length_outerHeader]
  rfl

theorem openPacket_packetFor (hC : C.Correct) (keyId : UInt64) (maskKey recvKey : Vector UInt8 32) :
    openPacket C recvKey (plainHeader keyId ([] : List UInt8).length.toUInt16 0)
      (packetFor C keyId maskKey recvKey) = some [0, 0] :=
  openPacket_sealPacket hC (by decide)

/-- Its arrival, from nowhere in particular. -/
def arrivalOf (data : List UInt8) (order : List UInt64) : Arrival :=
  ⟨⟨data, ⟨0, 0⟩, 3, 0, 0⟩, order, true, fun _ => true⟩

/-- The packet is one for a session that serves the key id. -/
theorem genuine_packetFor (hC : C.Correct) {p : ℕ} {keyId : UInt64}
    (hpresent : st.sessions.Present p)
    (hdone : (st.sessions.heap p).crypto.v3HandshakeDone = true)
    (hserves : (st.sessions.heap p).identity.Serves keyId) {maskKey : Vector UInt8 32}
    (hkey : (st.sessions.heap p).crypto.maskKey = maskKey)
    (hmasked : ∀ q, st.sessions.Present q → ∀ k ∈ (st.sessions.heap q).slot.maskKeys,
      hasMagic (unmaskedHeader C k
        (outerHeader C keyId maskKey 0 (Vector.replicate 12 0) [])) = true → k = maskKey)
    (order : List UInt64) :
    st.Genuine C p maskKey (arrivalOf
      (packetFor C keyId maskKey (st.sessions.heap p).crypto.sessionKeys.recvKey) order) := by
  generalize hrecv : (st.sessions.heap p).crypto.sessionKeys.recvKey = recvKey
  have hheader := @unmaskedHeader_packetFor_self C keyId maskKey recvKey
  have hfits : fits (plainHeader keyId ([] : List UInt8).length.toUInt16 0)
      (packetFor C keyId maskKey recvKey) = true := fits_sealPacket hC (by decide)
  constructor
  case present => exact hpresent
  case done => exact hdone
  case key => exact hkey ▸ List.mem_cons_self
  case accepts =>
    rw [arrivalOf, hheader]
    exact SessionIdentity.accepts_plainHeader hserves _ 0
  case length =>
    rw [arrivalOf, length_packetFor hC]
    decide
  case fits =>
    rw [arrivalOf, hheader]
    exact hfits
  case opens =>
    rw [arrivalOf, hheader, hrecv, openPacket_packetFor hC]
    rfl
  case masked =>
    intro q hq k hk hmagic
    rw [arrivalOf, unmaskedHeader_packetFor] at hmagic
    exact hmasked q hq k hk hmagic

/-- **Two sessions that serve one key id under one mask key**: the dispatch does not agree
with the keys of both. -/
theorem not_dispatches_of_shared (hC : C.Correct) {p q : ℕ} (hne : p ≠ q) {keyId : UInt64}
    (hp : st.sessions.Present p) (hq : st.sessions.Present q)
    (hdonep : (st.sessions.heap p).crypto.v3HandshakeDone = true)
    (hdoneq : (st.sessions.heap q).crypto.v3HandshakeDone = true)
    (hservesp : (st.sessions.heap p).identity.Serves keyId)
    (hservesq : (st.sessions.heap q).identity.Serves keyId) {maskKey : Vector UInt8 32}
    (hkeyp : (st.sessions.heap p).crypto.maskKey = maskKey)
    (hkeyq : (st.sessions.heap q).crypto.maskKey = maskKey)
    (hmasked : ∀ r, st.sessions.Present r → ∀ k ∈ (st.sessions.heap r).slot.maskKeys,
      hasMagic (unmaskedHeader C k
        (outerHeader C keyId maskKey 0 (Vector.replicate 12 0) [])) = true → k = maskKey)
    {order : List UInt64} (horder : st.sessions.ScanOrder order) : ¬Dispatches C st := by
  intro h
  have hgp := genuine_packetFor hC hp hdonep hservesp hkeyp hmasked order
  have hgq := genuine_packetFor hC hq hdoneq hservesq hkeyq hmasked order
  generalize (st.sessions.heap p).crypto.sessionKeys.recvKey = recvKeyp at hgp
  generalize (st.sessions.heap q).crypto.sessionKeys.recvKey = recvKeyq at hgq
  obtain ⟨m, hm, hmp, -⟩ := h p maskKey _ hgp horder rfl
  obtain ⟨m', hm', hmq, -⟩ := h q maskKey _ hgq horder rfl
  have hsame : (st.dispatch C (arrivalOf (packetFor C keyId maskKey recvKeyp) order)).2 =
      (st.dispatch C (arrivalOf (packetFor C keyId maskKey recvKeyq) order)).2 := by
    refine dispatch_congr rfl rfl rfl fun k => ?_
    rw [arrivalOf, arrivalOf, unmaskedHeader_packetFor, unmaskedHeader_packetFor]
  rw [hm, hm', Option.some.injEq] at hsame
  exact hne (hmp.symm.trans ((congrArg Match.session hsame).trans hmq))

/-- A handshake that is admitted stores one session. -/
theorem sessions_handshake {S : Type} {L : Library S} (T : TokenCipher) {d : Datagram}
    {calls : HandshakeCalls S} {keyId : UInt64} {orig p : ℕ} {st' : State} {ip : UInt32}
    (hadm : (st.admitted L d calls).2 = some (keyId, orig, p, st', ip)) :
    ∃ keys, (st.handshake L T d calls).1.sessions = (st'.sessions.setSession p
      ((st'.sessions.heap p).install (st'.sessions.heap orig) keyId (p ≠ orig) keys ip
        d)).updateEndpoint (makeEndpointKey d.caddr) p := by
  rw [handshake_of_admitted L T hadm, State.install]
  exact ⟨_, rfl⟩

/-- The sessions after a handshake that is admitted. -/
theorem sessions_of_admitted {S : Type} {L : Library S} (T : TokenCipher) {d : Datagram}
    {calls : HandshakeCalls S} {keyId : UInt64} {orig p : ℕ} {st' : State} {ip : UInt32}
    (hadm : (st.admitted L d calls).2 = some (keyId, orig, p, st', ip)) :
    (st.handshake L T d calls).1.sessions.byKeyId = st.sessions.byKeyId ∧
      ∃ keys, (st.handshake L T d calls).1.sessions.heap = Function.update st.sessions.heap p
        ((st.sessions.heap p).install (st.sessions.heap orig) keyId (p ≠ orig) keys ip d) := by
  have hheap := heap_admitted L hadm
  obtain ⟨-, -, -, hsessions⟩ := admitted_eq_some L hadm
  obtain ⟨keys, heq⟩ := sessions_handshake T hadm
  rw [heq, ← hheap]
  refine ⟨?_, keys, rfl⟩
  rcases hsessions with hsessions | hsessions
  · rw [← hsessions]
    rfl
  · refine Eq.trans ?_ (SessionTable.byKeyId_mapIp st.sessions ip p)
    rw [← hsessions]
    rfl

/-- **A handshake that is moved** from a session in use leaves a server whose dispatch does
not agree with the keys, if the masking tells the mask keys apart. -/
theorem not_dispatches_of_moved (hC : C.Correct) {Q : Slot → Prop} (h : Slots Q st) {S : Type}
    {L : Library S} (T : TokenCipher) {d : Datagram} {calls : HandshakeCalls S} {keyId : UInt64}
    {orig p : ℕ} {st' : State} {ip : UInt32}
    (hadm : (st.admitted L d calls).2 = some (keyId, orig, p, st', ip)) (hne : p ≠ orig)
    (hdone : (st.sessions.heap orig).crypto.v3HandshakeDone = true)
    (hmasked : ∀ q, st.sessions.Present q → ∀ k ∈ (st.sessions.heap q).slot.maskKeys,
      hasMagic (unmaskedHeader C k (outerHeader C keyId (st.sessions.heap orig).crypto.maskKey 0
        (Vector.replicate 12 0) [])) = true → k = (st.sessions.heap orig).crypto.maskKey)
    {order : List UInt64} (horder : st.sessions.ScanOrder order) :
    ¬Dispatches C (st.handshake L T d calls).1 := by
  obtain ⟨horig, hchosen, -, -⟩ := admitted_eq_some L hadm
  obtain ⟨hkeys, keys, hheap⟩ := sessions_of_admitted T hadm
  have hmoved : decide (p ≠ orig) = true := decide_eq_true hne
  have hpresent : ∀ {q}, (st.handshake L T d calls).1.sessions.Present q ↔
      st.sessions.Present q := fun {q} => exists_congr fun k => by
    rw [SessionTable.findByKeyId, hkeys, SessionTable.findByKeyId]
  have hp : st.sessions.Present p := by
    obtain ⟨k, hk⟩ := chooseSlot_mem d.caddr d.now horig
    exact ⟨k, hchosen ▸ hk⟩
  have hself : (st.handshake L T d calls).1.sessions.heap p =
      (st.sessions.heap p).install (st.sessions.heap orig) keyId true keys ip d := by
    rw [hheap, Function.update_self, hmoved]
  have hother : ∀ q, q ≠ p →
      (st.handshake L T d calls).1.sessions.heap q = st.sessions.heap q := fun q hq => by
    rw [hheap, Function.update_of_ne hq]
  have hzero : keyId ≠ 0 := keyId_ne_zero_of_moved h.zero (hchosen ▸ hne)
  have hdonep : ((st.handshake L T d calls).1.sessions.heap p).crypto.v3HandshakeDone = true := by
    rw [hself]
    rfl
  have hservesp : ((st.handshake L T d calls).1.sessions.heap p).identity.Serves keyId := by
    rw [hself]
    exact Or.inr ⟨hzero, rfl⟩
  have hservesq : ((st.handshake L T d calls).1.sessions.heap orig).identity.Serves keyId := by
    rw [hother orig hne.symm]
    exact Or.inl (h.keyed keyId orig horig)
  have hkeyp : ((st.handshake L T d calls).1.sessions.heap p).crypto.maskKey =
      (st.sessions.heap orig).crypto.maskKey := by
    rw [hself]
    rfl
  refine not_dispatches_of_shared hC hne (hpresent.mpr hp) (hpresent.mpr ⟨keyId, horig⟩) hdonep
    (by rwa [hother orig hne.symm]) hservesp hservesq hkeyp (by rw [hother orig hne.symm])
    (fun r hr k hk => ?_)
    (by rwa [SessionTable.ScanOrder, hkeys])
  -- the slot has taken over the mask keys
  rcases eq_or_ne r p with rfl | hrp
  · rw [hself] at hk
    exact hmasked orig ⟨keyId, horig⟩ k hk
  · rw [hother r hrp] at hk
    exact hmasked r (hpresent.mp hr) k hk

end

/-! ### Two devices of a user -/

/-- Key ids and master keys from the last letter of the token. -/
def letterDerivation : KeyDerivation where
  computeKeyId token := le64 (token.toList.getLastD '0').toNat.toUInt64
  scanKeyId _ := 5
  deriveMasterKey token _ := some (Vector.replicate 32 (token.toList.getLastD '0').toNat.toUInt8)

/-- A user with five slots; the key id of the first is 5. -/
def phoneRows : List (String × String) := [("phone", "0500000000000000")]

/-- The request of a device of the user, with the low byte of its timestamp and its MAC. -/
def phoneInit (low mac : UInt8) : List UInt8 :=
  [1, 0, 0, 0, 0, 0, 0, 0, 5, 0, 0, 0, 0, 0, 0, 0] ++ List.replicate 32 3 ++
    [0, 0, 0, 0, 0, 0, 3, low] ++ List.replicate 16 mac

/-- The datagram of a device, from this address. -/
def phoneDatagram (addr : UInt32) (low mac : UInt8) (now : ℤ) : Datagram :=
  ⟨phoneInit low mac, ⟨addr, 5000⟩, 3, 0, now⟩

/-- The calls of its handshake. -/
def phoneCalls (key : UInt8) (ms : UInt64) : HandshakeCalls UInt8 :=
  ⟨ms, some 0, ⟨some ⟨key, 1⟩, true, some 77, true, true⟩, emptyKeys, ms,
    ⟨true, some (Vector.replicate 32 8), true⟩⟩

/-- The first device of the user connects. -/
def firstPhone : Event UInt8 := .op (.handshake (phoneDatagram 1 232 241 2000) (phoneCalls 4 1000))

/-- The request of the second device. -/
def secondRequest : Datagram := phoneDatagram 2 233 242 3000

/-- The second device of the user connects. -/
def secondPhone : Event UInt8 := .op (.handshake secondRequest (phoneCalls 6 1001))

/-- The user is registered, and the first device connects. -/
def phoneRun : List (Event UInt8) := [.op (.sync 1000 phoneRows []), firstPhone]

/-- The second device of the user is moved to the second slot, the first is connected, the
masking tells the mask keys apart, and this is an order of the scan. -/
def movesSecond (st : State) : Bool :=
  ((st.admitted smallLibrary secondRequest (phoneCalls 6 1001)).2.map fun r =>
      (r.1, r.2.1, r.2.2.1)) = some (5, 0, 1) &&
    (st.sessions.heap 0).crypto.v3HandshakeDone &&
    (st.sessions.byKeyId.entries.all fun entry =>
      (st.sessions.heap entry.2).slot.maskKeys.all fun k =>
        !hasMagic (unmaskedHeader smallDataCipher k (outerHeader smallDataCipher 5
          (st.sessions.heap 0).crypto.maskKey 0 (Vector.replicate 12 0) [])) ||
            k = (st.sessions.heap 0).crypto.maskKey) &&
    decide (st.sessions.ScanOrder [5, 49, 52, 50, 51])

/-- **Two devices of a user**: once the second is moved to another slot, the dispatch does not
agree with the keys. -/
theorem not_dispatches :
    ¬∀ (isolation : Bool) (pool : IpPool) (bootSecret : Vector UInt8 32)
      (evs : List (Event UInt8)) (st : State),
      runs (advance smallLibrary smallCipher letterDerivation smallDataCipher isolation)
        (init pool bootSecret) evs = some st → Dispatches smallDataCipher st := by
  intro h
  obtain ⟨st, hst, hmoves⟩ := Option.map_eq_some_iff.mp
    (show (runs (advance smallLibrary smallCipher letterDerivation smallDataCipher true)
      smallStart phoneRun).map movesSecond = some true by decide +kernel)
  simp only [movesSecond, Bool.and_eq_true, decide_eq_true_eq, List.all_eq_true] at hmoves
  obtain ⟨⟨⟨hadmitted, hdone⟩, hmasked⟩, horder⟩ := hmoves
  obtain ⟨⟨keyId, orig, p, st', ip⟩, hadm, heq⟩ := Option.map_eq_some_iff.mp hadmitted
  simp only [Prod.mk.injEq] at heq
  obtain ⟨rfl, rfl, rfl⟩ := heq
  have hslots : Slots (fun _ => True) st := inv_of_runs (I := Slots fun _ => True)
    (fun h hstep => h.advance (fun _ _ _ => trivial)
      (fun _ _ _ _ _ _ _ _ _ _ => trivial) hstep) (slots_init _ smallPool _) hst
  refine not_dispatches_of_moved smallDataCipher_correct hslots smallCipher hadm (by decide) hdone
    (fun q hq k hk hmagic => ?_) horder ?_
  · obtain ⟨keyId, hkey⟩ := hq
    have hentry := hmasked _ (AList.mem_lookup_iff.mp hkey) k hk
    rw [hmagic] at hentry
    simpa using hentry
  · refine h true smallPool (Vector.replicate 32 1) (phoneRun ++ [secondPhone]) _
      (runs_snoc.mpr ⟨st, hst, ?_⟩)
    have hopcode : secondRequest.data.head? = some 0x01 ∧ secondRequest.data.length = 72 := by
      decide
    rw [secondPhone, advance, step, if_pos hopcode]

/-- The session of the user is in use. -/
def inUse (st : State) : Bool := (st.sessions.heap 0).crypto.v3HandshakeDone

/-- With one device it does. -/
theorem dispatches_phoneRun :
    ∃ st, runs (advance smallLibrary smallCipher letterDerivation smallDataCipher true) smallStart
      phoneRun = some st ∧ inUse st = true ∧ Dispatches smallDataCipher st := by
  obtain ⟨st, hst, hdone⟩ := Option.map_eq_some_iff.mp
    (show (runs (advance smallLibrary smallCipher letterDerivation smallDataCipher true)
      smallStart phoneRun).map inUse = some true by decide +kernel)
  exact ⟨st, hst, hdone, dispatches_of_meets smallLibrary smallCipher letterDerivation
    smallDataCipher true smallPool (Vector.replicate 32 1) phoneRun st
    (show Meets _ _ smallStart phoneRun by decide +kernel) hst⟩

end Server

end Aegs
