import Aegs.Server.Balancing
import Aegs.Server.Isolation
import Aegs.Server.PartialScan

/-!
# What a client can read

A packet from the TUN device is written for a session: with the key id of the slot, under the
mask key that the session uses, and sealed with its send key. The client that reads it knows the
key id and the mask key of its token, and the keys of its handshake. This file asks whether they
are the same in every state reached (`Aegs.Server.Served`), for the client whose handshake
installed the keys; which one that was is history (`Aegs.Server.ServedState`).

The keys come from one secret. The key id and the mask key do not: a device that auto-slot
balancing moves to another slot is answered with the key id of that slot, which is none it knows
(`Aegs.Server.clientDecode_of_moved`), and a slot that has been lent keeps the mask keys of the
one it was lent to. Without either, the packets are the client's
(`Aegs.Server.served_of_meets`). That they stay so rests on what one event can store in a
session (`Aegs.Server.Stored`), and on the two tables of a user having one master key
(`Aegs.Server.Tracks`).
-/

namespace Aegs

namespace Server

open Bytes Handshake Transition Wire

/-! ### What an event stores in a session -/

/-- The data packet, if it is one, does not authenticate under the alternate mask key. -/
def notAlternate {S : Type} (C : DataCipher) (st : State) : Event S → Bool
  | .data e => (st.dispatch C e).2.all fun m =>
    !m.usedAltMask || ((st.dispatch C e).1.decrypt C m e).isNone
  | _ => true

section

variable {S : Type} (L : Library S) (C : DataCipher)

/-- **What an event leaves in a session** of the table that was there before: itself, or what a
handshake, a resume, the collector, a data packet or a packet from the TUN device makes of it. -/
inductive Stored (st : State) (ev : Event S) (p : ℕ) : Session → Prop
  /-- It is not touched. -/
  | same : Stored st ev p (st.sessions.heap p)
  /-- A handshake installs its keys. -/
  | install {d : Datagram} {calls : HandshakeCalls S} {keyId : UInt64} {orig : ℕ} {st' : State}
      {ip : UInt32} (hev : ev = .op (.handshake d calls))
      (hadm : (st.admitted L d calls).2 = some (keyId, orig, p, st', ip)) (keys : SessionKeys) :
      Stored st ev p
        ((st.sessions.heap p).install (st.sessions.heap orig) keyId (p ≠ orig) keys ip d)
  /-- It is resumed. -/
  | resume (hp : st.sessions.Present p) (sessionId : UInt64) (recvKey sendKey : Vector UInt8 32)
      (ip : UInt32) (d : Datagram) :
      Stored st ev p ((st.sessions.heap p).resume sessionId recvKey sendKey ip d)
  /-- It was found idle. -/
  | idle : Stored st ev p (st.sessions.heap p).idle
  /-- A data packet authenticates. -/
  | authenticate {e : Arrival} {m : Match} (hev : ev = .data e)
      (hm : (st.dispatch C e).2 = some m) (hp : m.session = p)
      (hopens : ((st.dispatch C e).1.decrypt C m e).isSome = true) (seq : UInt64) :
      Stored st ev p ((st.sessions.heap p).authenticate seq m.usedAltMask e.d)
  /-- A packet from the TUN device takes a number. -/
  | number (now : ℤ) (seq : UInt64) :
      Stored st ev p { st.sessions.heap p with lastActivity := now, txSeq := seq }

/-- **An event that is no synchronisation** leaves the users and the table as they are. -/
structure Moves (st : State) (ev : Event S) (st' : State) : Prop where
  /-- No user and no session comes or goes. -/
  users : SameUsers st st'
  /-- No session is made. -/
  next : st'.sessions.next = st.sessions.next
  /-- The sessions. -/
  stored : ∀ p, Stored L C st ev p (st'.sessions.heap p)

variable {L C} {st st' : State} {ev : Event S} {p : ℕ} {s : Session}

/-- Tables with the same sessions. -/
theorem Moves.of_eq (husers : SameUsers st st') (hnext : st'.sessions.next = st.sessions.next)
    (hheap : st'.sessions.heap = st.sessions.heap) : Moves L C st ev st' :=
  ⟨husers, hnext, fun p => by rw [hheap]; exact .same⟩

/-- One session is stored. -/
theorem Moves.of_update (husers : SameUsers st st') (hnext : st'.sessions.next = st.sessions.next)
    (hheap : st'.sessions.heap = Function.update st.sessions.heap p s)
    (hs : Stored L C st ev p s) : Moves L C st ev st' := by
  refine ⟨husers, hnext, fun q => ?_⟩
  rw [hheap]
  rcases eq_or_ne q p with rfl | hne
  · rwa [Function.update_self]
  · rw [Function.update_of_ne hne]
    exact .same

/-- The master key of a session is never replaced. -/
theorem Stored.masterKey (h : Stored L C st ev p s) :
    s.crypto.masterKey = (st.sessions.heap p).crypto.masterKey := by
  cases h with
  | same => rfl
  | install hev hadm keys =>
    simp only [Session.install, SessionCrypto.install]
    split <;> rfl
  | resume => rfl
  | idle => rfl
  | authenticate => rfl
  | number => rfl

/-- A session uses its alternate mask key once a packet has authenticated under it. -/
theorem Stored.usesAltMask (h : Stored L C st ev p s) (hok : notAlternate C st ev = true)
    (hbefore : (st.sessions.heap p).routing.usesAltMask = false) :
    s.routing.usesAltMask = false := by
  cases h with
  | same => exact hbefore
  | install => rfl
  | resume => rfl
  | idle => rfl
  | @authenticate e m hev hm hp hopens seq =>
    have halt : m.usedAltMask = false := by
      rw [hev, notAlternate, hm, Option.all_some, Option.isNone_eq_false_iff.mpr hopens,
        Bool.or_false, Bool.not_eq_true'] at hok
      exact hok
    simp only [Session.authenticate, SessionRouting.roam, halt]
    split
    · rfl
    · exact hbefore
  | number => exact hbefore

/-- The handshake of a session is done only while it is in the table. -/
theorem Stored.not_done (h : Stored L C st ev p s) (hp : ¬st.sessions.Present p)
    (hbefore : (st.sessions.heap p).crypto.v3HandshakeDone = false) :
    s.crypto.v3HandshakeDone = false := by
  cases h with
  | same => exact hbefore
  | install hev hadm keys =>
    obtain ⟨horig, rfl, -, -⟩ := admitted_eq_some L hadm
    exact absurd (chooseSlot_mem _ _ horig) hp
  | resume hpresent => exact absurd hpresent hp
  | idle => rfl
  | authenticate => exact hbefore
  | number => exact hbefore

end

/-! ### The events -/

section

variable {S : Type} {L : Library S} {T : TokenCipher} {D : KeyDerivation} {C : DataCipher}
  {st : State} {ev : Event S}

/-- **A handshake** stores the session it chooses. -/
theorem moves_handshake (d : Datagram) (calls : HandshakeCalls S) :
    Moves L C st (.op (.handshake d calls)) (st.handshake L T d calls).1 := by
  have husers := @sameUsers_handshake S L T st d calls
  rcases hadm : (st.admitted L d calls).2 with _ | ⟨keyId, orig, p, st', ip⟩
  · have hsessions := (handshake_of_not_admitted L T hadm).1
    exact .of_eq husers (by rw [hsessions]) (by rw [hsessions])
  · obtain ⟨keys, hsessions⟩ := sessions_handshake T hadm
    have hheap := heap_admitted L hadm
    refine .of_update husers ?_ ?_ (.install rfl hadm keys)
    · obtain ⟨-, -, -, hsame | hsame⟩ := admitted_eq_some L hadm
      · rw [hsessions, hsame]
        rfl
      · rw [hsessions, hsame]
        exact SessionTable.next_mapIp st.sessions ip p
    · rw [hsessions, ← hheap]
      rfl

/-- **A resume** stores its session, once the token is verified. -/
theorem moves_resume {st' : State} (husers : SameUsers st st')
    (hsessions : st'.sessions = st.sessions) {p : ℕ} (hp : st.sessions.Present p)
    (sessionId : UInt64) (ip : UInt32) (recvKey sendKey : Vector UInt8 32) (d : Datagram)
    (calls : ResumeCalls) :
    Moves L C st ev (st'.resume L T p sessionId ip recvKey sendKey d calls).1 := by
  refine .of_update (husers.trans (sameUsers_resume st' p sessionId ip recvKey sendKey d calls))
    ?_ ?_ (.resume hp sessionId recvKey sendKey (st.sessions.resumedIp p ip) d)
  · rw [← hsessions]
    exact SessionTable.next_mapIp _ _ _
  · rw [← hsessions]
    exact SessionTable.heap_mapIp _ _ _

theorem moves_fastResume (d : Datagram) (calls : ResumeCalls) (expand : ExpandCalls) :
    Moves L C st ev (st.fastResume L T d calls expand).1 := by
  have husers := @sameUsers_verifyToken S L T st (.read d.data 1) calls
  obtain ⟨-, hsessions, hfind⟩ := verifyToken_eq L T st (.read d.data 1) calls
  rw [State.fastResume]
  rcases hverify : st.verifyToken L T (.read d.data 1) calls with ⟨st', _ | ⟨p, sessionId, ip⟩⟩
  · rw [hverify] at husers hsessions
    exact .of_eq husers (by rw [hsessions]) (by rw [hsessions])
  · rw [hverify] at husers hsessions hfind
    exact moves_resume (T := T) husers hsessions ⟨_, hfind p sessionId ip rfl⟩ sessionId ip _ _ d
      calls

theorem moves_pfsResume (d : Datagram) (calls : ResumeCalls) (pfs : PfsCalls S) :
    Moves L C st ev (st.pfsResume L T d calls pfs).1 := by
  have husers := @sameUsers_verifyToken S L T st (.read d.data 1) calls
  obtain ⟨-, hsessions, hfind⟩ := verifyToken_eq L T st (.read d.data 1) calls
  rw [State.pfsResume]
  rcases hverify : st.verifyToken L T (.read d.data 1) calls with ⟨st', _ | ⟨p, sessionId, ip⟩⟩
  · rw [hverify] at husers hsessions
    exact .of_eq husers (by rw [hsessions]) (by rw [hsessions])
  · rw [hverify] at husers hsessions hfind
    simp only
    split
    · exact .of_eq husers (by rw [hsessions]) (by rw [hsessions])
    · exact moves_resume (T := T) husers hsessions ⟨_, hfind p sessionId ip rfl⟩ sessionId ip _ _ d
        calls

/-- What the collector has left of the sessions so far. -/
structure Idles (st st' : State) : Prop where
  /-- No user and no session comes or goes. -/
  users : SameUsers st st'
  /-- No session is made. -/
  next : st'.sessions.next = st.sessions.next
  /-- A session is the same, or idle. -/
  heap : ∀ p, st'.sessions.heap p = st.sessions.heap p ∨
    st'.sessions.heap p = (st.sessions.heap p).idle

theorem Idles.cleanupSession {st' : State} (h : Idles st st') (now : ℤ) (p : ℕ) :
    Idles st (st'.cleanupSession now p) := by
  have husers := h.users.trans (sameUsers_cleanupSession st' now p)
  rw [State.cleanupSession] at husers ⊢
  simp only at husers ⊢
  split
  · rename_i hidle
    rw [if_pos hidle] at husers
    -- a session that is idle has no client, so it is not found again
    have hfirst : st'.sessions.heap p = st.sessions.heap p := by
      rcases h.heap p with hsame | hagain
      · exact hsame
      · rw [hagain] at hidle
        exact absurd hidle.1 Bool.false_ne_true
    have hheap : ∀ q, (st'.sessions.setSession p (st'.sessions.heap p).idle).heap q =
        st.sessions.heap q ∨ (st'.sessions.setSession p (st'.sessions.heap p).idle).heap q =
          (st.sessions.heap q).idle := by
      intro q
      rcases eq_or_ne q p with rfl | hne
      · right
        rw [SessionTable.setSession, hfirst]
        exact Function.update_self ..
      · have hother : (st'.sessions.setSession p (st'.sessions.heap p).idle).heap q =
            st'.sessions.heap q := Function.update_of_ne hne ..
        rw [hother]
        exact h.heap q
    split
    · rename_i hip
      rw [if_pos hip] at husers
      exact ⟨husers, (SessionTable.next_unmapIp _ _).trans h.next, fun q => by
        rw [SessionTable.heap_unmapIp]
        exact hheap q⟩
    · rename_i hip
      rw [if_neg hip] at husers
      exact ⟨husers, h.next, hheap⟩
  · exact h

/-- **The collector** leaves sessions idle. -/
theorem moves_cleanupMaps (now : ℤ) (order : List ℕ) :
    Moves L C st ev (st.cleanupMaps now order) := by
  have hidles : Idles st (st.cleanupMaps now order) := by
    rw [State.cleanupMaps]
    split
    · exact ⟨.refl st, rfl, fun _ => .inl rfl⟩
    · exact List.foldlRecOn (motive := Idles st) order _
        ⟨⟨rfl, rfl, rfl, rfl⟩, rfl, fun _ => .inl rfl⟩ fun st' h p _ => h.cleanupSession now p
  refine ⟨hidles.users, hidles.next, fun p => ?_⟩
  rcases hidles.heap p with hsame | hidle
  · rw [hsame]
    exact .same
  · rw [hidle]
    exact .idle

/-- The matching enters an endpoint. -/
theorem users_dispatch (e : Arrival) : SameUsers st (st.dispatch C e).1 ∧
    (st.dispatch C e).1.sessions.next = st.sessions.next := by
  rw [State.dispatch]
  split
  · exact ⟨.refl st, rfl⟩
  · split
    · exact ⟨⟨rfl, rfl, rfl, rfl⟩, rfl⟩
    · exact ⟨.refl st, rfl⟩

/-- **A data packet** stores the session it authenticates for. -/
theorem moves_data (e : Arrival) : Moves L C st (.data e) (st.data C e).1 := by
  obtain ⟨husers, hnext⟩ := @users_dispatch C st e
  have hheap : (st.dispatch C e).1.sessions.heap = st.sessions.heap := heap_dispatch
  rw [State.data]
  split
  · exact .of_eq (.refl st) rfl rfl
  · rcases hdispatch : st.dispatch C e with ⟨st', _ | m⟩
    · rw [hdispatch] at husers hnext hheap
      exact .of_eq husers hnext hheap
    · rw [hdispatch] at husers hnext hheap
      simp only
      split
      · exact .of_eq husers hnext hheap
      · rename_i frame hframe
        refine .of_update (husers.trans ⟨rfl, rfl, rfl, rfl⟩) hnext
          (congrArg (Function.update · m.session _) hheap) ?_
        simp only at hheap ⊢
        rw [hheap]
        refine .authenticate rfl (m := m) (by rw [hdispatch]) rfl ?_ _
        rw [hdispatch]
        exact Option.isSome_of_eq_some hframe

/-- **A packet from the TUN device** stores the session it takes a number of. -/
theorem moves_tun (isolation : Bool) (buffer : List UInt8) (now : ℤ) (draws : Option Draws) :
    Moves L C st ev (st.tun C isolation buffer now draws).1 := by
  rcases tun_eq C st isolation buffer now draws with htun | ⟨p, htun⟩
  · rw [htun]
    exact .of_eq (.refl st) rfl rfl
  · rw [htun]
    exact .of_update ⟨rfl, rfl, rfl, rfl⟩ rfl rfl (.number now _)

end

/-! ### The client of a handshake -/

/-- A handshake that has installed keys in a session. -/
structure Installed where
  /-- The request. -/
  request : List UInt8
  /-- The response. -/
  response : List UInt8
  /-- The master key of the token that the request is for. -/
  masterKey : List UInt8
  /-- The keys. -/
  keys : SessionKeys

/-- The server, with the handshakes it has installed. -/
structure ServedState where
  /-- The server. -/
  server : State
  /-- History: the last handshake installed in a session. -/
  installed : ℕ → Option Installed

section

variable {S : Type} (L : Library S) (T : TokenCipher) (D : KeyDerivation) (C : DataCipher)

/-- The session that an event installs a handshake in, with that handshake. -/
def State.installs (st : State) : Event S → Option (ℕ × Installed)
  | .op (.handshake d calls) => (st.admitted L d calls).2.map fun (keyId, _, p, st', ip) =>
    let r := st'.hs.buildResp L keyId ip 1280 calls.resp calls.keys
    (p, ⟨d.data, r.2.1, (st.hs.masterKeys.lookup keyId).getD [], r.2.2⟩)
  | _ => none

/-- The history after an event. -/
def ServedState.after (st : ServedState) (ev : Event S) : ℕ → Option Installed :=
  match st.server.installs L ev with
  | none => st.installed
  | some (p, i) => Function.update st.installed p (some i)

/-- **One event**, with the history. -/
def serve (isolation : Bool) (st : ServedState) (ev : Event S) : Option ServedState :=
  (advance L T D C isolation st.server ev).map fun server => ⟨server, st.after L ev⟩

/-- **The client of a handshake** has made the request with the master key of its token, and has
accepted the response. It decodes with the key id and the mask key of the token, and with the key
it has from the response. -/
def Installed.Client (i : Installed) (k : ClientKeys) : Prop :=
  ∃ (hc : HandshakeClient S) (calls calls' : Calls) (sent : UInt64) (out keys : SessionKeys),
    hc.masterKey.toList = i.masterKey ∧ hc.buildInit L calls sent = i.request ∧
      hc.processResp L calls' i.response out = (true, keys) ∧
        k = ⟨ofLe64 hc.keyId, hkdfExpand L hc.masterKey "aegis-v2-header-mask", keys.recvKey⟩

/-- **Every packet from the TUN device is read**, by the client whose handshake has installed the
keys that the session has. -/
def Served (st : ServedState) : Prop :=
  ∀ (isolation : Bool) (buffer : List UInt8) (now : ℤ) (draws : Option Draws) (sent : Sent),
    buffer.length ≤ bufferSize →
    (st.server.tun C isolation buffer now draws).2 = some sent →
    ∀ i, st.installed sent.session = some i →
      (st.server.sessions.heap sent.session).crypto.sessionKeys = i.keys →
        ∀ k, i.Client L k → clientDecode C k sent.wire = some buffer

/-- The slot has the mask key of its own token. -/
def Slot.Own (x : Slot) : Prop := x.maskKey = hkdfExpand L x.masterKey "aegis-v2-header-mask"

/-- **The invariant**: the sessions and the users go together, every slot has its own mask key and
uses it, and the handshake that a session has its keys from was for the key id of the session. -/
structure Tracks (st : ServedState) : Prop where
  /-- Every slot has its own mask key. -/
  slots : Slots (Slot.Own L) st.server
  /-- A user's master key is that of the session. -/
  known : ∀ keyId p, st.server.sessions.findByKeyId keyId = some p →
    st.server.hs.masterKeys.lookup keyId = some (st.server.sessions.heap p).crypto.masterKey.toList
  /-- No session uses its alternate mask key. -/
  mask : ∀ p, (st.server.sessions.heap p).routing.usesAltMask = false
  /-- The handshake of a session is done only while it is in the table. -/
  absent : ∀ p, ¬st.server.sessions.Present p →
    (st.server.sessions.heap p).crypto.v3HandshakeDone = false
  /-- Handshakes are installed in sessions that have been made. -/
  made : ∀ p i, st.installed p = some i → p < st.server.sessions.next
  /-- The handshake of a session was for its key id and its token. -/
  asked : ∀ p i, st.installed p = some i → ∀ keyId,
    st.server.sessions.findByKeyId keyId = some p →
      (initPair i.request).keyId = keyId ∧
        st.server.hs.masterKeys.lookup keyId = some i.masterKey
  /-- The client of a handshake has its keys, and asked for its own key id. -/
  agreed : ∀ p i, st.installed p = some i → ∀ k, i.Client L k →
    k.keyId = (initPair i.request).keyId ∧ k.recvKey = i.keys.sendKey

end

section

variable {S : Type} {L : Library S} {T : TokenCipher} {D : KeyDerivation} {C : DataCipher}

/-- **What the client reads**: a packet for a session with its own mask key is the payload to a
client that has the key id, the mask key of the token and the key. -/
theorem Tracks.served {st : ServedState} (h : Tracks L st) (hC : C.Correct) : Served L C st := by
  intro isolation buffer now draws sent hlen hsent i hinstalled hkeys k hk
  obtain ⟨hmin, -, -, hdone, d, hwire⟩ := tun_eq_some hsent
  have hpresent : st.server.sessions.Present sent.session := by
    by_contra hnot
    exact absurd ((h.absent _ hnot).symm.trans hdone) Bool.false_ne_true
  obtain ⟨keyId, hfind⟩ := hpresent
  obtain ⟨hasked, hmaster⟩ := h.asked _ i hinstalled keyId hfind
  obtain ⟨hkeyId, hrecv⟩ := h.agreed _ i hinstalled k hk
  have hown : (st.server.sessions.heap sent.session).crypto.maskKey =
      hkdfExpand L (st.server.sessions.heap sent.session).crypto.masterKey
        "aegis-v2-header-mask" := h.slots.each _ ⟨keyId, hfind⟩
  have hraw : (st.server.sessions.heap sent.session).identity.keyIdRaw = keyId :=
    h.slots.keyed keyId _ hfind
  have hsame : i.masterKey =
      (st.server.sessions.heap sent.session).crypto.masterKey.toList :=
    Option.some.inj (hmaster.symm.trans (h.known keyId _ hfind))
  have hmaskKey : (st.server.sessions.heap sent.session).txMaskKey = k.maskKey := by
    obtain ⟨hc, -, -, -, -, -, htoken, -, -, rfl⟩ := hk
    rw [Session.txMaskKey, h.mask, Bool.false_and, if_neg Bool.false_ne_true, hown,
      Vector.toList_inj.mp (htoken.trans hsame)]
  have hshort : buffer.length < 65536 := by
    rw [bufferSize] at hlen
    omega
  have hread : ∀ seq padLen, clientDecode C k
      (encodePacket C k.keyId k.maskKey k.recvKey seq buffer padLen d) = some buffer :=
    fun seq padLen => clientDecode_encodePacket C hC k seq (by omega) hshort padLen d
  rw [hwire, Session.encode, hmaskKey, hraw, ← hasked, ← hkeyId, hkeys, ← hrecv]
  exact hread _ _

/-! ### Every state tracks -/

/-- **An event that is no synchronisation** keeps what holds of the sessions. -/
theorem Tracks.moves {st : ServedState} {ev : Event S} {server : State} (h : Tracks L st)
    (hmoves : Moves L C st.server ev server) (hok : notAlternate C st.server ev = true)
    (hslots : Slots (Slot.Own L) server) : Tracks L ⟨server, st.installed⟩ := by
  have hfind : ∀ keyId,
      server.sessions.findByKeyId keyId = st.server.sessions.findByKeyId keyId := fun keyId => by
    rw [SessionTable.findByKeyId, hmoves.users.byKeyId, SessionTable.findByKeyId]
  refine ⟨hslots, fun keyId p hp => ?_, fun p => ?_, fun p hp => ?_, fun p i hi => ?_,
    fun p i hi keyId hp => ?_, h.agreed⟩
  · simp only at hp ⊢
    rw [hmoves.users.masterKeys, (hmoves.stored p).masterKey]
    exact h.known keyId p (hfind keyId ▸ hp)
  · exact (hmoves.stored p).usesAltMask hok (h.mask p)
  · have hnot : ¬st.server.sessions.Present p := by
      rintro ⟨keyId, hkey⟩
      exact hp ⟨keyId, (hfind keyId).trans hkey⟩
    exact (hmoves.stored p).not_done hnot (h.absent p hnot)
  · simp only
    rw [hmoves.next]
    exact h.made p i hi
  · simp only at hp ⊢
    rw [hmoves.users.masterKeys]
    exact h.asked p i hi keyId (hfind keyId ▸ hp)

/-- A handshake is noted. -/
theorem Tracks.note {st : ServedState} (h : Tracks L st) {p : ℕ} {i : Installed}
    (hmade : p < st.server.sessions.next)
    (hasked : ∀ keyId, st.server.sessions.findByKeyId keyId = some p →
      (initPair i.request).keyId = keyId ∧
        st.server.hs.masterKeys.lookup keyId = some i.masterKey)
    (hagreed : ∀ k, i.Client L k →
      k.keyId = (initPair i.request).keyId ∧ k.recvKey = i.keys.sendKey) :
    Tracks L ⟨st.server, Function.update st.installed p (some i)⟩ := by
  have hcases : ∀ q j, Function.update st.installed p (some i) q = some j →
      (q = p ∧ j = i) ∨ st.installed q = some j := by
    intro q j hj
    rcases eq_or_ne q p with rfl | hne
    · rw [Function.update_self] at hj
      exact Or.inl ⟨rfl, (Option.some.inj hj).symm⟩
    · rw [Function.update_of_ne hne] at hj
      exact Or.inr hj
  refine ⟨h.slots, h.known, h.mask, h.absent, fun q j hj => ?_, fun q j hj => ?_,
    fun q j hj => ?_⟩
  · rcases hcases q j hj with ⟨rfl, -⟩ | hj
    · exact hmade
    · exact h.made q j hj
  · rcases hcases q j hj with ⟨rfl, rfl⟩ | hj
    · exact hasked
    · exact h.asked q j hj
  · rcases hcases q j hj with ⟨-, rfl⟩ | hj
    · exact hagreed
    · exact h.agreed q j hj

/-- A request that has its address was accepted for its key id. -/
theorem processInit_of_admitted {st st' : State} {d : Datagram} {calls : HandshakeCalls S}
    {keyId : UInt64} {orig p : ℕ} {ip : UInt32}
    (h : (st.admitted L d calls).2 = some (keyId, orig, p, st', ip)) :
    st.hs.processInit L d.data calls.initMs calls.addr = (st'.hs, some keyId) := by
  rw [State.admitted] at h
  split at h
  · cases h
  · rename_i hs keyId' hinit
    simp only at h
    split at h
    · cases h
    · obtain ⟨⟨st'', ip''⟩, hassign, heq⟩ := Option.map_eq_some_iff.mp h
      simp only [Prod.mk.injEq] at heq
      obtain ⟨rfl, rfl, rfl, rfl, rfl⟩ := heq
      rcases assignIp_eq_some hassign with ⟨rfl, -⟩ | ⟨pool, -, rfl⟩
      · exact hinit
      · exact hinit

/-- **The client of a handshake has its keys**, and asked for its own key id. -/
theorem client_of_admitted (hcomm : L.Commutes) (hdec : L.Decrypts) {st st' : State}
    {d : Datagram} {calls : HandshakeCalls S} {keyId : UInt64} {orig p : ℕ} {ip : UInt32}
    {i : Installed} (hadm : (st.admitted L d calls).2 = some (keyId, orig, p, st', ip))
    (hmaster : st.hs.masterKeys.lookup keyId = some i.masterKey) (hrequest : i.request = d.data)
    (hbuilt : (st'.hs.buildResp L keyId ip 1280 calls.resp calls.keys).2 =
      (i.response, i.keys)) {k : ClientKeys} (hk : i.Client L k) :
    k.keyId = keyId ∧ k.recvKey = i.keys.sendKey := by
  obtain ⟨hc, hcalls, hcalls', sent, out, keys, htoken, hinit, hresp, rfl⟩ := hk
  have hprocess := processInit_of_admitted hadm
  rw [← hrequest, ← hinit] at hprocess
  rw [← htoken] at hmaster
  rcases hbuild : st'.hs.buildResp L keyId ip 1280 calls.resp calls.keys with ⟨hs, built⟩
  rw [hbuild] at hbuilt
  obtain rfl : built = (i.response, i.keys) := hbuilt
  obtain ⟨secret, sessionId, hclient, hserver⟩ :=
    exchange_eq L ip 1280 hcomm hdec hmaster hprocess hbuild hresp
  refine ⟨(keyId_of_processInit L hprocess).symm, ?_⟩
  rw [hclient, hserver]

/-- **An honest client accepts the response** to a request that is admitted, if the library calls
go through: the handshake has a client. -/
theorem exists_client (hcomm : L.Commutes) (hdec : L.Decrypts) {st st' : State} {d : Datagram}
    {calls : HandshakeCalls S} {keyId : UInt64} {orig p : ℕ} {ip : UInt32}
    (hadm : (st.admitted L d calls).2 = some (keyId, orig, p, st', ip))
    {hc : HandshakeClient S} {initCalls : Calls} {sent : UInt64}
    (hrequest : hc.buildInit L initCalls sent = d.data)
    (hmaster : st.hs.masterKeys.lookup keyId = some hc.masterKey.toList) {server : S}
    (hcalls : RespCalls.GoesThrough L calls.resp server) {i : Installed}
    (hinstalls : st.installs L (.op (.handshake d calls)) = some (p, i)) :
    ∃ k, i.Client L k ∧ k.keyId = keyId ∧
      k.maskKey = hkdfExpand L hc.masterKey "aegis-v2-header-mask" := by
  have hprocess := processInit_of_admitted hadm
  rw [← hrequest] at hprocess
  obtain ⟨-, -, hmasterKeys, a, hpending⟩ := processInit_eq_some L hprocess
  obtain ⟨e, he, mac, hpacket⟩ := buildInit_of_processInit L hprocess
  have hne := buildResp_ne_nil hpending (hmasterKeys ▸ hmaster) hcalls ip 1280 calls.keys
  rw [State.installs, hadm, Option.map_some, Option.some.injEq] at hinstalls
  obtain ⟨-, rfl⟩ := Prod.mk.inj hinstalls
  rcases hbuild : st'.hs.buildResp L keyId ip 1280 calls.resp calls.keys with ⟨hs, resp, keys⟩
  rw [hbuild] at hne
  obtain ⟨state, masterKey, server', sessionId, hstate, hkey, hkeygen, -, hresp, -⟩ :=
    buildResp_eq L hbuild hne
  obtain rfl := Option.some.inj (hpending.symm.trans hstate)
  obtain rfl : hc.masterKey.toList = masterKey := by
    rw [hmasterKeys, hmaster] at hkey
    exact Option.some.inj hkey
  obtain ⟨addr, haddr⟩ := hcalls.keygen
  obtain rfl : server' = ⟨server, addr⟩ := Option.some.inj (hkeygen.symm.trans haddr)
  simp only [hpacket, pub_initBody] at hresp
  have hok := processResp_respPacket_ok L sessionId ip 1280 hcomm hdec he
    (hcalls.secret (L.pub e)) emptyKeys
  rw [← hresp] at hok
  refine ⟨_, ⟨hc, _, .ok, sent, emptyKeys, _, ?_, hrequest, Prod.ext hok rfl, rfl⟩,
    (keyId_of_processInit L hprocess).symm, rfl⟩
  rw [hmaster]
  rfl

/-- **A handshake** that is not moved is installed in the session of its key id, and noted. -/
theorem Tracks.handshake (C : DataCipher) (hcomm : L.Commutes) (hdec : L.Decrypts)
    {st : ServedState} (h : Tracks L st) {d : Datagram} {calls : HandshakeCalls S}
    (hok : notMoved L st.server (.op (.handshake d calls)) = true)
    (hslots : Slots (Slot.Own L) (st.server.handshake L T d calls).1) :
    Tracks L ⟨(st.server.handshake L T d calls).1, st.after L (.op (.handshake d calls))⟩ := by
  have hmoves := @moves_handshake S L T C st.server d calls
  have htracks := h.moves hmoves rfl hslots
  rcases hadm : (st.server.admitted L d calls).2 with _ | ⟨keyId, orig, p, st', ip⟩
  · rw [ServedState.after, State.installs, hadm]
    exact htracks
  · obtain rfl : p = orig := notMoved_handshake L hok rfl hadm
    obtain ⟨hfind, -, -, -⟩ := admitted_eq_some L hadm
    have hrequest := (processInit_eq_some L (processInit_of_admitted hadm)).2.1
    have hmaster := h.known keyId p hfind
    rw [ServedState.after, State.installs, hadm]
    refine htracks.note ?_ ?_ ?_
    · simp only
      rw [hmoves.next]
      exact h.slots.fresh p ⟨keyId, hfind⟩
    · intro keyId' hfind'
      simp only at hfind' ⊢
      rw [SessionTable.findByKeyId, hmoves.users.byKeyId] at hfind'
      have hsame : keyId = keyId' :=
        (h.slots.keyed keyId p hfind).symm.trans (h.slots.keyed keyId' p hfind')
      rw [hmoves.users.masterKeys, ← hsame, hmaster]
      exact ⟨hrequest.symm, rfl⟩
    · intro k hk
      rw [show (initPair d.data).keyId = keyId from hrequest.symm]
      exact client_of_admitted hcomm hdec hadm (by rw [hmaster]; rfl) rfl rfl hk

/-- A device is registered: its session is a new one. -/
theorem Tracks.registerDevice {server : State} {installed : ℕ → Option Installed}
    (h : Tracks L ⟨server, installed⟩) (now : ℤ) (token kidHex : String) :
    Tracks L ⟨(server.registerDevice L D now token kidHex).1, installed⟩ := by
  have hslots := h.slots.registerDevice (L := L) (D := D) (fun _ _ _ => rfl) now token kidHex
  by_cases hnoted : Noted D server.sessions (token, kidHex)
  · rw [(registerDevice_of_noted L hnoted now).1]
    exact h
  · obtain ⟨masterKey, heq⟩ := registerDevice_of_not_noted L hnoted now
    obtain ⟨hmissing, -⟩ := not_or.mp hnoted
    rw [Bool.not_eq_true, Option.isSome_eq_false_iff, Option.isNone_iff_eq_none] at hmissing
    rw [heq] at hslots ⊢
    simp only at hslots hmissing ⊢
    generalize keyIdOf D token kidHex = new at *
    have hself : (server.sessions.insertSession (newDevice L new masterKey now)).heap
        server.sessions.next = newDevice L new masterKey now := by
      simp [SessionTable.insertSession]
    have hheap : ∀ q, q ≠ server.sessions.next →
        (server.sessions.insertSession (newDevice L new masterKey now)).heap q =
          server.sessions.heap q := fun q hq => by
      simp [SessionTable.insertSession, hq]
    have hcases : ∀ keyId q,
        (server.sessions.insertSession (newDevice L new masterKey now)).findByKeyId keyId =
          some q → (keyId = new ∧ q = server.sessions.next) ∨
            (server.sessions.findByKeyId keyId = some q ∧ keyId ≠ new ∧
              q ≠ server.sessions.next) := by
      intro keyId q hq
      rcases server.sessions.findByKeyId_of_insertSession _ keyId q hq with hnew | hold
      · exact Or.inl hnew
      · refine Or.inr ⟨hold, ?_, (h.slots.fresh q ⟨keyId, hold⟩).ne⟩
        rintro rfl
        exact absurd (hmissing.symm.trans hold) (by simp)
    have hmaster : ∀ keyId, keyId ≠ new →
        (server.hs.addUser new masterKey.toList).masterKeys.lookup keyId =
          server.hs.masterKeys.lookup keyId := fun keyId hne => AList.lookup_insert_ne hne
    refine ⟨hslots, fun keyId q hq => ?_, fun q => ?_, fun q hq => ?_, fun q i hi => ?_,
      fun q i hi keyId hq => ?_, h.agreed⟩
    · simp only at hq ⊢
      rcases hcases keyId q hq with ⟨rfl, rfl⟩ | ⟨hold, hkey, hne⟩
      · rw [hself]
        exact AList.lookup_insert _
      · rw [hheap q hne, hmaster keyId hkey]
        exact h.known keyId q hold
    · simp only
      rcases eq_or_ne q server.sessions.next with rfl | hne
      · rw [hself]
        rfl
      · rw [hheap q hne]
        exact h.mask q
    · simp only at hq ⊢
      have hne : q ≠ server.sessions.next := by
        rintro rfl
        refine hq ⟨new, ?_⟩
        rw [SessionTable.findByKeyId_insertSession]
        exact if_pos rfl
      rw [hheap q hne]
      refine h.absent q ?_
      rintro ⟨keyId, hkey⟩
      refine hq ⟨keyId, ?_⟩
      rw [SessionTable.findByKeyId_insertSession, if_neg, hkey]
      rintro rfl
      exact absurd (hmissing.symm.trans hkey) (by simp)
    · exact Nat.lt_succ_of_lt (h.made q i hi)
    · simp only at hq ⊢
      rcases hcases keyId q hq with ⟨-, rfl⟩ | ⟨hold, hkey, -⟩
      · exact absurd (h.made _ i hi) (lt_irrefl _)
      · rw [hmaster keyId hkey]
        exact h.asked q i hi keyId hold

/-- A slot is removed: its session is not in the table any more. -/
theorem Tracks.revokeSlot {server : State} {installed : ℕ → Option Installed}
    (h : Tracks L ⟨server, installed⟩) (keyId : UInt64) :
    Tracks L ⟨server.revokeSlot keyId, installed⟩ := by
  have hslots : Slots (Slot.Own L) (server.revokeSlot keyId) :=
    (h.slots.removeSession keyId).congr rfl rfl
  have hmaster : ∀ k, k ≠ keyId →
      (server.revokeSlot keyId).hs.masterKeys.lookup k = server.hs.masterKeys.lookup k := by
    intro k hne
    rw [State.revokeSlot, HandshakeServer.removeUser, (dropPending_shrinks _ keyId).masterKeys]
    exact AList.lookup_erase_ne hne
  have hold : ∀ k q, (server.revokeSlot keyId).sessions.findByKeyId k = some q →
      k ≠ keyId ∧ server.sessions.findByKeyId k = some q := by
    intro k q hq
    rw [findByKeyId_revokeSlot, Option.ite_none_left_eq_some] at hq
    exact hq
  -- a session is removed, or stays as it is
  have hheap : ∀ q,
      (server.sessions.findByKeyId keyId = some q ∧
        (server.revokeSlot keyId).sessions.heap q = (server.sessions.heap q).recycle) ∨
      (server.sessions.findByKeyId keyId ≠ some q ∧
        (server.revokeSlot keyId).sessions.heap q = server.sessions.heap q) := by
    intro q
    rcases hfind : server.sessions.findByKeyId keyId with _ | p
    · refine Or.inr ⟨(fun h => by cases h), ?_⟩
      simp only [State.revokeSlot, SessionTable.removeSession, hfind]
    · rcases eq_or_ne q p with rfl | hne
      · refine Or.inl ⟨rfl, ?_⟩
        simp [State.revokeSlot, SessionTable.removeSession, hfind, SessionTable.setSession,
          SessionTable.eraseEndpoints]
      · exact Or.inr ⟨fun heq => hne (Option.some.inj heq).symm,
          server.sessions.heap_removeSession_of_ne hfind hne⟩
  refine ⟨hslots, fun k q hq => ?_, fun q => ?_, fun q hq => ?_, fun q i hi => ?_,
    fun q i hi k hq => ?_, h.agreed⟩
  · obtain ⟨hne, hfind⟩ := hold k q hq
    simp only
    rw [hmaster k hne]
    rcases hheap q with ⟨hremoved, -⟩ | ⟨-, hsame⟩
    · exact absurd ((h.slots.keyed k q hfind).symm.trans (h.slots.keyed keyId q hremoved)) hne
    · rw [hsame]
      exact h.known k q hfind
  · simp only
    rcases hheap q with ⟨-, hrecycled⟩ | ⟨-, hsame⟩
    · rw [hrecycled]
      rfl
    · rw [hsame]
      exact h.mask q
  · simp only at hq ⊢
    rcases hheap q with ⟨-, hrecycled⟩ | ⟨hother, hsame⟩
    · rw [hrecycled]
      rfl
    · rw [hsame]
      refine h.absent q ?_
      rintro ⟨k, hk⟩
      refine hq ⟨k, ?_⟩
      rw [findByKeyId_revokeSlot, if_neg, hk]
      rintro rfl
      exact hother hk
  · exact (h.made q i hi).trans_eq (SessionTable.next_removeSession _ keyId).symm
  · obtain ⟨hne, hfind⟩ := hold k q hq
    simp only
    rw [hmaster k hne]
    exact h.asked q i hi k hfind

/-- **A synchronisation** makes and removes sessions. -/
theorem Tracks.sync {server : State} {installed : ℕ → Option Installed}
    (h : Tracks L ⟨server, installed⟩) (now : ℤ) (rows : List (String × String))
    (revoked : List String) :
    Tracks L ⟨revoked.foldl State.revokeUser (server.registerUsers L D now rows), installed⟩ := by
  have hregistered : Tracks L ⟨server.registerUsers L D now rows, installed⟩ := by
    refine registerUsers_rec (P := fun server => Tracks L ⟨server, installed⟩) L D ?_ ?_ h now rows
    · exact fun h now token kidHex => h.registerDevice now token kidHex
    · exact fun h k1 slots activeTokens hne =>
        { h with slots := h.slots.setUserSlots hne slots activeTokens }
  refine List.foldlRecOn (motive := fun server => Tracks L ⟨server, installed⟩) revoked _
    hregistered fun server h token _ => ?_
  refine revokeUser_rec (P := fun server => Tracks L ⟨server, installed⟩) ?_ ?_ ?_ h token
  · exact fun h keyId => h.revokeSlot keyId
  · exact fun h keyId => { h with slots := h.slots.eraseUserSlots keyId }
  · exact fun h activeTokens => { h with slots := h.slots.congr rfl rfl }

/-- **One event** that neither moves a handshake nor takes a packet under an alternate mask
key. -/
theorem Tracks.serve (hcomm : L.Commutes) (hdec : L.Decrypts) {isolation : Bool}
    {st st' : ServedState} {ev : Event S} (h : Tracks L st)
    (hok : notMoved L st.server ev = true ∧ notAlternate C st.server ev = true)
    (hstep : Server.serve L T D C isolation st ev = some st') : Tracks L st' := by
  obtain ⟨server, hadvance, rfl⟩ := Option.map_eq_some_iff.mp hstep
  have hslots : Slots (Slot.Own L) server := h.slots.advance (fun _ _ _ => rfl)
    (fun _ _ hev _ _ _ _ _ hadm hne => absurd (notMoved_handshake L hok.1 hev hadm) hne) hadvance
  cases ev with
  | op op =>
    cases op with
    | handshake d calls =>
      obtain ⟨-, hst⟩ := Option.ite_none_right_eq_some.mp hadvance
      obtain rfl := Option.some.inj hst
      exact h.handshake C hcomm hdec hok.1 hslots
    | fastResume d calls expand =>
      obtain ⟨-, hst⟩ := Option.ite_none_right_eq_some.mp hadvance
      obtain rfl := Option.some.inj hst
      exact h.moves (moves_fastResume d calls expand) hok.2 hslots
    | pfsResume d calls pfs =>
      obtain ⟨-, hst⟩ := Option.ite_none_right_eq_some.mp hadvance
      obtain rfl := Option.some.inj hst
      exact h.moves (moves_pfsResume d calls pfs) hok.2 hslots
    | cleanup now order =>
      obtain ⟨-, hst⟩ := Option.ite_none_right_eq_some.mp hadvance
      obtain rfl := Option.some.inj hst
      exact h.moves (moves_cleanupMaps now order) hok.2 hslots
    | sync now rows revoked =>
      obtain ⟨-, hst⟩ := Option.ite_none_right_eq_some.mp hadvance
      obtain rfl := Option.some.inj hst
      exact h.sync now rows revoked
  | data e =>
    obtain ⟨-, hst⟩ := Option.ite_none_right_eq_some.mp hadvance
    obtain rfl := Option.some.inj hst
    exact h.moves (moves_data e) hok.2 hslots
  | tun buffer now draws =>
    obtain ⟨-, hst⟩ := Option.ite_none_right_eq_some.mp hadvance
    obtain rfl := Option.some.inj hst
    exact h.moves (moves_tun isolation buffer now draws) hok.2 hslots

/-- A server that has no session. -/
theorem tracks_init (L : Library S) (pool : IpPool) (bootSecret : Vector UInt8 32) :
    Tracks L ⟨init pool bootSecret, fun _ => none⟩ where
  slots := slots_init _ pool bootSecret
  known keyId p hp := by simp [init, SessionTable.empty, SessionTable.findByKeyId] at hp
  mask p := rfl
  absent p _ := rfl
  made p i hi := nomatch hi
  asked p i hi := nomatch hi
  agreed p i hi := nomatch hi

/-- **Every packet from the TUN device is read** by the client whose handshake has installed the
keys of its session, in every state of a run in which auto-slot balancing moves no handshake and
no data packet authenticates under an alternate mask key. -/
theorem served_of_meets (hcomm : L.Commutes) (hdec : L.Decrypts) (hC : C.Correct)
    (isolation : Bool) (pool : IpPool) (bootSecret : Vector UInt8 32) (evs : List (Event S))
    (st : ServedState)
    (hok : Meets (serve L T D C isolation)
      (fun st ev => notMoved L st.server ev = true ∧ notAlternate C st.server ev = true)
      ⟨init pool bootSecret, fun _ => none⟩ evs)
    (hrun : runs (serve L T D C isolation) ⟨init pool bootSecret, fun _ => none⟩ evs = some st) :
    Served L C st :=
  (inv_of_meets (I := Tracks L) (fun h hok hstep => h.serve hcomm hdec hok hstep)
    (tracks_init L pool bootSecret) hok hrun).served hC

end

/-! ### A device that is moved -/

section

variable {S : Type} {L : Library S} {C : DataCipher}

/-- **Another key id**: a packet with the client's mask key and a key id that is not the client's
is not read. -/
theorem clientDecode_of_moved {s : Session} {k : ClientKeys} (hmask : s.txMaskKey = k.maskKey)
    (hkeyId : s.identity.keyIdRaw ≠ k.keyId) (seq : UInt64) (buffer : List UInt8) (d : Draws) :
    clientDecode C k (s.encode C seq buffer d) = none := by
  have hhdr : unmaskedHeader C k.maskKey (s.encode C seq buffer d) =
      plainHeader s.identity.keyIdRaw d.junkBytes.length.toUInt16 0 := by
    rw [Session.encode, hmask, encodePacket, sealPacket, List.append_assoc]
    exact unmaskedHeader_outerHeader _
  simp only [clientDecode, hhdr, hasKeyId_plainHeader, hkeyId, decide_false, Bool.false_eq_true,
    not_false_eq_true, if_true, ite_self]

/-- **A handshake that is moved**, and answered, leaves a session whose packets the device does
not read. -/
theorem not_served_of_moved (T : TokenCipher) {st : ServedState} {Q : Slot → Prop}
    (h : Slots Q st.server) {d : Datagram} {calls : HandshakeCalls S} {keyId : UInt64}
    {orig p : ℕ} {st' : State} {ip : UInt32}
    (hadm : (st.server.admitted L d calls).2 = some (keyId, orig, p, st', ip)) (hne : p ≠ orig)
    {i : Installed} (hinstalls : st.server.installs L (.op (.handshake d calls)) = some (p, i))
    {k : ClientKeys} (hclient : i.Client L k) (hkeyId : k.keyId = keyId)
    (hmask : k.maskKey = (st.server.sessions.heap orig).crypto.maskKey) (hfd : 0 ≤ d.fd)
    {buffer : List UInt8} (hmin : 20 ≤ buffer.length) (hlen : buffer.length ≤ bufferSize)
    (hroute : st'.sessions.routeOf buffer = some p) (draws : Draws) :
    ¬Served L C ⟨(st.server.handshake L T d calls).1, st.after L (.op (.handshake d calls))⟩ := by
  intro hserved
  obtain ⟨horig, hchosen, -, -⟩ := admitted_eq_some L hadm
  obtain ⟨own, hown⟩ := chooseSlot_mem d.caddr d.now horig
  rw [hchosen] at hown
  have hnotSame : own ≠ keyId := by
    rintro rfl
    exact hne (Option.some.inj (hown.symm.trans horig))
  -- the session that is installed, with its keys
  have hi : i.keys = (st'.hs.buildResp L keyId ip 1280 calls.resp calls.keys).2.2 := by
    rw [State.installs, hadm, Option.map_some, Option.some.injEq] at hinstalls
    rw [← (Prod.mk.inj hinstalls).2]
  have hself : (st.server.handshake L T d calls).1.sessions.heap p =
      (st.server.sessions.heap p).install (st.server.sessions.heap orig) keyId true i.keys ip
        d := by
    rw [handshake_of_admitted L T hadm, ← heap_admitted L hadm, hi, State.install,
      decide_eq_true hne]
    exact Function.update_self ..
  have hroutes : (st.server.handshake L T d calls).1.sessions.routes = st'.sessions.routes := by
    rw [handshake_of_admitted L T hadm, State.install]
    rfl
  obtain ⟨sent, hsent, hp⟩ := (@tun_isSome_iff C (st.server.handshake L T d calls).1 false buffer
    0 (some draws) p).mpr ⟨rfl, hmin, (routeOf_congr hroutes buffer).trans hroute,
      fun hisolates => Bool.false_ne_true hisolates.1, by rw [hself]; exact ⟨rfl, rfl, hfd⟩⟩
  obtain ⟨-, -, -, -, d', hwire⟩ := tun_eq_some hsent
  subst hp
  have hread := hserved false buffer 0 (some draws) sent hlen hsent i
    (by rw [ServedState.after, hinstalls]; exact Function.update_self ..)
    (by rw [hself]; rfl) k hclient
  rw [hwire, clientDecode_of_moved] at hread
  · cases hread
  · rw [hself, hmask]
    rfl
  · rw [hself, hkeyId]
    exact ((h.keyed own _ hown).trans_ne hnotSame)

end

/-- A device of the user. -/
def phoneClient : HandshakeClient UInt8 := ⟨le64 5, Vector.replicate 32 101, some 3⟩

/-- A packet to the address of the second device. -/
def toSecond : List UInt8 := 0x45 :: List.replicate 15 0 ++ [10, 8, 0, 3]

/-- The second device of the user is moved to another slot, the packet is routed to that slot, and
both tables have the master key of the device. -/
def movesOver (st : State) : Bool :=
  ((secondAdmitted st).any fun r => (r.1, r.2.1, r.2.2.1) = (5, 0, 1) &&
      r.2.2.2.1.sessions.routeOf toSecond = some 1) &&
    st.hs.masterKeys.lookup 5 = some phoneClient.masterKey.toList &&
    decide ((st.sessions.heap 0).crypto.maskKey =
      hkdfExpand smallLibrary phoneClient.masterKey "aegis-v2-header-mask")

/-- **The second device of a user** reads nothing that is sent to it. -/
theorem not_served :
    ¬∀ (isolation : Bool) (pool : IpPool) (bootSecret : Vector UInt8 32)
      (evs : List (Event UInt8)) (st : ServedState),
      runs (serve smallLibrary smallCipher letterDerivation smallDataCipher isolation)
        ⟨init pool bootSecret, fun _ => none⟩ evs = some st →
          Served smallLibrary smallDataCipher st := by
  intro h
  obtain ⟨st, hst, hmoves⟩ := Option.map_eq_some_iff.mp
    (show (runs (serve smallLibrary smallCipher letterDerivation smallDataCipher true)
      ⟨smallStart, fun _ => none⟩ phoneRun).map (fun st => movesOver st.server) = some true by
        decide +kernel)
  simp only [movesOver, Bool.and_eq_true, Option.any_eq_true, decide_eq_true_eq,
    Prod.mk.injEq] at hmoves
  obtain ⟨⟨⟨⟨keyId, orig, p, st', ip⟩, hadm, ⟨rfl, rfl, rfl⟩, hroute⟩, hmaster⟩, hmask⟩ := hmoves
  rw [secondAdmitted] at hadm
  have hopcode : secondRequest.data.head? = some 0x01 ∧ secondRequest.data.length = 72 := by
    decide
  have hsecond : runs (serve smallLibrary smallCipher letterDerivation smallDataCipher true)
      ⟨smallStart, fun _ => none⟩ (phoneRun ++ [secondPhone]) =
        some ⟨(st.server.handshake smallLibrary smallCipher secondRequest (phoneCalls 6 1001)).1,
          st.after smallLibrary secondPhone⟩ :=
    runs_snoc.mpr ⟨st, hst, by rw [serve, secondPhone, advance, step, if_pos hopcode]; rfl⟩
  have hslots : Slots (fun _ => True) st.server := inv_of_runs (I := fun st => Slots _ st.server)
    (fun {s ev t} h hstep => by
      obtain ⟨server, hadvance, rfl⟩ := Option.map_eq_some_iff.mp hstep
      exact h.advance (fun _ _ _ => trivial) (fun _ _ _ _ _ _ _ _ _ _ => trivial) hadvance)
    (slots_init _ smallPool _) hst
  -- the device accepts the response, and is sent the packet
  obtain ⟨i, hinstalls⟩ : ∃ i, st.server.installs smallLibrary secondPhone = some (1, i) := by
    rw [secondPhone, State.installs, hadm]
    exact ⟨_, rfl⟩
  obtain ⟨k, hclient, hkeyId, hkmask⟩ := exists_client smallLibrary_commutes
    smallLibrary_decrypts hadm
    (show phoneClient.buildInit smallLibrary .ok 1001 = secondRequest.data by decide +kernel)
    hmaster (show RespCalls.GoesThrough smallLibrary _ 6 from
      ⟨⟨1, rfl⟩, rfl, fun _ => List.cons_ne_nil _ _, rfl, rfl, rfl⟩) hinstalls
  exact not_served_of_moved smallCipher hslots hadm (by decide) hinstalls hclient hkeyId
    (hkmask.trans hmask.symm) (by decide) (by decide) (by decide) hroute
    (smallDraws (Vector.replicate 12 0)) (h _ _ _ _ _ hsecond)

/-- The first device of the user has a handshake installed, and a packet is sent to it. -/
def sendsFirst (st : ServedState) : Bool :=
  (st.installed 0).isSome &&
    (st.server.tun smallDataCipher true (0x45 :: List.replicate 15 0 ++ [10, 8, 0, 2]) 4000
      (some (smallDraws (Vector.replicate 12 0)))).2.any fun sent => sent.session = 0

/-- With one device, what is sent to it is read. -/
theorem served_phoneRun :
    ∃ st, runs (serve smallLibrary smallCipher letterDerivation smallDataCipher true)
      ⟨smallStart, fun _ => none⟩ phoneRun = some st ∧ sendsFirst st = true ∧
        Served smallLibrary smallDataCipher st := by
  obtain ⟨st, hst, hsends⟩ := Option.map_eq_some_iff.mp
    (show (runs (serve smallLibrary smallCipher letterDerivation smallDataCipher true)
      ⟨smallStart, fun _ => none⟩ phoneRun).map sendsFirst = some true by decide +kernel)
  exact ⟨st, hst, hsends, served_of_meets smallLibrary_commutes smallLibrary_decrypts
    smallDataCipher_correct true smallPool (Vector.replicate 32 1) phoneRun st
    (show Meets _ _ (⟨smallStart, fun _ => none⟩ : ServedState) phoneRun by decide +kernel) hst⟩

end Server

end Aegs
