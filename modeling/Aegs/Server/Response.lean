import Aegs.Handshake.Agreement
import Aegs.Server.Ownership

/-!
# A response that is not built

`build_resp` returns an empty vector when the pending client or the user is gone, when
the key exchange fails, and when the library fails. Its caller in `process_udp_packet`
does not look: it bumps the generation, resets the counter and the filter, stores
whatever is in the key record, marks the handshake as done and sends a datagram of no
bytes. So a failed response never leaves its session as it was
(`Aegs.Server.touched_of_empty`).

Between `process_init` and `build_resp` other workers may consume or evict the pending
client, and a user may be removed: what they do to the handshake server is a parameter
here (`Aegs.Server.State.handshakeAmid`). With nobody in between this is the handshake of
`Aegs.Server.Operations` (`Aegs.Server.handshakeAmid_id`).
-/

namespace Aegs

namespace Server

open Handshake

section

variable {S : Type} (L : Library S) (T : TokenCipher)

/-- The session, the address and the state with which a handshake goes on to its response,
if it does. -/
def State.admitted (st : State) (d : Datagram) (calls : HandshakeCalls S) :
    State × Option (UInt64 × ℕ × ℕ × State × UInt32) :=
  match st.hs.processInit L d.data calls.initMs calls.addr with
  | (hs, none) => ({ st with hs := hs }, none)
  | (hs, some keyId) =>
    let st := { st with hs := hs }
    match st.sessions.findByKeyId keyId with
    | none => (st, none)
    | some orig =>
      let p := st.chooseSlot keyId orig d.caddr d.now
      (st, (st.assignIp p).map fun r => (keyId, orig, p, r.1, r.2))

/-- **A handshake amid others**: `others` is what other threads do to the handshake server
between `process_init` and `build_resp`. -/
def State.handshakeAmid (others : HandshakeServer → HandshakeServer) (st : State) (d : Datagram)
    (calls : HandshakeCalls S) : State × List (List UInt8) :=
  match st.admitted L d calls with
  | (st, none) => (st, [])
  | (_, some (keyId, orig, p, st, ip)) =>
    { st with hs := others st.hs }.install L T keyId orig p ip d calls

/-- What `build_resp` returns in that handshake, with the chosen session, if it is called. -/
def State.responseAmid (others : HandshakeServer → HandshakeServer) (st : State) (d : Datagram)
    (calls : HandshakeCalls S) : Option (ℕ × List UInt8) :=
  (st.admitted L d calls).2.map fun (keyId, _, p, st, ip) =>
    (p, ((others st.hs).buildResp L keyId ip 1280 calls.resp calls.keys).2.1)

/-- With nobody in between, this is the handshake of `process_udp_packet`. -/
theorem handshakeAmid_id (st : State) (d : Datagram) (calls : HandshakeCalls S) :
    st.handshakeAmid L T id d calls = st.handshake L T d calls := by
  rw [State.handshakeAmid, State.admitted, State.handshake]
  rcases st.hs.processInit L d.data calls.initMs calls.addr with ⟨hs, _ | keyId⟩
  · rfl
  simp only
  rcases st.sessions.findByKeyId keyId with _ | orig
  · rfl
  simp only
  rcases State.assignIp _ _ with _ | ⟨st', ip⟩
  · rfl
  · rfl

end

/-- **The packet has left the session untouched**, the tables and the pool included. -/
structure Untouched (st st' : State) (p : ℕ) : Prop where
  /-- `crypto_snap_`. -/
  crypto : (st'.sessions.heap p).crypto = (st.sessions.heap p).crypto
  /-- `generation`. -/
  generation : (st'.sessions.heap p).identity.generation = (st.sessions.heap p).identity.generation
  /-- `session_id`. -/
  sessionId : (st'.sessions.heap p).identity.sessionId = (st.sessions.heap p).identity.sessionId
  /-- `tx_seq`. -/
  txSeq : (st'.sessions.heap p).txSeq = (st.sessions.heap p).txSeq
  /-- `replay_filter`. -/
  replayFilter : (st'.sessions.heap p).replayFilter = (st.sessions.heap p).replayFilter
  /-- `routing_snap_`. -/
  routing : (st'.sessions.heap p).routing = (st.sessions.heap p).routing
  /-- The route table. -/
  routes : st'.sessions.routes = st.sessions.routes
  /-- The endpoint index. -/
  byEndpoint : st'.sessions.byEndpoint = st.sessions.byEndpoint
  /-- The address pool. -/
  pool : st'.pool = st.pool

section

variable {S : Type} (L : Library S) (T : TokenCipher)

/-- **What a handshake has found when it has its address**: the session that was asked for,
the session chosen, and a route to it where the address is new. -/
theorem admitted_eq_some {st st' : State} {d : Datagram} {calls : HandshakeCalls S}
    {keyId : UInt64} {orig p : ℕ} {ip : UInt32}
    (h : (st.admitted L d calls).2 = some (keyId, orig, p, st', ip)) :
    st.sessions.findByKeyId keyId = some orig ∧ st.chooseSlot keyId orig d.caddr d.now = p ∧
      st'.userSlots = st.userSlots ∧
      (st'.sessions = st.sessions ∨ st'.sessions = st.sessions.mapIp ip p) := by
  rw [State.admitted] at h
  split at h
  · exact absurd h (by simp)
  · simp only at h
    split at h
    · exact absurd h (by simp)
    · rename_i orig' horig
      obtain ⟨⟨st'', ip''⟩, hassign, heq⟩ := Option.map_eq_some_iff.mp h
      simp only [Prod.mk.injEq] at heq
      obtain ⟨rfl, rfl, rfl, rfl, rfl⟩ := heq
      refine ⟨horig, rfl, ?_⟩
      rcases assignIp_eq_some hassign with ⟨rfl, -⟩ | ⟨pool, -, rfl⟩
      · exact ⟨rfl, Or.inl rfl⟩
      · exact ⟨rfl, Or.inr rfl⟩

/-- The sessions are the same when a handshake has its address. -/
theorem heap_admitted {st st' : State} {d : Datagram} {calls : HandshakeCalls S} {keyId : UInt64}
    {orig p : ℕ} {ip : UInt32}
    (h : (st.admitted L d calls).2 = some (keyId, orig, p, st', ip)) :
    st'.sessions.heap = st.sessions.heap := by
  obtain ⟨-, -, -, hsessions | hsessions⟩ := admitted_eq_some L h
  · rw [hsessions]
  · rw [hsessions, SessionTable.heap_mapIp]

/-- A handshake that is admitted is installed. -/
theorem handshake_of_admitted {st st' : State} {d : Datagram} {calls : HandshakeCalls S}
    {keyId : UInt64} {orig p : ℕ} {ip : UInt32}
    (h : (st.admitted L d calls).2 = some (keyId, orig, p, st', ip)) :
    st.handshake L T d calls = st'.install L T keyId orig p ip d calls := by
  rw [← handshakeAmid_id, State.handshakeAmid]
  rcases hall : st.admitted L d calls with ⟨st'', _ | r⟩
  · rw [hall] at h
    exact nomatch h
  · rw [hall] at h
    obtain rfl := Option.some.inj h
    rfl

/-- A handshake that is not admitted touches neither the sessions nor the users. -/
theorem handshake_of_not_admitted {st : State} {d : Datagram} {calls : HandshakeCalls S}
    (h : (st.admitted L d calls).2 = none) :
    (st.handshake L T d calls).1.sessions = st.sessions ∧
      (st.handshake L T d calls).1.userSlots = st.userSlots := by
  have hstate : (st.admitted L d calls).1.sessions = st.sessions ∧
      (st.admitted L d calls).1.userSlots = st.userSlots := by
    rw [State.admitted]
    split
    · exact ⟨rfl, rfl⟩
    · simp only
      split <;> exact ⟨rfl, rfl⟩
  rw [← handshakeAmid_id, State.handshakeAmid]
  rcases hall : st.admitted L d calls with ⟨st', _ | r⟩
  · rwa [hall] at hstate
  · rw [hall] at h
    exact nomatch h

/-- **The session is installed whatever `build_resp` returned**: its generation is the next
one, its counter and its filter are reset, and its handshake counts as done. -/
theorem installed_of_response {others : HandshakeServer → HandshakeServer} {st : State}
    {d : Datagram} {calls : HandshakeCalls S} {p : ℕ} {resp : List UInt8}
    (h : st.responseAmid L others d calls = some (p, resp)) :
    let s := (st.handshakeAmid L T others d calls).1.sessions.heap p
    s.identity.generation = (st.sessions.heap p).identity.generation + 1 ∧ s.txSeq = 0 ∧
      s.replayFilter = .reset ∧ s.crypto.v3HandshakeDone = true ∧ s.routing.hasClient = true := by
  obtain ⟨⟨keyId, orig, q, st', ip⟩, hadm, heq⟩ := Option.map_eq_some_iff.mp h
  obtain ⟨rfl, -⟩ := Prod.mk.inj heq
  have hheap := heap_admitted L hadm
  rw [State.handshakeAmid]
  rcases hall : st.admitted L d calls with ⟨st'', _ | r⟩
  · rw [hall] at hadm
    exact nomatch hadm
  · rw [hall] at hadm
    obtain rfl := Option.some.inj hadm
    simp only [State.install, SessionTable.updateEndpoint, SessionTable.setSession,
      Function.update_self, Session.install, Datagram.routing, SessionCrypto.install, hheap,
      true_and, and_true]
    split <;> rfl

/-- **A failed response never leaves its session as it was.** -/
theorem touched_of_empty (others : HandshakeServer → HandshakeServer) (st : State) (d : Datagram)
    (calls : HandshakeCalls S) (p : ℕ) (h : st.responseAmid L others d calls = some (p, [])) :
    ¬Untouched st (st.handshakeAmid L T others d calls).1 p := by
  intro huntouched
  have hgen := (installed_of_response L T h).1
  rw [huntouched.generation] at hgen
  have hne : (1 : UInt64) = 0 := by simpa using hgen.symm
  exact absurd hne (by decide)

end

/-! ### A key exchange that fails -/

/-- The server on which the user is registered. -/
def registeredServer : State :=
  (step smallLibrary smallCipher smallDerivation smallStart (.sync 1000 smallRows [])).getD
    smallStart

/-- The request of the user. -/
def firstRequest : Datagram := smallDatagram (smallClient.buildInit smallLibrary .ok 1000) 2000

/-- The library calls of a handshake whose key exchange fails. -/
def lowOrderCalls : HandshakeCalls UInt8 :=
  ⟨2000, some 0, ⟨some ⟨4, 1⟩, false, some 77, true, true⟩, emptyKeys, 2000,
    ⟨true, some (Vector.replicate 32 8), true⟩⟩

/-- **The session is touched**: the key exchange fails and the response is empty, the
generation goes from 1 to 2, and the handshake counts as done, under the key record
nobody has written to. -/
theorem not_untouched :
    registeredServer.responseAmid smallLibrary id firstRequest lowOrderCalls = some (0, []) ∧
      (registeredServer.sessions.heap 0).identity.generation = 1 ∧
      ¬Untouched registeredServer
        (registeredServer.handshakeAmid smallLibrary smallCipher id firstRequest lowOrderCalls).1
        0 := by
  refine ⟨by decide +kernel, by decide +kernel, fun h => ?_⟩
  have hbefore : (registeredServer.sessions.heap 0).identity.generation = 1 := by decide +kernel
  have hafter : ((registeredServer.handshakeAmid smallLibrary smallCipher id firstRequest
      lowOrderCalls).1.sessions.heap 0).identity.generation = 2 := by
    decide +kernel
  exact absurd (hafter.symm.trans (h.generation.trans hbefore)) (by decide)

/-- So it is when another worker has consumed the pending client. -/
theorem touched_consumed :
    registeredServer.responseAmid smallLibrary (fun hs => hs.dropPending 5) firstRequest
      lowOrderCalls = some (0, []) ∧
    ¬Untouched registeredServer (registeredServer.handshakeAmid smallLibrary smallCipher
      (fun hs => hs.dropPending 5) firstRequest lowOrderCalls).1 0 := by
  have hempty : registeredServer.responseAmid smallLibrary (fun hs => hs.dropPending 5)
      firstRequest lowOrderCalls = some (0, []) := by
    decide +kernel
  exact ⟨hempty, touched_of_empty smallLibrary smallCipher _ _ _ _ 0 hempty⟩

end Server

end Aegs
