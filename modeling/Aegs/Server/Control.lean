import Mathlib.Data.Fintype.Basic
import Aegs.Lib.Transition
import Aegs.Server.Operations

/-!
# The collector and the workers

The collector thread cleans up idle sessions and removes revoked ones while any number
of workers are in handshakes. Here the operations of `Aegs.Server.Operations` come
apart into their atomic steps (`Aegs.Server.Control.step`). A handshake reads the
routing and the crypto snapshot of the session it is going to use, allocates and maps
an address unless the session has one, builds the response, stores the counters, the
keys and the routing, and enters the endpoint. An idle cleanup checks the session,
stores the empty routing, reads and stores the crypto snapshot, unmaps the address and
releases it. A revocation reads the address and releases it, and `remove_session` then
erases the key id, reads the address again, unmaps it, purges the endpoint index and
waits for the readers of the session before it is recycled.

Nobody else is in the way: a thread that runs alone does what the operations say
(`Aegs.Server.Control.cleanup_alone`, `Aegs.Server.Control.revoke_alone`,
`Aegs.Server.Control.handshake_alone`).

## What is not in the source

For which session an address was allocated last, and whether it has been mapped to it
(`lease`), the sessions to whose snapshots handshakes stored, one for each store
(`installs`), and the log of what the collector unmapped and wiped. No step reads
them, the properties do.
-/

namespace Aegs

namespace Server

namespace Control

open Handshake Transition

/-- A handshake that has its session, with the snapshots it read. -/
structure Job (S : Type) where
  /-- `key_id_out`. -/
  keyId : UInt64
  /-- `orig_s`. -/
  orig : ℕ
  /-- `s`. -/
  session : ℕ
  /-- `cur_c`. -/
  crypto : SessionCrypto
  /-- `orig_c`. -/
  origCrypto : SessionCrypto
  /-- The datagram. -/
  d : Datagram
  /-- The library calls. -/
  calls : HandshakeCalls S

/-- Where a worker stands. -/
inductive Worker (S : Type)
  /-- Between two datagrams. -/
  | rest
  /-- `process_init` returned true. -/
  | accepted (keyId : UInt64) (d : Datagram) (calls : HandshakeCalls S)
  /-- The session has no address, `allocate` is next. -/
  | chosen (j : Job S)
  /-- Ahead of `map_ip`. -/
  | allocated (j : Job S) (ip : UInt32)
  /-- The address is known, `build_resp` is next. -/
  | addressed (j : Job S) (ip : UInt32)
  /-- Ahead of the stores to identity, counters and filter. -/
  | built (j : Job S) (ip : UInt32) (keys : SessionKeys)
  /-- Ahead of `set_crypto`. -/
  | touched (j : Job S) (ip : UInt32) (keys : SessionKeys)
  /-- Ahead of `set_routing`. -/
  | keyed (j : Job S) (ip : UInt32)
  /-- Ahead of `update_endpoint`. -/
  | routed (j : Job S)

/-- Where the collector thread stands. The count that comes with a session is history:
the stores of handshakes to it at the idle check. -/
inductive Collector
  /-- Between two sessions. -/
  | rest
  /-- The idle check found the session idle, with this address. -/
  | checked (p : ℕ) (ip : UInt32) (n : ℕ)
  /-- `set_routing(empty)` is done. -/
  | routingWiped (p : ℕ) (ip : UInt32) (n : ℕ)
  /-- `get_crypto` is done. -/
  | cryptoLoaded (p : ℕ) (ip : UInt32) (n : ℕ) (c : SessionCrypto)
  /-- `set_crypto` is done. -/
  | keysWiped (p : ℕ) (ip : UInt32)
  /-- `unmap_ip` is done. -/
  | unmapped (p : ℕ) (ip : UInt32)
  /-- A revocation has read the address of the session with this key id. -/
  | found (keyId : UInt64) (ip : UInt32)
  /-- It has released that address. -/
  | released (keyId : UInt64) (ip : UInt32)
  /-- `remove_session` has erased the key id. -/
  | erased (p : ℕ) (ip : UInt32)
  /-- It has read the address again. -/
  | reloaded (p : ℕ) (ip ip' : UInt32)
  /-- It has unmapped it. -/
  | purging (p : ℕ)
  /-- It has purged the endpoints, and waits for the readers. -/
  | quiescing (p : ℕ)

/-- History: what the collector took away. -/
inductive Event
  /-- The routing or the keys of a session, which handshakes had stored to `n` times at
  the idle check and `n'` times at the wipe. -/
  | wiped (p n n' : ℕ)
  /-- The route of an address on behalf of a session, and whom it led to. -/
  | unmapped (p : ℕ) (ip : UInt32) (owner : Option ℕ)
deriving DecidableEq

/-- The server, its threads, and the history. -/
structure State (S ι : Type) where
  /-- What the threads share. -/
  server : Server.State
  /-- The workers. -/
  worker : ι → Worker S
  /-- The collector thread. -/
  collector : Collector
  /-- History: the session an address was allocated for, and whether it is mapped. -/
  lease : UInt32 → Option (ℕ × Bool)
  /-- History: the sessions to whose snapshots handshakes stored, latest first. -/
  installs : List ℕ
  /-- History: what the collector took away, latest first. -/
  log : List Event

/-- The choices of a run. -/
inductive Action (S ι : Type)
  /-- A worker receives a datagram. -/
  | receive (w : ι) (d : Datagram) (calls : HandshakeCalls S)
  /-- A worker makes its next step. -/
  | next (w : ι)
  /-- The collector registers a device. -/
  | register (now : ℤ) (token customKidHex : String)
  /-- The collector stores the slots of a user, or erases them. -/
  | setSlots (keyId : UInt64) (slots : Option (List UInt64))
  /-- The idle check of a session. -/
  | check (now : ℤ) (p : ℕ)
  /-- A revocation of a key id begins. -/
  | revoke (keyId : UInt64)
  /-- The collector makes its next step. -/
  | collect

/-- Two stores to one session are one. -/
theorem setSession_setSession (t : SessionTable) (p : ℕ) (x y : Session) :
    (t.setSession p x).setSession p y = t.setSession p y := by
  simp [SessionTable.setSession]

/-- What the session at `p` holds after a store to it. -/
theorem heap_setSession (t : SessionTable) (p : ℕ) (x : Session) :
    (t.setSession p x).heap p = x := by
  simp [SessionTable.setSession]

section

variable {S ι : Type}

/-- The worker `w` goes to `x`. -/
def State.goto [DecidableEq ι] (s : State S ι) (w : ι) (x : Worker S) : State S ι :=
  { s with worker := Function.update s.worker w x }

@[simp] theorem goto_worker [DecidableEq ι] (s : State S ι) (w : ι) (x : Worker S) :
    (s.goto w x).worker w = x := by
  simp [State.goto]

theorem goto_worker_of_ne [DecidableEq ι] (s : State S ι) {w w' : ι} (h : w' ≠ w) (x : Worker S) :
    (s.goto w x).worker w' = s.worker w' := by
  simp [State.goto, h]

@[simp] theorem goto_server [DecidableEq ι] (s : State S ι) (w : ι) (x : Worker S) :
    (s.goto w x).server = s.server := rfl

/-- The collector goes to `x`. -/
def State.collectorTo (s : State S ι) (x : Collector) : State S ι := { s with collector := x }

/-- The session table becomes `t`. -/
def State.setTable (s : State S ι) (t : SessionTable) : State S ι :=
  { s with server := { s.server with sessions := t } }

/-- A store to the session at `p`. -/
def State.store (s : State S ι) (p : ℕ) (x : Session) : State S ι :=
  s.setTable (s.server.sessions.setSession p x)

/-- The session at `p`. -/
def State.session (s : State S ι) (p : ℕ) : Session := s.server.sessions.heap p

/-- `unmap_ip` by the collector on behalf of the session `p`, if there is an address. -/
def State.unmap (s : State S ι) (p : ℕ) (ip : UInt32) : State S ι :=
  if ip = 0 then s
  else { s.setTable (s.server.sessions.unmapIp ip) with
    log := .unmapped p ip (s.server.sessions.routes.lookup ip) :: s.log }

/-- `release` by the collector, if there is an address. -/
def State.release (s : State S ι) (ip : UInt32) : State S ι :=
  if ip = 0 then s
  else { s with
    server := { s.server with pool := s.server.pool.release ip }
    lease := Function.update s.lease ip none }

/-- `unmap_ip` on behalf of a session is `unmap_ip`. -/
theorem server_unmap (s : State S ι) (p : ℕ) (ip : UInt32) :
    (s.unmap p ip).server = { s.server with sessions := s.server.sessions.unmapIp ip } := by
  rw [State.unmap, SessionTable.unmapIp]
  split <;> rfl

@[simp] theorem worker_unmap (s : State S ι) (p : ℕ) (ip : UInt32) :
    (s.unmap p ip).worker = s.worker := by
  rw [State.unmap]
  split <;> rfl

/-- `release` of an address, if there is one. -/
theorem server_release (s : State S ι) (ip : UInt32) : (s.release ip).server =
    { s.server with pool := if ip ≠ 0 then s.server.pool.release ip else s.server.pool } := by
  rw [State.release, ite_not]
  split <;> rfl

@[simp] theorem worker_release (s : State S ι) (ip : UInt32) :
    (s.release ip).worker = s.worker := by
  rw [State.release]
  split <;> rfl

/-- The sessions of which a worker has a handle. -/
def Worker.reads : Worker S → ℕ → Bool
  | .rest, _ | .accepted .., _ => false
  | .chosen j, p | .allocated j _, p | .addressed j _, p | .built j _ _, p | .touched j _ _, p
  | .keyed j _, p | .routed j, p => p = j.session || p = j.orig

variable [DecidableEq ι] [Fintype ι] (L : Library S) (D : KeyDerivation)

/-- The next step of a worker. -/
def next (s : State S ι) (w : ι) : Option (State S ι) :=
  match s.worker w with
  | .rest => none
  | .accepted keyId d calls =>
    match s.server.sessions.findByKeyId keyId with
    | none => some (s.goto w .rest)
    | some orig =>
      let p := s.server.chooseSlot keyId orig d.caddr d.now
      let j : Job S := ⟨keyId, orig, p, (s.session p).crypto, (s.session orig).crypto, d, calls⟩
      let ip := s.server.sessions.assignedIp p
      some (s.goto w (if ip ≠ 0 then .addressed j ip else .chosen j))
  | .chosen j =>
    match s.server.pool.allocate with
    | (_, none) => some (s.goto w .rest)
    | (pool, some ip) =>
      some ({ s with
        server := { s.server with pool := pool }
        lease := Function.update s.lease ip (some (j.session, false)) }.goto w (.allocated j ip))
  | .allocated j ip =>
    some ({ s.setTable (s.server.sessions.mapIp ip j.session) with
      lease := Function.update s.lease ip (some (j.session, true)) }.goto w (.addressed j ip))
  | .addressed j ip =>
    let (hs, _, keys) := s.server.hs.buildResp L j.keyId ip 1280 j.calls.resp j.calls.keys
    some ({ s with server := { s.server with hs := hs } }.goto w (.built j ip keys))
  | .built j ip keys =>
    let x := s.session j.session
    some ((s.store j.session { x with
      identity := { x.identity with
        generation := x.identity.generation + 1
        sessionId := keys.sessionId
        baseKeyIdRaw := if j.session ≠ j.orig then j.keyId else x.identity.baseKeyIdRaw }
      txSeq := 0
      lastActivity := j.d.now
      replayFilter := .reset }).goto w (.touched j ip keys))
  | .touched j ip keys =>
    let x := s.session j.session
    let crypto := j.crypto.install keys (j.session ≠ j.orig) j.origCrypto
    some ({ s.store j.session { x with crypto := crypto } with
      installs := j.session :: s.installs }.goto w
        (.keyed j ip))
  | .keyed j ip =>
    let x := s.session j.session
    some ({ s.store j.session { x with routing := j.d.routing ip } with
      installs := j.session :: s.installs }.goto w
        (.routed j))
  | .routed j =>
    some ((s.setTable (s.server.sessions.updateEndpoint (makeEndpointKey j.d.caddr)
      j.session)).goto w .rest)

/-- The next step of the collector. -/
def collect (s : State S ι) : Option (State S ι) :=
  match s.collector with
  | .rest => none
  | .checked p ip n =>
    some ({ s.store p { s.session p with routing := .empty } with
      log := .wiped p n (s.installs.count p) :: s.log }.collectorTo (.routingWiped p ip n))
  | .routingWiped p ip n => some (s.collectorTo (.cryptoLoaded p ip n (s.session p).crypto))
  | .cryptoLoaded p ip n c =>
    let crypto := { c with sessionKeys := zeroKeys, v3HandshakeDone := false }
    some ({ s.store p { s.session p with crypto := crypto } with
      log := .wiped p n (s.installs.count p) :: s.log }.collectorTo (.keysWiped p ip))
  | .keysWiped p ip => some ((s.unmap p ip).collectorTo (.unmapped p ip))
  | .unmapped _ ip => some ((s.release ip).collectorTo .rest)
  | .found keyId ip => some ((s.release ip).collectorTo (.released keyId ip))
  | .released keyId ip =>
    match s.server.sessions.findByKeyId keyId with
    | none => some (s.collectorTo .rest)
    | some p =>
      let t := s.server.sessions
      some ((s.setTable { t with byKeyId := t.byKeyId.erase keyId }).collectorTo (.erased p ip))
  | .erased p ip => some (s.collectorTo (.reloaded p ip (s.server.sessions.assignedIp p)))
  | .reloaded p _ ip' => some ((s.unmap p ip').collectorTo (.purging p))
  | .purging p =>
    some ((s.setTable (s.server.sessions.eraseEndpoints fun q => q = p)).collectorTo (.quiescing p))
  | .quiescing p =>
    if ∀ w, (s.worker w).reads p = false then
      some ((s.store p (s.session p).recycle).collectorTo .rest)
    else none

/-- **One step**. -/
def step (s : State S ι) : Action S ι → Option (State S ι)
  | .receive w d calls => match s.worker w with
    | .rest =>
      let (hs, keyId) := s.server.hs.processInit L d.data calls.initMs calls.addr
      let s := { s with server := { s.server with hs := hs } }
      some (match keyId with
        | none => s
        | some keyId => s.goto w (.accepted keyId d calls))
    | _ => none
  | .next w => next L s w
  | .register now token customKidHex => match s.collector with
    | .rest => some { s with server := (s.server.registerDevice L D now token customKidHex).1 }
    | _ => none
  | .setSlots keyId slots => match s.collector with
    | .rest => some { s with server := { s.server with
        userSlots := match slots with
          | none => s.server.userSlots.erase keyId
          | some slots => s.server.userSlots.insert keyId slots } }
    | _ => none
  | .check now p => match s.collector with
    | .rest =>
      if p ∈ s.server.sessions.byKeyId.entries.map (fun entry => entry.2) then
        let x := s.session p
        if x.routing.hasClient ∧ now - x.lastActivity > 600000 then
          some (s.collectorTo (.checked p x.routing.assignedIp (s.installs.count p)))
        else some s
      else none
    | _ => none
  | .revoke keyId => match s.collector with
    | .rest =>
      let ip := ((s.server.sessions.findByKeyId keyId).map s.server.sessions.assignedIp).getD 0
      some ({ s with server := { s.server with hs := s.server.hs.removeUser keyId } }.collectorTo
        (.found keyId ip))
    | _ => none
  | .collect => collect s

/-- Threads at rest on a server. -/
def start (server : Server.State) : State S ι where
  server := server
  worker := fun _ => .rest
  collector := .rest
  lease := fun _ => none
  installs := []
  log := []

/-! ### A thread alone -/

/-- The collector takes these steps and is done. -/
def Finishes (s : State S ι) (as : List (Action S ι)) (server : Server.State) : Prop :=
  ∃ t, runs (step L D) s as = some t ∧ t.server = server ∧ t.collector = .rest ∧
    t.worker = s.worker

/-- **The idle cleanup of a session**, with nothing in between, is the one of
`cleanup_maps`. -/
theorem cleanup_alone (s : State S ι) (hrest : s.collector = .rest) (now : ℤ) {p : ℕ}
    (hp : p ∈ s.server.sessions.byKeyId.entries.map fun entry => entry.2) :
    ∃ as, Finishes L D s (.check now p :: as) (s.server.cleanupSession now p) := by
  by_cases hidle : (s.session p).routing.hasClient ∧ now - (s.session p).lastActivity > 600000
  · have hcheck : step L D s (.check now p) =
        some (s.collectorTo
          (.checked p (s.session p).routing.assignedIp (s.installs.count p))) := by
      simp only [step, hrest, hp, if_true, hidle, and_self]
    obtain ⟨t, ht, hserver, hcollector, hworker⟩ : Finishes L D
        (s.collectorTo (.checked p (s.session p).routing.assignedIp (s.installs.count p)))
        (List.replicate 5 .collect) (s.server.cleanupSession now p) := by
      refine ⟨_, rfl, ?_, rfl, ?_⟩
      · have hidle' : (s.server.sessions.heap p).routing.hasClient ∧
          now - (s.server.sessions.heap p).lastActivity > 600000 := hidle
        simp only [State.collectorTo, server_release, server_unmap, State.store, State.setTable,
          State.session, setSession_setSession, heap_setSession, Server.State.cleanupSession,
          if_pos hidle', Session.idle]
        split
        · rfl
        · rename_i hzero
          rw [SessionTable.unmapIp, if_pos (not_not.mp hzero)]
      · simp [State.collectorTo, State.store, State.setTable]
    exact ⟨_, t, by rw [runs_cons, hcheck, Option.bind_some, ht], hserver, hcollector, hworker⟩
  · refine ⟨[], s, ?_, ?_, hrest, rfl⟩
    · simp only [runs_cons, runs_nil, step, hrest, hp, if_true, hidle, if_false, Option.bind_some]
    · rw [Server.State.cleanupSession]
      exact (if_neg hidle).symm

/-- **A revocation**, with nothing in between and no reader of its session, is the one
of `sync_users_from_db`. -/
theorem revoke_alone (s : State S ι) (hrest : s.collector = .rest) (keyId : UInt64)
    (hreads : ∀ w p, (s.worker w).reads p = false) :
    ∃ as, Finishes L D s (.revoke keyId :: as) (s.server.revokeSlot keyId) := by
  rcases hfind : s.server.sessions.findByKeyId keyId with _ | p
  · refine ⟨List.replicate 2 .collect, ?_⟩
    simp only [Finishes, List.replicate, runs_cons, runs_nil, step, hrest, hfind, collect,
      State.collectorTo, Option.bind_some, server_release, worker_release]
    exact ⟨_, rfl, by simp [Server.State.revokeSlot, SessionTable.removeSession, hfind], rfl, rfl⟩
  · refine ⟨List.replicate 6 .collect, ?_⟩
    simp only [Finishes, List.replicate, runs_cons, runs_nil, step, hrest, hfind, collect,
      State.collectorTo, State.setTable, Option.bind_some, server_release, worker_release,
      server_unmap, worker_unmap, State.store, State.session, hreads, implies_true, if_true]
    exact ⟨_, rfl, by simp [Server.State.revokeSlot, SessionTable.removeSession, hfind], rfl, rfl⟩

/-- The steps of a handshake from the response on, with nothing in between. -/
theorem install_alone (T : TokenCipher) (s : State S ι) (w : ι) (j : Job S) (ip : UInt32)
    (hw : s.worker w = .addressed j ip) (hcrypto : j.crypto = (s.session j.session).crypto)
    (horig : j.origCrypto = (s.session j.orig).crypto) :
    ∃ t, runs (step L D) s (List.replicate 5 (.next w)) = some t ∧
      t.server = (s.server.install L T j.keyId j.orig j.session ip j.d j.calls).1 ∧
      t.worker w = .rest := by
  simp only [List.replicate, runs_cons, runs_nil, step, next, hw, Option.bind_some, State.store,
    State.setTable, State.session, goto_worker, goto_server, heap_setSession,
    setSession_setSession]
  refine ⟨_, rfl, ?_, goto_worker _ _ _⟩
  simp [Server.State.install, Session.install, hcrypto, horig, State.session]

/-- The worker has come to a state in which the address `ip` of the session `p` is known
and the server is `server`. -/
def Addresses (s : State S ι) (as : List (Action S ι)) (w : ι) (server : Server.State)
    (keyId : UInt64) (orig p : ℕ) (ip : UInt32) (d : Datagram) (calls : HandshakeCalls S) : Prop :=
  ∃ t c c', runs (step L D) s as = some t ∧ t.server = server ∧
    t.worker w = .addressed ⟨keyId, orig, p, c, c', d, calls⟩ ip ∧
    c = (t.session p).crypto ∧ c' = (t.session orig).crypto

theorem Addresses.installs {T : TokenCipher} {s : State S ι} {as : List (Action S ι)} {w : ι}
    {server : Server.State} {keyId : UInt64} {orig p : ℕ} {ip : UInt32} {d : Datagram}
    {calls : HandshakeCalls S} (h : Addresses L D s as w server keyId orig p ip d calls) :
    ∃ t, runs (step L D) s (as ++ List.replicate 5 (.next w)) = some t ∧
      t.server = (server.install L T keyId orig p ip d calls).1 ∧ t.worker w = .rest := by
  obtain ⟨t, c, c', ht, rfl, hw, hcrypto, horig⟩ := h
  obtain ⟨u, hu, hserver, hrest⟩ := install_alone L D T t w _ ip hw hcrypto horig
  exact ⟨u, by rw [runs_append, ht, Option.bind_some, hu], hserver, hrest⟩

/-- **A handshake**, with nothing in between, is the one of `process_udp_packet`. -/
theorem handshake_alone (T : TokenCipher) (s : State S ι) (w : ι) (hrest : s.worker w = .rest)
    (d : Datagram) (calls : HandshakeCalls S) :
    ∃ as t, runs (step L D) s (.receive w d calls :: as) = some t ∧
      t.server = (s.server.handshake L T d calls).1 ∧ t.worker w = .rest := by
  rw [Server.State.handshake]
  rcases hinit : s.server.hs.processInit L d.data calls.initMs calls.addr with ⟨hs, _ | keyId⟩
  · refine ⟨[], ?_⟩
    simp only [runs_cons, runs_nil, step, hrest, hinit, Option.bind_some]
    exact ⟨_, rfl, rfl, hrest⟩
  rcases hfind : s.server.sessions.findByKeyId keyId with _ | orig
  · refine ⟨[.next w], ?_⟩
    simp only [runs_cons, runs_nil, step, hrest, hinit, Option.bind_some, next, goto_worker,
      goto_server, hfind]
    exact ⟨_, rfl, rfl, goto_worker _ _ _⟩
  simp only [Server.State.assignIp]
  generalize hchosen :
    Server.State.chooseSlot { s.server with hs := hs } keyId orig d.caddr d.now = p
  by_cases hip : s.server.sessions.assignedIp p = 0
  · rcases halloc : s.server.pool.allocate with ⟨pool, _ | ip⟩
    · refine ⟨List.replicate 2 (.next w), ?_⟩
      simp only [List.replicate, runs_cons, runs_nil, step, hrest, hinit, Option.bind_some, next,
        goto_worker, goto_server, hfind, hchosen, hip, halloc, ne_eq, not_true_eq_false, if_false]
      exact ⟨_, rfl, rfl, goto_worker _ _ _⟩
    · have haddressed : Addresses L D s (.receive w d calls :: List.replicate 3 (.next w)) w
          { s.server with hs := hs, pool := pool, sessions := s.server.sessions.mapIp ip p }
          keyId orig p ip d calls := by
        simp only [Addresses, List.replicate, runs_cons, runs_nil, step, hrest, hinit,
          Option.bind_some, next, goto_worker, goto_server, hfind, hchosen, hip, halloc, ne_eq,
          not_true_eq_false, if_false, State.setTable]
        refine ⟨_, _, _, rfl, rfl, goto_worker _ _ _, ?_, ?_⟩
        all_goals simp [State.session]
      obtain ⟨t, ht, hserver, hw⟩ := haddressed.installs (T := T)
      refine ⟨_, t, ht, ?_, hw⟩
      rw [hserver]
      simp only [hfind, hchosen, hip, ne_eq, not_true_eq_false, if_false]
  · have haddressed : Addresses L D s (.receive w d calls :: List.replicate 1 (.next w)) w
        { s.server with hs := hs } keyId orig p (s.server.sessions.assignedIp p) d calls := by
      simp only [Addresses, List.replicate, runs_cons, runs_nil, step, hrest, hinit,
        Option.bind_some, next, goto_worker, goto_server, hfind, hchosen, hip, ne_eq,
        not_false_eq_true, if_true]
      exact ⟨_, _, _, rfl, rfl, goto_worker _ _ _, rfl, rfl⟩
    obtain ⟨t, ht, hserver, hw⟩ := haddressed.installs (T := T)
    refine ⟨_, t, ht, ?_, hw⟩
    rw [hserver]
    simp only [hfind, hchosen, hip, ne_eq, not_false_eq_true, if_true]

end

end Control

end Server

end Aegs
