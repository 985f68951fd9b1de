import Mathlib.Logic.Function.Basic
import Aegs.Lib.Transition
import Aegs.Replay.Window

/-!
# The workers of one session

Any number of workers run `process_udp_packet` at once, and this file interleaves
what they do to one session: a data packet on its way to the TUN device, and a
handshake or resume installing new keys. Every step is one atomic access of the
source – an atomic load or store, or a critical section of the session's mutex –
so a run of `Aegs.DataPath.step` is one interleaving.

## The two step sequences

A data packet takes a handle and a snapshot of the keys, peeks at the replay
filter, decrypts, commits, checks that its handle is still valid, updates the
routing, and is written to TUN. The handle and the snapshot are taken in either
order: `find_by_endpoint` returns the handle and the snapshot is loaded after it,
while the predicate of `find_if` loads the snapshot first and the handle is made
when the match is copied out of the scan. A handle in a condition is a call of
`is_valid`, so between the two and the peek the generation is read several times:
before the snapshot and after it on the fast path, by the scan before its
predicate, and once more where the two paths meet.

A re-key bumps the generation, resets `tx_seq`, resets the filter, stores the
keys and stores the routing. A handshake knows the address it assigns beforehand,
a resume reads the current routing for it.

## History

The generation a snapshot, the filter or the routing was installed under, and the
log of what happened, are not in the source: no step reads them, the properties do.
-/

namespace Aegs

namespace DataPath

/-- What the AEAD and the wire format tell the data path about a datagram: the
sequence number in its nonce, and whether it decrypts under a key. -/
structure Aead (K P : Type) where
  /-- The first eight bytes of the nonce. -/
  seq : P → UInt64
  /-- `chacha20_poly1305_decrypt` succeeds. -/
  opens : K → P → Bool

/-- `SessionCrypto`, as far as the data path reads it. -/
structure SessionCrypto (K : Type) where
  /-- `session_keys.recv_key`. -/
  recvKey : K
  /-- `v3_handshake_done`. -/
  v3HandshakeDone : Bool
  /-- History: the number of the re-key that stored it. -/
  gen : ℕ
deriving DecidableEq

/-- `SessionRouting`: the assigned address, and the client endpoint the packets go
to (its address, socket and camouflage) if there is one. -/
structure SessionRouting (E : Type) where
  /-- `assigned_ip`. -/
  assignedIp : UInt32
  /-- `client_addr`, `last_server_fd`, `mimic_type`; `none` when `has_client` is off. -/
  client : Option E
deriving DecidableEq

/-- A handshake carries the address it assigns, a resume the one of its token. -/
inductive RekeyKind
  /-- Opcode 0x01. -/
  | handshake
  /-- Opcodes 0x04 and 0x05. -/
  | resume
deriving DecidableEq

/-- A handshake or resume the server has accepted. -/
structure Rekey (K E : Type) where
  /-- Handshake or resume. -/
  kind : RekeyKind
  /-- The receive key it derives. -/
  key : K
  /-- The address it assigns, or its token names. -/
  ip : UInt32
  /-- The endpoint it came from. -/
  ep : E
deriving DecidableEq

/-- A data packet with what the worker has read for it. -/
structure Flight (K P E : Type) where
  /-- The datagram. -/
  pkt : P
  /-- The endpoint it came from. -/
  ep : E
  /-- `SessionHandle::gen`. -/
  gen : UInt64
  /-- `matched_crypto`. -/
  crypto : SessionCrypto K
deriving DecidableEq

/-- How far a re-key has come. -/
inductive RekeyStage (E : Type)
  /-- The generation is bumped. -/
  | bumped
  /-- `tx_seq` is reset. -/
  | txReset
  /-- The filter is reset. -/
  | filterReset
  /-- The keys are stored. -/
  | cryptoSet
  /-- A resume has read the current routing. -/
  | routingLoaded (cur : SessionRouting E)
deriving DecidableEq

/-- Where a worker stands. -/
inductive Pc (K P E : Type)
  /-- Between two datagrams. -/
  | idle
  /-- `find_by_endpoint` returned a handle of this generation. -/
  | handled (pkt : P) (ep : E) (gen : UInt64)
  /-- The handle was valid, the snapshot is next. -/
  | tested (pkt : P) (ep : E) (gen : UInt64)
  /-- The snapshot is taken and the header matches. -/
  | snapped (f : Flight K P E)
  /-- The mask keys are tried. -/
  | unmasked (f : Flight K P E)
  /-- The scan is about to reach the session. -/
  | searching (pkt : P) (ep : E)
  /-- `find_if` has a candidate handle of this generation. -/
  | candidate (pkt : P) (ep : E) (gen : UInt64)
  /-- The candidate was valid, the predicate is next. -/
  | tried (pkt : P) (ep : E)
  /-- The predicate of `find_if` matched on this snapshot. -/
  | scanned (pkt : P) (ep : E) (crypto : SessionCrypto K)
  /-- The copy of the match has loaded the generation once. -/
  | copying (pkt : P) (ep : E) (crypto : SessionCrypto K) (gen : UInt64)
  /-- `find_if` returned a handle. -/
  | found (f : Flight K P E)
  /-- One of the paths has left a handle and a snapshot. -/
  | taken (f : Flight K P E)
  /-- Handle and snapshot are taken, and the handle was valid. -/
  | matched (f : Flight K P E)
  /-- `check_replay_peek` let it pass. -/
  | peeked (f : Flight K P E)
  /-- It decrypted. -/
  | opened (f : Flight K P E)
  /-- `commit_replay` is done. -/
  | committed (f : Flight K P E)
  /-- `is_valid` answered yes. -/
  | valid (f : Flight K P E)
  /-- `get_routing` is loaded. -/
  | loaded (f : Flight K P E) (cur : SessionRouting E)
  /-- The routing is up to date, the TUN write is next. -/
  | accepted (f : Flight K P E)
  /-- The re-key of this number. -/
  | rekey (stage : RekeyStage E) (k : Rekey K E) (gen : ℕ)
deriving DecidableEq

/-- What the history records. -/
inductive Event (K P : Type)
  /-- The filter was reset by the re-key of this number. -/
  | reset (gen : ℕ)
  /-- A packet was committed under `crypto` to the filter of re-key `filterGen`. -/
  | commit (crypto : SessionCrypto K) (filterGen : ℕ) (pkt : P)
  /-- A packet that decrypted under `crypto` stored the routing while the one of
  re-key `routingGen` was installed. -/
  | reroute (crypto : SessionCrypto K) (routingGen : ℕ) (pkt : P)
  /-- A packet that decrypted under `crypto` was written to TUN while the filter
  was of re-key `filterGen`. -/
  | deliver (crypto : SessionCrypto K) (filterGen : ℕ) (pkt : P)
deriving DecidableEq

/-- The session and its workers `ι`. -/
structure State (ι K P E : Type) where
  /-- `identity.generation`, which wraps. -/
  generation : UInt64
  /-- `counters.tx_seq`. -/
  txSeq : UInt64
  /-- `replay_filter`. -/
  replayFilter : AntiReplayFilter
  /-- `crypto_snap_`. -/
  crypto : SessionCrypto K
  /-- `routing_snap_`. -/
  routing : SessionRouting E
  /-- The workers. -/
  pc : ι → Pc K P E
  /-- History: how many re-keys have begun. -/
  rekeys : ℕ
  /-- History: the number of the last re-key that reset the filter. -/
  filterGen : ℕ
  /-- History: the number of the last re-key that stored the routing. -/
  routingGen : ℕ
  /-- History: what happened, latest first. -/
  log : List (Event K P)

/-- What an idle worker may take up. -/
inductive Job (K P E : Type)
  /-- A data packet whose endpoint is in the cache for this session, and whose header
  matches it. -/
  | cached (pkt : P) (ep : E)
  /-- A data packet that only the scan finds. -/
  | scan (pkt : P) (ep : E)
  /-- An accepted handshake or resume. -/
  | rekey (k : Rekey K E)

/-- The choices of a run: a worker takes up a job, makes its next step, or ends
its packet without the TUN write (chaff, a malformed frame, the TUN ACL). -/
inductive Action (ι K P E : Type)
  /-- An idle worker takes up a job. -/
  | start (w : ι) (j : Job K P E)
  /-- A worker makes its next step. -/
  | next (w : ι)
  /-- A decrypted packet that is not for TUN. -/
  | drop (w : ι)

section Goto

variable {ι K P E : Type} [DecidableEq ι]

/-- Worker `w` moves to `pc`. -/
def State.goto (s : State ι K P E) (w : ι) (pc : Pc K P E) : State ι K P E :=
  { s with pc := Function.update s.pc w pc }

@[simp] theorem goto_pc_self (s : State ι K P E) (w : ι) (pc : Pc K P E) :
    (s.goto w pc).pc w = pc := Function.update_self ..

theorem goto_pc_of_ne (s : State ι K P E) {w w' : ι} (pc : Pc K P E) (h : w' ≠ w) :
    (s.goto w pc).pc w' = s.pc w' := Function.update_of_ne h ..

@[simp] theorem goto_generation (s : State ι K P E) (w : ι) (pc : Pc K P E) :
    (s.goto w pc).generation = s.generation := rfl

@[simp] theorem goto_replayFilter (s : State ι K P E) (w : ι) (pc : Pc K P E) :
    (s.goto w pc).replayFilter = s.replayFilter := rfl

@[simp] theorem goto_crypto (s : State ι K P E) (w : ι) (pc : Pc K P E) :
    (s.goto w pc).crypto = s.crypto := rfl

@[simp] theorem goto_filterGen (s : State ι K P E) (w : ι) (pc : Pc K P E) :
    (s.goto w pc).filterGen = s.filterGen := rfl

@[simp] theorem goto_routingGen (s : State ι K P E) (w : ι) (pc : Pc K P E) :
    (s.goto w pc).routingGen = s.routingGen := rfl

@[simp] theorem goto_log (s : State ι K P E) (w : ι) (pc : Pc K P E) :
    (s.goto w pc).log = s.log := rfl

/-- What holds of every worker after `w` has moved: of `w` at its new place, and
of the others where they were. -/
theorem forall_goto {s : State ι K P E} {w : ι} {pc : Pc K P E} {Q : ι → Pc K P E → Prop}
    (hself : Q w pc) (hother : ∀ w', w' ≠ w → Q w' (s.pc w')) :
    ∀ w', Q w' ((s.goto w pc).pc w') := by
  intro w'
  by_cases hw : w' = w
  · subst hw
    rw [goto_pc_self]
    exact hself
  · rw [goto_pc_of_ne s pc hw]
    exact hother w' hw

end Goto

section Step

variable {ι K P E : Type} [DecidableEq ι] [DecidableEq E] (A : Aead K P)

/-- The routing a re-key stores. -/
def Rekey.routing (k : Rekey K E) (cur : SessionRouting E) : SessionRouting E where
  assignedIp := match k.kind with
    | .handshake => k.ip
    | .resume => if cur.assignedIp ≠ 0 then cur.assignedIp else k.ip
  client := some k.ep

/-- An idle worker takes up a job. A re-key begins by bumping the generation. -/
def start (s : State ι K P E) (w : ι) : Job K P E → State ι K P E
  | .cached p e => s.goto w (.handled p e s.generation)
  | .scan p e => s.goto w (.searching p e)
  | .rekey k => { s with generation := s.generation + 1, rekeys := s.rekeys + 1 }.goto w
      (.rekey .bumped k (s.rekeys + 1))

/-- The next step of a worker. -/
def next (s : State ι K P E) (w : ι) : Option (State ι K P E) :=
  match s.pc w with
  | .idle => none
  | .handled p e g =>
    if g = s.generation then some (s.goto w (.tested p e g))
    else some (s.goto w (.searching p e))
  | .tested p e g => some (s.goto w (.snapped ⟨p, e, g, s.crypto⟩))
  -- an answer `no` has the second mask key tried as well, and the next test follows
  | .snapped f => some (s.goto w (.unmasked f))
  | .unmasked f =>
    if f.gen = s.generation then some (s.goto w (.taken f))
    else some (s.goto w (.searching f.pkt f.ep))
  | .searching p e => some (s.goto w (.candidate p e s.generation))
  | .candidate p e g =>
    if g = s.generation then some (s.goto w (.tried p e)) else some (s.goto w .idle)
  | .tried p e => some (s.goto w (.scanned p e s.crypto))
  | .scanned p e c => some (s.goto w (.copying p e c s.generation))
  | .copying p e c g =>
    if g = s.generation then some (s.goto w (.found ⟨p, e, g, c⟩)) else some (s.goto w .idle)
  -- the answer decides about the endpoint cache only
  | .found f => some (s.goto w (.taken f))
  | .taken f =>
    if f.gen = s.generation then some (s.goto w (.matched f)) else some (s.goto w .idle)
  | .matched f =>
    if s.replayFilter.checkPeek (A.seq f.pkt) then some (s.goto w .idle)
    else some (s.goto w (.peeked f))
  | .peeked f =>
    if f.crypto.v3HandshakeDone && A.opens f.crypto.recvKey f.pkt then
      some (s.goto w (.opened f))
    else some (s.goto w .idle)
  | .opened f =>
    some ({ s with
      replayFilter := s.replayFilter.updateCommit (A.seq f.pkt)
      log := .commit f.crypto s.filterGen f.pkt :: s.log }.goto w (.committed f))
  | .committed f =>
    if f.gen = s.generation then some (s.goto w (.valid f)) else some (s.goto w (.accepted f))
  | .valid f => some (s.goto w (.loaded f s.routing))
  | .loaded f cur =>
    if cur.client = some f.ep then some (s.goto w (.accepted f))
    else
      some ({ s with
        routing := { cur with client := some f.ep }
        log := .reroute f.crypto s.routingGen f.pkt :: s.log }.goto w (.accepted f))
  | .accepted f =>
    some ({ s with log := .deliver f.crypto s.filterGen f.pkt :: s.log }.goto w .idle)
  | .rekey .bumped k g => some ({ s with txSeq := 0 }.goto w (.rekey .txReset k g))
  | .rekey .txReset k g =>
    some ({ s with
      replayFilter := .reset
      filterGen := g
      log := .reset g :: s.log }.goto w (.rekey .filterReset k g))
  | .rekey .filterReset k g =>
    some ({ s with crypto := ⟨k.key, true, g⟩ }.goto w (.rekey .cryptoSet k g))
  | .rekey .cryptoSet k g =>
    match k.kind with
    | .handshake =>
      some ({ s with routing := k.routing s.routing, routingGen := g }.goto w .idle)
    | .resume => some (s.goto w (.rekey (.routingLoaded s.routing) k g))
  | .rekey (.routingLoaded cur) k g =>
    some ({ s with routing := k.routing cur, routingGen := g }.goto w .idle)

/-- One step of the session. -/
def step (s : State ι K P E) : Action ι K P E → Option (State ι K P E)
  | .start w j => match s.pc w with
    | .idle => some (start s w j)
    | _ => none
  | .next w => next A s w
  | .drop w => match s.pc w with
    | .accepted _ => some (s.goto w .idle)
    | _ => none

/-- A session as it is registered: no handshake done, no client, an empty filter.
The receive key it holds is the zeroed one. -/
def init (zero : K) : State ι K P E where
  generation := 1
  txSeq := 0
  replayFilter := .reset
  crypto := ⟨zero, false, 0⟩
  routing := ⟨0, none⟩
  pc := fun _ => .idle
  rekeys := 0
  filterGen := 0
  routingGen := 0
  log := []

/-! ### What one step can do -/

/-- **The moves of a worker**, one constructor per branch of
`Aegs.DataPath.next`. -/
inductive Move (s : State ι K P E) (w : ι) : State ι K P E → Prop
  | test {p e g} (hpc : s.pc w = .handled p e g) (hgen : g = s.generation) :
      Move s w (s.goto w (.tested p e g))
  | outdated {p e g} (hpc : s.pc w = .handled p e g) (hgen : g ≠ s.generation) :
      Move s w (s.goto w (.searching p e))
  | snapshot {p e g} (hpc : s.pc w = .tested p e g) :
      Move s w (s.goto w (.snapped ⟨p, e, g, s.crypto⟩))
  | unmask {f} (hpc : s.pc w = .snapped f) : Move s w (s.goto w (.unmasked f))
  | retest {f} (hpc : s.pc w = .unmasked f) (hgen : f.gen = s.generation) :
      Move s w (s.goto w (.taken f))
  | overtaken {f} (hpc : s.pc w = .unmasked f) (hgen : f.gen ≠ s.generation) :
      Move s w (s.goto w (.searching f.pkt f.ep))
  | reach {p e} (hpc : s.pc w = .searching p e) :
      Move s w (s.goto w (.candidate p e s.generation))
  | attempt {p e g} (hpc : s.pc w = .candidate p e g) (hgen : g = s.generation) :
      Move s w (s.goto w (.tried p e))
  | skip {p e g} (hpc : s.pc w = .candidate p e g) (hgen : g ≠ s.generation) :
      Move s w (s.goto w .idle)
  | scan {p e} (hpc : s.pc w = .tried p e) : Move s w (s.goto w (.scanned p e s.crypto))
  | copy {p e c} (hpc : s.pc w = .scanned p e c) :
      Move s w (s.goto w (.copying p e c s.generation))
  | copied {p e c g} (hpc : s.pc w = .copying p e c g) (hgen : g = s.generation) :
      Move s w (s.goto w (.found ⟨p, e, g, c⟩))
  | uncopied {p e c g} (hpc : s.pc w = .copying p e c g) (hgen : g ≠ s.generation) :
      Move s w (s.goto w .idle)
  | cache {f} (hpc : s.pc w = .found f) : Move s w (s.goto w (.taken f))
  | take {f} (hpc : s.pc w = .taken f) (hgen : f.gen = s.generation) :
      Move s w (s.goto w (.matched f))
  | refuse {f} (hpc : s.pc w = .taken f) (hgen : f.gen ≠ s.generation) :
      Move s w (s.goto w .idle)
  | replay {f} (hpc : s.pc w = .matched f)
      (hpeek : s.replayFilter.checkPeek (A.seq f.pkt) = true) : Move s w (s.goto w .idle)
  | peek {f} (hpc : s.pc w = .matched f)
      (hpeek : s.replayFilter.checkPeek (A.seq f.pkt) = false) :
      Move s w (s.goto w (.peeked f))
  | decrypt {f} (hpc : s.pc w = .peeked f)
      (hopen : (f.crypto.v3HandshakeDone && A.opens f.crypto.recvKey f.pkt) = true) :
      Move s w (s.goto w (.opened f))
  | forged {f} (hpc : s.pc w = .peeked f) : Move s w (s.goto w .idle)
  | commit {f} (hpc : s.pc w = .opened f) :
      Move s w ({ s with
        replayFilter := s.replayFilter.updateCommit (A.seq f.pkt)
        log := .commit f.crypto s.filterGen f.pkt :: s.log }.goto w (.committed f))
  | isValid {f} (hpc : s.pc w = .committed f) (hgen : f.gen = s.generation) :
      Move s w (s.goto w (.valid f))
  | stale {f} (hpc : s.pc w = .committed f) (hgen : f.gen ≠ s.generation) :
      Move s w (s.goto w (.accepted f))
  | load {f} (hpc : s.pc w = .valid f) : Move s w (s.goto w (.loaded f s.routing))
  | keep {f cur} (hpc : s.pc w = .loaded f cur) (hcur : cur.client = some f.ep) :
      Move s w (s.goto w (.accepted f))
  | reroute {f cur} (hpc : s.pc w = .loaded f cur) (hcur : cur.client ≠ some f.ep) :
      Move s w ({ s with
        routing := { cur with client := some f.ep }
        log := .reroute f.crypto s.routingGen f.pkt :: s.log }.goto w (.accepted f))
  | deliver {f} (hpc : s.pc w = .accepted f) :
      Move s w ({ s with log := .deliver f.crypto s.filterGen f.pkt :: s.log }.goto w .idle)
  | resetTxSeq {k g} (hpc : s.pc w = .rekey .bumped k g) :
      Move s w ({ s with txSeq := 0 }.goto w (.rekey .txReset k g))
  | resetFilter {k g} (hpc : s.pc w = .rekey .txReset k g) :
      Move s w ({ s with
        replayFilter := .reset
        filterGen := g
        log := .reset g :: s.log }.goto w (.rekey .filterReset k g))
  | setCrypto {k g} (hpc : s.pc w = .rekey .filterReset k g) :
      Move s w ({ s with crypto := ⟨k.key, true, g⟩ }.goto w (.rekey .cryptoSet k g))
  | loadRouting {k g} (hpc : s.pc w = .rekey .cryptoSet k g) :
      Move s w (s.goto w (.rekey (.routingLoaded s.routing) k g))
  | setRouting {st k g} (cur : SessionRouting E) (hpc : s.pc w = .rekey st k g)
      (hst : (st = .cryptoSet ∧ k.kind = .handshake) ∨ st = .routingLoaded cur) :
      Move s w ({ s with routing := k.routing cur, routingGen := g }.goto w .idle)

variable {A} {s t : State ι K P E} {w : ι}

/-- Every step of a worker is one of its moves. -/
theorem move_of_next (h : next A s w = some t) : Move A s w t := by
  rw [next] at h
  cases hpc : s.pc w with
  | idle => simp [hpc] at h
  | handled p e g =>
    simp only [hpc] at h
    split at h <;> rename_i hgen <;> obtain rfl := Option.some.inj h
    · exact .test hpc hgen
    · exact .outdated hpc hgen
  | tested p e g =>
    simp only [hpc, Option.some.injEq] at h
    exact h ▸ .snapshot hpc
  | snapped f =>
    simp only [hpc, Option.some.injEq] at h
    exact h ▸ .unmask hpc
  | unmasked f =>
    simp only [hpc] at h
    split at h <;> rename_i hgen <;> obtain rfl := Option.some.inj h
    · exact .retest hpc hgen
    · exact .overtaken hpc hgen
  | searching p e =>
    simp only [hpc, Option.some.injEq] at h
    exact h ▸ .reach hpc
  | candidate p e g =>
    simp only [hpc] at h
    split at h <;> rename_i hgen <;> obtain rfl := Option.some.inj h
    · exact .attempt hpc hgen
    · exact .skip hpc hgen
  | tried p e =>
    simp only [hpc, Option.some.injEq] at h
    exact h ▸ .scan hpc
  | scanned p e c =>
    simp only [hpc, Option.some.injEq] at h
    exact h ▸ .copy hpc
  | copying p e c g =>
    simp only [hpc] at h
    split at h <;> rename_i hgen <;> obtain rfl := Option.some.inj h
    · exact .copied hpc hgen
    · exact .uncopied hpc hgen
  | found f =>
    simp only [hpc, Option.some.injEq] at h
    exact h ▸ .cache hpc
  | taken f =>
    simp only [hpc] at h
    split at h <;> rename_i hgen <;> obtain rfl := Option.some.inj h
    · exact .take hpc hgen
    · exact .refuse hpc hgen
  | matched f =>
    simp only [hpc] at h
    split at h <;> rename_i hpeek <;> obtain rfl := Option.some.inj h
    · exact .replay hpc hpeek
    · exact .peek hpc (by simpa using hpeek)
  | peeked f =>
    simp only [hpc] at h
    split at h <;> rename_i hopen <;> obtain rfl := Option.some.inj h
    · exact .decrypt hpc hopen
    · exact .forged hpc
  | opened f =>
    simp only [hpc, Option.some.injEq] at h
    exact h ▸ .commit hpc
  | committed f =>
    simp only [hpc] at h
    split at h <;> rename_i hgen <;> obtain rfl := Option.some.inj h
    · exact .isValid hpc hgen
    · exact .stale hpc hgen
  | valid f =>
    simp only [hpc, Option.some.injEq] at h
    exact h ▸ .load hpc
  | loaded f cur =>
    simp only [hpc] at h
    split at h <;> rename_i hcur <;> obtain rfl := Option.some.inj h
    · exact .keep hpc hcur
    · exact .reroute hpc hcur
  | accepted f =>
    simp only [hpc, Option.some.injEq] at h
    exact h ▸ .deliver hpc
  | rekey st k g =>
    cases st with
    | bumped =>
      simp only [hpc, Option.some.injEq] at h
      exact h ▸ .resetTxSeq hpc
    | txReset =>
      simp only [hpc, Option.some.injEq] at h
      exact h ▸ .resetFilter hpc
    | filterReset =>
      simp only [hpc, Option.some.injEq] at h
      exact h ▸ .setCrypto hpc
    | cryptoSet =>
      simp only [hpc] at h
      cases hk : k.kind <;> simp only [hk, Option.some.injEq] at h
      · exact h ▸ .setRouting s.routing hpc (Or.inl ⟨rfl, hk⟩)
      · exact h ▸ .loadRouting hpc
    | routingLoaded cur =>
      simp only [hpc, Option.some.injEq] at h
      exact h ▸ .setRouting cur hpc (Or.inr rfl)

/-- Every step takes up a job, is a move, or drops an accepted packet. -/
theorem step_cases {a : Action ι K P E} (h : step A s a = some t) :
    (∃ w j, a = .start w j ∧ s.pc w = .idle ∧ t = start s w j) ∨
      (∃ w, a = .next w ∧ Move A s w t) ∨
        ∃ w f, a = .drop w ∧ s.pc w = .accepted f ∧ t = s.goto w .idle := by
  cases a with
  | start w j =>
    simp only [step] at h
    split at h
    · rename_i hpc
      exact Or.inl ⟨w, j, rfl, hpc, (Option.some.inj h).symm⟩
    · exact absurd h (by simp)
  | next w => exact Or.inr (Or.inl ⟨w, rfl, move_of_next h⟩)
  | drop w =>
    simp only [step] at h
    split at h
    · rename_i f hpc
      exact Or.inr (Or.inr ⟨w, f, rfl, hpc, (Option.some.inj h).symm⟩)
    · exact absurd h (by simp)

end Step

end DataPath

end Aegs
