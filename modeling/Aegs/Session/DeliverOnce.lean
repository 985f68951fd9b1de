import Mathlib.Data.Fintype.Basic
import Aegs.Session.DataPath

/-!
# Two-phase anti-replay between workers

Peek and commit are two critical sections, and `commit_replay` does not report
whether the number was already marked. With one worker the peek decides; with
two, copies of one datagram may both pass it before either is committed, and
both are then written to TUN (`Aegs.DataPath.not_deliverOnce`).

What the two phases do guarantee is the other half. As long as no copy of a
packet passes its peek while another one is between its peek and its commit, and
no reset falls between a commit and its TUN write, a sequence number is delivered
at most once between two resets (`Aegs.DataPath.deliverOnce_of_meets`). The
invariant counts, for each key and number, the workers that hold it: at most one,
and none once it is delivered.
-/

namespace Aegs

namespace DataPath

open Transition AntiReplayFilterT

variable {ι K P E : Type} (A : Aead K P)

/-! ### What is delivered between two resets -/

/-- The key and sequence number of every packet written to TUN since the last
reset of the filter, latest first. -/
def deliveredSinceReset : List (Event K P) → List (K × UInt64)
  | [] => []
  | .reset _ :: _ => []
  | .deliver c _ p :: l => (c.recvKey, A.seq p) :: deliveredSinceReset l
  | .commit .. :: l => deliveredSinceReset l
  | .reroute .. :: l => deliveredSinceReset l

/-- **At most one delivery between two resets** for each sequence number that
authenticates under a receive key. -/
def DeliverOnce (log : List (Event K P)) : Prop := (deliveredSinceReset A log).Nodup

/-! ### Who holds a sequence number -/

/-- The packet of a flight decrypts under the snapshot it carries. -/
def Flight.authentic (f : Flight K P E) : Bool :=
  f.crypto.v3HandshakeDone && A.opens f.crypto.recvKey f.pkt

/-- The key and the sequence number of a flight. -/
def Flight.number (f : Flight K P E) : K × UInt64 := (f.crypto.recvKey, A.seq f.pkt)

/-- The number a worker is about to commit: it has passed its peek and it
decrypts. -/
def inFlight : Pc K P E → Option (K × UInt64)
  | .peeked f => if f.authentic A then some (f.number A) else none
  | .opened f => some (f.number A)
  | _ => none

/-- The number a worker has committed and not yet written to TUN. -/
def undelivered : Pc K P E → Option (K × UInt64)
  | .committed f => some (f.number A)
  | .valid f => some (f.number A)
  | .loaded f _ => some (f.number A)
  | .accepted f => some (f.number A)
  | _ => none

/-- The worker holds the number `x`: committed or about to be, and not yet
written to TUN. -/
def Holds (pc : Pc K P E) (x : K × UInt64) : Prop :=
  inFlight A pc = some x ∨ undelivered A pc = some x

/-- What the condition below asks of the step a worker at `pc` is about to make. -/
def CopyFree (s : State ι K P E) : Pc K P E → Prop
  | .matched f => f.authentic A → s.replayFilter.checkPeek (A.seq f.pkt) = false →
      ∀ w', inFlight A (s.pc w') ≠ some (f.number A)
  | .rekey .txReset _ _ => ∀ w', undelivered A (s.pc w') = none
  | _ => True

/-- **No copy in flight**: a packet that decrypts passes its peek only when no
other worker is between the peek and the commit of the same number, and a filter
is reset only when no worker is between a commit and its TUN write. -/
def NoCopyInFlight (s : State ι K P E) : Action ι K P E → Prop
  | .next w => CopyFree A s (s.pc w)
  | _ => True

instance [Fintype ι] [DecidableEq K] (s : State ι K P E) :
    ∀ pc, Decidable (CopyFree A s pc)
  | .matched f => inferInstanceAs (Decidable (f.authentic A →
      s.replayFilter.checkPeek (A.seq f.pkt) = false →
        ∀ w', inFlight A (s.pc w') ≠ some (f.number A)))
  | .rekey .txReset _ _ => inferInstanceAs (Decidable (∀ w', undelivered A (s.pc w') = none))
  | .rekey .bumped _ _ | .rekey .filterReset _ _ | .rekey .cryptoSet _ _
  | .rekey (.routingLoaded _) _ _ | .idle | .handled .. | .tested .. | .snapped _ | .unmasked _
  | .searching .. | .candidate .. | .tried .. | .scanned .. | .copying .. | .found _ | .taken _
  | .peeked _ | .opened _ | .committed _ | .valid _ | .loaded .. | .accepted _ => isTrue trivial

instance [Fintype ι] [DecidableEq K] (s : State ι K P E) :
    ∀ a, Decidable (NoCopyInFlight A s a)
  | .next w => inferInstanceAs (Decidable (CopyFree A s (s.pc w)))
  | .start .. | .drop _ => isTrue trivial

/-- **The invariant**: a number is held by at most one worker, what is committed
or delivered is marked, and what is held has not been delivered. -/
structure HeldOnce (s : State ι K P E) : Prop where
  /-- The filter stands for some accepted numbers. -/
  coherent : Coherent s.replayFilter
  /-- The property itself. -/
  once : DeliverOnce A s.log
  /-- A delivered number is marked. -/
  delivered : ∀ x ∈ deliveredSinceReset A s.log, s.replayFilter.checkPeek x.2 = true
  /-- A committed number is marked. -/
  marked : ∀ w x, undelivered A (s.pc w) = some x → s.replayFilter.checkPeek x.2 = true
  /-- A held number has not been delivered. -/
  fresh : ∀ w x, Holds A (s.pc w) x → x ∉ deliveredSinceReset A s.log
  /-- No two workers hold the same number. -/
  alone : ∀ w w' x, Holds A (s.pc w) x → Holds A (s.pc w') x → w = w'

section Steps

variable [DecidableEq ι] {A} {s : State ι K P E}

/-- A worker that holds nothing new, in a state with the same filter and the same
deliveries, disturbs nothing. -/
theorem HeldOnce.goto (h : HeldOnce A s) {t : State ι K P E} {w : ι} {pc : Pc K P E}
    (hpc : t.pc = s.pc) (hfilter : t.replayFilter = s.replayFilter)
    (hlog : deliveredSinceReset A t.log = deliveredSinceReset A s.log)
    (hin : ∀ x, inFlight A pc = some x → inFlight A (s.pc w) = some x)
    (hun : ∀ x, undelivered A pc = some x → undelivered A (s.pc w) = some x) :
    HeldOnce A (t.goto w pc) := by
  have hun' : ∀ w', ∀ x, undelivered A ((t.goto w pc).pc w') = some x →
      undelivered A (s.pc w') = some x :=
    forall_goto (Q := fun w' pc' => ∀ x, undelivered A pc' = some x →
      undelivered A (s.pc w') = some x) hun (fun w' _ x hx => hpc ▸ hx)
  have hheld : ∀ w', ∀ x, Holds A ((t.goto w pc).pc w') x → Holds A (s.pc w') x :=
    forall_goto (Q := fun w' pc' => ∀ x, Holds A pc' x → Holds A (s.pc w') x)
      (fun x hx => hx.imp (hin x) (hun x)) (fun w' _ x hx => hpc ▸ hx)
  exact
    { coherent := by rw [goto_replayFilter, hfilter]; exact h.coherent
      once := by rw [DeliverOnce, goto_log, hlog]; exact h.once
      delivered := by rw [goto_log, goto_replayFilter, hlog, hfilter]; exact h.delivered
      marked := fun w' x hx => by
        rw [goto_replayFilter, hfilter]
        exact h.marked w' x (hun' w' x hx)
      fresh := fun w' x hx => by
        rw [goto_log, hlog]
        exact h.fresh w' x (hheld w' x hx)
      alone := fun w' w'' x hx hx' => h.alone w' w'' x (hheld w' x hx) (hheld w'' x hx') }

/-- **The peek**: a number that passes it is neither delivered nor committed, so
the condition leaves this worker alone with it. -/
theorem HeldOnce.peek (h : HeldOnce A s) {w : ι} {f : Flight K P E}
    (hpeek : s.replayFilter.checkPeek (A.seq f.pkt) = false)
    (hcopy : f.authentic A → ∀ w', inFlight A (s.pc w') ≠ some (f.number A)) :
    HeldOnce A (s.goto w (.peeked f)) := by
  have hnew : ∀ x, Holds A (.peeked f) x → f.authentic A ∧ x = f.number A := by
    rintro x (hx | hx)
    · by_cases hauth : f.authentic A
      · exact ⟨hauth, by simpa [inFlight, hauth, eq_comm] using hx⟩
      · simp [inFlight, hauth] at hx
    · simp [undelivered] at hx
  have hnone : f.authentic A → ∀ w', ¬Holds A (s.pc w') (f.number A) := by
    rintro hauth w' (hx | hx)
    · exact hcopy hauth w' hx
    · exact absurd (h.marked w' _ hx) (by simp [Flight.number, hpeek])
  have hundel : f.number A ∉ deliveredSinceReset A s.log := fun hx =>
    absurd (h.delivered _ hx) (by simp [Flight.number, hpeek])
  have hheld : ∀ w', ∀ x, Holds A ((s.goto w (.peeked f)).pc w') x →
      (w' = w ∧ f.authentic A ∧ x = f.number A) ∨ (w' ≠ w ∧ Holds A (s.pc w') x) :=
    forall_goto (Q := fun w' pc' => ∀ x, Holds A pc' x →
        (w' = w ∧ f.authentic A ∧ x = f.number A) ∨ (w' ≠ w ∧ Holds A (s.pc w') x))
      (fun x hx => Or.inl ⟨rfl, hnew x hx⟩) (fun w' hw x hx => Or.inr ⟨hw, hx⟩)
  exact
    { coherent := h.coherent
      once := h.once
      delivered := h.delivered
      marked := by
        refine forall_goto (Q := fun _ pc' => ∀ x, undelivered A pc' = some x →
          s.replayFilter.checkPeek x.2 = true) ?_ ?_
        · simp [undelivered]
        · exact fun w' _ x hx => h.marked w' x hx
      fresh := fun w' x hx => by
        rcases hheld w' x hx with ⟨-, -, rfl⟩ | ⟨-, hx⟩
        · exact hundel
        · exact h.fresh w' x hx
      alone := fun w' w'' x hx hx' => by
        rcases hheld w' x hx with ⟨hw, hauth, he⟩ | ⟨-, hold⟩ <;>
          rcases hheld w'' x hx' with ⟨hw', hauth', he'⟩ | ⟨-, hold'⟩
        · exact hw.trans hw'.symm
        · exact absurd (he ▸ hold') (hnone hauth w'')
        · exact absurd (he' ▸ hold) (hnone hauth' w')
        · exact h.alone w' w'' x hold hold' }

/-- **The commit**: the number of the worker is marked, and every mark stays. -/
theorem HeldOnce.commit (h : HeldOnce A s) {w : ι} {f : Flight K P E}
    (hpc : s.pc w = .opened f) :
    HeldOnce A ({ s with
      replayFilter := s.replayFilter.updateCommit (A.seq f.pkt)
      log := .commit f.crypto s.filterGen f.pkt :: s.log }.goto w (.committed f)) := by
  have hstay : ∀ n, s.replayFilter.checkPeek n = true →
      (s.replayFilter.updateCommit (A.seq f.pkt)).checkPeek n = true :=
    fun n hn => h.coherent.checkPeek_updateCommit hn _
  have hself : Holds A (s.pc w) (f.number A) := by
    rw [hpc]
    exact Or.inl rfl
  have hheld : ∀ w', ∀ x, Holds A ((s.goto w (.committed f)).pc w') x → Holds A (s.pc w') x := by
    refine forall_goto (Q := fun w' pc' => ∀ x, Holds A pc' x → Holds A (s.pc w') x) ?_
      (fun w' _ x hx => hx)
    rintro x (hx | hx)
    · simp [inFlight] at hx
    · obtain rfl : f.number A = x := by simpa [undelivered] using hx
      exact hself
  exact
    { coherent := h.coherent.updateCommit _
      once := h.once
      delivered := fun x hx => hstay _ (h.delivered x hx)
      marked := by
        refine forall_goto (Q := fun _ pc' => ∀ x, undelivered A pc' = some x →
          (s.replayFilter.updateCommit (A.seq f.pkt)).checkPeek x.2 = true) ?_ ?_
        · intro x hx
          obtain rfl : f.number A = x := by simpa [undelivered] using hx
          exact h.coherent.checkPeek_updateCommit_self _
        · exact fun w' _ x hx => hstay _ (h.marked w' x hx)
      fresh := fun w' x hx => h.fresh w' x (hheld w' x hx)
      alone := fun w' w'' x hx hx' => h.alone w' w'' x (hheld w' x hx) (hheld w'' x hx') }

/-- **The TUN write**: the number is delivered once, and nobody else holds it. -/
theorem HeldOnce.deliver (h : HeldOnce A s) {w : ι} {f : Flight K P E}
    (hpc : s.pc w = .accepted f) :
    HeldOnce A ({ s with
      log := .deliver f.crypto s.filterGen f.pkt :: s.log }.goto w .idle) := by
  have hun : undelivered A (s.pc w) = some (f.number A) := by
    rw [hpc]
    rfl
  have hheld : ∀ w', ∀ x, Holds A ((s.goto w .idle).pc w') x → w' ≠ w ∧ Holds A (s.pc w') x := by
    refine forall_goto (Q := fun w' pc' => ∀ x, Holds A pc' x → w' ≠ w ∧ Holds A (s.pc w') x) ?_
      (fun w' hw x hx => ⟨hw, hx⟩)
    rintro x (hx | hx)
    · simp [inFlight] at hx
    · simp [undelivered] at hx
  exact
    { coherent := h.coherent
      once := List.nodup_cons.mpr ⟨h.fresh w _ (Or.inr hun), h.once⟩
      delivered := fun x hx => by
        rcases List.mem_cons.mp hx with rfl | hx
        · exact h.marked w _ hun
        · exact h.delivered x hx
      marked := by
        refine forall_goto (Q := fun _ pc' => ∀ x, undelivered A pc' = some x →
          s.replayFilter.checkPeek x.2 = true) ?_ ?_
        · simp [undelivered]
        · exact fun w' _ x hx => h.marked w' x hx
      fresh := fun w' x hx hmem => by
        obtain ⟨hw, hx⟩ := hheld w' x hx
        rcases List.mem_cons.mp hmem with rfl | hmem
        · exact hw (h.alone w' w _ hx (Or.inr hun))
        · exact h.fresh w' x hx hmem
      alone := fun w' w'' x hx hx' =>
        h.alone w' w'' x (hheld w' x hx).2 (hheld w'' x hx').2 }

/-- **The reset**: nothing is delivered yet, and the condition leaves no
committed packet behind. -/
theorem HeldOnce.resetFilter (h : HeldOnce A s) {w : ι} {k : Rekey K E} {g : ℕ}
    (hnone : ∀ w', undelivered A (s.pc w') = none) :
    HeldOnce A ({ s with
      replayFilter := .reset
      filterGen := g
      log := .reset g :: s.log }.goto w (.rekey .filterReset k g)) := by
  have hun : ∀ w', ∀ x, undelivered A ((s.goto w (.rekey .filterReset k g)).pc w') ≠ some x := by
    refine forall_goto (Q := fun w' pc' => ∀ x, undelivered A pc' ≠ some x) ?_ ?_
    · simp [undelivered]
    · exact fun w' _ x => by simp [hnone w']
  have hheld : ∀ w', ∀ x, Holds A ((s.goto w (.rekey .filterReset k g)).pc w') x →
      Holds A (s.pc w') x := by
    refine forall_goto (Q := fun w' pc' => ∀ x, Holds A pc' x → Holds A (s.pc w') x) ?_
      (fun w' _ x hx => hx)
    rintro x (hx | hx)
    · simp [inFlight] at hx
    · simp [undelivered] at hx
  exact
    { coherent := coherent_reset
      once := List.nodup_nil
      delivered := fun x hx => absurd hx (List.not_mem_nil)
      marked := fun w' x hx => absurd hx (hun w' x)
      fresh := fun _ _ _ => List.not_mem_nil
      alone := fun w' w'' x hx hx' => h.alone w' w'' x (hheld w' x hx) (hheld w'' x hx') }

/-- Every step the condition allows keeps the invariant. -/
theorem HeldOnce.step [DecidableEq E] (h : HeldOnce A s) {a : Action ι K P E}
    {t : State ι K P E} (hok : NoCopyInFlight A s a) (hstep : step A s a = some t) :
    HeldOnce A t := by
  rcases step_cases hstep with ⟨w, j, rfl, -, rfl⟩ | ⟨w, rfl, hmove⟩ | ⟨w, f, rfl, hpc, rfl⟩
  · -- taking up a job holds nothing yet
    cases j with
    | cached p e => exact h.goto rfl rfl rfl (by simp [inFlight]) (by simp [undelivered])
    | scan p e => exact h.goto rfl rfl rfl (by simp [inFlight]) (by simp [undelivered])
    | rekey k =>
      exact h.goto (t := { s with generation := s.generation + 1, rekeys := s.rekeys + 1 }) rfl rfl
        rfl (by simp [inFlight]) (by simp [undelivered])
  · cases hmove with
    | test | outdated | snapshot | unmask | retest | overtaken | reach | attempt | skip | scan
    | copy | copied | uncopied | cache | take | refuse =>
      -- ahead of the peek a worker holds nothing
      exact h.goto rfl rfl rfl (by simp [inFlight]) (by simp [undelivered])
    | replay hpc hpeek => exact h.goto rfl rfl rfl (by simp [inFlight]) (by simp [undelivered])
    | peek hpc hpeek =>
      simp only [NoCopyInFlight, hpc, CopyFree] at hok
      exact h.peek hpeek fun hauth => hok hauth hpeek
    | @decrypt f hpc hopen =>
      refine h.goto rfl rfl rfl ?_ (by simp [undelivered])
      have hauth : f.authentic A = true := hopen
      simp [hpc, inFlight, hauth]
    | forged hpc => exact h.goto rfl rfl rfl (by simp [inFlight]) (by simp [undelivered])
    | commit hpc => exact h.commit hpc
    | isValid hpc hgen =>
      exact h.goto rfl rfl rfl (by simp [inFlight]) (by simp [hpc, undelivered])
    | stale hpc hgen => exact h.goto rfl rfl rfl (by simp [inFlight]) (by simp [hpc, undelivered])
    | load hpc => exact h.goto rfl rfl rfl (by simp [inFlight]) (by simp [hpc, undelivered])
    | keep hpc hcur => exact h.goto rfl rfl rfl (by simp [inFlight]) (by simp [hpc, undelivered])
    | @reroute f cur hpc hcur =>
      exact h.goto (t := { s with
        routing := { cur with client := some f.ep }
        log := .reroute f.crypto s.routingGen f.pkt :: s.log }) rfl rfl rfl
        (by simp [inFlight]) (by simp [hpc, undelivered])
    | deliver hpc => exact h.deliver hpc
    | resetTxSeq hpc =>
      exact h.goto (t := { s with txSeq := 0 }) rfl rfl rfl
        (by simp [inFlight]) (by simp [undelivered])
    | resetFilter hpc =>
      simp only [NoCopyInFlight, hpc, CopyFree] at hok
      exact h.resetFilter hok
    | @setCrypto k g hpc =>
      exact h.goto (t := { s with crypto := ⟨k.key, true, g⟩ }) rfl rfl rfl
        (by simp [inFlight]) (by simp [undelivered])
    | loadRouting hpc => exact h.goto rfl rfl rfl (by simp [inFlight]) (by simp [undelivered])
    | @setRouting st k g cur hpc hst =>
      exact h.goto (t := { s with routing := k.routing cur, routingGen := g }) rfl rfl rfl
        (by simp [inFlight]) (by simp [undelivered])
  · exact h.goto rfl rfl rfl (by simp [inFlight]) (by simp [undelivered])

end Steps

/-! ### Runs -/

theorem heldOnce_init (zero : K) : HeldOnce A (init zero : State ι K P E) where
  coherent := coherent_reset
  once := List.nodup_nil
  delivered := fun _ hx => absurd hx List.not_mem_nil
  marked := fun w x hx => by simp [init, undelivered] at hx
  fresh := fun _ _ _ => List.not_mem_nil
  alone := fun w w' x hx _ => by simp [Holds, init, inFlight, undelivered] at hx

/-- **Each sequence number is delivered at most once between two resets** in every
state of a run in which no copy is in flight at a peek and no commit is
undelivered at a reset. -/
theorem deliverOnce_of_meets [DecidableEq ι] [DecidableEq E] (zero : K)
    (as : List (Action ι K P E)) (s : State ι K P E)
    (hok : Meets (step A) (NoCopyInFlight A) (init zero) as)
    (hrun : runs (step A) (init zero) as = some s) : DeliverOnce A s.log :=
  (inv_of_meets (I := HeldOnce A) (fun h hok hstep => h.step hok hstep)
    (heldOnce_init A zero) hok hrun).once

/-! ### Two copies, two workers -/

/-- An ideal AEAD over packets that name their key and their sequence number. -/
def idealAead : Aead ℕ (ℕ × UInt64) where
  seq := Prod.snd
  opens k p := k == p.1

/-- A handshake that installs the key `7`, run to its end by the first worker. -/
def handshakeRun : List (Action Bool ℕ (ℕ × UInt64) ℕ) :=
  .start false (.rekey ⟨.handshake, 7, 0x0A080002, 1⟩) :: List.replicate 4 (.next false)

/-- Packet `1` and its copy from another source port, step by step in turn. -/
def copyRun : List (Action Bool ℕ (ℕ × UInt64) ℕ) :=
  handshakeRun ++
    [.start false (.cached (7, 1) 1), .start true (.cached (7, 1) 2)] ++
    (List.replicate 12 [.next false, .next true]).flatten

/-- **Two workers deliver one packet twice**: both copies pass the peek before
either is committed. -/
theorem not_deliverOnce : ¬∀ (as : List (Action Bool ℕ (ℕ × UInt64) ℕ))
    (s : State Bool ℕ (ℕ × UInt64) ℕ),
    runs (step idealAead) (init 0) as = some s → DeliverOnce idealAead s.log := by
  intro h
  have hrun : (runs (step idealAead) (init 0) copyRun).map
      (fun s => deliveredSinceReset idealAead s.log) = some [(7, 1), (7, 1)] := by
    decide +kernel
  obtain ⟨s, hs, hlog⟩ := Option.map_eq_some_iff.mp hrun
  have honce := h copyRun s hs
  rw [DeliverOnce, hlog] at honce
  exact absurd honce (by decide)

/-- The same two copies, the second taken up after the first is committed. -/
def laterCopyRun : List (Action Bool ℕ (ℕ × UInt64) ℕ) :=
  handshakeRun ++ .start false (.cached (7, 1) 1) :: List.replicate 8 (.next false) ++
    .start true (.cached (7, 1) 2) :: List.replicate 6 (.next true) ++
    List.replicate 3 (.next false)

theorem deliverOnce_laterCopyRun :
    ∃ s, runs (step idealAead) (init 0) laterCopyRun = some s ∧ DeliverOnce idealAead s.log := by
  obtain ⟨s, hs⟩ := Option.isSome_iff_exists.mp
    (show (runs (step idealAead) (init 0) laterCopyRun).isSome = true by decide +kernel)
  exact ⟨s, hs, deliverOnce_of_meets idealAead 0 laterCopyRun s (by decide +kernel) hs⟩

end DataPath

end Aegs
