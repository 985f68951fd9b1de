import Mathlib.Data.Int.Notation
import Aegs.Client.Chaff

/-!
# Backpressure

Where the socket does not take what is to be sent, `BackpressureController` slows the sender down
and has it leave the TUN device alone for a while. It counts the failures in a row, and a question
of the sender makes it forget them when the last one is old enough. Only a full queue of the
socket counts: `EAGAIN`, `EWOULDBLOCK` and `ENOBUFS`.

The device is left alone only behind three failures in a row of which the last is recent, and it is
left alone whenever three in a row are (`Aegs.Client.paused_of_runs`).
-/

namespace Aegs

namespace Client

open Transition

/-- `errno`, as far as the code looks at it; `EWOULDBLOCK` is `EAGAIN`. -/
inductive Errno
  /-- `EAGAIN`. -/
  | again
  /-- `ENOBUFS`. -/
  | noBufs
  /-- Any other. -/
  | other
deriving DecidableEq

/-- `kMaxConsecutiveFailures`. -/
def maxConsecutiveFailures : ℕ := 3

/-- `kCooldownMs`. -/
def cooldownMs : ℤ := 15

/-- `kInitialCongestionDelayUs`. -/
def initialCongestionDelayUs : ℕ := 50

/-- `kMaxPacingDelayUs`. -/
def maxPacingDelayUs : ℕ := 2000

/-- `kAdditiveDecreaseUs`. -/
def additiveDecreaseUs : ℕ := 5

/-- `BackpressureController`. The size of a batch is left out, which no question about the device
depends on. -/
structure BackpressureController where
  /-- `consecutive_failures_`. It is an `int` that starts at nothing and only counts up, here
  without the bound at 2^31 failures in a row. -/
  consecutiveFailures : ℕ
  /-- `is_congested_`. -/
  isCongested : Bool
  /-- `last_failure_time_`, once there is one. -/
  lastFailureTime : ℤ
  /-- `pacing_delay_us_`. -/
  pacingDelayUs : ℕ
deriving DecidableEq

namespace BackpressureController

/-- The constructor. -/
def new : BackpressureController := ⟨0, false, 0, 0⟩

/-- `record_egress_success`. -/
def recordEgressSuccess (b : BackpressureController) : BackpressureController :=
  { b with
    consecutiveFailures := 0
    isCongested := false
    pacingDelayUs :=
      if b.pacingDelayUs > additiveDecreaseUs then b.pacingDelayUs - additiveDecreaseUs else 0 }

/-- `record_egress_failure`. -/
def recordEgressFailure (b : BackpressureController) (err : Errno) (now : ℤ) :
    BackpressureController :=
  if err = .again ∨ err = .noBufs then
    { b with
      consecutiveFailures := b.consecutiveFailures + 1
      lastFailureTime := now
      isCongested := b.isCongested || decide (maxConsecutiveFailures ≤ b.consecutiveFailures + 1)
      pacingDelayUs :=
        if b.pacingDelayUs = 0 then initialCongestionDelayUs
        else min maxPacingDelayUs (b.pacingDelayUs * 2) }
  else b

/-- `is_congested`, which changes what it looks at. -/
def congested (b : BackpressureController) (now : ℤ) : Bool × BackpressureController :=
  if !b.isCongested then (false, b)
  else if cooldownMs ≤ toMilliseconds (now - b.lastFailureTime) then
    (false, { b with isCongested := false, consecutiveFailures := 0 })
  else (true, b)

end BackpressureController

/-! ### Runs -/

/-- What became of an attempt to send. -/
inductive Attempt
  /-- It went out. -/
  | success
  /-- The socket did not take it, at a time. -/
  | failure (now : ℤ)
deriving DecidableEq

/-- The times of the failures behind the last success, the last first. -/
def streak : List Attempt → List ℤ
  | [] => []
  | .success :: _ => []
  | .failure now :: log => now :: streak log

/-- A controller with what it was told. -/
structure EgressState where
  /-- The controller. -/
  controller : BackpressureController
  /-- The last reading of the clock. -/
  now : ℤ
  /-- What it was told, the last first. -/
  log : List Attempt

/-- What the sender does with it. -/
inductive EgressEvent
  /-- It tells of a success. -/
  | success
  /-- It tells of a failure. -/
  | failure (err : Errno) (now : ℤ)
  /-- It asks whether to leave the device alone. -/
  | ask (now : ℤ)

/-- **One call**, on a clock that does not go back. -/
def EgressState.step (s : EgressState) : EgressEvent → Option EgressState
  | .success => some { s with
      controller := s.controller.recordEgressSuccess
      log := .success :: s.log }
  | .failure err now =>
    if s.now ≤ now then some {
      controller := s.controller.recordEgressFailure err now
      now := now
      log := if err = .other then s.log else .failure now :: s.log }
    else none
  | .ask now =>
    if s.now ≤ now then some { s with controller := (s.controller.congested now).2, now := now }
    else none

/-- The failure is recent. -/
def Recent (now t : ℤ) : Prop := toMilliseconds (now - t) < cooldownMs

instance (now t : ℤ) : Decidable (Recent now t) := by
  unfold Recent
  infer_instance

/-- What a controller knows of what it was told. -/
structure Counts (s : EgressState) : Prop where
  /-- Three failures are congestion. -/
  congested : s.controller.isCongested = true ↔
    maxConsecutiveFailures ≤ s.controller.consecutiveFailures
  /-- It counts failures in a row. -/
  le : s.controller.consecutiveFailures ≤ (streak s.log).length
  /-- It has the time of the last. -/
  last : ∀ t ∈ (streak s.log).head?, s.controller.lastFailureTime = t
  /-- No failure in a row is later. -/
  past : ∀ t ∈ streak s.log, t ≤ s.controller.lastFailureTime ∧ t ≤ s.now
  /-- It forgets no recent failure. -/
  recent : ((streak s.log).filter fun t => decide (Recent s.now t)).length ≤
    s.controller.consecutiveFailures

theorem counts_new (now : ℤ) : Counts ⟨.new, now, []⟩ where
  congested := by
    constructor
    · intro h
      cases h
    · intro h
      exact absurd h (by show ¬3 ≤ 0; decide)
  le := Nat.le_refl 0
  last := by
    rintro t ⟨⟩
  past := by
    rintro t ⟨⟩
  recent := Nat.le_refl 0

/-- What is not recent does not become so. -/
theorem Recent.of_le {now now' t : ℤ} (hnow : now ≤ now') (ht : t ≤ now) (h : Recent now' t) :
    Recent now t :=
  Int.lt_of_le_of_lt (toMilliseconds_le (by omega) (by omega)) h

/-- Fewer failures are recent as time passes. -/
theorem length_filter_recent_le {ts : List ℤ} {now now' : ℤ} (hnow : now ≤ now')
    (hts : ∀ t ∈ ts, t ≤ now) :
    (ts.filter fun t => decide (Recent now' t)).length ≤
      (ts.filter fun t => decide (Recent now t)).length := by
  rw [← List.countP_eq_length_filter, ← List.countP_eq_length_filter]
  refine List.countP_mono_left fun t ht h => ?_
  exact decide_eq_true ((of_decide_eq_true h).of_le hnow (hts t ht))

/-- The question, by what it finds. -/
theorem BackpressureController.congested_cases (b : BackpressureController) (now : ℤ) :
    (b.isCongested = false ∧ b.congested now = (false, b)) ∨
      (b.isCongested = true ∧ cooldownMs ≤ toMilliseconds (now - b.lastFailureTime) ∧
        b.congested now = (false, { b with isCongested := false, consecutiveFailures := 0 })) ∨
      (b.isCongested = true ∧ toMilliseconds (now - b.lastFailureTime) < cooldownMs ∧
        b.congested now = (true, b)) := by
  rw [congested]
  cases hcongested : b.isCongested with
  | false => exact Or.inl ⟨rfl, rfl⟩
  | true =>
    rw [Bool.not_true, if_neg Bool.false_ne_true]
    by_cases hcool : cooldownMs ≤ toMilliseconds (now - b.lastFailureTime)
    · rw [if_pos hcool]
      exact Or.inr (Or.inl ⟨rfl, hcool, rfl⟩)
    · rw [if_neg hcool]
      exact Or.inr (Or.inr ⟨rfl, by omega, rfl⟩)

/-- Behind a failure in a row, the time of the last is past. -/
theorem Counts.last_le {s : EgressState} (h : Counts s) {t : ℤ} (ht : t ∈ streak s.log) :
    s.controller.lastFailureTime ≤ s.now := by
  cases hstreak : streak s.log with
  | nil =>
    rw [hstreak] at ht
    cases ht
  | cons t' ts =>
    rw [h.last t' (by rw [hstreak]; rfl)]
    exact (h.past t' (by rw [hstreak]; exact List.mem_cons_self)).2

/-- Time passes. -/
theorem Counts.later {s : EgressState} (h : Counts s) {now : ℤ} (hnow : s.now ≤ now) :
    Counts { s with now := now } where
  congested := h.congested
  le := h.le
  last := h.last
  past := fun t ht => ⟨(h.past t ht).1, Int.le_trans (h.past t ht).2 hnow⟩
  recent :=
    Nat.le_trans (length_filter_recent_le hnow fun t ht => (h.past t ht).2) h.recent

/-- A failure that counts. -/
theorem Counts.recordEgressFailure {s : EgressState} (h : Counts s) {err : Errno}
    (hseen : err = .again ∨ err = .noBufs) :
    Counts { s with
      controller := s.controller.recordEgressFailure err s.now
      log := .failure s.now :: s.log } := by
  have hrecorded : s.controller.recordEgressFailure err s.now = _ := if_pos hseen
  refine ⟨?_, ?_, ?_, ?_, ?_⟩ <;> simp only [hrecorded, streak]
  · rw [Bool.or_eq_true, decide_eq_true_eq, h.congested]
    omega
  · exact Nat.succ_le_succ h.le
  · rintro t ⟨⟩
    rfl
  · intro t ht
    rcases List.mem_cons.mp ht with rfl | ht
    · exact ⟨Int.le_refl _, Int.le_refl _⟩
    · exact ⟨(h.past t ht).2, (h.past t ht).2⟩
  · have hnew : Recent s.now s.now := by
      rw [Recent, Int.sub_self]
      decide
    rw [List.filter_cons, if_pos (decide_eq_true hnew), List.length_cons]
    exact Nat.succ_le_succ h.recent

/-- A controller that starts again, with no recent failure in a row. -/
theorem Counts.restart {s : EgressState} (h : Counts s)
    (hold : ∀ t ∈ streak s.log, ¬Recent s.now t) :
    Counts { s with
      controller := { s.controller with isCongested := false, consecutiveFailures := 0 } } where
  congested := by
    constructor
    · intro hcongested
      cases hcongested
    · intro hthree
      exact absurd hthree (by show ¬3 ≤ 0; decide)
  le := Nat.zero_le _
  last := h.last
  past := h.past
  recent := by
    have hnone : (streak s.log).filter (fun t => decide (Recent s.now t)) = [] :=
      List.filter_eq_nil_iff.mpr fun t ht hrecent => hold t ht (of_decide_eq_true hrecent)
    rw [hnone]
    exact Nat.le_refl 0

/-- What is forgotten is as old as the last failure, and that has cooled down. -/
theorem Counts.not_recent {s : EgressState} (h : Counts s)
    (hcool : cooldownMs ≤ toMilliseconds (s.now - s.controller.lastFailureTime)) :
    ∀ t ∈ streak s.log, ¬Recent s.now t := by
  intro t ht hrecent
  have hle := (h.past t ht).1
  have hlast := h.last_le ht
  have hmono : toMilliseconds (s.now - s.controller.lastFailureTime) ≤
      toMilliseconds (s.now - t) := toMilliseconds_le (by omega) (by omega)
  rw [Recent] at hrecent
  omega

/-- **One call** keeps what the controller knows. -/
theorem Counts.step {s t : EgressState} (h : Counts s) {a : EgressEvent}
    (hstep : s.step a = some t) : Counts t := by
  cases a with
  | success =>
    obtain rfl := Option.some.inj hstep
    refine ⟨?_, Nat.le_refl 0, ?_, ?_, Nat.le_refl 0⟩
    · constructor
      · intro hcongested
        cases hcongested
      · intro hthree
        exact absurd hthree (by show ¬3 ≤ 0; decide)
    · rintro t ⟨⟩
    · rintro t ⟨⟩
  | failure err now =>
    rw [EgressState.step] at hstep
    split at hstep
    · rename_i hnow
      obtain rfl := Option.some.inj hstep
      have hlater := h.later hnow
      cases err with
      | again => exact hlater.recordEgressFailure (Or.inl rfl)
      | noBufs => exact hlater.recordEgressFailure (Or.inr rfl)
      | other => exact hlater
    · cases hstep
  | ask now =>
    rw [EgressState.step] at hstep
    split at hstep
    · rename_i hnow
      obtain rfl := Option.some.inj hstep
      have hlater := h.later hnow
      rcases s.controller.congested_cases now with ⟨-, heq⟩ | ⟨-, hcool, heq⟩ | ⟨-, -, heq⟩
      · rw [heq]
        exact hlater
      · rw [heq]
        exact hlater.restart (hlater.not_recent hcool)
      · rw [heq]
        exact hlater
    · cases hstep

/-- Every run of a new controller. -/
theorem counts_of_runs {start : ℤ} {as : List EgressEvent} {s : EgressState}
    (hrun : runs EgressState.step ⟨.new, start, []⟩ as = some s) : Counts s :=
  inv_of_runs (fun hu hstep => hu.step hstep) (counts_new start) hrun

/-- **When the device is left alone**: only if the last three attempts or more have failed and the
last failure is recent, and always if three failures in a row are recent. -/
theorem paused_of_runs {start : ℤ} {as : List EgressEvent} {s : EgressState}
    (hrun : runs EgressState.step ⟨.new, start, []⟩ as = some s) {now : ℤ}
    (hnow : s.now ≤ now) :
    ((s.controller.congested now).1 = true → maxConsecutiveFailures ≤ (streak s.log).length ∧
        ∀ t ∈ (streak s.log).head?, Recent now t) ∧
      (maxConsecutiveFailures ≤ ((streak s.log).filter fun t => decide (Recent now t)).length →
        (s.controller.congested now).1 = true) := by
  have h := counts_of_runs hrun
  constructor
  · intro hpaused
    rcases s.controller.congested_cases now with ⟨-, heq⟩ | ⟨-, -, heq⟩ | ⟨hcongested, hwarm, -⟩
    · rw [heq] at hpaused
      cases hpaused
    · rw [heq] at hpaused
      cases hpaused
    · refine ⟨Nat.le_trans (h.congested.mp hcongested) h.le, fun t ht => ?_⟩
      rw [Recent, ← h.last t ht]
      exact hwarm
  · intro hthree
    have hcount := Nat.le_trans hthree (Nat.le_trans
      (length_filter_recent_le hnow fun t ht => (h.past t ht).2) h.recent)
    have hcongested := h.congested.mpr hcount
    rcases s.controller.congested_cases now with ⟨hnot, -⟩ | ⟨-, hcool, -⟩ | ⟨-, -, heq⟩
    · rw [hcongested] at hnot
      cases hnot
    · -- the last failure is recent if any of the run is
      have hsome : ∃ t ∈ streak s.log, Recent now t := by
        by_contra hnone
        have hempty : (streak s.log).filter (fun t => decide (Recent now t)) = [] :=
          List.filter_eq_nil_iff.mpr fun t ht h => hnone ⟨t, ht, of_decide_eq_true h⟩
        rw [hempty] at hthree
        exact absurd hthree (by show ¬3 ≤ 0; decide)
      obtain ⟨t, ht, hrecent⟩ := hsome
      have hle := (h.past t ht).1
      have hlast := Int.le_trans (h.last_le ht) hnow
      have hmono : toMilliseconds (now - s.controller.lastFailureTime) ≤
          toMilliseconds (now - t) := toMilliseconds_le (by omega) (by omega)
      rw [Recent] at hrecent
      omega
    · rw [heq]

/-- Behind three failures at once. -/
theorem paused_of_runs_behind :
    ((BackpressureController.recordEgressFailure (BackpressureController.recordEgressFailure
      (BackpressureController.recordEgressFailure .new .again 7) .noBufs 7) .again
      7).congested 8).1 = true :=
  (@paused_of_runs 7 [.failure .again 7, .failure .noBufs 7, .failure .other 7,
    .failure .again 7] _ rfl 8 (by decide)).2 (by decide)

end Client

end Aegs
