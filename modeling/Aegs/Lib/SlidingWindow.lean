import Mathlib.Data.List.Induction
import Mathlib.Data.Nat.Basic

/-!
# Sliding windows of accepted numbers

What a replay window is for, with no bitmap in sight: a stream of numbers is
offered one at a time, each is accepted or rejected, and a number is accepted
when it is new and not too far behind the highest one accepted so far. How far
is too far is a parameter, the relation `near M n` (“`n` is close enough to the
highest accepted number `M`”), so that windows counted in numbers and windows
counted in words of a bitmap are instances of the same development.

A *filter* is any state machine that answers such a stream
(`SlidingWindow.Filter`). It refines the window when some relation between its
states and the accepted numbers is kept by every call and makes each verdict
the window's (`SlidingWindow.Refines`); what holds of whole runs
(`SlidingWindow.Refines.check_iff`, `SlidingWindow.Refines.nodup`) then follows
from the one-call statement alone.
-/

namespace SlidingWindow

/-! ### The window -/

/-- The highest accepted number, `0` before anything is accepted. -/
def highest (acc : List ℕ) : ℕ := acc.foldr max 0

@[simp] theorem highest_nil : highest [] = 0 := rfl

@[simp] theorem highest_cons (n : ℕ) (acc : List ℕ) :
    highest (n :: acc) = max n (highest acc) := rfl

theorem le_highest {acc : List ℕ} {n : ℕ} (h : n ∈ acc) : n ≤ highest acc := by
  induction acc with
  | nil => simp at h
  | cons m acc ih =>
    rw [highest_cons]
    rcases List.mem_cons.mp h with rfl | h
    · exact le_max_left _ _
    · exact le_trans (ih h) (le_max_right _ _)

/-- **The window's verdict**: `n` is not the reserved number `0`, has not been
accepted before, and is ahead of the highest accepted number or near it. -/
def Admits (near : ℕ → ℕ → Prop) (acc : List ℕ) (n : ℕ) : Prop :=
  n ≠ 0 ∧ n ∉ acc ∧ (highest acc < n ∨ near (highest acc) n)

/-- A window only ever moves forward: what is near a higher number was near, or
ahead of, every lower one. -/
def MovesForward (near : ℕ → ℕ → Prop) : Prop :=
  ∀ M M' n, M ≤ M' → near M' n → M < n ∨ near M n

/-- **Rejection is for good**: accepting another number never makes a rejected
one acceptable. -/
theorem Admits.of_cons {near : ℕ → ℕ → Prop} (hnear : MovesForward near) {acc : List ℕ}
    {m n : ℕ} (h : Admits near (m :: acc) n) : Admits near acc n := by
  obtain ⟨hn, hmem, hwin⟩ := h
  refine ⟨hn, fun hc => hmem (List.mem_cons_of_mem _ hc), ?_⟩
  rw [highest_cons] at hwin
  rcases hwin with hlt | hnear'
  · exact Or.inl (lt_of_le_of_lt (le_max_right _ _) hlt)
  · exact hnear _ _ _ (le_max_right _ _) hnear'

/-- What has just been accepted is not accepted again. -/
theorem not_admits_cons (near : ℕ → ℕ → Prop) (n : ℕ) (acc : List ℕ) :
    ¬Admits near (n :: acc) n :=
  fun h => h.2.1 (List.mem_cons_self)

/-! ### Filters -/

/-- A filter over calls of type `α`: a state, and a call that answers `true` to
reject and moves the state. `val` is the number a call is about. -/
structure Filter (σ α : Type*) where
  /-- The state a run starts from. -/
  init : σ
  /-- The number a call is about. -/
  val : α → ℕ
  /-- One call: the verdict (`true` rejects) and the state after it. -/
  check : σ → α → Bool × σ

namespace Filter

variable {σ α : Type*} (F : Filter σ α)

/-- One call, with the numbers accepted so far, latest first. -/
def call (s : σ × List ℕ) (x : α) : σ × List ℕ :=
  ((F.check s.1 x).2, if (F.check s.1 x).1 then s.2 else F.val x :: s.2)

/-- A run of calls from the initial state: the state reached and the numbers
accepted. -/
def run (xs : List α) : σ × List ℕ := xs.foldl F.call (F.init, [])

@[simp] theorem run_nil : F.run [] = (F.init, []) := rfl

theorem run_snoc (xs : List α) (x : α) : F.run (xs ++ [x]) = F.call (F.run xs) x := by
  simp [run]

end Filter

/-! ### Refinement -/

section Refinement

variable {σ α : Type*}

/-- **A filter refines the window** through the relation `R` between its states
and the accepted numbers: `R` holds at the start, and a call in related states
answers as the window does and leaves related states. -/
structure Refines (F : Filter σ α) (near : ℕ → ℕ → Prop) (R : σ → List ℕ → Prop) : Prop where
  /-- The initial state stands for nothing accepted. -/
  init : R F.init []
  /-- The verdict of a call is the window's. -/
  verdict : ∀ {s acc}, R s acc → ∀ x, (F.check s x).1 = false ↔ Admits near acc (F.val x)
  /-- An accepted call records its number. -/
  accept : ∀ {s acc}, R s acc → ∀ x, (F.check s x).1 = false →
    R (F.check s x).2 (F.val x :: acc)
  /-- A rejected call changes nothing that the relation sees. -/
  reject : ∀ {s acc}, R s acc → ∀ x, (F.check s x).1 = true → R (F.check s x).2 acc

variable {F : Filter σ α} {near : ℕ → ℕ → Prop} {R : σ → List ℕ → Prop}

theorem Refines.call (h : Refines F near R) {s : σ × List ℕ} (hs : R s.1 s.2) (x : α) :
    R (F.call s x).1 (F.call s x).2 := by
  rcases hv : (F.check s.1 x).1 with _ | _
  · simpa [Filter.call, hv] using h.accept hs x hv
  · simpa [Filter.call, hv] using h.reject hs x hv

/-- The relation holds after every run. -/
theorem Refines.run (h : Refines F near R) (xs : List α) : R (F.run xs).1 (F.run xs).2 := by
  induction xs using List.reverseRecOn with
  | nil => exact h.init
  | append_singleton xs x ih =>
    rw [Filter.run_snoc]
    exact h.call ih x

/-- **Every verdict of every run is the window's.** -/
theorem Refines.check_iff (h : Refines F near R) (xs : List α) (x : α) :
    (F.check (F.run xs).1 x).1 = false ↔ Admits near (F.run xs).2 (F.val x) :=
  h.verdict (h.run xs) x

/-- **No number is accepted twice.** -/
theorem Refines.nodup (h : Refines F near R) (xs : List α) : (F.run xs).2.Nodup := by
  induction xs using List.reverseRecOn with
  | nil => exact List.nodup_nil
  | append_singleton xs x ih =>
    rw [Filter.run_snoc]
    rcases hv : (F.check (F.run xs).1 x).1 with _ | _
    · have hnew : F.val x ∉ (F.run xs).2 := ((h.check_iff xs x).mp hv).2.1
      simpa [Filter.call, hv] using ⟨hnew, ih⟩
    · simpa [Filter.call, hv] using ih

end Refinement

end SlidingWindow
