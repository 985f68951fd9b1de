import Mathlib.Data.Fintype.Card
import Mathlib.Data.Finset.Card
import Mathlib.Algebra.BigOperators.Group.Finset.Piecewise

/-!
# Counting the parties in a place

How many parties of a finite system are in a place that satisfies `p`, and how
that number changes when one of them moves, or when one hands its place over to
another.
-/

namespace Aegs

namespace Counting

variable {ι α : Type*} [Fintype ι]

/-- The number of parties whose place satisfies `p`. -/
def count (p : α → Bool) (place : ι → α) : ℕ := (Finset.univ.filter fun i => p (place i)).card

theorem count_eq_zero_iff {p : α → Bool} {place : ι → α} :
    count p place = 0 ↔ ∀ i, p (place i) = false := by
  rw [count, Finset.card_eq_zero, Finset.filter_eq_empty_iff]
  simp

theorem count_pos {p : α → Bool} {place : ι → α} {i : ι} (hi : p (place i) = true) :
    0 < count p place := by
  rw [Nat.pos_iff_ne_zero, Ne, count_eq_zero_iff]
  intro h
  rw [h i] at hi
  exact absurd hi (by decide)

/-- Two places that exclude each other are counted apart. -/
theorem count_or {p q : α → Bool} (place : ι → α) (hdisj : ∀ x, p x = true → q x = false) :
    count (fun x => p x || q x) place = count p place + count q place := by
  classical
  rw [count, count, count, ← Finset.card_union_of_disjoint, ← Finset.filter_or]
  · simp
  · rw [Finset.disjoint_filter]
    intro i _ hp hq
    rw [hdisj _ hp] at hq
    exact absurd hq (by decide)

/-- **One party moves**: it leaves the count of its old place and enters that of
its new one. -/
theorem count_update [DecidableEq ι] (p : α → Bool) (place : ι → α) (i : ι) (x : α) :
    count p (Function.update place i x) + (p (place i)).toNat =
      count p place + (p x).toNat := by
  have hsum : ∀ f : ι → α, count p f = (p (f i)).toNat +
      ∑ j ∈ Finset.univ.erase i, (p (f j)).toNat := by
    intro f
    rw [count, Finset.card_filter, ← Finset.add_sum_erase _ _ (Finset.mem_univ i)]
    simp only [Bool.toNat, Bool.cond_eq_ite]
  have hrest : ∑ j ∈ Finset.univ.erase i, (p (Function.update place i x j)).toNat =
      ∑ j ∈ Finset.univ.erase i, (p (place j)).toNat := by
    refine Finset.sum_congr rfl fun j hj => ?_
    rw [Function.update_of_ne (Finset.ne_of_mem_erase hj)]
  rw [hsum, hsum place, Function.update_self, hrest]
  omega

/-- **A handover**: `i` takes the place of `j`, and what both leave behind counts
as what `i` had. -/
theorem count_handover [DecidableEq ι] (p : α → Bool) (place : ι → α) {i j : ι} (hij : i ≠ j)
    {x : α} (hx : p x = p (place i)) :
    count p (Function.update (Function.update place i (place j)) j x) = count p place := by
  have hfirst := count_update p place i (place j)
  have hsecond := count_update p (Function.update place i (place j)) j x
  rw [Function.update_of_ne hij.symm, hx] at hsecond
  omega

end Counting

end Aegs
