import Mathlib.Logic.Equiv.Basic
import Mathlib.Logic.Function.Basic

/-!
# Functions applied in place

A function of a few words is applied to some places of a larger state, and what it gives is
written back to the same places (`InPlace.applyAt`). A program that does so at several sets of
places, one after another, does what the function does at all of them at once, in whatever
order it takes them: they only have to be disjoint (`InPlace.foldl_applyAt`).
-/

namespace InPlace

variable {ι κ σ W : Type}

/-- **In place**: the words at the places `q` are replaced by what the function makes of them,
and the others stay. -/
noncomputable def applyAt (q : κ → ι) (f : (κ → W) → κ → W) (x : ι → W) : ι → W :=
  Function.extend q (f (x ∘ q)) x

theorem applyAt_apply {q : κ → ι} (hq : Function.Injective q) (f : (κ → W) → κ → W) (x : ι → W)
    (k : κ) : applyAt q f x (q k) = f (x ∘ q) k :=
  hq.extend_apply _ _ _

theorem applyAt_of_forall_ne {q : κ → ι} (f : (κ → W) → κ → W) (x : ι → W) {i : ι}
    (h : ∀ k, q k ≠ i) : applyAt q f x i = x i := by
  refine Function.extend_apply' _ _ _ ?_
  rintro ⟨k, hk⟩
  exact h k hk

/-- Words at other places are not touched. -/
theorem applyAt_comp {q q' : κ → ι} (hdisj : ∀ k k', q k ≠ q' k') (f : (κ → W) → κ → W)
    (x : ι → W) : applyAt q f x ∘ q' = x ∘ q' := by
  funext k'
  exact applyAt_of_forall_ne f x fun k => hdisj k k'

/-- **All at once**: the sets of places `e (s, ·)` share no place and there is no other, and
each gets what the function makes of its words. -/
def allAtOnce (e : σ × κ ≃ ι) (f : (κ → W) → κ → W) (x : ι → W) : ι → W := fun i =>
  f (fun k => x (e ((e.symm i).1, k))) (e.symm i).2

section Order

variable {qs : σ → κ → ι} (hdisj : ∀ s t, s ≠ t → ∀ k k', qs s k ≠ qs t k')

include hdisj

/-- Where the order does not come by, nothing happens. -/
theorem foldl_applyAt_of_notMem (f : (κ → W) → κ → W) {order : List σ} {s : σ}
    (hs : s ∉ order) (x : ι → W) :
    (order.foldl (fun x t => applyAt (qs t) f x) x) ∘ qs s = x ∘ qs s := by
  induction order generalizing x with
  | nil => rfl
  | cons t order ih =>
    have hne : t ≠ s := fun heq => hs (heq ▸ List.mem_cons_self)
    rw [List.foldl_cons, ih (fun hmem => hs (List.mem_cons_of_mem _ hmem)),
      applyAt_comp (hdisj t s hne)]

/-- **One after another**: each set of places is met as it was in the beginning. -/
theorem foldl_applyAt (hinj : ∀ s, Function.Injective (qs s)) (f : (κ → W) → κ → W)
    {order : List σ} (hnodup : order.Nodup) {s : σ} (hs : s ∈ order) (x : ι → W) :
    (order.foldl (fun x t => applyAt (qs t) f x) x) ∘ qs s = f (x ∘ qs s) := by
  induction order generalizing x with
  | nil => exact absurd hs List.not_mem_nil
  | cons t order ih =>
    obtain ⟨hnot, hnodup⟩ := List.nodup_cons.mp hnodup
    rw [List.foldl_cons]
    rcases eq_or_ne s t with rfl | hne
    · rw [foldl_applyAt_of_notMem hdisj f hnot]
      funext k
      exact applyAt_apply (hinj s) f x k
    · rw [ih hnodup (List.mem_of_ne_of_mem hne hs), applyAt_comp (hdisj t s hne.symm)]

end Order

/-- A program that goes through all sets of places, each once, is the function applied to all
of them at once. -/
theorem foldl_eq_allAtOnce (e : σ × κ ≃ ι) (f : (κ → W) → κ → W) {order : List σ}
    (hnodup : order.Nodup) (hall : ∀ s, s ∈ order) (x : ι → W) :
    order.foldl (fun x s => applyAt (fun k => e (s, k)) f x) x = allAtOnce e f x := by
  have hinj : ∀ s, Function.Injective fun k => e (s, k) := by
    intro s k k' h
    exact (Prod.mk.inj (e.injective h)).2
  have hdisj : ∀ s t, s ≠ t → ∀ k k', e (s, k) ≠ e (t, k') := by
    intro s t hne k k' h
    exact hne (Prod.mk.inj (e.injective h)).1
  funext i
  have hi : e ((e.symm i).1, (e.symm i).2) = i := e.apply_symm_apply i
  have hplace := congrFun (foldl_applyAt hdisj hinj f hnodup (hall (e.symm i).1) x) (e.symm i).2
  rw [Function.comp_apply, hi] at hplace
  exact hplace

end InPlace
