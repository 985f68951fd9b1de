import Mathlib.Data.List.Induction
import Mathlib.Logic.Function.Basic

/-!
# Runs of labelled transition systems

A system is a partial step function: `step s a = some s'` when the label `a` is
enabled in `s` and leads to `s'`. The label carries every choice the system does
not make itself – which thread moves, what the network hands over, how a library
call turns out – so that a run is a list of labels and can be evaluated.

Two rules carry the invariants of all the systems built on it.
`Transition.inv_of_runs` is the usual one. `Transition.inv_of_meets` is for
properties that hold only where every step meets a condition on the state before
it (`Transition.Meets`): the invariant then has to be kept by those steps alone.
-/

namespace Transition

variable {σ α : Type*} {step : σ → α → Option σ}

/-- The state a run leads to, if each of its labels was enabled in turn. -/
def runs (step : σ → α → Option σ) (s : σ) (as : List α) : Option σ := as.foldlM step s

@[simp] theorem runs_nil (s : σ) : runs step s [] = some s := rfl

theorem runs_cons (s : σ) (a : α) (as : List α) :
    runs step s (a :: as) = (step s a).bind fun t => runs step t as := by
  rw [runs, List.foldlM_cons]
  rfl

theorem runs_append (s : σ) (as bs : List α) :
    runs step s (as ++ bs) = (runs step s as).bind fun t => runs step t bs := by
  rw [runs, List.foldlM_append]
  rfl

/-- The last step of a run. -/
theorem runs_snoc {s t : σ} {as : List α} {a : α} :
    runs step s (as ++ [a]) = some t ↔ ∃ u, runs step s as = some u ∧ step u a = some t := by
  rw [runs_append, Option.bind_eq_some_iff]
  simp only [runs_cons, runs_nil, Option.bind_fun_some]

/-- **A run meets a condition**: each of its steps is taken from a state in which
the condition allows it. -/
def Meets (step : σ → α → Option σ) (ok : σ → α → Prop) : σ → List α → Prop
  | _, [] => True
  | s, a :: as => ok s a ∧ ∀ t ∈ step s a, Meets step ok t as

/-- A condition that can be tested state by state can be tested along a run. -/
instance decidableMeets (ok : σ → α → Prop) [∀ s a, Decidable (ok s a)] :
    ∀ (s : σ) (as : List α), Decidable (Meets step ok s as)
  | _, [] => isTrue trivial
  | s, a :: as =>
    haveI : ∀ t, Decidable (Meets step ok t as) := fun t => decidableMeets ok t as
    inferInstanceAs (Decidable (ok s a ∧ ∀ t ∈ step s a, Meets step ok t as))

variable {ok : σ → α → Prop} {I : σ → Prop}

/-- **The invariant rule**: what every step keeps holds in every state reached. -/
theorem inv_of_runs (hstep : ∀ {s a t}, I s → step s a = some t → I t) {s t : σ}
    {as : List α} (hs : I s) (hrun : runs step s as = some t) : I t := by
  induction as generalizing s with
  | nil =>
    obtain rfl : s = t := Option.some.inj hrun
    exact hs
  | cons a as ih =>
    rw [runs_cons, Option.bind_eq_some_iff] at hrun
    obtain ⟨u, hu, hrest⟩ := hrun
    exact ih (hstep hs hu) hrest

/-- **The invariant rule under a condition**: what every allowed step keeps holds
in every state reached by a run that meets the condition. -/
theorem inv_of_meets (hstep : ∀ {s a t}, I s → ok s a → step s a = some t → I t) {s t : σ}
    {as : List α} (hs : I s) (hok : Meets step ok s as) (hrun : runs step s as = some t) :
    I t := by
  induction as generalizing s with
  | nil =>
    obtain rfl : s = t := Option.some.inj hrun
    exact hs
  | cons a as ih =>
    rw [runs_cons, Option.bind_eq_some_iff] at hrun
    obtain ⟨u, hu, hrest⟩ := hrun
    exact ih (hstep hs hok.1 hu) (hok.2 u hu) hrest

/-- The rest of a run that meets a condition. -/
theorem Meets.of_append {s t : σ} {as bs : List α} (hok : Meets step ok s (as ++ bs))
    (hrun : runs step s as = some t) : Meets step ok t bs := by
  induction as generalizing s with
  | nil =>
    obtain rfl : s = t := Option.some.inj hrun
    exact hok
  | cons a as ih =>
    rw [runs_cons, Option.bind_eq_some_iff] at hrun
    obtain ⟨u, hu, hrest⟩ := hrun
    exact ih (hok.2 u hu) hrest

/-- A run that meets a condition goes on to meet it. -/
theorem Meets.append {s : σ} {as bs : List α} (hok : Meets step ok s as)
    (hrest : ∀ t, runs step s as = some t → Meets step ok t bs) :
    Meets step ok s (as ++ bs) := by
  induction as generalizing s with
  | nil => exact hrest s rfl
  | cons a as ih =>
    refine ⟨hok.1, fun u hu => ih (hok.2 u hu) fun t ht => hrest t ?_⟩
    rw [runs_cons, Option.mem_def.mp hu]
    exact ht

/-- A run that meets one condition meets another, where an invariant of the allowed
steps makes the one imply the other. -/
theorem Meets.imp {ok' : σ → α → Prop}
    (hstep : ∀ {s a t}, I s → ok s a → step s a = some t → I t)
    (himp : ∀ {s a}, I s → ok s a → ok' s a) {s : σ} {as : List α} (hs : I s)
    (hok : Meets step ok s as) : Meets step ok' s as := by
  induction as generalizing s with
  | nil => trivial
  | cons a as ih => exact ⟨himp hs hok.1, fun t ht => ih (hstep hs hok.1 ht) (hok.2 t ht)⟩

/-- A run that meets two conditions meets both at once. -/
theorem Meets.and {ok' : σ → α → Prop} {s : σ} {as : List α} (hok : Meets step ok s as)
    (hok' : Meets step ok' s as) : Meets step (fun s a => ok s a ∧ ok' s a) s as := by
  induction as generalizing s with
  | nil => trivial
  | cons a as ih => exact ⟨⟨hok.1, hok'.1⟩, fun t ht => ih (hok.2 t ht) (hok'.2 t ht)⟩

/-- **A history along a run**: it sees the state and the label of every step, and no
step sees it. -/
def recording {η : Type*} (step : σ → α → Option σ) (record : σ → η → α → η) (p : σ × η)
    (a : α) : Option (σ × η) :=
  (step p.1 a).map fun t => (t, record p.1 p.2 a)

/-- A history has no part in a condition on the states alone. -/
theorem meets_recording {η : Type*} (record : σ → η → α → η) {s : σ} (c : η) {as : List α} :
    Meets (recording step record) (fun p a => ok p.1 a) (s, c) as ↔ Meets step ok s as := by
  induction as generalizing s c with
  | nil => exact Iff.rfl
  | cons a as ih =>
    simp only [Meets, recording, Option.mem_def, Option.map_eq_some_iff]
    refine and_congr_right fun _ => ⟨fun h t ht => (ih _).mp (h _ ⟨t, ht, rfl⟩), ?_⟩
    rintro h _ ⟨t, ht, rfl⟩
    exact (ih _).mpr (h t ht)

/-- Conditions that are the same in every state are met by the same runs. -/
theorem meets_congr {ok' : σ → α → Prop} (h : ∀ s a, ok s a ↔ ok' s a) {s : σ} {as : List α} :
    Meets step ok s as ↔ Meets step ok' s as := by
  rw [show ok = ok' from funext₂ fun s a => propext (h s a)]

end Transition
