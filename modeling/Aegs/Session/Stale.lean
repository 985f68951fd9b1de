import Mathlib.Data.Fintype.Basic
import Aegs.Session.Handle

/-!
# Copies of stale handles

`SessionHandle` carries the generation its session had when the handle was made, and
`is_valid` compares the two. The move members carry that number on. The copy members do
not: they end in `reset(other.ptr)`, which reads the generation anew, so that a copy of a
handle that has been overtaken is valid again. `SessionTable::find_if` returns a copy: its
`return h` is of a reference into the vector of candidates.

The runs are those of `Aegs.ReaderEpoch`, one atomic access a step, with a record for each
handle (`Aegs.Stale.Trace`): whether the handle it was obtained from was valid then, and
the generation in which `find_if` evaluated its predicate on it, if it did. When the bumps
fall is a matter of the schedule (`Aegs.Stale.Clock`), and the schedule decides: as long as
the generations do not wrap, a handle that was obtained from a stale one stays stale, and
one that `find_if` returned is valid in the generation of the predicate only, exactly in
the runs where a bump between the load of a source, or the predicate, and the second load
of the copy never goes without one between the two loads of the copy
(`Aegs.Stale.meets_stays_iff`).
-/

namespace Aegs

namespace Stale

open Transition ReaderEpoch

/-! ### The system -/

/-- What is recorded about the handle in a slot. -/
structure Trace (σ : Type) where
  /-- The handle that the operation at work here copies. -/
  source : Option (Handle σ)
  /-- The handle was obtained from another, and that one was valid then, or was not. -/
  origin : Option Bool
  /-- The generation of the session when the predicate of `find_if` was evaluated. -/
  evaluated : Option UInt64
deriving DecidableEq

/-- Nothing is recorded. -/
def Trace.empty {σ : Type} : Trace σ := ⟨none, none, none⟩

/-- Sessions and handles with their records. -/
structure Traced (σ ι ρ R C : Type) where
  /-- The sessions, the handles and the recyclers. -/
  state : State σ ι ρ R C
  /-- The records. -/
  trace : ι → Trace σ

/-- The choices of a run. -/
inductive Event (σ ι ρ : Type)
  /-- A step of a handle or a recycler. -/
  | act (a : Action σ ι ρ)
  /-- `find_if` evaluates its predicate on a candidate. -/
  | evaluate (i : ι)

section

variable {σ ι ρ R C : Type} [DecidableEq σ] [DecidableEq ι] [DecidableEq ρ]

/-- `is_valid`. -/
def valid (st : State σ ι ρ R C) (h : Handle σ) : Bool :=
  match h.ptr with
  | none => false
  | some s => (st.session s).generation = h.gen

/-- The handle in a slot, null if there is none at rest. -/
def held (st : State σ ι ρ R C) (i : ι) : Handle σ :=
  match st.slot i with
  | .rest h => h
  | _ => .null

/-- A move takes the handle with what is recorded about it. -/
def transfer (st : Traced σ ι ρ R C) (i other : ι) : ι → Trace σ :=
  Function.update (Function.update st.trace i
    ⟨none, some (valid st.state (held st.state other)), (st.trace other).evaluated⟩) other .empty

/-- What an access records. A copy reads the generation in its first load. -/
def record (st : Traced σ ι ρ R C) : Action σ ι ρ → ι → Trace σ
  | .construct i _ | .reset i _ | .destroy i => Function.update st.trace i .empty
  | .copyConstruct i other =>
    Function.update st.trace i ⟨some (held st.state other), none, (st.trace other).evaluated⟩
  | .copyAssign i other =>
    if i = other then st.trace
    else Function.update st.trace i
      ⟨some (held st.state other), none, (st.trace other).evaluated⟩
  | .moveConstruct i other => transfer st i other
  | .moveAssign _ _ | .recycle _ _ | .nextRecycle _ | .rekey _ => st.trace
  | .next i => match st.state.slot i with
    | .taking other => transfer st i other
    | .loadGeneration s => Function.update st.trace i { st.trace i with
        origin := (st.trace i).source.map fun h =>
          decide ((st.state.session s).generation = h.gen) }
    | _ => st.trace

variable [Inhabited R] [Inhabited C]

/-- One step. -/
def step (st : Traced σ ι ρ R C) : Event σ ι ρ → Option (Traced σ ι ρ R C)
  | .act a => (ReaderEpoch.step st.state a).map fun state => ⟨state, record st a⟩
  | .evaluate i => match st.state.slot i with
    | .rest ⟨some s, _⟩ => some { st with
        trace := Function.update st.trace i { st.trace i with
          evaluated := some (st.state.session s).generation } }
    | _ => none

/-- No handle is constructed and nobody recycles. -/
def start : Traced σ ι ρ R C := ⟨init, fun _ => .empty⟩

/-! ### The property and the condition -/

omit [DecidableEq ι] [DecidableEq ρ] [Inhabited R] [Inhabited C] in
/-- **A stale handle stays stale**: a valid handle was obtained from none that was not
valid, and if it comes from `find_if`, its session is in the generation of the predicate. -/
structure Stays (st : Traced σ ι ρ R C) : Prop where
  /-- It was not obtained from a stale handle. -/
  origin : ∀ i h, st.state.slot i = .rest h → valid st.state h = true →
    (st.trace i).origin ≠ some false
  /-- It is of the generation of the predicate. -/
  evaluated : ∀ i h g, st.state.slot i = .rest h → valid st.state h = true →
    (st.trace i).evaluated = some g → h.gen = g

/-- The property holds behind the step. -/
def Kept (st : Traced σ ι ρ R C) (ev : Event σ ι ρ) : Prop :=
  ∀ st', step st ev = some st' → Stays st'

/-- The next generation of the session is not that of a handle that was obtained from a
stale one, or that `find_if` returned for another generation. -/
def NoReturn (st : Traced σ ι ρ R C) (s : σ) : Prop :=
  ∀ i h, st.state.slot i = .rest h → h.ptr = some s →
    h.gen = (st.state.session s).generation + 1 →
      (st.trace i).origin ≠ some false ∧ ∀ g, (st.trace i).evaluated = some g → h.gen = g

/-- No copy is admitted with a generation of its own: where the second load agrees with
the first, the copy has the generation of its source, and that of the predicate; and no
bump brings back the number of a stale handle. -/
def Faithful (st : Traced σ ι ρ R C) : Event σ ι ρ → Prop
  | .act (.next i) => match st.state.slot i with
    | .reload s g => (st.state.session s).generation = g →
        (∀ h, (st.trace i).source = some h → g = h.gen) ∧
          ∀ g', (st.trace i).evaluated = some g' → g = g'
    | _ => True
  | .act (.rekey s) => NoReturn st s
  | .act (.nextRecycle r) => ∀ s, st.state.recycler r = some (s, .bump) → NoReturn st s
  | _ => True

/-! ### What a step changes -/

/-- The generation that a copy or a construction has loaded. -/
def loaded : Slot σ ι → Option UInt64
  | .checkRecycling _ g | .fetchAdd _ g | .recheck _ g | .reload _ g => some g
  | _ => none

/-- The sessions are in the same generations. -/
def SameGenerations (st st' : Traced σ ι ρ R C) : Prop :=
  ∀ s, (st'.state.session s).generation = (st.state.session s).generation

/-- **What a step changes**, as far as handles, records and generations go. -/
inductive Change (st st' : Traced σ ι ρ R C) : Event σ ι ρ → Prop
  /-- Nothing. -/
  | same {ev} (hgen : SameGenerations st st') (hslot : st'.state.slot = st.state.slot)
      (htrace : st'.trace = st.trace) : Change st st' ev
  /-- One slot goes on, and no handle comes of it yet. -/
  | goOn {ev} (i : ι) (x : Slot σ ι) (t : Trace σ) (hgen : SameGenerations st st')
      (hslot : st'.state.slot = Function.update st.state.slot i x)
      (htrace : st'.trace = Function.update st.trace i t)
      (hnull : ∀ h, x = .rest h → h.ptr = none)
      (hloaded : ∀ g, loaded x = some g →
        (loaded (st.state.slot i) = some g ∧ t = st.trace i) ∨
          t.origin = t.source.map fun h => decide (g = h.gen)) : Change st st' ev
  /-- A handle is moved. -/
  | transfer {ev} (i other : ι) (h : Handle σ) (hgen : SameGenerations st st')
      (hother : st.state.slot other = .rest h)
      (hslot : st'.state.slot =
        Function.update (Function.update st.state.slot i (.rest h)) other (.rest .null))
      (htrace : st'.trace = Stale.transfer st i other) : Change st st' ev
  /-- A construction or a copy is admitted. -/
  | admitted (i : ι) (s : σ) (g : UInt64) (hgen : SameGenerations st st')
      (hreload : st.state.slot i = .reload s g) (hsame : (st.state.session s).generation = g)
      (hslot : st'.state.slot = Function.update st.state.slot i (.rest ⟨some s, g⟩))
      (htrace : st'.trace = st.trace) : Change st st' (.act (.next i))
  /-- A generation is bumped. -/
  | bump {ev} (s : σ) (hbumped : (st'.state.session s).generation =
        (st.state.session s).generation + 1)
      (hothers : ∀ s', s' ≠ s →
        (st'.state.session s').generation = (st.state.session s').generation)
      (hslot : st'.state.slot = st.state.slot) (htrace : st'.trace = st.trace)
      (hevent : ev = .act (.rekey s) ∨
        ∃ r, ev = .act (.nextRecycle r) ∧ st.state.recycler r = some (s, .bump)) :
      Change st st' ev
  /-- The predicate is evaluated. -/
  | evaluate (i : ι) (s : σ) (g : UInt64) (hstate : st'.state = st.state)
      (hrest : st.state.slot i = .rest ⟨some s, g⟩)
      (htrace : st'.trace = Function.update st.trace i { st.trace i with
        evaluated := some (st.state.session s).generation }) : Change st st' (.evaluate i)

end

section Change

variable {σ ι ρ R C : Type}

/-- Behind a `release()` no handle is at rest that refers to a session, and no generation
has been loaded yet. -/
theorem after_slot (k : After σ ι) :
    (∀ h, k.slot = .rest h → h.ptr = none) ∧ loaded k.slot = none := by
  rcases k with _ | ⟨_ | s⟩ | other
  · exact ⟨fun h hrest => (nomatch hrest), rfl⟩
  · refine ⟨fun h hrest => ?_, rfl⟩
    obtain rfl : Handle.null = h := by simpa only [After.slot, Slot.rest.injEq] using hrest
    rfl
  · exact ⟨fun h hrest => (nomatch hrest), rfl⟩
  · exact ⟨fun h hrest => (nomatch hrest), rfl⟩

variable [DecidableEq ι]

/-- An operation that has loaded no generation yet goes on. -/
theorem Change.unloaded {st : Traced σ ι ρ R C} {ev : Event σ ι ρ} {state : State σ ι ρ R C}
    {i : ι} {x : Slot σ ι} {t : Trace σ}
    (hgen : ∀ s, (state.session s).generation = (st.state.session s).generation)
    (hslot : state.slot = st.state.slot) (hnull : ∀ h, x = .rest h → h.ptr = none)
    (hloaded : loaded x = none) :
    Change st ⟨state.goto i x, Function.update st.trace i t⟩ ev :=
  .goOn i x t hgen (by rw [goto_slot, hslot]) rfl hnull fun g hg => by
    rw [hloaded] at hg
    exact nomatch hg

/-- The same where nothing is recorded. -/
theorem Change.unrecorded {st : Traced σ ι ρ R C} {ev : Event σ ι ρ} {state : State σ ι ρ R C}
    {i : ι} {x : Slot σ ι}
    (hgen : ∀ s, (state.session s).generation = (st.state.session s).generation)
    (hslot : state.slot = st.state.slot) (hnull : ∀ h, x = .rest h → h.ptr = none)
    (hloaded : ∀ g, loaded x = some g → loaded (st.state.slot i) = some g) :
    Change st ⟨state.goto i x, st.trace⟩ ev :=
  .goOn i x (st.trace i) hgen (by rw [goto_slot, hslot]) (Function.update_eq_self i st.trace).symm
    hnull fun g hg => Or.inl ⟨hloaded g hg, rfl⟩

variable [DecidableEq σ]

omit [DecidableEq ι] in
/-- A session changes apart from its generation. -/
theorem generation_setSession (st : State σ ι ρ R C) (s : σ) (v : ReaderEpoch.Session R C)
    (hv : v.generation = (st.session s).generation) (s' : σ) :
    ((st.setSession s v).session s').generation = (st.session s').generation := by
  by_cases hs : s' = s
  · rw [setSession_session, hs, Function.update_self, hv]
  · rw [setSession_session, Function.update_of_ne hs]

/-- **The next step of an operation on a handle.** -/
theorem change_next {st : Traced σ ι ρ R C} {i : ι} {state : State σ ι ρ R C}
    (hstep : next st.state i = some state) :
    Change st ⟨state, record st (.next i)⟩ (.act (.next i)) := by
  unfold next at hstep
  simp only [record]
  split at hstep
  · exact nomatch hstep
  · exact nomatch hstep
  · -- the `release()` at the beginning of every operation
    rename_i h k hi
    rw [hi]
    have hgen : ∃ state' : State σ ι ρ R C, state = state'.goto i k.slot ∧
        state'.slot = st.state.slot ∧
        ∀ s, (state'.session s).generation = (st.state.session s).generation := by
      split at hstep
      · exact ⟨st.state, (Option.some.inj hstep).symm, rfl, fun s => rfl⟩
      · exact ⟨_, (Option.some.inj hstep).symm, rfl, generation_setSession st.state _ _ rfl⟩
    obtain ⟨state', rfl, hslot, hgen⟩ := hgen
    refine .unrecorded hgen hslot (after_slot k).1 fun g hg => ?_
    rw [(after_slot k).2] at hg
    exact nomatch hg
  · -- a move takes the handle over at once
    rename_i other hi
    rw [hi]
    split at hstep
    · rename_i h hother
      obtain rfl := Option.some.inj hstep
      exact .transfer i other h (fun s => rfl) hother rfl rfl
    · exact nomatch hstep
  · -- the first load of the generation
    rename_i s hi
    rw [hi]
    obtain rfl := Option.some.inj hstep
    refine .goOn i _ _ (fun s => rfl) rfl rfl (fun h hrest => nomatch hrest) fun g hg => ?_
    obtain rfl : (st.state.session s).generation = g := Option.some.inj hg
    exact Or.inr rfl
  · rename_i s g hi
    rw [hi]
    split at hstep <;> obtain rfl := Option.some.inj hstep
    · refine .unrecorded (fun s => rfl) rfl (fun h hrest => ?_) fun g hg => nomatch hg
      obtain rfl := Slot.rest.inj hrest
      rfl
    · refine .unrecorded (fun s => rfl) rfl (fun h hrest => nomatch hrest) fun g hg => ?_
      rw [hi]
      exact hg
  · rename_i s g hi
    rw [hi]
    obtain rfl := Option.some.inj hstep
    refine .unrecorded (generation_setSession st.state s _ rfl) rfl
      (fun h hrest => nomatch hrest) fun g hg => ?_
    rw [hi]
    exact hg
  · rename_i s g hi
    rw [hi]
    split at hstep <;> obtain rfl := Option.some.inj hstep
    · exact .unrecorded (fun s => rfl) rfl (fun h hrest => nomatch hrest) fun g hg => nomatch hg
    · refine .unrecorded (fun s => rfl) rfl (fun h hrest => nomatch hrest) fun g hg => ?_
      rw [hi]
      exact hg
  · rename_i s hi
    rw [hi]
    obtain rfl := Option.some.inj hstep
    refine .unrecorded (generation_setSession st.state s _ rfl) rfl (fun h hrest => ?_)
      fun g hg => nomatch hg
    obtain rfl := Slot.rest.inj hrest
    rfl
  · rename_i s g hi
    rw [hi]
    split at hstep <;> obtain rfl := Option.some.inj hstep
    · -- the second load finds the same generation
      rename_i hsame
      exact .admitted i s g (fun s => rfl) hi hsame rfl rfl
    · exact .unrecorded (fun s => rfl) rfl (fun h hrest => nomatch hrest) fun g hg => nomatch hg
  · rename_i s hi
    rw [hi]
    obtain rfl := Option.some.inj hstep
    refine .unrecorded (generation_setSession st.state s _ rfl) rfl (fun h hrest => ?_)
      fun g hg => nomatch hg
    obtain rfl := Slot.rest.inj hrest
    rfl

variable [DecidableEq ρ] [Inhabited R] [Inhabited C]

/-- A recycler changes the generation in its first step only. -/
theorem change_nextRecycle {st : Traced σ ι ρ R C} {r : ρ} {state : State σ ι ρ R C}
    (hstep : nextRecycle st.state r = some state) :
    Change st ⟨state, st.trace⟩ (.act (.nextRecycle r)) := by
  unfold nextRecycle at hstep
  split at hstep
  · exact nomatch hstep
  · rename_i s hr
    obtain rfl := Option.some.inj hstep
    refine .bump s ?_ (fun s' hs => ?_) rfl rfl (Or.inr ⟨r, rfl, hr⟩)
    · show ((st.state.bump s).session s).generation = _
      rw [State.bump, setSession_session, Function.update_self]
    · show ((st.state.bump s).session s').generation = _
      rw [State.bump, setSession_session, Function.update_of_ne hs]
  · split at hstep <;> obtain rfl := Option.some.inj hstep
    · exact .same (fun s => rfl) rfl rfl
    · exact .same (fun s => rfl) rfl rfl
  all_goals
    rename_i s hr
    obtain rfl := Option.some.inj hstep
    exact .same (generation_setSession st.state s _ rfl) rfl rfl

/-- **Every step** changes no more than `Aegs.Stale.Change` says. -/
theorem change_of_step {st st' : Traced σ ι ρ R C} {ev : Event σ ι ρ}
    (hstep : step st ev = some st') : Change st st' ev := by
  rcases ev with a | i
  · obtain ⟨state, hstate, rfl⟩ := Option.map_eq_some_iff.mp hstep
    cases a with
    | construct i s =>
      simp only [ReaderEpoch.step] at hstate
      split at hstate
      · obtain rfl := Option.some.inj hstate
        exact .unloaded (fun s => rfl) rfl (fun h hrest => nomatch hrest) rfl
      · exact nomatch hstate
    | copyConstruct i other =>
      simp only [ReaderEpoch.step] at hstate
      split at hstate
      · obtain rfl := Option.some.inj hstate
        exact .unloaded (fun s => rfl) rfl (fun h hrest => nomatch hrest) rfl
      · exact nomatch hstate
    | moveConstruct i other =>
      simp only [ReaderEpoch.step] at hstate
      split at hstate
      · rename_i h hi hother
        obtain rfl := Option.some.inj hstate
        exact .transfer i other h (fun s => rfl) hother rfl rfl
      · exact nomatch hstate
    | copyAssign i other =>
      simp only [ReaderEpoch.step] at hstate
      split at hstate
      · simp only [record]
        split at hstate <;> rename_i hsame <;> obtain rfl := Option.some.inj hstate
        · rw [if_pos hsame]
          exact .same (fun s => rfl) rfl rfl
        · rw [if_neg hsame]
          exact .unloaded (fun s => rfl) rfl (fun h hrest => nomatch hrest) rfl
      · exact nomatch hstate
    | moveAssign i other =>
      simp only [ReaderEpoch.step] at hstate
      split at hstate
      · split at hstate <;> obtain rfl := Option.some.inj hstate
        · exact .same (fun s => rfl) rfl rfl
        · exact .unrecorded (fun s => rfl) rfl (fun h hrest => nomatch hrest)
            fun g hg => nomatch hg
      · exact nomatch hstate
    | reset i s =>
      simp only [ReaderEpoch.step] at hstate
      split at hstate
      · obtain rfl := Option.some.inj hstate
        exact .unloaded (fun s => rfl) rfl (fun h hrest => nomatch hrest) rfl
      · exact nomatch hstate
    | destroy i =>
      simp only [ReaderEpoch.step] at hstate
      split at hstate
      · obtain rfl := Option.some.inj hstate
        exact .unloaded (fun s => rfl) rfl (fun h hrest => nomatch hrest) rfl
      · exact nomatch hstate
    | next i => exact change_next hstate
    | recycle r s =>
      simp only [ReaderEpoch.step] at hstate
      split at hstate
      · split at hstate <;> obtain rfl := Option.some.inj hstate
        · exact .same (fun s => rfl) rfl rfl
        · exact .same (generation_setSession st.state s _ rfl) rfl rfl
      · exact nomatch hstate
    | nextRecycle r => exact change_nextRecycle hstate
    | rekey s =>
      obtain rfl := Option.some.inj hstate
      refine .bump s ?_ (fun s' hs => ?_) rfl rfl (Or.inl rfl)
      · show ((st.state.bump s).session s).generation = _
        rw [State.bump, setSession_session, Function.update_self]
      · show ((st.state.bump s).session s').generation = _
        rw [State.bump, setSession_session, Function.update_of_ne hs]
  · simp only [step] at hstep
    split at hstep
    · rename_i s g hi
      obtain rfl := Option.some.inj hstep
      exact .evaluate i s g rfl hi rfl
    · exact nomatch hstep

end Change

/-! ### The invariant -/

section Invariant

variable {σ ι ρ R C : Type}

/-- **The first load decides**: a copy whose first load is made is marked as one of a valid
handle exactly if what it has read is the generation of its source. -/
def Marked (st : Traced σ ι ρ R C) : Prop :=
  ∀ i g, loaded (st.state.slot i) = some g →
    (st.trace i).origin = (st.trace i).source.map fun h => decide (g = h.gen)

/-- Whether a handle is valid depends on the generations alone. -/
theorem valid_congr {st st' : Traced σ ι ρ R C} (hgen : SameGenerations st st') (h : Handle σ) :
    valid st'.state h = valid st.state h := by
  rcases h with ⟨_ | s, g⟩
  · rfl
  · simp only [valid, hgen s]

/-- A valid handle refers to a session, and has its generation. -/
theorem valid_eq_true {st : State σ ι ρ R C} {h : Handle σ} :
    valid st h = true ↔ ∃ s, h.ptr = some s ∧ (st.session s).generation = h.gen := by
  rcases h with ⟨_ | s, g⟩
  · simp [valid]
  · simp [valid]

/-- A null handle is not valid. -/
theorem not_valid_of_null {st : State σ ι ρ R C} {h : Handle σ} (hnull : h.ptr = none) :
    valid st h ≠ true := by
  intro hvalid
  obtain ⟨s, hs, -⟩ := valid_eq_true.mp hvalid
  rw [hnull] at hs
  exact nomatch hs

/-- What the property says about one handle. -/
def Sound (st : State σ ι ρ R C) (h : Handle σ) (t : Trace σ) : Prop :=
  valid st h = true → t.origin ≠ some false ∧ ∀ g, t.evaluated = some g → h.gen = g

/-- The property speaks of every handle at rest. -/
theorem stays_iff {st : Traced σ ι ρ R C} :
    Stays st ↔ ∀ i h, st.state.slot i = .rest h → Sound st.state h (st.trace i) := by
  constructor
  · intro hstays i h hrest hvalid
    exact ⟨hstays.origin i h hrest hvalid, fun g => hstays.evaluated i h g hrest hvalid⟩
  · intro hsound
    exact ⟨fun i h hrest hvalid => (hsound i h hrest hvalid).1,
      fun i h g hrest hvalid => (hsound i h hrest hvalid).2 g⟩

/-- At the start nothing is at rest. -/
theorem stays_start [Inhabited R] [Inhabited C] : Stays (start : Traced σ ι ρ R C) :=
  stays_iff.mpr fun _ _ hrest => nomatch hrest

/-- At the start nothing is loaded. -/
theorem marked_start [Inhabited R] [Inhabited C] : Marked (start : Traced σ ι ρ R C) :=
  fun _ _ hloaded => nomatch hloaded

variable [DecidableEq ι]

/-- **Every step keeps the marks.** -/
theorem Marked.change {st st' : Traced σ ι ρ R C} {ev : Event σ ι ρ} (hm : Marked st)
    (hc : Change st st' ev) : Marked st' := by
  intro j g hg
  cases hc with
  | same hgen hslot htrace =>
    rw [hslot] at hg
    rw [htrace]
    exact hm j g hg
  | goOn i x t hgen hslot htrace hnull hloaded =>
    rw [hslot] at hg
    rw [htrace]
    by_cases hj : j = i
    · subst hj
      rw [Function.update_self] at hg ⊢
      rcases hloaded g hg with ⟨hold, rfl⟩ | hnew
      · exact hm j g hold
      · exact hnew
    · rw [Function.update_of_ne hj] at hg ⊢
      exact hm j g hg
  | transfer i other h hgen hother hslot htrace =>
    rw [hslot] at hg
    rw [htrace]
    by_cases hj : j = other
    · subst hj
      rw [Function.update_self] at hg
      exact nomatch hg
    · rw [Function.update_of_ne hj] at hg
      rw [Stale.transfer, Function.update_of_ne hj]
      by_cases hi : j = i
      · subst hi
        rw [Function.update_self] at hg
        exact nomatch hg
      · rw [Function.update_of_ne hi] at hg ⊢
        exact hm j g hg
  | admitted i s g' hgen hreload hsame hslot htrace =>
    rw [hslot] at hg
    rw [htrace]
    by_cases hj : j = i
    · subst hj
      rw [Function.update_self] at hg
      exact nomatch hg
    · rw [Function.update_of_ne hj] at hg
      exact hm j g hg
  | bump s hbumped hothers hslot htrace hevent =>
    rw [hslot] at hg
    rw [htrace]
    exact hm j g hg
  | evaluate i s g' hstate hrest htrace =>
    rw [hstate] at hg
    rw [htrace]
    by_cases hj : j = i
    · subst hj
      rw [hrest] at hg
      exact nomatch hg
    · rw [Function.update_of_ne hj]
      exact hm j g hg

/-- A handle that is at rest behind a move is the one that was moved, null, or was at rest
before. -/
theorem rest_of_transfer {slot : ι → Slot σ ι} {i other j : ι} {h h' : Handle σ}
    (hrest : Function.update (Function.update slot i (.rest h)) other (.rest .null) j =
      .rest h') :
    (j = other ∧ h' = .null) ∨ (j ≠ other ∧ j = i ∧ h' = h) ∨
      (j ≠ other ∧ j ≠ i ∧ slot j = .rest h') := by
  by_cases hj : j = other
  · rw [hj, Function.update_self] at hrest
    exact Or.inl ⟨hj, (Slot.rest.inj hrest).symm⟩
  · rw [Function.update_of_ne hj] at hrest
    by_cases hi : j = i
    · rw [hi, Function.update_self] at hrest
      exact Or.inr (Or.inl ⟨hj, hi, (Slot.rest.inj hrest).symm⟩)
    · rw [Function.update_of_ne hi] at hrest
      exact Or.inr (Or.inr ⟨hj, hi, hrest⟩)

/-- **A step keeps the property** where the condition is met. -/
theorem Stays.change {st st' : Traced σ ι ρ R C} {ev : Event σ ι ρ} (hs : Stays st)
    (hm : Marked st) (hin : Faithful st ev) (hc : Change st st' ev) : Stays st' := by
  rw [stays_iff] at hs ⊢
  intro j h hrest hvalid
  cases hc with
  | same hgen hslot htrace =>
    rw [hslot] at hrest
    rw [valid_congr hgen] at hvalid
    rw [htrace]
    exact hs j h hrest hvalid
  | goOn i x t hgen hslot htrace hnull hloaded =>
    rw [hslot] at hrest
    rw [valid_congr hgen] at hvalid
    rw [htrace]
    by_cases hj : j = i
    · -- what comes to rest without a load refers to no session
      rw [hj, Function.update_self] at hrest
      exact absurd hvalid (not_valid_of_null (hnull h hrest))
    · rw [Function.update_of_ne hj] at hrest ⊢
      exact hs j h hrest hvalid
  | transfer i other h' hgen hother hslot htrace =>
    rw [hslot] at hrest
    rw [valid_congr hgen] at hvalid
    rw [htrace, Stale.transfer]
    rcases rest_of_transfer hrest with ⟨-, rfl⟩ | ⟨hj, hi, rfl⟩ | ⟨hj, hi, hold⟩
    · exact absurd hvalid (not_valid_of_null rfl)
    · -- the handle was valid in its old place
      rw [Function.update_of_ne hj, hi, Function.update_self]
      have hheld : held st.state other = h := by rw [held, hother]
      refine ⟨?_, (hs other h hother hvalid).2⟩
      rw [hheld, hvalid]
      exact fun hfalse => absurd (Option.some.inj hfalse) (by decide)
    · rw [Function.update_of_ne hj, Function.update_of_ne hi]
      exact hs j h hold hvalid
  | admitted i s g hgen hreload hsame hslot htrace =>
    rw [hslot] at hrest
    rw [valid_congr hgen] at hvalid
    rw [htrace]
    by_cases hj : j = i
    · rw [hj, Function.update_self] at hrest
      obtain rfl := Slot.rest.inj hrest
      rw [hj]
      -- the copy is admitted: the condition says what its handle is worth
      have hcond := hin
      simp only [Faithful, hreload] at hcond
      obtain ⟨hsource, hevaluated⟩ := hcond hsame
      refine ⟨?_, hevaluated⟩
      rw [hm i g (by rw [hreload]; rfl)]
      intro hfalse
      obtain ⟨h', hh', hne⟩ := Option.map_eq_some_iff.mp hfalse
      exact absurd (hsource h' hh') (of_decide_eq_false hne)
    · rw [Function.update_of_ne hj] at hrest
      exact hs j h hrest hvalid
  | bump s hbumped hothers hslot htrace hevent =>
    rw [hslot] at hrest
    rw [htrace]
    obtain ⟨s', hptr, hsame⟩ := valid_eq_true.mp hvalid
    by_cases hss : s' = s
    · subst hss
      -- only a handle with the number that comes back would be valid again
      have hreturn : NoReturn st s' := by
        rcases hevent with rfl | ⟨r, rfl, hr⟩
        · exact hin
        · exact hin s' hr
      exact hreturn j h hrest hptr (by rw [← hsame, hbumped])
    · refine hs j h hrest (valid_eq_true.mpr ⟨s', hptr, ?_⟩)
      rw [← hothers s' hss]
      exact hsame
  | evaluate i s g hstate hi htrace =>
    rw [hstate] at hrest hvalid
    rw [htrace]
    by_cases hj : j = i
    · rw [hj, hi] at hrest
      obtain rfl := Slot.rest.inj hrest
      rw [hj, Function.update_self]
      refine ⟨(hs i _ hi hvalid).1, fun g' hg' => ?_⟩
      obtain ⟨s', hptr, hsame⟩ := valid_eq_true.mp hvalid
      obtain rfl : s = s' := Option.some.inj hptr
      exact hsame.symm.trans (Option.some.inj hg')
    · rw [Function.update_of_ne hj]
      exact hs j h hrest hvalid

end Invariant

/-! ### The runs that keep the property -/

section Runs

variable {σ ι ρ R C : Type}

/-- A bump makes the handles valid again that have the next number. -/
theorem noReturn_of_bump {st : Traced σ ι ρ R C} (st' : Traced σ ι ρ R C) {s : σ}
    (hs : Stays st')
    (hbumped : (st'.state.session s).generation = (st.state.session s).generation + 1)
    (hslot : st'.state.slot = st.state.slot) (htrace : st'.trace = st.trace) : NoReturn st s := by
  intro i h hrest hptr hnext
  rw [stays_iff] at hs
  have hvalid : valid st'.state h = true :=
    valid_eq_true.mpr ⟨s, hptr, by rw [hbumped, hnext]⟩
  rw [← htrace]
  exact hs i h (by rw [hslot, hrest]) hvalid

variable [DecidableEq σ] [DecidableEq ι] [DecidableEq ρ]

variable [Inhabited R] [Inhabited C]

/-- **A step that keeps the property meets the condition.** -/
theorem faithful_of_kept {st : Traced σ ι ρ R C} {ev : Event σ ι ρ} (hm : Marked st)
    (hkept : Kept st ev) : Faithful st ev := by
  rcases ev with (_ | _ | _ | _ | _ | _ | _ | i | _ | r | s) | _ <;> try exact trivial
  · -- the second load of the generation
    simp only [Faithful]
    split
    · rename_i s g hi
      intro hsame
      have hstep : step st (.act (.next i)) =
          some ⟨st.state.goto i (.rest ⟨some s, g⟩), st.trace⟩ := by
        simp only [step, ReaderEpoch.step, next, record, hi, if_pos hsame, Option.map_some]
      have hsound := stays_iff.mp (hkept _ hstep) i ⟨some s, g⟩ (by simp)
      obtain ⟨horigin, hevaluated⟩ := hsound (valid_eq_true.mpr ⟨s, rfl, hsame⟩)
      refine ⟨fun h hsource => ?_, hevaluated⟩
      have hmark := hm i g (by rw [hi]; rfl)
      rw [hsource, Option.map_some] at hmark
      by_contra hne
      exact horigin (by rw [hmark, decide_eq_false hne])
    · trivial
  · -- the bump of a recycler
    intro s hr
    refine noReturn_of_bump ⟨(st.state.bump s).setRecycler r (some (s, .quiesce)), st.trace⟩
      (hkept _ ?_) ?_ rfl rfl
    · simp only [step, ReaderEpoch.step, nextRecycle, record, hr, Option.map_some]
    · show ((st.state.bump s).session s).generation = _
      rw [State.bump, setSession_session, Function.update_self]
  · refine noReturn_of_bump ⟨st.state.bump s, st.trace⟩ (hkept _ rfl) ?_ rfl rfl
    show ((st.state.bump s).session s).generation = _
    rw [State.bump, setSession_session, Function.update_self]

/-- **A step that meets the condition keeps the property.** -/
theorem kept_of_faithful {st : Traced σ ι ρ R C} {ev : Event σ ι ρ} (hs : Stays st)
    (hm : Marked st) (hin : Faithful st ev) : Kept st ev :=
  fun _ hstep => hs.change hm hin (change_of_step hstep)

/-- The runs that keep the property, by the generation numbers that are read. -/
theorem meets_kept_iff (as : List (Event σ ι ρ)) :
    Meets step Kept (start : Traced σ ι ρ R C) as ↔
      Meets step Faithful (start : Traced σ ι ρ R C) as := by
  constructor
  · exact Meets.imp (I := fun st : Traced σ ι ρ R C => Marked st)
      (fun hm _ hstep => hm.change (change_of_step hstep)) faithful_of_kept marked_start
  · exact Meets.imp (I := fun st : Traced σ ι ρ R C => Stays st ∧ Marked st)
      (fun h hin hstep => ⟨kept_of_faithful h.1 h.2 hin _ hstep,
        h.2.change (change_of_step hstep)⟩)
      (fun h => kept_of_faithful h.1 h.2) ⟨stays_start, marked_start⟩

end Runs

/-! ### The schedule -/

/-- How often the session had been bumped at some moments in the history of a slot. -/
structure Counts where
  /-- At the load of the generation that its handle, or the operation at work here, has. -/
  load : ℕ
  /-- At that load of the handle which the operation at work here copies. -/
  source : Option ℕ
  /-- At the evaluation of the predicate of `find_if`. -/
  predicate : Option ℕ
deriving DecidableEq

/-- **The schedule of the bumps.** -/
structure Clock (σ ι : Type) where
  /-- How often each session has been bumped. -/
  bumps : σ → ℕ
  /-- The counts of each slot. -/
  counts : ι → Counts

/-- Nothing has happened yet. -/
def Clock.zero {σ ι : Type} : Clock σ ι := ⟨fun _ => 0, fun _ => ⟨0, none, none⟩⟩

section Schedule

variable {σ ι ρ R C : Type} [DecidableEq σ] [DecidableEq ι]

/-- The counts of a slot change. -/
def Clock.set (c : Clock σ ι) (i : ι) (m : Counts) : Clock σ ι :=
  { c with counts := Function.update c.counts i m }

/-- A session is bumped. -/
def Clock.bump (c : Clock σ ι) (s : σ) : Clock σ ι :=
  { c with bumps := Function.update c.bumps s (c.bumps s + 1) }

/-- A copy of the handle in `other` begins. -/
def Clock.copy (c : Clock σ ι) (i other : ι) : Clock σ ι :=
  c.set i ⟨0, some (c.counts other).load, (c.counts other).predicate⟩

/-- The handle in `other` is moved. -/
def Clock.transfer (c : Clock σ ι) (i other : ι) : Clock σ ι :=
  (c.set i ⟨(c.counts other).load, none, (c.counts other).predicate⟩).set other ⟨0, none, none⟩

/-- What a step adds to the schedule. -/
def tick (st : Traced σ ι ρ R C) (c : Clock σ ι) : Event σ ι ρ → Clock σ ι
  | .act (.construct i _) | .act (.reset i _) | .act (.destroy i) => c.set i ⟨0, none, none⟩
  | .act (.copyConstruct i other) => c.copy i other
  | .act (.copyAssign i other) => if i = other then c else c.copy i other
  | .act (.moveConstruct i other) => c.transfer i other
  | .act (.moveAssign _ _) | .act (.recycle _ _) => c
  | .act (.next i) => match st.state.slot i with
    | .taking other => c.transfer i other
    | .loadGeneration s => c.set i { c.counts i with load := c.bumps s }
    | _ => c
  | .act (.nextRecycle r) => match st.state.recycler r with
    | some (s, .bump) => c.bump s
    | _ => c
  | .act (.rekey s) => c.bump s
  | .evaluate i => match st.state.slot i with
    | .rest ⟨some s, _⟩ => c.set i { c.counts i with predicate := some (c.bumps s) }
    | _ => c

/-- The generation of no session wraps in the step. -/
def NoWrap (p : Traced σ ι ρ R C × Clock σ ι) (ev : Event σ ι ρ) : Prop :=
  ∀ s, (tick p.1 p.2 ev).bumps s < UInt64.size

omit [DecidableEq σ] [DecidableEq ι] in
/-- What the condition below asks of an operation that is about to make its next step. -/
def Punctual (c : Clock σ ι) (i : ι) : Slot σ ι → Prop
  | .reload s _ =>
    (∀ n ∈ (c.counts i).source, n ≠ c.bumps s → (c.counts i).load ≠ c.bumps s) ∧
      ∀ n ∈ (c.counts i).predicate, n ≠ c.bumps s → (c.counts i).load ≠ c.bumps s
  | _ => True

omit [DecidableEq σ] [DecidableEq ι] in
/-- **No late copy**: at the second load of a copy, a bump since the load of its source, or
since the predicate, comes with one between the two loads of the copy, which is then
refused. -/
def InTime (p : Traced σ ι ρ R C × Clock σ ι) : Event σ ι ρ → Prop
  | .act (.next i) => Punctual p.2 i (p.1.state.slot i)
  | _ => True

instance [Fintype σ] (p : Traced σ ι ρ R C × Clock σ ι) (ev : Event σ ι ρ) :
    Decidable (NoWrap p ev) :=
  inferInstanceAs (Decidable (∀ s, (tick p.1 p.2 ev).bumps s < UInt64.size))

instance (c : Clock σ ι) (i : ι) : ∀ x, Decidable (Punctual c i x)
  | .reload s _ => inferInstanceAs (Decidable
      ((∀ n ∈ (c.counts i).source, n ≠ c.bumps s → (c.counts i).load ≠ c.bumps s) ∧
        ∀ n ∈ (c.counts i).predicate, n ≠ c.bumps s → (c.counts i).load ≠ c.bumps s))
  | .dead | .rest _ | .releasing .. | .taking _ | .loadGeneration _ | .checkRecycling ..
  | .fetchAdd .. | .recheck .. | .backOut _ | .exitReader _ => isTrue trivial

instance (p : Traced σ ι ρ R C × Clock σ ι) : ∀ ev, Decidable (InTime p ev)
  | .act (.next i) => inferInstanceAs (Decidable (Punctual p.2 i (p.1.state.slot i)))
  | .act (.construct ..) | .act (.copyConstruct ..) | .act (.moveConstruct ..)
  | .act (.copyAssign ..) | .act (.moveAssign ..) | .act (.reset ..) | .act (.destroy _)
  | .act (.recycle ..) | .act (.nextRecycle _) | .act (.rekey _) | .evaluate _ => isTrue trivial

end Schedule

/-! ### The schedule tells the numbers -/

/-- The generation of a session that has been bumped `n` times. -/
def stamp (n : ℕ) : UInt64 := UInt64.ofNat (n + 1)

/-- A bump. -/
theorem stamp_succ (n : ℕ) : stamp (n + 1) = stamp n + 1 := UInt64.ofNat_add (n + 1) 1

/-- As long as nothing wraps, a generation tells the count. -/
theorem stamp_inj {m n : ℕ} (hm : m < UInt64.size) (hn : n < UInt64.size) :
    stamp m = stamp n ↔ m = n := by
  refine ⟨fun h => ?_, fun h => h ▸ rfl⟩
  have hmod : (m + 1) % 2 ^ 64 = (n + 1) % 2 ^ 64 := congrArg UInt64.toNat h
  simp only [UInt64.size] at hm hn
  omega

/-- The copy has the numbers of the record if it has been loaded at their counts. -/
theorem forall_eq_iff {α : Type} {o : Option α} {f : α → UInt64} {counted : Option ℕ} {m : ℕ}
    (h : o.map f = counted.map stamp) (hm : m < UInt64.size)
    (hcounted : ∀ n ∈ counted, n < UInt64.size) :
    (∀ a, o = some a → stamp m = f a) ↔ ∀ n ∈ counted, m = n := by
  rcases o with _ | a <;> rcases counted with _ | n
  · exact ⟨fun _ n hn => (nomatch hn), fun _ a ha => (nomatch ha)⟩
  · exact nomatch h
  · exact nomatch h
  · have heq : f a = stamp n := Option.some.inj h
    simp only [Option.some.injEq, forall_eq', Option.mem_def]
    rw [heq, stamp_inj hm (hcounted n rfl)]

/-- The copy is refused, or its count is that of its source or the predicate. -/
theorem late_iff {load bumps : ℕ} {counted : Option ℕ} :
    (load = bumps → ∀ n ∈ counted, load = n) ↔
      ∀ n ∈ counted, n ≠ bumps → load ≠ bumps := by
  constructor
  · intro h n hn hne hload
    exact hne ((h hload n hn).symm.trans hload)
  · intro h hload n hn
    by_contra hne
    exact h n hn (fun hbumps => hne (hload.trans hbumps.symm)) hload

section Synchronized

variable {σ ι ρ R C : Type}

/-- The session that the operation at work here is about to refer to. -/
def aimed : Slot σ ι → Option σ
  | .releasing _ (.reset (some s)) => some s
  | .loadGeneration s | .checkRecycling s _ | .fetchAdd s _ | .recheck s _ | .reload s _ => some s
  | _ => none

/-- The counts of a slot tell the numbers in it, and in its record. -/
structure Tells (bumps : σ → ℕ) (x : Slot σ ι) (t : Trace σ) (m : Counts) : Prop where
  /-- The generation of the handle at rest. -/
  rest : ∀ s g, x = .rest ⟨some s, g⟩ → g = stamp m.load ∧ m.load ≤ bumps s
  /-- The generation that an operation has loaded. -/
  loaded : ∀ g, Stale.loaded x = some g →
    g = stamp m.load ∧ ∀ s, aimed x = some s → m.load ≤ bumps s
  /-- The generation of the handle that is copied. -/
  source : ∀ s, aimed x = some s → t.source.map Handle.gen = m.source.map stamp
  /-- The generation that the predicate has seen. -/
  predicate : t.evaluated = m.predicate.map stamp
  /-- No count is out of range. -/
  load_lt : m.load < UInt64.size
  /-- Nor is that of the source. -/
  source_lt : ∀ n ∈ m.source, n < UInt64.size
  /-- Nor is that of the predicate. -/
  predicate_lt : ∀ n ∈ m.predicate, n < UInt64.size

/-- **The schedule tells the numbers.** -/
structure Synchronized (p : Traced σ ι ρ R C × Clock σ ι) : Prop where
  /-- The generations of the sessions. -/
  generation : ∀ s, (p.1.state.session s).generation = stamp (p.2.bumps s)
  /-- They have not wrapped. -/
  bumps_lt : ∀ s, p.2.bumps s < UInt64.size
  /-- The numbers of the slots. -/
  slots : ∀ i, Tells p.2.bumps (p.1.state.slot i) (p.1.trace i) (p.2.counts i)

/-- At the start no session is bumped. -/
theorem synchronized_start [Inhabited R] [Inhabited C] :
    Synchronized ((start : Traced σ ι ρ R C), Clock.zero) where
  generation := fun _ => rfl
  bumps_lt := fun _ => (by decide : 0 < UInt64.size)
  slots := fun _ =>
    { rest := fun _ _ hx => nomatch hx
      loaded := fun _ hg => nomatch hg
      source := fun _ hs => nomatch hs
      predicate := rfl
      load_lt := (by decide : 0 < UInt64.size)
      source_lt := fun _ hn => nomatch hn
      predicate_lt := fun _ hn => nomatch hn }

/-- An operation goes on with the generation it has loaded. -/
theorem Tells.goOn {bumps : σ → ℕ} {x x' : Slot σ ι} {t : Trace σ} {m : Counts}
    (h : Tells bumps x t m) (hrest : ∀ s g, x' ≠ .rest ⟨some s, g⟩)
    (hloaded : ∀ g, Stale.loaded x' = some g → Stale.loaded x = some g)
    (haimed : ∀ s, aimed x' = some s → aimed x = some s) : Tells bumps x' t m where
  rest := fun s g hx => absurd hx (hrest s g)
  loaded := fun g hg =>
    ⟨(h.loaded g (hloaded g hg)).1, fun s hs => (h.loaded g (hloaded g hg)).2 s (haimed s hs)⟩
  source := fun s hs => h.source s (haimed s hs)
  predicate := h.predicate
  load_lt := h.load_lt
  source_lt := h.source_lt
  predicate_lt := h.predicate_lt

/-- An operation begins, ahead of its first load. -/
theorem Tells.begin {bumps : σ → ℕ} {x : Slot σ ι} {t : Trace σ} {source predicate : Option ℕ}
    (hrest : ∀ s g, x ≠ .rest ⟨some s, g⟩) (hloaded : Stale.loaded x = none)
    (hsource : ∀ s, aimed x = some s → t.source.map Handle.gen = source.map stamp)
    (hpredicate : t.evaluated = predicate.map stamp) (hsource_lt : ∀ n ∈ source, n < UInt64.size)
    (hpredicate_lt : ∀ n ∈ predicate, n < UInt64.size) :
    Tells bumps x t ⟨0, source, predicate⟩ where
  rest := fun s g hx => absurd hx (hrest s g)
  loaded := fun g hg => by
    rw [hloaded] at hg
    exact nomatch hg
  source := hsource
  predicate := hpredicate
  load_lt := (by decide : 0 < UInt64.size)
  source_lt := hsource_lt
  predicate_lt := hpredicate_lt

/-- An empty slot, or one whose operation copies nothing. -/
theorem Tells.empty {bumps : σ → ℕ} {x : Slot σ ι} (hrest : ∀ s g, x ≠ .rest ⟨some s, g⟩)
    (hloaded : Stale.loaded x = none) : Tells bumps x Trace.empty ⟨0, none, none⟩ :=
  .begin hrest hloaded (fun _ _ => rfl) rfl (fun _ hn => nomatch hn) fun _ hn => nomatch hn

/-- Bumps leave the numbers of a slot. -/
theorem Tells.mono {bumps bumps' : σ → ℕ} {x : Slot σ ι} {t : Trace σ} {m : Counts}
    (h : Tells bumps x t m) (hle : ∀ s, bumps s ≤ bumps' s) : Tells bumps' x t m :=
  { h with
    rest := fun s g hx => ⟨(h.rest s g hx).1, (h.rest s g hx).2.trans (hle s)⟩
    loaded := fun g hg =>
      ⟨(h.loaded g hg).1, fun s hs => ((h.loaded g hg).2 s hs).trans (hle s)⟩ }

/-- A bump that does not wrap brings no number back. -/
theorem noReturn_of_lt {p : Traced σ ι ρ R C × Clock σ ι} (h : Synchronized p) {s : σ}
    (hwrap : p.2.bumps s + 1 < UInt64.size) : NoReturn p.1 s := by
  rintro i ⟨ptr, g⟩ hrest hptr hnext
  obtain rfl : ptr = some s := hptr
  obtain ⟨rfl, hle⟩ := (h.slots i).rest s g hrest
  have hback : stamp (p.2.counts i).load = stamp (p.2.bumps s + 1) := by
    rw [stamp_succ, ← h.generation s]
    exact hnext
  have heq := (stamp_inj (h.slots i).load_lt hwrap).mp hback
  omega

variable [DecidableEq ι] {p : Traced σ ι ρ R C × Clock σ ι}

/-- One slot changes with its record and its counts. -/
theorem Synchronized.set (h : Synchronized p) {state : State σ ι ρ R C} {i : ι} {x : Slot σ ι}
    {t : Trace σ} {m : Counts}
    (hgen : ∀ s, (state.session s).generation = (p.1.state.session s).generation)
    (hslot : state.slot = p.1.state.slot) (htells : Tells p.2.bumps x t m) :
    Synchronized (⟨state.goto i x, Function.update p.1.trace i t⟩, p.2.set i m) where
  generation := fun s => (hgen s).trans (h.generation s)
  bumps_lt := h.bumps_lt
  slots := fun j => by
    rw [goto_slot, hslot]
    by_cases hj : j = i
    · subst hj
      simp only [Clock.set, Function.update_self]
      exact htells
    · simp only [Clock.set, Function.update_of_ne hj]
      exact h.slots j

/-- One slot changes, and no record. -/
theorem Synchronized.goto (h : Synchronized p) {state : State σ ι ρ R C} {i : ι} {x : Slot σ ι}
    (hgen : ∀ s, (state.session s).generation = (p.1.state.session s).generation)
    (hslot : state.slot = p.1.state.slot)
    (htells : Tells p.2.bumps x (p.1.trace i) (p.2.counts i)) :
    Synchronized (⟨state.goto i x, p.1.trace⟩, p.2) := by
  have hset := h.set (i := i) hgen hslot htells
  rwa [Function.update_eq_self, Clock.set, Function.update_eq_self] at hset

omit [DecidableEq ι] in
/-- No generation, no slot and no record changes. -/
theorem Synchronized.keep (h : Synchronized p) {state : State σ ι ρ R C}
    (hgen : ∀ s, (state.session s).generation = (p.1.state.session s).generation)
    (hslot : state.slot = p.1.state.slot) : Synchronized (⟨state, p.1.trace⟩, p.2) where
  generation := fun s => (hgen s).trans (h.generation s)
  bumps_lt := h.bumps_lt
  slots := fun i => hslot ▸ h.slots i

/-- A handle is moved. -/
theorem Synchronized.transfer [DecidableEq σ] (h : Synchronized p) {i other : ι} {h' : Handle σ}
    (hother : p.1.state.slot other = .rest h') :
    Synchronized (⟨(p.1.state.goto i (.rest h')).goto other (.rest .null),
      Stale.transfer p.1 i other⟩, p.2.transfer i other) := by
  have hold := h.slots other
  rw [hother] at hold
  have hmoved : Tells p.2.bumps (.rest h' : Slot σ ι)
      ⟨none, some (valid p.1.state (held p.1.state other)), (p.1.trace other).evaluated⟩
      ⟨(p.2.counts other).load, none, (p.2.counts other).predicate⟩ :=
    { rest := hold.rest
      loaded := fun g hg => nomatch hg
      source := fun s hs => nomatch hs
      predicate := hold.predicate
      load_lt := hold.load_lt
      source_lt := fun n hn => nomatch hn
      predicate_lt := hold.predicate_lt }
  exact (h.set (i := i) (fun s => rfl) rfl hmoved).set (i := other) (fun s => rfl) rfl
    (.empty (fun s g hx => nomatch hx) rfl)

omit [DecidableEq ι] in
/-- A session is bumped. -/
theorem Synchronized.bump [DecidableEq σ] (h : Synchronized p) {state : State σ ι ρ R C} {s : σ}
    (hwrap : ∀ s', (p.2.bump s).bumps s' < UInt64.size)
    (hsession : state.session = (p.1.state.bump s).session)
    (hslot : state.slot = p.1.state.slot) :
    Synchronized (⟨state, p.1.trace⟩, p.2.bump s) where
  generation := fun s' => by
    show (state.session s').generation = _
    rw [hsession, State.bump, setSession_session]
    by_cases hs : s' = s
    · subst hs
      simp only [Clock.bump, Function.update_self]
      rw [h.generation, stamp_succ]
    · simp only [Clock.bump, Function.update_of_ne hs]
      exact h.generation s'
  bumps_lt := hwrap
  slots := fun i => by
    rw [hslot]
    refine (h.slots i).mono fun s' => ?_
    by_cases hs : s' = s
    · subst hs
      simp only [Clock.bump, Function.update_self]
      omega
    · simp only [Clock.bump, Function.update_of_ne hs]
      exact le_rfl

/-- A copy of the handle in `other` begins. -/
theorem Synchronized.copy [DecidableEq σ] (h : Synchronized p) {i other : ι} {h' held' : Handle σ}
    (hother : p.1.state.slot other = .rest h') :
    Synchronized (⟨p.1.state.goto i (.releasing held' (.reset h'.ptr)),
      Function.update p.1.trace i
        ⟨some (held p.1.state other), none, (p.1.trace other).evaluated⟩⟩, p.2.copy i other) := by
  have hold := h.slots other
  rw [hother] at hold
  have hheld : held p.1.state other = h' := by rw [held, hother]
  rw [hheld]
  refine h.set (fun s => rfl) rfl (.begin (fun s g hx => nomatch hx) rfl (fun s hs => ?_)
    hold.predicate (fun n hn => ?_) hold.predicate_lt)
  · obtain ⟨_ | s', g⟩ := h'
    · exact nomatch hs
    · exact congrArg some (hold.rest s' g rfl).1
  · obtain rfl : (p.2.counts other).load = n := Option.some.inj hn
    exact hold.load_lt

omit [DecidableEq ι] in
/-- Behind a `release()` the operation is still about to refer to its session. -/
theorem aimed_after (held' : Handle σ) (k : After σ ι) (s : σ)
    (hs : aimed k.slot = some s) : aimed (.releasing held' k) = some s := by
  rcases k with _ | ⟨_ | s'⟩ | other
  · exact nomatch hs
  · exact nomatch hs
  · exact hs
  · exact nomatch hs

end Synchronized

section Runs

variable {σ ι ρ R C : Type} [DecidableEq σ] [DecidableEq ι]

/-- **The next step of an operation** keeps the schedule in step. -/
theorem Synchronized.next {p : Traced σ ι ρ R C × Clock σ ι} (h : Synchronized p) {i : ι}
    {state : State σ ι ρ R C} (hstep : ReaderEpoch.next p.1.state i = some state) :
    Synchronized (⟨state, record p.1 (.next i)⟩, tick p.1 p.2 (.act (.next i))) := by
  have hold := h.slots i
  unfold ReaderEpoch.next at hstep
  simp only [record, tick]
  split at hstep
  · exact nomatch hstep
  · exact nomatch hstep
  · -- the `release()` at the beginning of every operation
    rename_i held' k hi
    rw [hi] at hold ⊢
    have htells : Tells p.2.bumps k.slot (p.1.trace i) (p.2.counts i) :=
      hold.goOn (fun s g hx => nomatch (after_slot k).1 _ hx)
        (fun g hg => by rw [(after_slot k).2] at hg; exact nomatch hg) (aimed_after held' k)
    split at hstep <;> obtain rfl := Option.some.inj hstep
    · exact h.goto (fun s => rfl) rfl htells
    · exact h.goto (generation_setSession p.1.state _ _ rfl) rfl htells
  · rename_i other hi
    rw [hi]
    split at hstep
    · rename_i h' hother
      obtain rfl := Option.some.inj hstep
      exact h.transfer hother
    · exact nomatch hstep
  · -- the first load reads the count of the session
    rename_i s hi
    rw [hi] at hold ⊢
    obtain rfl := Option.some.inj hstep
    refine h.set (fun s => rfl) rfl
      { rest := fun s g hx => nomatch hx
        loaded := fun g hg => ⟨?_, fun s' hs => ?_⟩
        source := hold.source
        predicate := hold.predicate
        load_lt := h.bumps_lt s
        source_lt := hold.source_lt
        predicate_lt := hold.predicate_lt }
    · obtain rfl : (p.1.state.session s).generation = g := Option.some.inj hg
      exact h.generation s
    · obtain rfl : s = s' := Option.some.inj hs
      exact le_rfl
  · rename_i s g hi
    rw [hi] at hold ⊢
    split at hstep <;> obtain rfl := Option.some.inj hstep
    · exact h.goto (fun s => rfl) rfl
        (hold.goOn (fun s g hx => nomatch hx) (fun g hg => nomatch hg) fun s hs => nomatch hs)
    · exact h.goto (fun s => rfl) rfl
        (hold.goOn (fun s g hx => nomatch hx) (fun g hg => hg) fun s hs => hs)
  · rename_i s g hi
    rw [hi] at hold ⊢
    obtain rfl := Option.some.inj hstep
    exact h.goto (generation_setSession p.1.state s _ rfl) rfl
      (hold.goOn (fun s g hx => nomatch hx) (fun g hg => hg) fun s hs => hs)
  · rename_i s g hi
    rw [hi] at hold ⊢
    split at hstep <;> obtain rfl := Option.some.inj hstep
    · exact h.goto (fun s => rfl) rfl
        (hold.goOn (fun s g hx => nomatch hx) (fun g hg => nomatch hg) fun s hs => nomatch hs)
    · exact h.goto (fun s => rfl) rfl
        (hold.goOn (fun s g hx => nomatch hx) (fun g hg => hg) fun s hs => hs)
  · rename_i s hi
    rw [hi] at hold ⊢
    obtain rfl := Option.some.inj hstep
    exact h.goto (generation_setSession p.1.state s _ rfl) rfl
      (hold.goOn (fun s g hx => nomatch hx) (fun g hg => nomatch hg) fun s hs => nomatch hs)
  · rename_i s g hi
    rw [hi] at hold ⊢
    split at hstep <;> obtain rfl := Option.some.inj hstep
    · -- admitted: the handle has the generation that was loaded
      refine h.goto (fun s => rfl) rfl
        { hold with
          rest := fun s' g' hx => ?_
          loaded := fun g hg => nomatch hg
          source := fun s hs => nomatch hs }
      obtain ⟨rfl, rfl⟩ : s = s' ∧ g = g' := by simpa using hx
      exact ⟨(hold.loaded g rfl).1, (hold.loaded g rfl).2 s rfl⟩
    · exact h.goto (fun s => rfl) rfl
        (hold.goOn (fun s g hx => nomatch hx) (fun g hg => nomatch hg) fun s hs => nomatch hs)
  · rename_i s hi
    rw [hi] at hold ⊢
    obtain rfl := Option.some.inj hstep
    exact h.goto (generation_setSession p.1.state s _ rfl) rfl
      (hold.goOn (fun s g hx => nomatch hx) (fun g hg => nomatch hg) fun s hs => nomatch hs)

variable [DecidableEq ρ] [Inhabited R] [Inhabited C]

/-- **Every step that wraps no generation** keeps the schedule in step. -/
theorem Synchronized.step {p q : Traced σ ι ρ R C × Clock σ ι} {ev : Event σ ι ρ}
    (h : Synchronized p) (hwrap : NoWrap p ev)
    (hstep : recording Stale.step tick p ev = some q) : Synchronized q := by
  obtain ⟨st', hst', rfl⟩ := Option.map_eq_some_iff.mp hstep
  rcases ev with a | i
  · obtain ⟨state, hstate, rfl⟩ := Option.map_eq_some_iff.mp hst'
    cases a with
    | construct i s | reset i s | destroy i =>
      simp only [ReaderEpoch.step] at hstate
      split at hstate
      · obtain rfl := Option.some.inj hstate
        exact h.set (fun s => rfl) rfl (.empty (fun s g hx => nomatch hx) rfl)
      · exact nomatch hstate
    | copyConstruct i other =>
      simp only [ReaderEpoch.step] at hstate
      split at hstate
      · rename_i h' hi hother
        obtain rfl := Option.some.inj hstate
        exact h.copy hother
      · exact nomatch hstate
    | moveConstruct i other =>
      simp only [ReaderEpoch.step] at hstate
      split at hstate
      · rename_i h' hi hother
        obtain rfl := Option.some.inj hstate
        exact h.transfer hother
      · exact nomatch hstate
    | copyAssign i other =>
      simp only [ReaderEpoch.step] at hstate
      simp only [record, tick]
      split at hstate
      · rename_i held' h' hi hother
        split at hstate <;> rename_i hsame <;> obtain rfl := Option.some.inj hstate
        · rw [if_pos hsame, if_pos hsame]
          exact h
        · rw [if_neg hsame, if_neg hsame]
          exact h.copy hother
      · exact nomatch hstate
    | moveAssign i other =>
      simp only [ReaderEpoch.step] at hstate
      split at hstate
      · split at hstate <;> obtain rfl := Option.some.inj hstate
        · exact h
        · exact h.goto (fun s => rfl) rfl ((h.slots i).goOn (fun s g hx => nomatch hx)
            (fun g hg => nomatch hg) fun s hs => nomatch hs)
      · exact nomatch hstate
    | next i => exact h.next hstate
    | recycle r s =>
      simp only [ReaderEpoch.step] at hstate
      split at hstate
      · split at hstate <;> obtain rfl := Option.some.inj hstate
        · exact h
        · exact h.keep (generation_setSession p.1.state s _ rfl) rfl
      · exact nomatch hstate
    | nextRecycle r =>
      simp only [NoWrap, tick] at hwrap
      simp only [ReaderEpoch.step] at hstate
      simp only [record, tick]
      unfold nextRecycle at hstate
      split at hstate
      · exact nomatch hstate
      · rename_i s hr
        rw [hr] at hwrap ⊢
        obtain rfl := Option.some.inj hstate
        exact h.bump hwrap rfl rfl
      · rename_i s hr
        rw [hr]
        split at hstate <;> obtain rfl := Option.some.inj hstate
        · exact h
        · exact h.keep (fun s => rfl) rfl
      all_goals
        rename_i s hr
        rw [hr]
        obtain rfl := Option.some.inj hstate
        exact h.keep (generation_setSession p.1.state s _ rfl) rfl
    | rekey s =>
      obtain rfl := Option.some.inj hstate
      exact h.bump hwrap rfl rfl
  · simp only [Stale.step] at hst'
    split at hst'
    · rename_i s g hi
      obtain rfl := Option.some.inj hst'
      have hold := h.slots i
      simp only [tick, hi]
      have hself : Function.update p.1.state.slot i (p.1.state.slot i) = p.1.state.slot :=
        Function.update_eq_self ..
      have htells : Tells p.2.bumps (p.1.state.slot i)
          { p.1.trace i with evaluated := some (p.1.state.session s).generation }
          { p.2.counts i with predicate := some (p.2.bumps s) } :=
        { hold with
          predicate := congrArg some (h.generation s)
          predicate_lt := fun n hn => Option.some.inj hn ▸ h.bumps_lt s }
      have hset := h.set (i := i) (fun s => rfl) rfl htells
      rwa [State.goto, hself] at hset
    · exact nomatch hst'

omit [DecidableEq ρ] [Inhabited R] [Inhabited C] in
/-- **The schedule decides** whether a copy is faithful. -/
theorem faithful_iff {p : Traced σ ι ρ R C × Clock σ ι} {ev : Event σ ι ρ} (h : Synchronized p)
    (hwrap : NoWrap p ev) : Faithful p.1 ev ↔ InTime p ev := by
  rcases ev with (_ | _ | _ | _ | _ | _ | _ | i | _ | r | s) | _ <;> try exact Iff.rfl
  · -- the second load of the generation
    simp only [Faithful, InTime]
    cases hi : p.1.state.slot i with
    | reload s g =>
      have hold := h.slots i
      rw [hi] at hold
      obtain ⟨rfl, -⟩ := hold.loaded g rfl
      have hsame : (p.1.state.session s).generation = stamp (p.2.counts i).load ↔
          (p.2.counts i).load = p.2.bumps s := by
        rw [h.generation s, stamp_inj (h.bumps_lt s) hold.load_lt]
        exact eq_comm
      have hsource := forall_eq_iff (hold.source s rfl) hold.load_lt hold.source_lt
      have hpredicate := forall_eq_iff (f := id) (by rw [Option.map_id]; exact hold.predicate)
        hold.load_lt hold.predicate_lt
      simp only [id] at hpredicate
      show (_ → _ ∧ _) ↔ _ ∧ _
      rw [hsame, hsource, hpredicate, ← late_iff, ← late_iff]
      exact imp_and
    | _ => exact Iff.rfl
  · -- the bump of a recycler
    refine ⟨fun _ => trivial, fun _ s hr => noReturn_of_lt h ?_⟩
    have hlt := hwrap s
    simp only [tick, hr, Clock.bump, Function.update_self] at hlt
    exact hlt
  · refine ⟨fun _ => trivial, fun _ => noReturn_of_lt h ?_⟩
    have hlt := hwrap s
    simp only [tick, Clock.bump, Function.update_self] at hlt
    exact hlt

/-- **Stale handles stay stale**, in a run that wraps no generation, exactly if no copy is
admitted late: at the second load of a copy, a bump since the load of its source, or since
the predicate, comes with one between its two loads. -/
theorem meets_stays_iff (as : List (Event σ ι ρ))
    (hwrap : Meets (recording step tick) NoWrap ((start : Traced σ ι ρ R C), Clock.zero) as) :
    Meets step Kept (start : Traced σ ι ρ R C) as ↔
      Meets (recording step tick) InTime ((start : Traced σ ι ρ R C), Clock.zero) as := by
  rw [meets_kept_iff, ← meets_recording tick Clock.zero]
  constructor <;> intro hok
  · exact (hwrap.and hok).imp (I := fun p : Traced σ ι ρ R C × Clock σ ι => Synchronized p)
      (fun h hw hstep => h.step hw.1 hstep) (fun h hw => (faithful_iff h hw.1).mp hw.2)
      synchronized_start
  · exact (hwrap.and hok).imp (I := fun p : Traced σ ι ρ R C × Clock σ ι => Synchronized p)
      (fun h hw hstep => h.step hw.1 hstep) (fun h hw => (faithful_iff h hw.1).mpr hw.2)
      synchronized_start

end Runs

/-- The six steps of `reset`. -/
def resetSteps (i : Fin 3) : List (Event Unit (Fin 3) Unit) :=
  List.replicate 6 (.act (.next i))

local instance neZeroThree : NeZero 3 := ⟨by decide⟩

/-- `find_if` returns its copy before the handshake that bumps the generation. -/
def findIfInTime : List (Event Unit (Fin 3) Unit) :=
  .act (.construct 0 (some ())) :: resetSteps 0 ++ [.act (.moveConstruct 1 0), .evaluate 1,
    .act (.copyConstruct 2 1)] ++ resetSteps 2 ++ [.act (.rekey ())]

theorem kept_findIfInTime :
    Meets step Kept (start : Traced Unit (Fin 3) Unit Unit Unit) findIfInTime :=
  (meets_stays_iff findIfInTime (by decide +kernel)).mpr (by decide +kernel)

/-- `find_if` makes a candidate and moves it into the vector, its predicate is evaluated,
a handshake begins the next generation, and `return h` copies the candidate. -/
def findIf : List (Event Unit (Fin 3) Unit) :=
  .act (.construct 0 (some ())) :: resetSteps 0 ++ [.act (.moveConstruct 1 0), .evaluate 1,
    .act (.rekey ()), .act (.copyConstruct 2 1)] ++ resetSteps 2

/-- **The handle that `find_if` returns** is valid in a generation that the predicate has
not seen, and it is a copy of a stale one. -/
theorem not_stays :
    ¬∀ as : List (Event Unit (Fin 3) Unit),
      Meets step Kept (start : Traced Unit (Fin 3) Unit Unit Unit) as := by
  intro h
  have hrun : (runs step (start : Traced Unit (Fin 3) Unit Unit Unit) findIf).any (fun st =>
      decide (st.state.slot 2 = .rest ⟨some (), 2⟩) && valid st.state ⟨some (), 2⟩ &&
        decide (st.trace 2 = ⟨some ⟨some (), 1⟩, some false, some 1⟩)) = true := by
    decide +kernel
  obtain ⟨st, hst, hfacts⟩ := (Option.any_eq_true _ _).mp hrun
  simp only [Bool.and_eq_true, decide_eq_true_eq] at hfacts
  obtain ⟨⟨hslot, hvalid⟩, htrace⟩ := hfacts
  rw [show findIf = findIf.dropLast ++ [.act (.next 2)] from rfl] at hst
  obtain ⟨before, hbefore, hlast⟩ := runs_snoc.mp hst
  have hstays := ((h (findIf.dropLast ++ [.act (.next 2)])).of_append hbefore).1 st hlast
  exact hstays.origin 2 _ hslot hvalid (by rw [htrace])

end Stale

end Aegs
