import Aegs.Session.Handle

/-!
# Handles keep recyclers out

The three parts of the reader-epoch protocol (`Aegs.ReaderEpoch.Epoch`): the
counter is the number of handles and attempts on the session, no decrement takes
it below zero, and no recycler is about to clear a session that an admitted handle
still refers to.

The invariant adds what makes them inductive. Whoever is past its second check
of `is_recycling_` keeps out the recycler that has not swapped it yet, and is
waited for by the one that has. A recycler past its wait therefore finds nobody
inside, and nobody comes in, since the flag stays up until it is done.
-/

namespace Aegs

namespace ReaderEpoch

open Transition Counting

section Property

variable {σ ι ρ R C : Type} [DecidableEq σ]

/-- The handle is not null and refers to `s`: it was admitted and has not been
released. -/
def refersTo (s : σ) : Slot σ ι → Bool
  | .rest h | .releasing h _ => h.ptr = some s
  | _ => false

/-- The attempt on `s` has incremented the counter and has neither been admitted
nor taken the increment back. -/
def attempts (s : σ) : Slot σ ι → Bool
  | .recheck s' _ | .backOut s' | .reload s' _ | .exitReader s' => s' = s
  | _ => false

/-- The next step is a decrement of the counter of `s`. -/
def subtracts (s : σ) : Slot σ ι → Bool
  | .releasing h _ => h.ptr = some s
  | .backOut s' | .exitReader s' => s' = s
  | _ => false

/-- The next step of a recycler clears part of the session. -/
def Stage.clears : Stage → Bool
  | .clearRouting | .clearCrypto | .clearTxSeq | .clearReplay => true
  | .bump | .quiesce | .finish => false

/-- **The reader-epoch protocol.** -/
structure Epoch [Fintype ι] (st : State σ ι ρ R C) : Prop where
  /-- The counter is the number of handles and attempts. -/
  readers : ∀ s, (st.session s).activeReaders.toNat =
    count (refersTo s) st.slot + count (attempts s) st.slot
  /-- No decrement underflows. -/
  noUnderflow : ∀ s i, subtracts s (st.slot i) = true → 0 < (st.session s).activeReaders
  /-- Nobody clears a session under an admitted handle. -/
  exclusive : ∀ r s stage, st.recycler r = some (s, stage) → stage.clears = true →
    ∀ i, refersTo s (st.slot i) = false

/-- The slot is counted in `active_readers_` of `s`. -/
def counted (s : σ) (x : Slot σ ι) : Bool := refersTo s x || attempts s x

/-- What the condition below asks of the step the operation in a slot is about to
make. -/
def RoomFor [Fintype ι] (st : State σ ι ρ R C) : Slot σ ι → Prop
  | .fetchAdd s _ => count (counted s) st.slot + 1 < 2 ^ 32
  | _ => True

/-- **Room in the counter**: it is incremented only while fewer than `2 ^ 32 - 1`
handles and attempts are on the session. -/
def CounterFits [Fintype ι] (st : State σ ι ρ R C) : Action σ ι ρ → Prop
  | .next i => RoomFor st (st.slot i)
  | _ => True

instance [Fintype ι] (st : State σ ι ρ R C) : ∀ x, Decidable (RoomFor st x)
  | .fetchAdd s _ => inferInstanceAs (Decidable (count (counted s) st.slot + 1 < 2 ^ 32))
  | .dead | .rest _ | .releasing .. | .taking _ | .loadGeneration _ | .checkRecycling ..
  | .recheck .. | .backOut _ | .reload .. | .exitReader _ => isTrue trivial

instance [Fintype ι] (st : State σ ι ρ R C) : ∀ a, Decidable (CounterFits st a)
  | .next i => inferInstanceAs (Decidable (RoomFor st (st.slot i)))
  | .construct .. | .copyConstruct .. | .moveConstruct .. | .copyAssign .. | .moveAssign ..
  | .reset .. | .destroy _ | .recycle .. | .nextRecycle _ | .rekey _ => isTrue trivial

/-- The slot is past its second check of `is_recycling_`, and still counted. -/
def entered (s : σ) : Slot σ ι → Bool
  | .rest h | .releasing h _ => h.ptr = some s
  | .reload s' _ | .exitReader s' => s' = s
  | _ => false

/-- Past the wait of `recycle`. -/
def Stage.waited : Stage → Bool
  | .bump | .quiesce => false
  | .clearRouting | .clearCrypto | .clearTxSeq | .clearReplay | .finish => true

/-- **The invariant.** -/
structure Guarded [Fintype ι] (st : State σ ι ρ R C) : Prop where
  /-- The counter counts. -/
  counts : ∀ s, (st.session s).activeReaders.toNat = count (counted s) st.slot
  /-- The flag is up while a recycler is at work. -/
  flagged : ∀ r s stage, st.recycler r = some (s, stage) → (st.session s).isRecycling = true
  /-- One recycler a session. -/
  alone : ∀ r r' s stage stage', st.recycler r = some (s, stage) →
    st.recycler r' = some (s, stage') → r = r'
  /-- Past the wait nobody is inside. -/
  quiet : ∀ r s stage, st.recycler r = some (s, stage) → stage.waited = true →
    ∀ i, entered s (st.slot i) = false

theorem counted_of_entered {s : σ} {x : Slot σ ι} (h : entered s x = true) :
    counted s x = true := by
  cases x <;> simp_all [entered, counted, refersTo, attempts]

theorem counted_of_subtracts {s : σ} {x : Slot σ ι} (h : subtracts s x = true) :
    counted s x = true := by
  cases x <;> simp_all [subtracts, counted, refersTo, attempts]

theorem entered_of_refersTo {s : σ} {x : Slot σ ι} (h : refersTo s x = true) :
    entered s x = true := by
  cases x <;> simp_all [refersTo, entered]

theorem attempts_of_refersTo {s : σ} {x : Slot σ ι} (h : refersTo s x = true) :
    attempts s x = false := by
  cases x <;> simp_all [refersTo, attempts]

theorem waited_of_clears {stage : Stage} (h : stage.clears = true) : stage.waited = true := by
  cases stage <;> simp_all [Stage.clears, Stage.waited]

theorem counted_after (s : σ) (k : After σ ι) : counted s k.slot = false := by
  rcases k with _ | ⟨_ | _⟩ | _ <;> simp [After.slot, counted, refersTo, attempts, Handle.null]

theorem entered_after (s : σ) (k : After σ ι) : entered s k.slot = false := by
  by_contra hne
  have hcounted := counted_of_entered (Bool.of_not_eq_false hne)
  rw [counted_after s k] at hcounted
  exact absurd hcounted (by decide)

end Property

section Handles

variable {σ ι ρ R C : Type} [DecidableEq σ] [Fintype ι]

/-- The invariant is what the protocol promises, and more. -/
theorem Guarded.epoch {st : State σ ι ρ R C} (h : Guarded st) : Epoch st where
  readers := fun s => by
    rw [h.counts s]
    exact count_or st.slot fun x => attempts_of_refersTo
  noUnderflow := fun s i hi => by
    rw [UInt32.lt_iff_toNat_lt, h.counts s]
    exact count_pos (counted_of_subtracts hi)
  exclusive := fun r s stage hr hclear i => by
    by_contra hne
    have hin := entered_of_refersTo (Bool.of_not_eq_false hne)
    rw [h.quiet r s stage hr (waited_of_clears hclear) i] at hin
    exact absurd hin (by decide)

variable [DecidableEq ι]

/-- **A handle moves**: the counters follow it, and it comes in only where no
recycler is at work. -/
theorem Guarded.goto {st t : State σ ι ρ R C} (h : Guarded st) {i : ι} {x : Slot σ ι}
    (hslot : t.slot = st.slot) (hrec : t.recycler = st.recycler)
    (hflag : ∀ s, (t.session s).isRecycling = (st.session s).isRecycling)
    (hcount : ∀ s, (t.session s).activeReaders.toNat + (counted s (st.slot i)).toNat =
      (st.session s).activeReaders.toNat + (counted s x).toNat)
    (hin : ∀ s, entered s x = true →
      entered s (st.slot i) = true ∨ (st.session s).isRecycling = false) :
    Guarded (t.goto i x) where
  counts := fun s => by
    have hupd := count_update (counted s) st.slot i x
    have hold := h.counts s
    have hnew := hcount s
    rw [goto_slot, goto_session, hslot]
    omega
  flagged := fun r s stage hr => by
    rw [goto_recycler, hrec] at hr
    exact (hflag s).trans (h.flagged r s stage hr)
  alone := fun r r' s stage stage' hr hr' => by
    rw [goto_recycler, hrec] at hr hr'
    exact h.alone r r' s stage stage' hr hr'
  quiet := fun r s stage hr hwait i' => by
    rw [goto_recycler, hrec] at hr
    have hout := h.quiet r s stage hr hwait
    rw [goto_slot, hslot]
    by_cases hi : i' = i
    · subst hi
      rw [Function.update_self]
      by_contra hne
      rcases hin s (Bool.of_not_eq_false hne) with hold | hdown
      · rw [hout i'] at hold
        exact absurd hold (by decide)
      · rw [h.flagged r s stage hr] at hdown
        exact absurd hdown (by decide)
    · rw [Function.update_of_ne hi]
      exact hout i'

/-- A move between two places that count the same, without coming in. -/
theorem Guarded.stay {st : State σ ι ρ R C} (h : Guarded st) {i : ι} {x : Slot σ ι}
    (hcount : ∀ s, counted s x = counted s (st.slot i))
    (hin : ∀ s, entered s x = true →
      entered s (st.slot i) = true ∨ (st.session s).isRecycling = false) :
    Guarded (st.goto i x) :=
  h.goto rfl rfl (fun _ => rfl) (fun s => by rw [hcount s]) hin

/-- An operation begins with its `release()`, where the handle still counts. -/
theorem Guarded.release {st : State σ ι ρ R C} (h : Guarded st) {i : ι} {hd : Handle σ}
    {k : After σ ι} (hi : st.slot i = .rest hd) : Guarded (st.goto i (.releasing hd k)) :=
  h.stay (fun s => by rw [hi]; rfl) fun s hin => Or.inl (by rw [hi]; exact hin)

/-- **The increment.** -/
theorem Guarded.fetchAdd {st : State σ ι ρ R C} (h : Guarded st) {i : ι} {s : σ} {x : Slot σ ι}
    (hroom : count (counted s) st.slot + 1 < 2 ^ 32)
    (hold : ∀ s', counted s' (st.slot i) = false) (hnew : ∀ s', counted s' x = decide (s = s'))
    (hout : ∀ s', entered s' x = false) : Guarded ((st.fetchAdd s).goto i x) := by
  refine h.goto rfl rfl (fun s' => ?_) (fun s' => ?_) fun s' hin => ?_
  · by_cases hs : s' = s
    · subst hs
      simp [State.fetchAdd, State.setSession]
    · simp [State.fetchAdd, State.setSession, hs]
  · rw [hold s', hnew s']
    by_cases hs : s' = s
    · subst hs
      have hcount := h.counts s'
      simp only [State.fetchAdd, State.setSession, Function.update_self, UInt32.toNat_add,
        UInt32.reduceToNat, decide_true, Bool.toNat_true, Bool.toNat_false]
      omega
    · simp [State.fetchAdd, State.setSession, hs, Ne.symm hs]
  · rw [hout s'] at hin
    exact absurd hin (by decide)

/-- **The decrement.** -/
theorem Guarded.fetchSub {st : State σ ι ρ R C} (h : Guarded st) {i : ι} {s : σ} {x : Slot σ ι}
    (hold : ∀ s', counted s' (st.slot i) = decide (s = s')) (hnew : ∀ s', counted s' x = false) :
    Guarded ((st.fetchSub s).goto i x) := by
  refine h.goto rfl rfl (fun s' => ?_) (fun s' => ?_) fun s' hin => ?_
  · by_cases hs : s' = s
    · subst hs
      simp [State.fetchSub, State.setSession]
    · simp [State.fetchSub, State.setSession, hs]
  · rw [hold s', hnew s']
    by_cases hs : s' = s
    · subst hs
      have hpos : 0 < (st.session s').activeReaders.toNat := by
        rw [h.counts s']
        exact count_pos (i := i) (by simp [hold])
      have hle : (1 : UInt32) ≤ (st.session s').activeReaders := by
        rw [UInt32.le_iff_toNat_le]
        exact hpos
      simp only [State.fetchSub, State.setSession, Function.update_self,
        UInt32.toNat_sub_of_le _ _ hle, UInt32.reduceToNat, decide_true, Bool.toNat_true,
        Bool.toNat_false]
      omega
    · simp [State.fetchSub, State.setSession, hs, Ne.symm hs]
  · have hcounted := counted_of_entered hin
    rw [hnew s'] at hcounted
    exact absurd hcounted (by decide)

/-- **The transfer**: what one handle loses the other one gains. -/
theorem Guarded.handover {st : State σ ι ρ R C} (h : Guarded st) {i j : ι} {hd : Handle σ}
    (hij : i ≠ j) (hj : st.slot j = .rest hd) (hi : ∀ s, counted s (st.slot i) = false) :
    Guarded ((st.goto i (.rest hd)).goto j (.rest .null)) where
  counts := fun s => by
    rw [goto_session, goto_session, goto_slot, goto_slot, ← hj, h.counts s]
    refine (count_handover (counted s) st.slot hij ?_).symm
    rw [hi s]
    rfl
  flagged := h.flagged
  alone := h.alone
  quiet := fun r s stage hr hwait i' => by
    have hout := h.quiet r s stage hr hwait
    rw [goto_slot, goto_slot]
    by_cases hij' : i' = j
    · rw [hij', Function.update_self]
      rfl
    · rw [Function.update_of_ne hij']
      by_cases hii' : i' = i
      · rw [hii', Function.update_self, ← hj]
        exact hout j
      · rw [Function.update_of_ne hii']
        exact hout i'

end Handles

section Recyclers

variable {σ ι ρ R C : Type} [DecidableEq σ] [Fintype ι]

/-- A session changes apart from its counter and its flag. -/
theorem Guarded.setSession {st : State σ ι ρ R C} (h : Guarded st) {s : σ} {v : Session R C}
    (hreaders : v.activeReaders = (st.session s).activeReaders)
    (hflag : v.isRecycling = (st.session s).isRecycling) : Guarded (st.setSession s v) where
  counts := fun s' => by
    by_cases hs : s' = s
    · rw [hs, setSession_session, Function.update_self, hreaders]
      exact h.counts s
    · rw [setSession_session, Function.update_of_ne hs]
      exact h.counts s'
  flagged := fun r s' stage hr => by
    by_cases hs : s' = s
    · rw [hs, setSession_session, Function.update_self, hflag]
      exact h.flagged r s stage (hs ▸ hr)
    · rw [setSession_session, Function.update_of_ne hs]
      exact h.flagged r s' stage hr
  alone := h.alone
  quiet := h.quiet

variable [DecidableEq ρ]

/-- **A recycler advances**, past its wait only when nobody is inside. -/
theorem Guarded.advance {st : State σ ι ρ R C} (h : Guarded st) {r : ρ} {s : σ}
    {stage stage' : Stage} (hr : st.recycler r = some (s, stage))
    (hwait : stage'.waited = true → stage.waited = true ∨ ∀ i, entered s (st.slot i) = false) :
    Guarded (st.setRecycler r (some (s, stage'))) := by
  have hold : ∀ r' s' x, (st.setRecycler r (some (s, stage'))).recycler r' = some (s', x) →
      (r' = r ∧ s' = s ∧ x = stage') ∨ st.recycler r' = some (s', x) := by
    intro r' s' x hr'
    by_cases hrr : r' = r
    · rw [hrr, setRecycler_recycler, Function.update_self] at hr'
      obtain ⟨rfl, rfl⟩ := Prod.mk.injEq .. ▸ Option.some.inj hr'
      exact Or.inl ⟨hrr, rfl, rfl⟩
    · rw [setRecycler_recycler, Function.update_of_ne hrr] at hr'
      exact Or.inr hr'
  refine ⟨h.counts, fun r' s' x hr' => ?_, fun r' r'' s' x x' hr' hr'' => ?_,
    fun r' s' x hr' hx => ?_⟩
  · rcases hold r' s' x hr' with ⟨-, rfl, -⟩ | hr'
    · exact h.flagged r s' stage hr
    · exact h.flagged r' s' x hr'
  · rcases hold r' s' x hr' with ⟨hr₁, hs₁, -⟩ | hr₁ <;>
      rcases hold r'' s' x' hr'' with ⟨hr₂, hs₂, -⟩ | hr₂
    · exact hr₁.trans hr₂.symm
    · exact hr₁.trans (h.alone _ _ _ _ _ hr (hs₁ ▸ hr₂))
    · exact (h.alone _ _ _ _ _ (hs₂ ▸ hr₁) hr).trans hr₂.symm
    · exact h.alone _ _ _ _ _ hr₁ hr₂
  · rcases hold r' s' x hr' with ⟨-, rfl, rfl⟩ | hr'
    · rcases hwait hx with hwaited | hout
      · exact h.quiet r s' stage hr hwaited
      · exact hout
    · exact h.quiet r' s' x hr' hx

/-- **The compare-and-swap** succeeds only while no recycler is at work. -/
theorem Guarded.swap {st : State σ ι ρ R C} (h : Guarded st) {r : ρ} {s : σ}
    (hdown : (st.session s).isRecycling = false) :
    Guarded ((st.setRecycling s true).setRecycler r (some (s, .bump))) := by
  have hnone : ∀ r' x, st.recycler r' ≠ some (s, x) := by
    intro r' x hr'
    rw [h.flagged r' s x hr'] at hdown
    exact absurd hdown (by decide)
  have hold : ∀ r' s' x,
      ((st.setRecycling s true).setRecycler r (some (s, .bump))).recycler r' = some (s', x) →
      (r' = r ∧ s' = s ∧ x = .bump) ∨ (s' ≠ s ∧ st.recycler r' = some (s', x)) := by
    intro r' s' x hr'
    by_cases hrr : r' = r
    · rw [hrr, setRecycler_recycler, Function.update_self] at hr'
      obtain ⟨rfl, rfl⟩ := Prod.mk.injEq .. ▸ Option.some.inj hr'
      exact Or.inl ⟨hrr, rfl, rfl⟩
    · rw [setRecycler_recycler, Function.update_of_ne hrr] at hr'
      exact Or.inr ⟨fun hs => hnone r' x (hs ▸ hr'), hr'⟩
  refine ⟨fun s' => ?_, fun r' s' x hr' => ?_, fun r' r'' s' x x' hr' hr'' => ?_,
    fun r' s' x hr' hx => ?_⟩
  · rw [setRecycler_session, setRecycler_slot, State.setRecycling, setSession_session,
      setSession_slot, ← h.counts s']
    by_cases hs : s' = s
    · rw [hs, Function.update_self]
    · rw [Function.update_of_ne hs]
  · rw [setRecycler_session, State.setRecycling, setSession_session]
    rcases hold r' s' x hr' with ⟨-, rfl, -⟩ | ⟨hs, hr'⟩
    · rw [Function.update_self]
    · rw [Function.update_of_ne hs]
      exact h.flagged r' s' x hr'
  · rcases hold r' s' x hr' with ⟨hr₁, hs₁, -⟩ | ⟨hs₁, hr₁⟩ <;>
      rcases hold r'' s' x' hr'' with ⟨hr₂, hs₂, -⟩ | ⟨hs₂, hr₂⟩
    · exact hr₁.trans hr₂.symm
    · exact absurd hs₁ hs₂
    · exact absurd hs₂ hs₁
    · exact h.alone _ _ _ _ _ hr₁ hr₂
  · rcases hold r' s' x hr' with ⟨-, -, rfl⟩ | ⟨-, hr'⟩
    · exact absurd hx (by decide)
    · exact h.quiet r' s' x hr' hx

/-- **The end of `recycle`**: the only recycler of the session takes its flag
down. -/
theorem Guarded.finish {st : State σ ι ρ R C} (h : Guarded st) {r : ρ} {s : σ}
    (hr : st.recycler r = some (s, .finish)) :
    Guarded ((st.setRecycling s false).setRecycler r none) := by
  have hold : ∀ r' s' x,
      ((st.setRecycling s false).setRecycler r none).recycler r' = some (s', x) →
      s' ≠ s ∧ st.recycler r' = some (s', x) := by
    intro r' s' x hr'
    by_cases hrr : r' = r
    · rw [hrr, setRecycler_recycler, Function.update_self] at hr'
      exact absurd hr' (by simp)
    · rw [setRecycler_recycler, Function.update_of_ne hrr] at hr'
      exact ⟨fun hs => hrr (h.alone r' r s x _ (hs ▸ hr') hr), hr'⟩
  refine ⟨fun s' => ?_, fun r' s' x hr' => ?_, fun r' r'' s' x x' hr' hr'' => ?_,
    fun r' s' x hr' => h.quiet r' s' x (hold r' s' x hr').2⟩
  · rw [setRecycler_session, setRecycler_slot, State.setRecycling, setSession_session,
      setSession_slot, ← h.counts s']
    by_cases hs : s' = s
    · rw [hs, Function.update_self]
    · rw [Function.update_of_ne hs]
  · obtain ⟨hs, hr'⟩ := hold r' s' x hr'
    rw [setRecycler_session, State.setRecycling, setSession_session, Function.update_of_ne hs]
    exact h.flagged r' s' x hr'
  · exact h.alone r' r'' s' x x' (hold r' s' x hr').2 (hold r'' s' x' hr'').2

/-- A recycler advances and writes to its session. -/
theorem Guarded.write {st : State σ ι ρ R C} (h : Guarded st) {r : ρ} {s : σ}
    {stage stage' : Stage} {v : Session R C} (hr : st.recycler r = some (s, stage))
    (hreaders : v.activeReaders = (st.session s).activeReaders)
    (hflag : v.isRecycling = (st.session s).isRecycling)
    (hwait : stage'.waited = true → stage.waited = true) :
    Guarded ((st.setSession s v).setRecycler r (some (s, stage'))) :=
  (h.setSession hreaders hflag).advance hr fun hw => Or.inl (hwait hw)

variable [Inhabited R] [Inhabited C]

/-- A recycler keeps the invariant. The end of its wait is where the counter has
to be right. -/
theorem Guarded.nextRecycle {st t : State σ ι ρ R C} (h : Guarded st) {r : ρ}
    (hnext : nextRecycle st r = some t) : Guarded t := by
  rw [ReaderEpoch.nextRecycle] at hnext
  rcases hr : st.recycler r with _ | ⟨s, stage⟩
  · simp [hr] at hnext
  · cases stage with
    | bump =>
      simp only [hr, Option.some.injEq] at hnext
      subst hnext
      exact h.write hr rfl rfl (by simp [Stage.waited])
    | quiesce =>
      simp only [hr] at hnext
      split at hnext <;> rename_i hreaders <;> obtain rfl := Option.some.inj hnext
      · exact h
      · refine h.advance hr fun _ => Or.inr fun i => ?_
        have hzero : (st.session s).activeReaders.toNat = 0 := by
          simpa [UInt32.lt_iff_toNat_lt] using hreaders
        rw [h.counts s, count_eq_zero_iff] at hzero
        by_contra hne
        have hcounted := counted_of_entered (Bool.of_not_eq_false hne)
        rw [hzero i] at hcounted
        exact absurd hcounted (by decide)
    | clearRouting | clearCrypto | clearTxSeq | clearReplay =>
      simp only [hr, Option.some.injEq] at hnext
      subst hnext
      exact h.write hr rfl rfl fun _ => rfl
    | finish =>
      simp only [hr, Option.some.injEq] at hnext
      subst hnext
      exact h.finish hr

end Recyclers

section Steps

variable {σ ι ρ R C : Type} [DecidableEq σ] [DecidableEq ι] [Fintype ι]

/-- The operation on a handle keeps the invariant. -/
theorem Guarded.next {st t : State σ ι ρ R C} (h : Guarded st) {i : ι}
    (hroom : RoomFor st (st.slot i)) (hnext : next st i = some t) : Guarded t := by
  rw [ReaderEpoch.next] at hnext
  cases hi : st.slot i with
  | dead | rest _ => simp [hi] at hnext
  | releasing hd k =>
    rcases hd with ⟨_ | s, g⟩
    · simp only [hi, Option.some.injEq] at hnext
      subst hnext
      refine h.stay (fun s => ?_) (fun s hin => ?_)
      · rw [counted_after, hi]
        simp [counted, refersTo, attempts]
      · rw [entered_after] at hin
        exact absurd hin (by decide)
    · simp only [hi, Option.some.injEq] at hnext
      subst hnext
      refine h.fetchSub (fun s' => ?_) (counted_after · k)
      rw [hi]
      simp [counted, refersTo, attempts]
  | taking other =>
    cases hj : st.slot other with
    | rest hd =>
      simp only [hi, hj, Option.some.injEq] at hnext
      subst hnext
      have hne : i ≠ other := by
        rintro rfl
        rw [hi] at hj
        exact absurd hj (by simp)
      exact h.handover hne hj fun s => by simp [hi, counted, refersTo, attempts]
    | _ => simp [hi, hj] at hnext
  | loadGeneration s =>
    simp only [hi, Option.some.injEq] at hnext
    subst hnext
    exact h.stay (by simp [hi, counted, refersTo, attempts]) (by simp [entered])
  | checkRecycling s g =>
    simp only [hi] at hnext
    split at hnext <;> obtain rfl := Option.some.inj hnext
    · exact h.stay (by simp [hi, counted, refersTo, attempts, Handle.null])
        (by simp [entered, Handle.null])
    · exact h.stay (by simp [hi, counted, refersTo, attempts]) (by simp [entered])
  | fetchAdd s g =>
    simp only [hi, Option.some.injEq] at hnext
    subst hnext
    rw [hi] at hroom
    exact h.fetchAdd hroom (by simp [hi, counted, refersTo, attempts])
      (by simp [counted, refersTo, attempts]) (by simp [entered])
  | recheck s g =>
    simp only [hi] at hnext
    split at hnext <;> rename_i hflag <;> obtain rfl := Option.some.inj hnext
    · exact h.stay (by simp [hi, counted, refersTo, attempts]) (by simp [entered])
    · -- admitted: the second check found no recycler at work
      refine h.stay (by simp [hi, counted, refersTo, attempts]) fun s' hin => Or.inr ?_
      obtain rfl : s = s' := by simpa [entered] using hin
      simpa using hflag
  | backOut s =>
    simp only [hi, Option.some.injEq] at hnext
    subst hnext
    exact h.fetchSub (by simp [hi, counted, refersTo, attempts])
      (by simp [counted, refersTo, attempts, Handle.null])
  | reload s g =>
    simp only [hi] at hnext
    split at hnext <;> obtain rfl := Option.some.inj hnext
    · exact h.stay (by simp [hi, counted, refersTo, attempts]) (by simp [hi, entered])
    · exact h.stay (by simp [hi, counted, refersTo, attempts]) (by simp [hi, entered])
  | exitReader s =>
    simp only [hi, Option.some.injEq] at hnext
    subst hnext
    exact h.fetchSub (by simp [hi, counted, refersTo, attempts])
      (by simp [counted, refersTo, attempts, Handle.null])

variable [DecidableEq ρ] [Inhabited R] [Inhabited C]

/-- Every step keeps the invariant as long as the counter fits. -/
theorem Guarded.step {st t : State σ ι ρ R C} (h : Guarded st) {a : Action σ ι ρ}
    (hfits : CounterFits st a) (hstep : step st a = some t) : Guarded t := by
  cases a with
  | construct i s =>
    cases hi : st.slot i with
    | dead =>
      simp only [ReaderEpoch.step, hi, Option.some.injEq] at hstep
      subst hstep
      exact h.stay (by simp [hi, counted, refersTo, attempts, Handle.null])
        (by simp [entered, Handle.null])
    | _ => simp [ReaderEpoch.step, hi] at hstep
  | copyConstruct i other =>
    cases hi : st.slot i with
    | dead =>
      cases hj : st.slot other with
      | rest hd =>
        simp only [ReaderEpoch.step, hi, hj, Option.some.injEq] at hstep
        subst hstep
        exact h.stay (by simp [hi, counted, refersTo, attempts, Handle.null])
          (by simp [entered, Handle.null])
      | _ => simp [ReaderEpoch.step, hi, hj] at hstep
    | _ => simp [ReaderEpoch.step, hi] at hstep
  | moveConstruct i other =>
    cases hi : st.slot i with
    | dead =>
      cases hj : st.slot other with
      | rest hd =>
        simp only [ReaderEpoch.step, hi, hj, Option.some.injEq] at hstep
        subst hstep
        have hne : i ≠ other := by
          rintro rfl
          rw [hi] at hj
          exact absurd hj (by simp)
        exact h.handover hne hj fun s => by simp [hi, counted, refersTo, attempts]
      | _ => simp [ReaderEpoch.step, hi, hj] at hstep
    | _ => simp [ReaderEpoch.step, hi] at hstep
  | copyAssign i other | moveAssign i other =>
    cases hi : st.slot i with
    | rest hd =>
      cases hj : st.slot other with
      | rest hd' =>
        simp only [ReaderEpoch.step, hi, hj] at hstep
        split at hstep <;> obtain rfl := Option.some.inj hstep
        · exact h
        · exact h.release hi
      | _ => simp [ReaderEpoch.step, hi, hj] at hstep
    | _ => simp [ReaderEpoch.step, hi] at hstep
  | reset i _ | destroy i =>
    cases hi : st.slot i with
    | rest hd =>
      simp only [ReaderEpoch.step, hi, Option.some.injEq] at hstep
      subst hstep
      exact h.release hi
    | _ => simp [ReaderEpoch.step, hi] at hstep
  | next i => exact h.next hfits hstep
  | recycle r s =>
    rcases hr : st.recycler r with _ | x
    · simp only [ReaderEpoch.step, hr] at hstep
      split at hstep <;> rename_i hflag <;> obtain rfl := Option.some.inj hstep
      · exact h
      · exact h.swap (by simpa using hflag)
    · simp [ReaderEpoch.step, hr] at hstep
  | nextRecycle r => exact h.nextRecycle hstep
  | rekey s =>
    simp only [ReaderEpoch.step, Option.some.injEq] at hstep
    subst hstep
    exact h.setSession rfl rfl

/-! ### Runs -/

omit [DecidableEq ι] [DecidableEq ρ] in
theorem guarded_init : Guarded (init : State σ ι ρ R C) where
  counts := fun s => (count_eq_zero_iff.mpr fun _ => rfl).symm
  flagged := fun r s stage hr => by simp [init] at hr
  alone := fun r r' s stage stage' hr _ => by simp [init] at hr
  quiet := fun r s stage hr _ => by simp [init] at hr

/-- **The reader-epoch protocol holds** in every state of a run in which the
counter never wraps. -/
theorem epoch_of_meets (as : List (Action σ ι ρ)) (st : State σ ι ρ R C)
    (hfits : Meets ReaderEpoch.step CounterFits (init : State σ ι ρ R C) as)
    (hrun : runs ReaderEpoch.step init as = some st) : Epoch st :=
  (inv_of_meets (I := Guarded) (fun h hfits hstep => h.step hfits hstep)
    guarded_init hfits hrun).epoch

end Steps

/-! ### A counter that wraps -/

section Wrap

variable {N : ℕ}

/-- The handle `i` is constructed on the one session, and admitted. -/
def enter (i : Fin N) : List (Action Unit (Fin N) Unit) :=
  .construct i (some ()) :: List.replicate 6 (.next i)

/-- The handles of `l` are admitted, nobody recycles. -/
def crowd (l : List (Fin N)) : State Unit (Fin N) Unit Unit Unit where
  session := fun _ => { Session.fresh with activeReaders := UInt32.ofNat l.length }
  slot := fun i => if i ∈ l then .rest ⟨some (), 1⟩ else .dead
  recycler := fun _ => none

theorem runs_enter {i : Fin N} {l : List (Fin N)} (hi : i ∉ l) :
    runs step (crowd l) (enter i) = some (crowd (i :: l)) := by
  have hdead : (crowd l).slot i = .dead := if_neg hi
  have hslot : Function.update (fun j => if j ∈ l then Slot.rest ⟨some (), 1⟩ else .dead) i
      (.rest ⟨some (), 1⟩) =
        (fun j => if j = i ∨ j ∈ l then .rest ⟨some (), 1⟩ else .dead :
          Fin N → Slot Unit (Fin N)) := by
    funext j
    by_cases hj : j = i
    · simp [hj]
    · simp [hj]
  have hsession : ∀ v w : Session Unit Unit, Function.update (fun _ => v) () w = fun _ => w :=
    fun v w => funext fun _ => Function.update_self ..
  simp only [enter, List.replicate, runs_cons, step, hdead, Option.bind_some, next, goto_slot,
    goto_session, Function.update_self, Handle.null, State.fetchAdd, After.slot]
  simp [State.goto, State.setSession, crowd, Session.fresh, hslot, hsession]

theorem runs_enterAll : ∀ (l m : List (Fin N)), (l ++ m).Nodup →
    runs step (crowd m) (l.flatMap enter) = some (crowd (l.reverse ++ m))
  | [], m, _ => rfl
  | i :: l, m, h => by
    obtain ⟨hi, hnd⟩ := List.nodup_cons.mp h
    have hrest : (l ++ i :: m).Nodup := List.nodup_middle.mpr h
    rw [List.flatMap_cons, runs_append, runs_enter fun hm => hi (List.mem_append_right l hm)]
    rw [Option.bind_some, runs_enterAll l (i :: m) hrest]
    simp

/-- A recycler has passed its wait, whoever is inside. -/
def overrun (l : List (Fin N)) : State Unit (Fin N) Unit Unit Unit where
  session := fun _ => { Session.fresh with generation := 2, isRecycling := true }
  slot := (crowd l).slot
  recycler := fun _ => some ((), .clearRouting)

theorem runs_overrun {l : List (Fin N)} (hzero : UInt32.ofNat l.length = 0) :
    runs step (crowd l) [.recycle () (), .nextRecycle (), .nextRecycle ()] =
      some (overrun l) := by
  have hsession : ∀ v w : Session Unit Unit, Function.update (fun _ => v) () w = fun _ => w :=
    fun v w => funext fun _ => Function.update_self ..
  have hrecycler : ∀ v w : Option (Unit × Stage), Function.update (fun _ => v) () w = fun _ => w :=
    fun v w => funext fun _ => Function.update_self ..
  simp [runs_cons, step, nextRecycle, crowd, overrun, Session.fresh, State.setRecycling,
    State.bump, State.setSession, State.setRecycler, hzero, hsession, hrecycler]

/-- Where the counter wraps at the number of handles, the protocol breaks. -/
theorem overrun_of_wrap (hpos : 0 < N) (hwrap : UInt32.ofNat N = 0) :
    ∃ (as : List (Action Unit (Fin N) Unit)) (st : State Unit (Fin N) Unit Unit Unit),
      runs step init as = some st ∧
        (st.session ()).activeReaders.toNat ≠
          count (refersTo ()) st.slot + count (attempts ()) st.slot ∧
        ∃ r stage i, st.recycler r = some ((), stage) ∧ stage.clears = true ∧
          refersTo () (st.slot i) = true := by
  have hinit : crowd ([] : List (Fin N)) = init := by
    simp [crowd, init, Session.fresh]
  have hall := runs_enterAll (List.finRange N) [] (by simpa using List.nodup_finRange _)
  have hzero : UInt32.ofNat ((List.finRange N).reverse ++ []).length = 0 := by
    rw [List.append_nil, List.length_reverse, List.length_finRange]
    exact hwrap
  have hin : ∀ i, refersTo () ((overrun ((List.finRange N).reverse ++ [])).slot i) = true := by
    intro i
    simp [overrun, crowd, refersTo]
  refine ⟨(List.finRange N).flatMap enter ++ [.recycle () (), .nextRecycle (), .nextRecycle ()],
    overrun ((List.finRange N).reverse ++ []), ?_, ?_, (), .clearRouting, ⟨0, hpos⟩, rfl, rfl,
    hin _⟩
  · rw [← hinit, runs_append, hall, Option.bind_some, runs_overrun hzero]
  · have hcount := count_pos (hin ⟨0, hpos⟩)
    have hreads : ((overrun ((List.finRange N).reverse ++ [])).session ()).activeReaders.toNat =
        0 := rfl
    omega

/-- **`2 ^ 32` handles wrap the counter**: it reads zero with all of them admitted,
and a recycler is about to clear the session. -/
theorem not_epoch_of_wrap :
    ∃ (as : List (Action Unit (Fin (2 ^ 32)) Unit))
      (st : State Unit (Fin (2 ^ 32)) Unit Unit Unit),
      runs step init as = some st ∧
        (st.session ()).activeReaders.toNat ≠
          count (refersTo ()) st.slot + count (attempts ()) st.slot ∧
        ∃ r stage i, st.recycler r = some ((), stage) ∧ stage.clears = true ∧
          refersTo () (st.slot i) = true :=
  overrun_of_wrap (Nat.two_pow_pos 32) rfl

local instance neZeroThree : NeZero 3 := ⟨by decide⟩

/-- Two handles on one session, a copy, a move and a release, and a recycler that
waits for them and clears. -/
def quietRun : List (Action Unit (Fin 3) Unit) :=
  enter 0 ++ .copyConstruct 1 0 :: List.replicate 6 (.next 1) ++
    [.recycle () (), .nextRecycle (), .nextRecycle (), .moveConstruct 2 0, .destroy 2, .next 2,
      .nextRecycle (), .reset 1 none, .next 1] ++ List.replicate 6 (.nextRecycle ())

theorem epoch_quietRun :
    ∃ st : State Unit (Fin 3) Unit Unit Unit, runs step init quietRun = some st ∧ Epoch st := by
  obtain ⟨st, hst⟩ := Option.isSome_iff_exists.mp
    (show (runs step (init : State Unit (Fin 3) Unit Unit Unit) quietRun).isSome = true by
      decide +kernel)
  exact ⟨st, hst, epoch_of_meets quietRun st (by decide +kernel) hst⟩

end Wrap

end ReaderEpoch

end Aegs
