import Aegs.Lib.Count
import Aegs.Lib.Transition
import Aegs.Replay.Filter

/-!
# The reader epoch

A `SessionHandle` keeps its session in `active_readers_` for as long as it is not
null, and `Session::recycle` clears the session only after that counter is zero.
Between them stands a check, an increment and a second check on one side, and a
compare-and-swap, a generation bump and a wait on the other. This file interleaves
any number of handles with any number of recyclers, one atomic access a step
(`Aegs.ReaderEpoch.step`).

## What is a step

A handle operation runs in its owner's thread. Its local part, the pointer and the
generation of the handle, is written together with the atomic access before it;
the source handle of a copy or a move must be at rest, anything else would be a
data race. `release()` is `reset(nullptr)`: both end in a null handle. A handshake
or resume bumps the generation without waiting for anybody.

## The counter

`active_readers_` has 32 bits. As long as it does not wrap, it is the number of
handles and attempts that are on the session, and the protocol is right
(`Aegs.ReaderEpoch.epoch_of_meets`). At `2 ^ 32` handles it reads zero, and a
recycler clears the session under all of them
(`Aegs.ReaderEpoch.not_epoch_of_wrap`).
-/

namespace Aegs

namespace ReaderEpoch

open Transition Counting

/-- `Session`, as far as handles and recyclers access it. Routing and crypto are
the contents of the two snapshots. -/
structure Session (R C : Type) where
  /-- `identity.generation`. -/
  generation : UInt64
  /-- `active_readers_`. -/
  activeReaders : UInt32
  /-- `is_recycling_`. -/
  isRecycling : Bool
  /-- `routing_snap_`. -/
  routing : R
  /-- `crypto_snap_`. -/
  crypto : C
  /-- `counters.tx_seq`. -/
  txSeq : UInt64
  /-- `replay_filter`. -/
  replayFilter : AntiReplayFilter

/-- `SessionHandle`. -/
structure Handle (σ : Type) where
  /-- `ptr`. -/
  ptr : Option σ
  /-- `gen`. -/
  gen : UInt64
deriving DecidableEq

/-- The null handle. -/
def Handle.null {σ : Type} : Handle σ := ⟨none, 0⟩

/-- What an operation does after its `release()`. -/
inductive After (σ ι : Type)
  /-- The destructor is done. -/
  | destroy
  /-- `reset(s)` goes on with its argument. -/
  | reset (s : Option σ)
  /-- The move assignment takes what `other` holds. -/
  | take (other : ι)
deriving DecidableEq

/-- The storage of one handle, with the operation that runs on it. -/
inductive Slot (σ ι : Type)
  /-- No handle is constructed here. -/
  | dead
  /-- A handle at rest. -/
  | rest (h : Handle σ)
  /-- In `release()`, ahead of `exit_reader`. -/
  | releasing (h : Handle σ) (k : After σ ι)
  /-- In a move assignment, ahead of the transfer. -/
  | taking (other : ι)
  /-- In `reset`, ahead of the first load of the generation. -/
  | loadGeneration (s : σ)
  /-- In `enter_reader`, ahead of the first load of `is_recycling_`. -/
  | checkRecycling (s : σ) (g : UInt64)
  /-- In `enter_reader`, ahead of the increment. -/
  | fetchAdd (s : σ) (g : UInt64)
  /-- In `enter_reader`, ahead of the second load of `is_recycling_`. -/
  | recheck (s : σ) (g : UInt64)
  /-- In `enter_reader`, ahead of the decrement that takes the increment back. -/
  | backOut (s : σ)
  /-- `enter_reader` returned true, the second load of the generation is next. -/
  | reload (s : σ) (g : UInt64)
  /-- The generation had changed, `exit_reader` is next. -/
  | exitReader (s : σ)
deriving DecidableEq

/-- Where a recycler stands, past its compare-and-swap. -/
inductive Stage
  /-- Ahead of the generation bump. -/
  | bump
  /-- In the wait for the readers. -/
  | quiesce
  /-- Ahead of `set_routing`. -/
  | clearRouting
  /-- Ahead of `set_crypto`. -/
  | clearCrypto
  /-- Ahead of the store to `tx_seq`. -/
  | clearTxSeq
  /-- Ahead of `replay_filter.reset()`. -/
  | clearReplay
  /-- Ahead of the store to `is_recycling_`. -/
  | finish
deriving DecidableEq

/-- Sessions `σ`, handles `ι` and recyclers `ρ`. -/
structure State (σ ι ρ R C : Type) where
  /-- The sessions. -/
  session : σ → Session R C
  /-- The handles. -/
  slot : ι → Slot σ ι
  /-- The recyclers, with the session each is recycling. -/
  recycler : ρ → Option (σ × Stage)

/-- The choices of a run. -/
inductive Action (σ ι ρ : Type)
  /-- `SessionHandle()` and `SessionHandle(Session*)`. -/
  | construct (i : ι) (s : Option σ)
  /-- `SessionHandle(const SessionHandle&)`. -/
  | copyConstruct (i other : ι)
  /-- `SessionHandle(SessionHandle&&)`. -/
  | moveConstruct (i other : ι)
  /-- `operator=(const SessionHandle&)`. -/
  | copyAssign (i other : ι)
  /-- `operator=(SessionHandle&&)`. -/
  | moveAssign (i other : ι)
  /-- `reset(s)`, and `release()` as `reset(nullptr)`. -/
  | reset (i : ι) (s : Option σ)
  /-- The destructor. -/
  | destroy (i : ι)
  /-- The operation on a handle makes its next step. -/
  | next (i : ι)
  /-- The compare-and-swap of `recycle`. -/
  | recycle (r : ρ) (s : σ)
  /-- A recycler makes its next step. -/
  | nextRecycle (r : ρ)
  /-- A handshake or resume bumps the generation. -/
  | rekey (s : σ)

section Update

variable {σ ι ρ R C : Type}

/-- The slot `i` goes to `x`. -/
def State.goto [DecidableEq ι] (st : State σ ι ρ R C) (i : ι) (x : Slot σ ι) :
    State σ ι ρ R C :=
  { st with slot := Function.update st.slot i x }

/-- The session `s` becomes `v`. -/
def State.setSession [DecidableEq σ] (st : State σ ι ρ R C) (s : σ) (v : Session R C) :
    State σ ι ρ R C :=
  { st with session := Function.update st.session s v }

/-- The recycler `r` goes to `x`. -/
def State.setRecycler [DecidableEq ρ] (st : State σ ι ρ R C) (r : ρ)
    (x : Option (σ × Stage)) : State σ ι ρ R C :=
  { st with recycler := Function.update st.recycler r x }

@[simp] theorem goto_session [DecidableEq ι] (st : State σ ι ρ R C) (i : ι) (x : Slot σ ι) :
    (st.goto i x).session = st.session := rfl

@[simp] theorem goto_slot [DecidableEq ι] (st : State σ ι ρ R C) (i : ι) (x : Slot σ ι) :
    (st.goto i x).slot = Function.update st.slot i x := rfl

@[simp] theorem goto_recycler [DecidableEq ι] (st : State σ ι ρ R C) (i : ι) (x : Slot σ ι) :
    (st.goto i x).recycler = st.recycler := rfl

@[simp] theorem setSession_session [DecidableEq σ] (st : State σ ι ρ R C) (s : σ)
    (v : Session R C) : (st.setSession s v).session = Function.update st.session s v := rfl

@[simp] theorem setSession_slot [DecidableEq σ] (st : State σ ι ρ R C) (s : σ)
    (v : Session R C) : (st.setSession s v).slot = st.slot := rfl

@[simp] theorem setSession_recycler [DecidableEq σ] (st : State σ ι ρ R C) (s : σ)
    (v : Session R C) : (st.setSession s v).recycler = st.recycler := rfl

@[simp] theorem setRecycler_session [DecidableEq ρ] (st : State σ ι ρ R C) (r : ρ)
    (x : Option (σ × Stage)) : (st.setRecycler r x).session = st.session := rfl

@[simp] theorem setRecycler_slot [DecidableEq ρ] (st : State σ ι ρ R C) (r : ρ)
    (x : Option (σ × Stage)) : (st.setRecycler r x).slot = st.slot := rfl

@[simp] theorem setRecycler_recycler [DecidableEq ρ] (st : State σ ι ρ R C) (r : ρ)
    (x : Option (σ × Stage)) :
    (st.setRecycler r x).recycler = Function.update st.recycler r x := rfl

end Update

section Step

variable {σ ι ρ R C : Type} [DecidableEq σ] [DecidableEq ι] [DecidableEq ρ]

/-- `active_readers_.fetch_add(1)`. -/
def State.fetchAdd (st : State σ ι ρ R C) (s : σ) : State σ ι ρ R C :=
  st.setSession s { st.session s with activeReaders := (st.session s).activeReaders + 1 }

/-- `active_readers_.fetch_sub(1)`. -/
def State.fetchSub (st : State σ ι ρ R C) (s : σ) : State σ ι ρ R C :=
  st.setSession s { st.session s with activeReaders := (st.session s).activeReaders - 1 }

/-- `identity.generation.fetch_add(1)`. -/
def State.bump (st : State σ ι ρ R C) (s : σ) : State σ ι ρ R C :=
  st.setSession s { st.session s with generation := (st.session s).generation + 1 }

/-- `is_recycling_` becomes `b`. -/
def State.setRecycling (st : State σ ι ρ R C) (s : σ) (b : Bool) : State σ ι ρ R C :=
  st.setSession s { st.session s with isRecycling := b }

/-- Where an operation goes on after its `release()`. -/
def After.slot : After σ ι → Slot σ ι
  | .destroy => .dead
  | .reset none => .rest .null
  | .reset (some s) => .loadGeneration s
  | .take other => .taking other

/-- The next step of the operation on the handle `i`. -/
def next (st : State σ ι ρ R C) (i : ι) : Option (State σ ι ρ R C) :=
  match st.slot i with
  | .dead | .rest _ => none
  | .releasing h k => match h.ptr with
    | none => some (st.goto i k.slot)
    | some s => some ((st.fetchSub s).goto i k.slot)
  | .taking other => match st.slot other with
    | .rest h => some ((st.goto i (.rest h)).goto other (.rest .null))
    | _ => none
  | .loadGeneration s => some (st.goto i (.checkRecycling s (st.session s).generation))
  | .checkRecycling s g =>
    if (st.session s).isRecycling then some (st.goto i (.rest .null))
    else some (st.goto i (.fetchAdd s g))
  | .fetchAdd s g => some ((st.fetchAdd s).goto i (.recheck s g))
  | .recheck s g =>
    if (st.session s).isRecycling then some (st.goto i (.backOut s))
    else some (st.goto i (.reload s g))
  | .backOut s => some ((st.fetchSub s).goto i (.rest .null))
  | .reload s g =>
    if (st.session s).generation = g then some (st.goto i (.rest ⟨some s, g⟩))
    else some (st.goto i (.exitReader s))
  | .exitReader s => some ((st.fetchSub s).goto i (.rest .null))

variable [Inhabited R] [Inhabited C]

/-- The next step of the recycler `r`. Its wait reads the counter again and again. -/
def nextRecycle (st : State σ ι ρ R C) (r : ρ) : Option (State σ ι ρ R C) :=
  match st.recycler r with
  | none => none
  | some (s, .bump) => some ((st.bump s).setRecycler r (some (s, .quiesce)))
  | some (s, .quiesce) =>
    if (st.session s).activeReaders > 0 then some st
    else some (st.setRecycler r (some (s, .clearRouting)))
  | some (s, .clearRouting) =>
    some ((st.setSession s { st.session s with routing := default }).setRecycler r
      (some (s, .clearCrypto)))
  | some (s, .clearCrypto) =>
    some ((st.setSession s { st.session s with crypto := default }).setRecycler r
      (some (s, .clearTxSeq)))
  | some (s, .clearTxSeq) =>
    some ((st.setSession s { st.session s with txSeq := 0 }).setRecycler r
      (some (s, .clearReplay)))
  | some (s, .clearReplay) =>
    some ((st.setSession s { st.session s with replayFilter := .reset }).setRecycler r
      (some (s, .finish)))
  | some (s, .finish) => some ((st.setRecycling s false).setRecycler r none)

/-- One step of the handles and recyclers. An assignment of a handle to itself is
guarded in the source. -/
def step (st : State σ ι ρ R C) : Action σ ι ρ → Option (State σ ι ρ R C)
  | .construct i s => match st.slot i with
    | .dead => some (st.goto i (.releasing .null (.reset s)))
    | _ => none
  | .copyConstruct i other => match st.slot i, st.slot other with
    | .dead, .rest h => some (st.goto i (.releasing .null (.reset h.ptr)))
    | _, _ => none
  | .moveConstruct i other => match st.slot i, st.slot other with
    | .dead, .rest h => some ((st.goto i (.rest h)).goto other (.rest .null))
    | _, _ => none
  | .copyAssign i other => match st.slot i, st.slot other with
    | .rest h, .rest h' =>
      if i = other then some st else some (st.goto i (.releasing h (.reset h'.ptr)))
    | _, _ => none
  | .moveAssign i other => match st.slot i, st.slot other with
    | .rest h, .rest _ =>
      if i = other then some st else some (st.goto i (.releasing h (.take other)))
    | _, _ => none
  | .reset i s => match st.slot i with
    | .rest h => some (st.goto i (.releasing h (.reset s)))
    | _ => none
  | .destroy i => match st.slot i with
    | .rest h => some (st.goto i (.releasing h .destroy))
    | _ => none
  | .next i => next st i
  | .recycle r s => match st.recycler r with
    | none =>
      if (st.session s).isRecycling then some st
      else some ((st.setRecycling s true).setRecycler r (some (s, .bump)))
    | some _ => none
  | .nextRecycle r => nextRecycle st r
  | .rekey s => some (st.bump s)

/-- `Session()`. -/
def Session.fresh : Session R C where
  generation := 1
  activeReaders := 0
  isRecycling := false
  routing := default
  crypto := default
  txSeq := 0
  replayFilter := .reset

/-- No handle is constructed and nobody recycles. -/
def init : State σ ι ρ R C where
  session := fun _ => .fresh
  slot := fun _ => .dead
  recycler := fun _ => none

end Step

end ReaderEpoch

end Aegs
