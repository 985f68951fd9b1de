import Mathlib.Data.List.AList
import Aegs.Session.Handle

/-!
# The sharded session table

The table reaches a session in three ways: by key id and by endpoint, through shards
with a lock each, and by assigned address, through a snapshot of the route table that
a reader loads without a lock. All three give out a `SessionHandle`; what becomes of it
is in `Aegs.ReaderEpoch`, on which this file builds (`Aegs.Shards.step`).

## What is a step

A lookup in a shard takes the shared lock, finds entries and constructs handles on
them, and gives the lock back; one that finds a single entry and `find_if`, which goes
through a whole shard, are both of this form. A route lookup loads the snapshot, finds
its entry and constructs a handle, without a lock. A writer needs its shard free of
readers. A worker is in one operation at a time, and works on a session through a handle
of its own.

`remove_session` erases the key id, reads the address, unmaps it, purges the endpoint
shards one after the other, recycles the session and deletes it. It runs in the
collector thread, as do the registrations and `cleanup_idle_endpoints`, one at a time.
-/

namespace Aegs

namespace Shards

open ReaderEpoch (After Handle)

/-- `shard_idx`. -/
def shardIdx (k : UInt64) : ℕ :=
  let k := k ^^^ (k >>> 30)
  let k := k * 0xbf58476d1ce4e5b9
  let k := k ^^^ (k >>> 27)
  let k := k * 0x94d049bb133111eb
  let k := k ^^^ (k >>> 31)
  (k % 64).toNat

/-- `RouteMap`. -/
abbrev RouteMap := AList fun _ : UInt32 => ℕ

/-- The mutex of a shard. -/
inductive Lock
  /-- `shards_[n].mu`. -/
  | keys (n : ℕ)
  /-- `ep_shards_[n].mu`. -/
  | endpoints (n : ℕ)
deriving DecidableEq

/-- Where the pointer comes from that a handle is being set to. -/
inductive Source (κ : Type)
  /-- An entry of the shard whose lock is held. -/
  | index
  /-- Another handle of the worker. -/
  | handle (k : κ)
  /-- A route snapshot. -/
  | routes
  /-- There is none, the operation gives a handle up or moves it. -/
  | none
deriving DecidableEq

/-- Where a worker stands. Its handles are numbered by `κ`. -/
inductive Worker (κ : Type)
  /-- Outside the table. -/
  | rest
  /-- In a lookup, with the shared lock of a shard. -/
  | locked (l : Lock)
  /-- In a lookup of an address, with the snapshot it has loaded. -/
  | snapshot (ip : UInt32) (snap : RouteMap)
  /-- In an operation on the handle `k`, with the lock it holds, if any. -/
  | busy (k : κ) (l : Option Lock) (source : Source κ)

/-- The lock that a worker holds. -/
def Worker.lock {κ : Type} : Worker κ → Option Lock
  | .rest | .snapshot .. => none
  | .locked l => some l
  | .busy _ l _ => l

/-- Where a worker is once the operation on its handle is done. -/
def Worker.after {κ : Type} : Option Lock → Worker κ
  | none => .rest
  | some l => .locked l

/-- Where `remove_session` stands. -/
inductive Remover
  /-- No removal is under way. -/
  | rest
  /-- The key id is erased. -/
  | erased (p : ℕ)
  /-- The address is read. -/
  | loaded (p : ℕ) (ip : UInt32)
  /-- It is unmapped, and the shards below `n` are purged. -/
  | purging (p n : ℕ)
  /-- In `recycle`. -/
  | recycling (p : ℕ)
  /-- `recycle` is done, `delete` is next. -/
  | recycled (p : ℕ)
deriving DecidableEq

/-- `SessionTable`, with its sessions and threads. The routing of a session is the
address it holds. -/
structure State (ω κ : Type) where
  /-- The sessions, the handles of the workers, and `recycle`. -/
  epoch : ReaderEpoch.State ℕ (ω × κ) Unit UInt32 Unit
  /-- `by_key_id`, over all shards. -/
  byKeyId : UInt64 → Option ℕ
  /-- `by_endpoint`, over all shards. -/
  byEndpoint : UInt64 → Option ℕ
  /-- The snapshot in `routes_`. -/
  routes : RouteMap
  /-- The workers. -/
  worker : ω → Worker κ
  /-- `remove_session`. -/
  remover : Remover
  /-- The address of the next `new Session()`. -/
  next : ℕ
  /-- The sessions deleted. -/
  deleted : List ℕ

/-- An operation of a worker on its handles. -/
inductive HandleOp (κ : Type)
  /-- `SessionHandle(const SessionHandle&)`. -/
  | copyConstruct (k other : κ)
  /-- `SessionHandle(SessionHandle&&)`. -/
  | moveConstruct (k other : κ)
  /-- `operator=(const SessionHandle&)`. -/
  | copyAssign (k other : κ)
  /-- `operator=(SessionHandle&&)`. -/
  | moveAssign (k other : κ)
  /-- `release()`. -/
  | release (k : κ)
  /-- The destructor. -/
  | destroy (k : κ)

/-- The handle that an operation is on. -/
def HandleOp.target {κ : Type} : HandleOp κ → κ
  | .copyConstruct k _ | .moveConstruct k _ | .copyAssign k _ | .moveAssign k _ | .release k
  | .destroy k => k

/-- Where the operation takes a pointer from. -/
def HandleOp.source {κ : Type} : HandleOp κ → Source κ
  | .copyConstruct _ other | .copyAssign _ other => .handle other
  | .moveConstruct .. | .moveAssign .. | .release _ | .destroy _ => .none

/-- The operation on the handles of the worker `w`. -/
def HandleOp.action {ω κ : Type} (w : ω) : HandleOp κ → ReaderEpoch.Action ℕ (ω × κ) Unit
  | .copyConstruct k other => .copyConstruct (w, k) (w, other)
  | .moveConstruct k other => .moveConstruct (w, k) (w, other)
  | .copyAssign k other => .copyAssign (w, k) (w, other)
  | .moveAssign k other => .moveAssign (w, k) (w, other)
  | .release k => .reset (w, k) none
  | .destroy k => .destroy (w, k)

/-- The choices of a run. -/
inductive Action (ω κ : Type)
  /-- A lookup takes the shared lock of a shard. -/
  | lock (w : ω) (l : Lock)
  /-- It finds a key id in the shard. -/
  | findKey (w : ω) (k : κ) (keyId : UInt64)
  /-- It finds an endpoint in the shard. -/
  | findEndpoint (w : ω) (k : κ) (ep : UInt64)
  /-- It gives the lock back. -/
  | unlock (w : ω)
  /-- A lookup of an address loads the route snapshot. -/
  | loadRoutes (w : ω) (ip : UInt32)
  /-- It finds the address in its snapshot. -/
  | findRoute (w : ω) (k : κ)
  /-- A worker begins an operation on a handle. -/
  | handle (w : ω) (op : HandleOp κ)
  /-- A worker makes the next step of the operation on its handle. -/
  | next (w : ω)
  /-- A worker works on the session of a handle. -/
  | use (w : ω) (k : κ)
  /-- A handshake or resume bumps the generation. -/
  | rekey (w : ω) (k : κ)
  /-- `set_routing`. -/
  | setRouting (w : ω) (k : κ) (ip : UInt32)
  /-- `map_ip`. -/
  | mapIp (w : ω) (k : κ) (ip : UInt32)
  /-- `update_endpoint`. -/
  | updateEndpoint (w : ω) (k : κ) (ep : UInt64)
  /-- `insert_session` of a new session. -/
  | register (keyId : UInt64)
  /-- `cleanup_idle_endpoints`, on one shard. -/
  | cleanup (n : ℕ) (idle : ℕ → Bool)
  /-- `remove_session` begins. -/
  | remove (keyId : UInt64)
  /-- `remove_session` makes its next step. -/
  | nextRemove

section

variable {ω κ : Type}

/-- The session of the handle `k` of the worker `w`, while the worker is in no operation. -/
def State.held (s : State ω κ) (w : ω) (k : κ) : Option ℕ :=
  match s.worker w, s.epoch.slot (w, k) with
  | .rest, .rest h => h.ptr
  | _, _ => none

/-- `map_ip`. -/
def State.mapIp (s : State ω κ) (ip : UInt32) (p : ℕ) : State ω κ :=
  if ip = 0 then s else { s with routes := s.routes.insert ip p }

/-- `unmap_ip`. -/
def State.unmapIp (s : State ω κ) (ip : UInt32) : State ω κ :=
  if ip = 0 then s else { s with routes := s.routes.erase ip }

/-- The entries of an endpoint shard whose sessions `gone` marks are erased. -/
def State.eraseEndpoints (s : State ω κ) (n : ℕ) (gone : ℕ → Bool) : State ω κ :=
  { s with byEndpoint := fun ep => (s.byEndpoint ep).filter fun p => !(shardIdx ep = n && gone p) }

variable [DecidableEq ω]

/-- The worker `w` goes to `x`. -/
def State.goto (s : State ω κ) (w : ω) (x : Worker κ) : State ω κ :=
  { s with worker := Function.update s.worker w x }

@[simp] theorem worker_goto (s : State ω κ) (w : ω) (x : Worker κ) : (s.goto w x).worker w = x :=
  Function.update_self ..

theorem worker_goto_of_ne (s : State ω κ) {w w' : ω} (hne : w' ≠ w) (x : Worker κ) :
    (s.goto w x).worker w' = s.worker w' :=
  Function.update_of_ne hne ..

variable [DecidableEq κ]

/-- The handle `k` is constructed on the entry `p` a lookup has found. -/
def State.constructOn (s : State ω κ) (w : ω) (k : κ) (p : ℕ) (l : Option Lock)
    (source : Source κ) : Option (State ω κ) :=
  (ReaderEpoch.step s.epoch (.construct (w, k) (some p))).map fun epoch =>
    { s with epoch := epoch }.goto w (.busy k l source)

/-- The next step of `remove_session`, except where it needs the lock of a shard. -/
def State.advanceRemove (s : State ω κ) : Option (State ω κ) :=
  match s.remover with
  | .rest => none
  | .erased p => some { s with remover := .loaded p (s.epoch.session p).routing }
  | .loaded p ip => some { s.unmapIp ip with remover := .purging p 0 }
  | .purging p n =>
    if n < 64 then
      some { s.eraseEndpoints n (fun q => q = p) with remover := .purging p (n + 1) }
    else
      (ReaderEpoch.step s.epoch (.recycle () p)).map fun epoch =>
        { s with
          epoch := epoch
          remover := if (epoch.recycler ()).isSome then .recycling p else .recycled p }
  | .recycling p =>
    (ReaderEpoch.step s.epoch (.nextRecycle ())).map fun epoch =>
      { s with
        epoch := epoch
        remover := if (epoch.recycler ()).isSome then .recycling p else .recycled p }
  | .recycled p => some { s with remover := .rest, deleted := p :: s.deleted }

/-- The lock that the next step of `remove_session` needs. -/
def Remover.needs : Remover → Option Lock
  | .purging _ n => if n < 64 then some (.endpoints n) else none
  | .rest | .erased _ | .loaded .. | .recycling _ | .recycled _ => none

variable [Fintype ω]

/-- No reader has the lock. -/
def State.Free (s : State ω κ) (l : Lock) : Prop := ∀ w, (s.worker w).lock ≠ some l

instance (s : State ω κ) (l : Lock) : Decidable (s.Free l) :=
  inferInstanceAs (Decidable (∀ w, (s.worker w).lock ≠ some l))

/-- **One step**. -/
def step (s : State ω κ) : Action ω κ → Option (State ω κ)
  | .lock w l => match s.worker w with
    | .rest => some (s.goto w (.locked l))
    | _ => none
  | .findKey w k keyId =>
    match s.worker w with
    | .locked l =>
      if l = .keys (shardIdx keyId) then
        match s.byKeyId keyId with
        | none => some s
        | some p => s.constructOn w k p (some l) .index
      else none
    | _ => none
  | .findEndpoint w k ep =>
    match s.worker w with
    | .locked l =>
      if l = .endpoints (shardIdx ep) then
        match s.byEndpoint ep with
        | none => some s
        | some p => s.constructOn w k p (some l) .index
      else none
    | _ => none
  | .unlock w => match s.worker w with
    | .locked _ => some (s.goto w .rest)
    | _ => none
  | .loadRoutes w ip => match s.worker w with
    | .rest => if ip = 0 then none else some (s.goto w (.snapshot ip s.routes))
    | _ => none
  | .findRoute w k => match s.worker w with
    | .snapshot ip snap =>
      match snap.lookup ip with
      | none => some (s.goto w .rest)
      | some p => s.constructOn w k p none .routes
    | _ => none
  | .handle w op =>
    let begin (l : Option Lock) := (ReaderEpoch.step s.epoch (op.action w)).map fun epoch =>
      { s with epoch := epoch }.goto w (.busy op.target l op.source)
    match s.worker w with
    | .rest => begin none
    | .locked l => begin (some l)
    | _ => none
  | .next w => match s.worker w with
    | .busy k l _ =>
      match s.epoch.slot (w, k) with
      | .rest _ | .dead => some (s.goto w (.after l))
      | _ => (ReaderEpoch.step s.epoch (.next (w, k))).map fun epoch => { s with epoch := epoch }
    | _ => none
  | .use w k => (s.held w k).map fun _ => s
  | .rekey w k => (s.held w k).map fun p => { s with epoch := s.epoch.bump p }
  | .setRouting w k ip => (s.held w k).map fun p =>
    { s with epoch := s.epoch.setSession p { s.epoch.session p with routing := ip } }
  | .mapIp w k ip => (s.held w k).map fun p => s.mapIp ip p
  | .updateEndpoint w k ep => (s.held w k).bind fun p =>
    if s.Free (.endpoints (shardIdx ep)) then
      some { s with byEndpoint := Function.update s.byEndpoint ep (some p) }
    else none
  | .register keyId =>
    if s.remover = .rest ∧ s.byKeyId keyId = none ∧ s.Free (.keys (shardIdx keyId)) then
      some { s with
        byKeyId := Function.update s.byKeyId keyId (some s.next)
        next := s.next + 1 }
    else none
  | .cleanup n idle =>
    if s.remover = .rest ∧ s.Free (.endpoints n) then some (s.eraseEndpoints n idle) else none
  | .remove keyId =>
    if s.remover = .rest ∧ s.Free (.keys (shardIdx keyId)) then
      match s.byKeyId keyId with
      | none => some s
      | some p => some { s with
          byKeyId := Function.update s.byKeyId keyId none
          remover := .erased p }
    else none
  | .nextRemove => if ∀ l ∈ s.remover.needs, s.Free l then s.advanceRemove else none

/-- An empty table, with its workers at rest. -/
def init : State ω κ where
  epoch := ReaderEpoch.init
  byKeyId := fun _ => none
  byEndpoint := fun _ => none
  routes := ∅
  worker := fun _ => .rest
  remover := .rest
  next := 0
  deleted := []

end

end Shards

end Aegs
