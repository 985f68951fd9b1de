import Mathlib.Data.Fintype.Prod
import Aegs.Session.ReaderEpoch
import Aegs.Session.Shards

/-!
# Deleted sessions are out of reach

After `delete`, no index of the table, no route and no thread refers to the session
(`Aegs.Shards.Reclaimed`). A session that is found through a shard is safe, since the
lookup holds the shard's lock until its handle counts, and the removal has to come
through the same shard before it waits for the readers. Two ways around this are open
(`Aegs.Shards.not_reclaimed`): a route snapshot is read without a lock, so its pointer
may be followed after `recycle` has waited for everybody else; and a worker that still
has a handle may enter the session again, as the session of an endpoint in a shard that
is already purged or of an address that is already unmapped.

## Why it holds otherwise

Where no worker takes one of these ways (`Aegs.Shards.NoReentry`), every pointer in
reach is to a session that exists, and what the removal has been through has no pointer
to its session left (`Aegs.Shards.Sound`). The wait in `recycle` takes care of the
handles: this is the invariant of the reader epoch
(`Aegs.ReaderEpoch.Guarded`), here for the handles of all workers.
-/

namespace Aegs

namespace Shards

open Transition Counting

open ReaderEpoch (Slot After Handle Stage Guarded entered counted)

/-! ### The property -/

/-- A handle is being set to `p`, and has not come in yet. -/
def pending {ι : Type} (p : ℕ) : Slot ℕ ι → Bool
  | .releasing _ (.reset (some q)) => q = p
  | .loadGeneration q | .checkRecycling q _ | .fetchAdd q _ | .recheck q _ | .backOut q => q = p
  | _ => false

/-- A handle has, or is being set to, a pointer to `p`. -/
def refersTo {ι : Type} (p : ℕ) (x : Slot ℕ ι) : Bool := pending p x || entered p x

section

variable {ω κ : Type}

/-- **No reference to a deleted session**: not in an index, not in the route table, and
not with a thread that could follow it later. -/
structure Reclaimed (s : State ω κ) : Prop where
  /-- Not in the key index. -/
  keys : ∀ keyId p, s.byKeyId keyId = some p → p ∉ s.deleted
  /-- Not in the endpoint index. -/
  endpoints : ∀ ep p, s.byEndpoint ep = some p → p ∉ s.deleted
  /-- Not in the route table. -/
  routes : ∀ ip p, s.routes.lookup ip = some p → p ∉ s.deleted
  /-- No handle refers to it or is being set to it. -/
  handles : ∀ i p, refersTo p (s.epoch.slot i) = true → p ∉ s.deleted
  /-- No lookup is about to find it in its snapshot. -/
  snapshots : ∀ w ip snap p, s.worker w = .snapshot ip snap → snap.lookup ip = some p →
    p ∉ s.deleted

/-- The worker, with these handles, is in a lookup of an address that has led, or will lead,
to the session. -/
def Worker.Routed (slot : κ → Slot ℕ (ω × κ)) (p : ℕ) : Worker κ → Prop
  | .snapshot ip snap => snap.lookup ip = some p
  | .busy k _ .routes => pending p (slot k) = true
  | _ => False

/-- A worker is in a lookup of an address that has led, or will lead, to the session. -/
def State.Routed (s : State ω κ) (w : ω) (p : ℕ) : Prop :=
  (s.worker w).Routed (fun k => s.epoch.slot (w, k)) p

instance (slot : κ → Slot ℕ (ω × κ)) (p : ℕ) : ∀ x : Worker κ, Decidable (x.Routed slot p)
  | .snapshot ip snap => inferInstanceAs (Decidable (snap.lookup ip = some p))
  | .busy k _ .routes => inferInstanceAs (Decidable (pending p (slot k) = true))
  | .rest | .locked _ | .busy _ _ .index | .busy _ _ (.handle _) | .busy _ _ .none =>
    isFalse (fun h => h)

instance (s : State ω κ) (w : ω) (p : ℕ) : Decidable (s.Routed w p) :=
  inferInstanceAs (Decidable ((s.worker w).Routed (fun k => s.epoch.slot (w, k)) p))

/-- The removal has not come past the place where it erases this endpoint. -/
def Remover.MayHaveEndpoint : Remover → ℕ → UInt64 → Prop
  | .purging q n, p, ep => q = p → n ≤ shardIdx ep
  | .recycling q, p, _ | .recycled q, p, _ => q ≠ p
  | _, _, _ => True

/-- The removal has not come past the place where it unmaps this address. -/
def Remover.MayHaveRoute : Remover → ℕ → UInt32 → Prop
  | .loaded q ip', p, ip => q = p → ip = ip'
  | .purging q _, p, _ | .recycling q, p, _ | .recycled q, p, _ => q ≠ p
  | _, _, _ => True

instance : ∀ r p ep, Decidable (Remover.MayHaveEndpoint r p ep)
  | .purging q n, p, ep => inferInstanceAs (Decidable (q = p → n ≤ shardIdx ep))
  | .recycling q, p, _ | .recycled q, p, _ => inferInstanceAs (Decidable (q ≠ p))
  | .rest, _, _ | .erased _, _, _ | .loaded .., _, _ => isTrue trivial

instance : ∀ r p ip, Decidable (Remover.MayHaveRoute r p ip)
  | .loaded q ip', p, ip => inferInstanceAs (Decidable (q = p → ip = ip'))
  | .purging q _, p, _ | .recycling q, p, _ | .recycled q, p, _ =>
    inferInstanceAs (Decidable (q ≠ p))
  | .rest, _, _ | .erased _, _, _ => isTrue trivial

/-- What the condition below asks of a step of `remove_session`. -/
def State.ClearToRemove (s : State ω κ) : Remover → Prop
  | .erased p => ∀ entry ∈ s.routes.entries, entry.2 = p → entry.1 = (s.epoch.session p).routing
  | .recycling p =>
    (s.epoch.recycler ()).map (fun r => r.2) = some .finish → ∀ w, ¬s.Routed w p
  | _ => True

/-- What it asks of the step a worker is about to make. -/
def State.RoomToGo [Fintype ω] [Fintype κ] (s : State ω κ) (w : ω) : Worker κ → Prop
  | .busy k _ _ => ReaderEpoch.RoomFor s.epoch (s.epoch.slot (w, k))
  | _ => True

/-- **No way around the removal.** When `remove_session` reads the address of its session, the
session has no route but that; when `recycle` lets readers in again, no worker is between
loading a route snapshot and the end of the handle it leads to; no worker enters an endpoint
for the session in a shard that is already purged, or maps an address to it that is not going
to be unmapped any more; and the count of readers stays below `2 ^ 32`. -/
def NoReentry [Fintype ω] [Fintype κ] (s : State ω κ) : Action ω κ → Prop
  | .next w => s.RoomToGo w (s.worker w)
  | .mapIp w k ip => ∀ p ∈ s.held w k, ip ≠ 0 → s.remover.MayHaveRoute p ip
  | .updateEndpoint w k ep => ∀ p ∈ s.held w k, s.remover.MayHaveEndpoint p ep
  | .nextRemove => s.ClearToRemove s.remover
  | _ => True

instance [Fintype ω] (s : State ω κ) : ∀ r, Decidable (s.ClearToRemove r)
  | .erased p => inferInstanceAs (Decidable
    (∀ entry ∈ s.routes.entries, entry.2 = p → entry.1 = (s.epoch.session p).routing))
  | .recycling p => inferInstanceAs (Decidable
    ((s.epoch.recycler ()).map (fun r => r.2) = some .finish → ∀ w, ¬s.Routed w p))
  | .rest | .loaded .. | .purging .. | .recycled _ => isTrue trivial

instance [Fintype ω] [Fintype κ] (s : State ω κ) (w : ω) : ∀ x, Decidable (s.RoomToGo w x)
  | .busy k _ _ => inferInstanceAs (Decidable (ReaderEpoch.RoomFor s.epoch (s.epoch.slot (w, k))))
  | .rest | .locked _ | .snapshot .. => isTrue trivial

instance [Fintype ω] [Fintype κ] (s : State ω κ) : ∀ a, Decidable (NoReentry s a)
  | .next w => inferInstanceAs (Decidable (s.RoomToGo w (s.worker w)))
  | .mapIp w k ip =>
    inferInstanceAs (Decidable (∀ p ∈ s.held w k, ip ≠ 0 → s.remover.MayHaveRoute p ip))
  | .updateEndpoint w k ep =>
    inferInstanceAs (Decidable (∀ p ∈ s.held w k, s.remover.MayHaveEndpoint p ep))
  | .nextRemove => inferInstanceAs (Decidable (s.ClearToRemove s.remover))
  | .lock .. | .findKey .. | .findEndpoint .. | .unlock _ | .loadRoutes .. | .findRoute ..
  | .handle .. | .use .. | .rekey .. | .setRouting .. | .register _ | .cleanup .. | .remove _ =>
    isTrue trivial

/-! ### The invariant -/

/-- The session has been made and not been deleted. -/
def State.Exists (s : State ω κ) (p : ℕ) : Prop := p < s.next ∧ p ∉ s.deleted

/-- The session that is being removed. -/
def Remover.session : Remover → Option ℕ
  | .rest => none
  | .erased p | .loaded p _ | .purging p _ | .recycling p | .recycled p => some p

/-- The session has an entry in the shard with this lock. -/
def State.Entry (s : State ω κ) (p : ℕ) : Lock → Prop
  | .keys n => ∃ keyId, shardIdx keyId = n ∧ s.byKeyId keyId = some p
  | .endpoints n => ∃ ep, shardIdx ep = n ∧ s.byEndpoint ep = some p

/-- What vouches for a pointer that a handle of a worker is being set to. -/
def State.Vouched (s : State ω κ) (w : ω) (p : ℕ) (l : Option Lock) : Source κ → Prop
  | .index => ∃ l' ∈ l, s.Entry p l'
  | .handle other => ∃ h, s.epoch.slot (w, other) = .rest h ∧ h.ptr = some p
  | .routes => True
  | .none => False

/-- The handle that a move assignment is going to take from. -/
def takes {ι : Type} : Slot ℕ ι → Option ι
  | .releasing _ (.take other) | .taking other => some other
  | _ => none

/-- The handle is in no operation. -/
def settled {ι : Type} : Slot ℕ ι → Bool
  | .dead | .rest _ => true
  | _ => false

/-- **Every pointer is to a session that exists, and the removal leaves none behind.** -/
structure Sound [Fintype ω] [Fintype κ] (s : State ω κ) : Prop where
  /-- The reader epoch. -/
  guarded : Guarded s.epoch
  /-- `recycle` is part of a removal. -/
  recycler : ∀ p stage, s.epoch.recycler () = some (p, stage) → s.remover = .recycling p
  /-- The flag is up only then. -/
  flagged : ∀ p, (s.epoch.session p).isRecycling = true →
    ∃ stage, s.epoch.recycler () = some (p, stage)
  /-- It is up as long as `recycle` runs. -/
  recycling : ∀ p, s.remover = .recycling p → ∃ stage, s.epoch.recycler () = some (p, stage)
  /-- What is deleted was made. -/
  made : ∀ p ∈ s.deleted, p < s.next
  /-- The session that is being removed exists. -/
  leaving : ∀ p, s.remover.session = some p → s.Exists p
  /-- So do those in the key index, and they are not being removed. -/
  keys : ∀ keyId p, s.byKeyId keyId = some p → s.Exists p ∧ s.remover.session ≠ some p
  /-- A session has one key id. -/
  distinct : ∀ keyId keyId' p, s.byKeyId keyId = some p → s.byKeyId keyId' = some p →
    keyId = keyId'
  /-- Those in the endpoint index exist, and the removal has not come past them. -/
  endpoints : ∀ ep p, s.byEndpoint ep = some p → s.Exists p ∧ s.remover.MayHaveEndpoint p ep
  /-- So do those in the route table. -/
  routes : ∀ ip p, s.routes.lookup ip = some p → s.Exists p ∧ s.remover.MayHaveRoute p ip
  /-- There is no route of the address 0. -/
  noZero : s.routes.lookup 0 = none
  /-- Those of the handles exist, and are not about to be deleted. -/
  handles : ∀ i p, refersTo p (s.epoch.slot i) = true → s.Exists p ∧ s.remover ≠ .recycled p
  /-- So do those that lookups find in their snapshots. -/
  snapshots : ∀ w ip snap p, s.worker w = .snapshot ip snap → snap.lookup ip = some p →
    s.Exists p ∧ s.remover ≠ .recycled p
  /-- A move is between two handles of one worker. -/
  own : ∀ w k other, takes (s.epoch.slot (w, k)) = some other → other.1 = w
  /-- A handle in an operation is the one its worker is at. -/
  busy : ∀ w k, settled (s.epoch.slot (w, k)) = false → ∃ l source, s.worker w = .busy k l source
  /-- What a handle is being set to is vouched for. -/
  vouched : ∀ w k l source p, s.worker w = .busy k l source →
    pending p (s.epoch.slot (w, k)) = true → s.Vouched w p l source

theorem Sound.reclaimed [Fintype ω] [Fintype κ] {s : State ω κ} (h : Sound s) : Reclaimed s where
  keys := fun keyId p hp => (h.keys keyId p hp).1.2
  endpoints := fun ep p hp => (h.endpoints ep p hp).1.2
  routes := fun ip p hp => (h.routes ip p hp).1.2
  handles := fun i p hp => (h.handles i p hp).1.2
  snapshots := fun w ip snap p hw hp => (h.snapshots w ip snap p hw hp).1.2

/-! ### The handles -/

theorem refersTo_of_pending {ι : Type} {p : ℕ} {x : Slot ℕ ι} (h : pending p x = true) :
    refersTo p x = true := by
  rw [refersTo, h]
  rfl

theorem pending_of_settled {ι : Type} (p : ℕ) {x : Slot ℕ ι} (h : settled x = true) :
    pending p x = false := by
  cases x <;> simp_all [settled, pending]

/-- A worker outside an operation has settled handles. -/
theorem Sound.settled [Fintype ω] [Fintype κ] {s : State ω κ} (h : Sound s) {w : ω}
    (hw : ∀ k l source, s.worker w ≠ .busy k l source) (k : κ) :
    settled (s.epoch.slot (w, k)) = true := by
  by_contra hne
  obtain ⟨l, source, hbusy⟩ := h.busy w k (Bool.eq_false_of_not_eq_true hne)
  exact hw k l source hbusy

variable [DecidableEq ω] [Fintype ω] [Fintype κ] {s : State ω κ}

/-- A worker goes on in a lookup, or is done. -/
theorem Sound.goto (h : Sound s) {w : ω} {x : Worker κ}
    (hsettled : ∀ k, Shards.settled (s.epoch.slot (w, k)) = true)
    (hx : ∀ k l source, x ≠ .busy k l source)
    (hsnap : ∀ ip snap p, x = .snapshot ip snap → snap.lookup ip = some p →
      s.Exists p ∧ s.remover ≠ .recycled p) : Sound (s.goto w x) := by
  refine { h with
    snapshots := fun w' ip snap p hw' hp => ?_
    busy := fun w' k hk => ?_
    vouched := fun w' k l source p hw' hp => ?_ }
  · rcases eq_or_ne w' w with rfl | hne
    · exact hsnap ip snap p ((worker_goto _ _ _).symm.trans hw') hp
    · exact h.snapshots w' ip snap p ((worker_goto_of_ne _ hne _).symm.trans hw') hp
  · rcases eq_or_ne w' w with rfl | hne
    · exact absurd ((hsettled k).symm.trans hk) (by decide)
    · obtain ⟨l, source, hbusy⟩ := h.busy w' k hk
      exact ⟨l, source, (worker_goto_of_ne _ hne _).trans hbusy⟩
  · rcases eq_or_ne w' w with rfl | hne
    · exact absurd ((worker_goto _ _ _).symm.trans hw') (hx k l source)
    · exact h.vouched w' k l source p ((worker_goto_of_ne _ hne _).symm.trans hw') hp

/-- **A handle moves**, in an operation of its worker. -/
theorem Sound.handle (h : Sound s) {w : ω} {k : κ} {l : Option Lock} {source : Source κ}
    {epoch : ReaderEpoch.State ℕ (ω × κ) Unit UInt32 Unit} (hguarded : Guarded epoch)
    (hrecycler : epoch.recycler = s.epoch.recycler)
    (hflag : ∀ p, (epoch.session p).isRecycling = (s.epoch.session p).isRecycling)
    (hothers : ∀ w' k', w' ≠ w → epoch.slot (w', k') = s.epoch.slot (w', k'))
    (hrefs : ∀ k' p, refersTo p (epoch.slot (w, k')) = true →
      s.Exists p ∧ s.remover ≠ .recycled p)
    (hown : ∀ k' other, takes (epoch.slot (w, k')) = some other → other.1 = w)
    (hsettled : ∀ k', k' ≠ k → Shards.settled (epoch.slot (w, k')) = true)
    (hvouched : ∀ p, pending p (epoch.slot (w, k)) = true →
      { s with epoch := epoch }.Vouched w p l source) :
    Sound ({ s with epoch := epoch }.goto w (.busy k l source)) := by
  refine { h with
    guarded := hguarded
    recycler := fun p stage hp => h.recycler p stage (by rw [← hrecycler]; exact hp)
    flagged := fun p hp => ?_
    recycling := fun p hp => ?_
    handles := fun ⟨w', k'⟩ p hp => ?_
    snapshots := fun w' ip snap p hw' hp => ?_
    own := fun w' k' other hk' => ?_
    busy := fun w' k' hk' => ?_
    vouched := fun w' k' l' source' p hw' hp => ?_ }
  · obtain ⟨stage, hstage⟩ := h.flagged p ((hflag p).symm.trans hp)
    exact ⟨stage, (congrFun hrecycler ()).trans hstage⟩
  · obtain ⟨stage, hstage⟩ := h.recycling p hp
    exact ⟨stage, (congrFun hrecycler ()).trans hstage⟩
  · rcases eq_or_ne w' w with rfl | hne
    · exact hrefs k' p hp
    · exact h.handles (w', k') p (hothers w' k' hne ▸ hp)
  · rcases eq_or_ne w' w with rfl | hne
    · exact nomatch (worker_goto _ _ _).symm.trans hw'
    · exact h.snapshots w' ip snap p ((worker_goto_of_ne _ hne _).symm.trans hw') hp
  · rcases eq_or_ne w' w with rfl | hne
    · exact hown k' other hk'
    · exact h.own w' k' other (hothers w' k' hne ▸ hk')
  · rcases eq_or_ne w' w with rfl | hne
    · rcases eq_or_ne k' k with rfl | hk
      · exact ⟨l, source, worker_goto _ _ _⟩
      · exact absurd ((hsettled k' hk).symm.trans hk') (by decide)
    · obtain ⟨l', source', hbusy⟩ := h.busy w' k' (hothers w' k' hne ▸ hk')
      exact ⟨l', source', (worker_goto_of_ne _ hne _).trans hbusy⟩
  · rcases eq_or_ne w' w with rfl | hne
    · obtain ⟨rfl, rfl, rfl⟩ := Worker.busy.inj ((worker_goto _ _ _).symm.trans hw')
      exact hvouched p hp
    · have hold := h.vouched w' k' l' source' p ((worker_goto_of_ne _ hne _).symm.trans hw')
        (hothers w' k' hne ▸ hp)
      cases source' with
      | index | routes | none => exact hold
      | handle other =>
        obtain ⟨hd, hslot, hptr⟩ := hold
        exact ⟨hd, (hothers w' other hne).trans hslot, hptr⟩

variable [DecidableEq κ]

/-- One handle of the worker moves. -/
theorem Sound.handleTo (h : Sound s) {w : ω} {k : κ} {l : Option Lock} {source : Source κ}
    {epoch : ReaderEpoch.State ℕ (ω × κ) Unit UInt32 Unit} {x : Slot ℕ (ω × κ)}
    (hguarded : Guarded epoch) (hslot : epoch.slot = Function.update s.epoch.slot (w, k) x)
    (hrecycler : epoch.recycler = s.epoch.recycler)
    (hflag : ∀ p, (epoch.session p).isRecycling = (s.epoch.session p).isRecycling)
    (hrefs : ∀ p, refersTo p x = true → s.Exists p ∧ s.remover ≠ .recycled p)
    (hown : ∀ other, takes x = some other → other.1 = w)
    (hsettled : ∀ k', k' ≠ k → Shards.settled (s.epoch.slot (w, k')) = true)
    (hvouched : ∀ p, pending p x = true → { s with epoch := epoch }.Vouched w p l source) :
    Sound ({ s with epoch := epoch }.goto w (.busy k l source)) := by
  have hself : epoch.slot (w, k) = x := by
    rw [hslot, Function.update_self]
  have hother : ∀ w' k', (w', k') ≠ (w, k) → epoch.slot (w', k') = s.epoch.slot (w', k') :=
    fun w' k' hne => by rw [hslot, Function.update_of_ne hne]
  refine h.handle hguarded hrecycler hflag ?_ ?_ ?_ ?_ ?_
  · exact fun w' k' hne => hother w' k' fun heq => hne (Prod.mk.inj heq).1
  · intro k' p hp
    rcases eq_or_ne k' k with rfl | hne
    · exact hrefs p (hself ▸ hp)
    · exact h.handles (w, k') p (hother w k' (fun heq => hne (Prod.mk.inj heq).2) ▸ hp)
  · intro k' other hk'
    rcases eq_or_ne k' k with rfl | hne
    · exact hown other (hself ▸ hk')
    · exact h.own w k' other (hother w k' (fun heq => hne (Prod.mk.inj heq).2) ▸ hk')
  · intro k' hne
    rw [hother w k' fun heq => hne (Prod.mk.inj heq).2]
    exact hsettled k' hne
  · exact fun p hp => hvouched p (hself ▸ hp)

/-- What one handle of the worker has goes to another one. -/
theorem Sound.handover (h : Sound s) {w : ω} {k other : κ} {l : Option Lock} {source : Source κ}
    {epoch : ReaderEpoch.State ℕ (ω × κ) Unit UInt32 Unit} {hd : Handle ℕ}
    (hguarded : Guarded epoch) (hslot : epoch.slot = Function.update
      (Function.update s.epoch.slot (w, k) (.rest hd)) (w, other) (.rest .null))
    (hrecycler : epoch.recycler = s.epoch.recycler)
    (hflag : ∀ p, (epoch.session p).isRecycling = (s.epoch.session p).isRecycling)
    (hrest : s.epoch.slot (w, other) = .rest hd)
    (hsettled : ∀ k', k' ≠ k → Shards.settled (s.epoch.slot (w, k')) = true) :
    Sound ({ s with epoch := epoch }.goto w (.busy k l source)) := by
  have hcases : ∀ k', (epoch.slot (w, k') = .rest .null) ∨ (epoch.slot (w, k') = .rest hd) ∨
      (k' ≠ k ∧ epoch.slot (w, k') = s.epoch.slot (w, k')) := by
    intro k'
    rw [hslot]
    rcases eq_or_ne k' other with rfl | hother
    · exact Or.inl (Function.update_self ..)
    · rw [Function.update_of_ne fun heq => hother (Prod.mk.inj heq).2]
      rcases eq_or_ne k' k with rfl | hne
      · exact Or.inr (Or.inl (Function.update_self ..))
      · exact Or.inr (Or.inr ⟨hne, Function.update_of_ne (fun heq => hne (Prod.mk.inj heq).2) ..⟩)
  have hall : ∀ k', Shards.settled (epoch.slot (w, k')) = true := by
    intro k'
    rcases hcases k' with hk' | hk' | ⟨hne, hk'⟩ <;> rw [hk']
    · rfl
    · rfl
    · exact hsettled k' hne
  refine h.handle hguarded hrecycler hflag ?_ ?_ ?_ (fun k' _ => hall k') ?_
  · intro w' k' hne
    rw [hslot, Function.update_of_ne fun heq => hne (Prod.mk.inj heq).1,
      Function.update_of_ne fun heq => hne (Prod.mk.inj heq).1]
  · intro k' p hp
    rcases hcases k' with hk' | hk' | ⟨-, hk'⟩ <;> rw [hk'] at hp
    · exact absurd hp (by simp [refersTo, pending, entered, Handle.null])
    · exact h.handles (w, other) p (by rw [hrest]; exact hp)
    · exact h.handles (w, k') p hp
  · intro k' other' hk'
    rcases hcases k' with heq | heq | ⟨-, heq⟩ <;> rw [heq] at hk'
    · cases hk'
    · cases hk'
    · exact h.own w k' other' hk'
  · exact fun p hp => absurd ((pending_of_settled p (hall k)).symm.trans hp) (by decide)

/-- **An operation begins** by releasing what the handle has, and may go on to set it to
another pointer. -/
theorem Sound.releasing (h : Sound s) {w : ω} {k : κ} {l : Option Lock} {source : Source κ}
    {hd : Handle ℕ} {after : After ℕ (ω × κ)}
    (hguarded : Guarded (s.epoch.goto (w, k) (.releasing hd after)))
    (hsettled : ∀ k', Shards.settled (s.epoch.slot (w, k')) = true)
    (hkept : ∀ p, hd.ptr = some p → entered p (s.epoch.slot (w, k)) = true)
    (hreset : ∀ p, after = .reset (some p) → (s.Exists p ∧ s.remover ≠ .recycled p) ∧
      ({ s with epoch := s.epoch.goto (w, k) (.releasing hd after) } : State ω κ).Vouched w p l
        source)
    (htake : ∀ other, after = .take other → other.1 = w) :
    Sound ({ s with epoch := s.epoch.goto (w, k) (.releasing hd after) }.goto w
      (.busy k l source)) := by
  have hpending : ∀ p, pending p (.releasing hd after : Slot ℕ (ω × κ)) = true →
      after = .reset (some p) := by
    intro p hp
    rcases after with _ | ⟨_ | q⟩ | _
    · exact absurd hp (by simp [pending])
    · exact absurd hp (by simp [pending])
    · obtain rfl : q = p := by simpa [pending] using hp
      rfl
    · exact absurd hp (by simp [pending])
  refine h.handleTo hguarded rfl rfl (fun _ => rfl) ?_ ?_ (fun k' _ => hsettled k') ?_
  · intro p hp
    rcases (Bool.or_eq_true _ _).mp hp with hp | hp
    · exact (hreset p (hpending p hp)).1
    · refine h.handles (w, k) p ?_
      rw [refersTo, hkept p (by simpa [entered] using hp), Bool.or_true]
  · intro other hother
    cases after with
    | take other' => exact htake other (congrArg After.take (Option.some.inj hother))
    | _ => cases hother
  · exact fun p hp => (hreset p (hpending p hp)).2

/-- A lookup constructs a handle on the entry it has found. -/
theorem Sound.constructOn (h : Sound s) {w : ω} {k : κ} {p : ℕ} {l : Option Lock}
    {source : Source κ} {t : State ω κ} (hw : ∀ k l source, s.worker w ≠ .busy k l source)
    (hp : s.Exists p ∧ s.remover ≠ .recycled p)
    (hvouched : ∀ epoch, { s with epoch := epoch }.Vouched w p l source)
    (ht : s.constructOn w k p l source = some t) : Sound t := by
  obtain ⟨epoch, hepoch, rfl⟩ := Option.map_eq_some_iff.mp ht
  have hguarded := h.guarded.step (a := .construct (w, k) (some p)) trivial hepoch
  simp only [ReaderEpoch.step] at hepoch
  split at hepoch
  · obtain rfl := Option.some.inj hepoch
    refine h.releasing hguarded (h.settled hw) ?_ ?_ ?_
    · exact fun q hq => by cases hq
    · intro q hq
      obtain rfl := Option.some.inj (After.reset.inj hq)
      exact ⟨hp, hvouched _⟩
    · exact fun other hother => by cases hother
  · exact absurd hepoch (by simp)

/-- A copy takes the pointer of another handle of the worker. -/
theorem Sound.copying (h : Sound s) {w : ω} {k other : κ} {l : Option Lock} {hd hd' : Handle ℕ}
    (hguarded : Guarded (s.epoch.goto (w, k) (.releasing hd (.reset hd'.ptr))))
    (hsettled : ∀ k', Shards.settled (s.epoch.slot (w, k')) = true) (hne : k ≠ other)
    (hkept : ∀ p, hd.ptr = some p → entered p (s.epoch.slot (w, k)) = true)
    (hother : s.epoch.slot (w, other) = .rest hd') :
    Sound ({ s with epoch := s.epoch.goto (w, k) (.releasing hd (.reset hd'.ptr)) }.goto w
      (.busy k l (.handle other))) := by
  refine h.releasing hguarded hsettled hkept ?_ ?_
  · intro p hp
    have hptr : hd'.ptr = some p := After.reset.inj hp
    refine ⟨h.handles (w, other) p ?_, hd', ?_, hptr⟩
    · rw [hother, refersTo, Bool.or_eq_true]
      exact Or.inr (by simp [entered, hptr])
    · exact (Function.update_of_ne (fun heq => hne (Prod.mk.inj heq).2.symm) _ _).trans hother
  · exact fun other' hother' => by cases hother'

/-- A worker begins an operation on a handle. -/
theorem Sound.beginHandle (h : Sound s) {w : ω} (op : HandleOp κ) (l : Option Lock)
    {epoch : ReaderEpoch.State ℕ (ω × κ) Unit UInt32 Unit}
    (hw : ∀ k l source, s.worker w ≠ .busy k l source)
    (hepoch : ReaderEpoch.step s.epoch (op.action w) = some epoch) :
    Sound ({ s with epoch := epoch }.goto w (.busy op.target l op.source)) := by
  have hguarded := h.guarded.step (a := op.action w) (by cases op <;> trivial) hepoch
  have hsettled := h.settled hw
  have hkept : ∀ {k : κ} {hd : Handle ℕ}, s.epoch.slot (w, k) = .rest hd →
      ∀ p, hd.ptr = some p → entered p (s.epoch.slot (w, k)) = true := by
    intro k hd hk p hp
    rw [hk]
    simp [entered, hp]
  -- an operation that leaves its handle alone
  have hstay : ∀ k source, Sound (({ s with epoch := s.epoch } : State ω κ).goto w
      (.busy k l source)) := by
    intro k source
    refine h.handle h.guarded rfl (fun _ => rfl) (fun _ _ _ => rfl) ?_ ?_
      (fun k' _ => hsettled k') ?_
    · exact fun k' p hp => h.handles (w, k') p hp
    · exact fun k' other hk' => h.own w k' other hk'
    · exact fun p hp => absurd ((pending_of_settled p (hsettled k)).symm.trans hp) (by decide)
  cases op with
  | copyConstruct k other =>
    simp only [HandleOp.action, ReaderEpoch.step] at hepoch
    split at hepoch
    · rename_i hd hdead hother
      obtain rfl := Option.some.inj hepoch
      refine h.copying hguarded hsettled ?_ (fun p hp => by cases hp) hother
      rintro rfl
      cases hdead.symm.trans hother
    · exact absurd hepoch (by simp)
  | moveConstruct k other =>
    simp only [HandleOp.action, ReaderEpoch.step] at hepoch
    split at hepoch
    · rename_i hd hdead hother
      obtain rfl := Option.some.inj hepoch
      exact h.handover hguarded rfl rfl (fun _ => rfl) hother fun k' _ => hsettled k'
    · exact absurd hepoch (by simp)
  | copyAssign k other =>
    simp only [HandleOp.action, ReaderEpoch.step] at hepoch
    split at hepoch
    · rename_i hd hd' hk hother
      split at hepoch
      · obtain rfl := Option.some.inj hepoch
        exact hstay k _
      · rename_i hne
        obtain rfl := Option.some.inj hepoch
        exact h.copying hguarded hsettled (fun heq => hne (by rw [heq])) (hkept hk) hother
    · exact absurd hepoch (by simp)
  | moveAssign k other =>
    simp only [HandleOp.action, ReaderEpoch.step] at hepoch
    split at hepoch
    · rename_i hd hd' hk hother
      split at hepoch
      · obtain rfl := Option.some.inj hepoch
        exact hstay k _
      · obtain rfl := Option.some.inj hepoch
        refine h.releasing hguarded hsettled (hkept hk) (fun p hp => by cases hp) ?_
        rintro other' hother'
        obtain rfl := After.take.inj hother'
        rfl
    · exact absurd hepoch (by simp)
  | release k =>
    simp only [HandleOp.action, ReaderEpoch.step] at hepoch
    split at hepoch
    · rename_i hd hk
      obtain rfl := Option.some.inj hepoch
      exact h.releasing hguarded hsettled (hkept hk) (fun p hp => by cases After.reset.inj hp)
        fun other hother => by cases hother
    · exact absurd hepoch (by simp)
  | destroy k =>
    simp only [HandleOp.action, ReaderEpoch.step] at hepoch
    split at hepoch
    · rename_i hd hk
      obtain rfl := Option.some.inj hepoch
      exact h.releasing hguarded hsettled (hkept hk) (fun p hp => by cases hp)
        fun other hother => by cases hother
    · exact absurd hepoch (by simp)

omit [Fintype ω] [Fintype κ] in
/-- What a step of an operation does: it takes what another handle has, or moves its own
handle without a new pointer. -/
theorem next_cases {st st' : ReaderEpoch.State ℕ (ω × κ) Unit UInt32 Unit} {i : ω × κ}
    (hnext : ReaderEpoch.next st i = some st') :
    st'.recycler = st.recycler ∧
      (∀ p, (st'.session p).isRecycling = (st.session p).isRecycling) ∧
      ((∃ other hd, st.slot i = .taking other ∧ st.slot other = .rest hd ∧
        st'.slot = Function.update (Function.update st.slot i (.rest hd)) other (.rest .null)) ∨
      ∃ x, st'.slot = Function.update st.slot i x ∧
        (∀ p, refersTo p x = true → refersTo p (st.slot i) = true) ∧
        (∀ p, pending p x = true → pending p (st.slot i) = true) ∧
        ∀ other, takes x = some other → takes (st.slot i) = some other) := by
  have hflag : ∀ q n p, ((st.setSession q { st.session q with activeReaders := n }).session
      p).isRecycling = (st.session p).isRecycling := by
    intro q n p
    by_cases hp : p = q
    · simp [hp]
    · simp [hp]
  rw [ReaderEpoch.next] at hnext
  cases hi : st.slot i with
  | dead | rest _ => simp [hi] at hnext
  | releasing hd after =>
    -- the handle is given up, and goes on to where the operation says
    have hafter : ∀ p, refersTo p after.slot = true →
        pending p (.releasing hd after : Slot ℕ (ω × κ)) = true := by
      intro p hp
      rcases after with _ | ⟨_ | q⟩ | _ <;>
        simp_all [After.slot, refersTo, pending, entered, Handle.null]
    have hshape : (∀ p, refersTo p after.slot = true →
          refersTo p (.releasing hd after : Slot ℕ (ω × κ)) = true) ∧
        (∀ p, pending p after.slot = true →
          pending p (.releasing hd after : Slot ℕ (ω × κ)) = true) ∧
        ∀ other, takes after.slot = some other →
          takes (.releasing hd after : Slot ℕ (ω × κ)) = some other := by
      refine ⟨fun p hp => refersTo_of_pending (hafter p hp),
        fun p hp => hafter p (refersTo_of_pending hp), fun other hother => ?_⟩
      rcases after with _ | ⟨_ | q⟩ | _ <;> simp_all [After.slot, takes]
    rcases hd with ⟨_ | q, g⟩
    · simp only [hi, Option.some.injEq] at hnext
      subst hnext
      exact ⟨rfl, fun _ => rfl, Or.inr ⟨_, rfl, hshape⟩⟩
    · simp only [hi, Option.some.injEq] at hnext
      subst hnext
      exact ⟨rfl, hflag q _, Or.inr ⟨_, rfl, hshape⟩⟩
  | taking other =>
    cases hj : st.slot other with
    | rest hd =>
      simp only [hi, hj, Option.some.injEq] at hnext
      subst hnext
      exact ⟨rfl, fun _ => rfl, Or.inl ⟨other, hd, rfl, hj, rfl⟩⟩
    | _ => simp [hi, hj] at hnext
  | loadGeneration q =>
    simp only [hi, Option.some.injEq] at hnext
    subst hnext
    exact ⟨rfl, fun _ => rfl, Or.inr ⟨_, rfl, by simp [refersTo, pending, entered],
      by simp [pending], by simp [takes]⟩⟩
  | checkRecycling q g | recheck q g =>
    simp only [hi] at hnext
    split at hnext <;> obtain rfl := Option.some.inj hnext
    · exact ⟨rfl, fun _ => rfl, Or.inr ⟨_, rfl, by simp [refersTo, pending, entered, Handle.null],
        by simp [pending], by simp [takes]⟩⟩
    · exact ⟨rfl, fun _ => rfl, Or.inr ⟨_, rfl, by simp [refersTo, pending, entered],
        by simp [pending], by simp [takes]⟩⟩
  | fetchAdd q g | backOut q | exitReader q =>
    simp only [hi, Option.some.injEq] at hnext
    subst hnext
    exact ⟨rfl, hflag q _, Or.inr ⟨_, rfl, by simp [refersTo, pending, entered, Handle.null],
      by simp [pending], by simp [takes]⟩⟩
  | reload q g =>
    simp only [hi] at hnext
    split at hnext <;> obtain rfl := Option.some.inj hnext
    · exact ⟨rfl, fun _ => rfl, Or.inr ⟨_, rfl, by simp [refersTo, pending, entered],
        by simp [pending], by simp [takes]⟩⟩
    · exact ⟨rfl, fun _ => rfl, Or.inr ⟨_, rfl, by simp [refersTo, pending, entered],
        by simp [pending], by simp [takes]⟩⟩

/-- A worker makes the next step of its operation. -/
theorem Sound.next (h : Sound s) {w : ω} {k : κ} {l : Option Lock} {source : Source κ}
    {epoch : ReaderEpoch.State ℕ (ω × κ) Unit UInt32 Unit} (hw : s.worker w = .busy k l source)
    (hroom : ReaderEpoch.RoomFor s.epoch (s.epoch.slot (w, k)))
    (hepoch : ReaderEpoch.step s.epoch (.next (w, k)) = some epoch) :
    Sound { s with epoch := epoch } := by
  have hguarded := h.guarded.step (a := .next (w, k)) hroom hepoch
  have hsettled : ∀ k', k' ≠ k → Shards.settled (s.epoch.slot (w, k')) = true := by
    intro k' hne
    by_contra hk'
    obtain ⟨l', source', hbusy⟩ := h.busy w k' (Bool.eq_false_of_not_eq_true hk')
    exact hne (Worker.busy.inj (hbusy.symm.trans hw)).1
  have hstate : ({ s with epoch := epoch } : State ω κ) =
      ({ s with epoch := epoch } : State ω κ).goto w (.busy k l source) := by
    rw [State.goto, ← hw, Function.update_eq_self]
  rw [hstate]
  obtain ⟨hrecycler, hflag, ⟨other, hd, htaking, hrest, hslot⟩ | ⟨x, hslot, hrefs, hpend, htake⟩⟩ :=
    next_cases hepoch
  · have hother : other = (w, other.2) :=
      Prod.ext (h.own w k other (by rw [htaking]; rfl)) rfl
    rw [hother] at hrest hslot
    exact h.handover hguarded hslot hrecycler hflag hrest hsettled
  · refine h.handleTo hguarded hslot hrecycler hflag ?_ ?_ hsettled ?_
    · exact fun p hp => h.handles (w, k) p (hrefs p hp)
    · exact fun other hother => h.own w k other (htake other hother)
    · intro p hp
      have hold := h.vouched w k l source p hw (hpend p hp)
      cases source with
      | index | routes | none => exact hold
      | handle other =>
        obtain ⟨hd, hrest, hptr⟩ := hold
        refine ⟨hd, ?_, hptr⟩
        have hne : (w, other) ≠ (w, k) := by
          intro heq
          rw [heq] at hrest
          have hsettled' := pending_of_settled (x := s.epoch.slot (w, k)) p (by rw [hrest]; rfl)
          rw [hpend p hp] at hsettled'
          exact absurd hsettled' (by decide)
        change epoch.slot (w, other) = .rest hd
        rw [hslot, Function.update_of_ne hne, hrest]

/-! ### The table -/

omit [DecidableEq ω] [Fintype ω] [Fintype κ] [DecidableEq κ] in
theorem refersTo_of_held {w : ω} {k : κ} {p : ℕ} (hp : s.held w k = some p) :
    refersTo p (s.epoch.slot (w, k)) = true := by
  rw [State.held] at hp
  split at hp
  · rename_i hd _ hslot
    rw [hslot, refersTo, Bool.or_eq_true]
    exact Or.inr (by simp [entered, hp])
  · exact absurd hp (by simp)

omit [DecidableEq ω] [DecidableEq κ] in
/-- A session changes apart from its counter and its flag. -/
theorem Sound.setSession (h : Sound s) {p : ℕ} {v : ReaderEpoch.Session UInt32 Unit}
    (hreaders : v.activeReaders = (s.epoch.session p).activeReaders)
    (hflag : v.isRecycling = (s.epoch.session p).isRecycling) :
    Sound { s with epoch := s.epoch.setSession p v } := by
  refine { h with
    guarded := h.guarded.setSession hreaders hflag
    flagged := fun q hq => h.flagged q ?_ }
  by_cases hqp : q = p
  · subst hqp
    rw [← hflag]
    simpa using hq
  · simpa [hqp] using hq

omit [DecidableEq ω] [DecidableEq κ] in
/-- `map_ip`, ahead of the place where the removal unmaps the address. -/
theorem Sound.mapIp (h : Sound s) {w : ω} {k : κ} {ip : UInt32} {p : ℕ}
    (hp : s.held w k = some p) (hok : ip ≠ 0 → s.remover.MayHaveRoute p ip) :
    Sound (s.mapIp ip p) := by
  rw [State.mapIp]
  split
  · exact h
  · rename_i hne
    refine { h with
      routes := fun ip' q hq => ?_
      noZero := (AList.lookup_insert_ne (Ne.symm hne)).trans h.noZero }
    rcases eq_or_ne ip' ip with rfl | hip
    · obtain rfl := Option.some.inj ((AList.lookup_insert _).symm.trans hq)
      exact ⟨(h.handles (w, k) p (refersTo_of_held hp)).1, hok hne⟩
    · exact h.routes ip' q ((AList.lookup_insert_ne hip).symm.trans hq)

omit [DecidableEq ω] [Fintype ω] [Fintype κ] [DecidableEq κ] in
/-- An entry in a shard stays where the shard stays as it is. -/
theorem Entry.mono {t : State ω κ} {p : ℕ} {l : Lock} (hentry : s.Entry p l)
    (hkeys : ∀ keyId, l = .keys (shardIdx keyId) → s.byKeyId keyId = some p →
      t.byKeyId keyId = some p)
    (hendpoints : ∀ ep, l = .endpoints (shardIdx ep) → s.byEndpoint ep = some p →
      t.byEndpoint ep = some p) : t.Entry p l := by
  cases l with
  | keys n =>
    obtain ⟨keyId, rfl, hp⟩ := hentry
    exact ⟨keyId, rfl, hkeys keyId rfl hp⟩
  | endpoints n =>
    obtain ⟨ep, rfl, hp⟩ := hentry
    exact ⟨ep, rfl, hendpoints ep rfl hp⟩

omit [DecidableEq ω] [DecidableEq κ] in
/-- What vouches for a pointer survives a writer that no reader keeps out. -/
theorem Sound.vouched_of_free (h : Sound s) {t : State ω κ} (hepoch : t.epoch = s.epoch)
    (hworker : t.worker = s.worker)
    (hkeys : ∀ keyId p, (∃ w, (s.worker w).lock = some (.keys (shardIdx keyId))) →
      s.byKeyId keyId = some p → t.byKeyId keyId = some p)
    (hendpoints : ∀ ep p, (∃ w, (s.worker w).lock = some (.endpoints (shardIdx ep))) →
      s.byEndpoint ep = some p → t.byEndpoint ep = some p)
    (w : ω) (k : κ) (l : Option Lock) (source : Source κ) (p : ℕ)
    (hw : t.worker w = .busy k l source) (hp : pending p (t.epoch.slot (w, k)) = true) :
    t.Vouched w p l source := by
  rw [hworker] at hw
  rw [hepoch] at hp
  have hold := h.vouched w k l source p hw hp
  cases source with
  | index =>
    obtain ⟨l', hl', hentry⟩ := hold
    have hlock : (s.worker w).lock = some l' := by
      rw [hw]
      exact hl'
    refine ⟨l', hl', Entry.mono hentry ?_ ?_⟩
    · exact fun keyId hl hk => hkeys keyId p ⟨w, by rw [hlock, hl]⟩ hk
    · exact fun ep hl he => hendpoints ep p ⟨w, by rw [hlock, hl]⟩ he
  | handle other =>
    rw [State.Vouched, hepoch]
    exact hold
  | routes => trivial
  | none => exact hold.elim

omit [DecidableEq ω] [DecidableEq κ] in
/-- `update_endpoint`, ahead of the place where the removal erases the endpoint. -/
theorem Sound.updateEndpoint (h : Sound s) {w : ω} {k : κ} {ep : UInt64} {p : ℕ}
    (hp : s.held w k = some p) (hfree : s.Free (.endpoints (shardIdx ep)))
    (hok : s.remover.MayHaveEndpoint p ep) :
    Sound { s with byEndpoint := Function.update s.byEndpoint ep (some p) } := by
  refine { h with
    endpoints := fun ep' q hq => ?_
    vouched := h.vouched_of_free rfl rfl (fun _ _ _ hk => hk) fun ep' q ⟨w', hw'⟩ hq => ?_ }
  · rcases eq_or_ne ep' ep with rfl | hne
    · obtain rfl : p = q := by simpa using hq
      exact ⟨(h.handles (w, k) p (refersTo_of_held hp)).1, hok⟩
    · exact h.endpoints ep' q ((Function.update_of_ne hne _ _).symm.trans hq)
  · rcases eq_or_ne ep' ep with rfl | hne
    · exact absurd hw' (hfree w')
    · exact (Function.update_of_ne hne _ _).trans hq

omit [DecidableEq ω] [Fintype ω] [Fintype κ] [DecidableEq κ] in
/-- What is left of an endpoint shard. -/
theorem eraseEndpoints_eq_some {n : ℕ} {gone : ℕ → Bool} {ep : UInt64} {p : ℕ} :
    (s.eraseEndpoints n gone).byEndpoint ep = some p ↔
      s.byEndpoint ep = some p ∧ ¬(shardIdx ep = n ∧ gone p = true) := by
  rw [State.eraseEndpoints, Option.filter_eq_some_iff, Bool.not_eq_true', Bool.and_eq_false_iff,
    decide_eq_false_iff_not, Bool.eq_false_iff, not_and_or]

omit [DecidableEq ω] [DecidableEq κ] in
/-- Entries of an endpoint shard are erased. -/
theorem Sound.eraseEndpoints (h : Sound s) {n : ℕ} (hfree : s.Free (.endpoints n))
    (gone : ℕ → Bool) : Sound (s.eraseEndpoints n gone) := by
  refine { h with
    endpoints := fun ep p hp => h.endpoints ep p (eraseEndpoints_eq_some.mp hp).1
    vouched := h.vouched_of_free rfl rfl (fun _ _ _ hk => hk) fun ep p ⟨w, hw⟩ hp =>
      eraseEndpoints_eq_some.mpr ⟨hp, ?_⟩ }
  rintro ⟨rfl, -⟩
  exact hfree w hw

omit [DecidableEq ω] [DecidableEq κ] in
/-- A new session is entered. -/
theorem Sound.register (h : Sound s) (hrest : s.remover = .rest) {keyId : UInt64}
    (hnone : s.byKeyId keyId = none) :
    Sound { s with
      byKeyId := Function.update s.byKeyId keyId (some s.next)
      next := s.next + 1 } := by
  have hcases : ∀ keyId' p, Function.update s.byKeyId keyId (some s.next) keyId' = some p →
      (keyId' = keyId ∧ p = s.next) ∨ s.byKeyId keyId' = some p := by
    intro keyId' p hp
    rcases eq_or_ne keyId' keyId with rfl | hne
    · have hnext : s.next = p := by simpa using hp
      exact Or.inl ⟨rfl, hnext.symm⟩
    · exact Or.inr ((Function.update_of_ne hne _ _).symm.trans hp)
  have hold : ∀ {p}, s.Exists p → p < s.next + 1 ∧ p ∉ s.deleted := fun hp =>
    ⟨Nat.lt_succ_of_lt hp.1, hp.2⟩
  refine { h with
    made := fun p hp => Nat.lt_succ_of_lt (h.made p hp)
    leaving := fun p hp => hold (h.leaving p hp)
    keys := fun keyId' p hp => ?_
    distinct := fun keyId' keyId'' p hp hp' => ?_
    endpoints := fun ep p hp => ⟨hold (h.endpoints ep p hp).1, (h.endpoints ep p hp).2⟩
    routes := fun ip p hp => ⟨hold (h.routes ip p hp).1, (h.routes ip p hp).2⟩
    handles := fun i p hp => ⟨hold (h.handles i p hp).1, (h.handles i p hp).2⟩
    snapshots := fun w ip snap p hw hp =>
      ⟨hold (h.snapshots w ip snap p hw hp).1, (h.snapshots w ip snap p hw hp).2⟩
    vouched := h.vouched_of_free rfl rfl (fun keyId' p _ hp => ?_) fun _ _ _ he => he }
  · rcases hcases keyId' p hp with ⟨-, rfl⟩ | hp
    · refine ⟨⟨Nat.lt_succ_self _, fun hdel => lt_irrefl _ (h.made _ hdel)⟩, ?_⟩
      change s.remover.session ≠ _
      rw [hrest]
      exact nofun
    · exact ⟨hold (h.keys keyId' p hp).1, (h.keys keyId' p hp).2⟩
  · rcases hcases keyId' p hp with ⟨hkey, hnext⟩ | hp <;>
      rcases hcases keyId'' p hp' with ⟨hkey', hnext'⟩ | hp'
    · exact hkey.trans hkey'.symm
    · exact absurd hnext (h.keys keyId'' p hp').1.1.ne
    · exact absurd hnext' (h.keys keyId' p hp).1.1.ne
    · exact h.distinct keyId' keyId'' p hp hp'
  · rcases eq_or_ne keyId' keyId with rfl | hne
    · exact absurd (hnone.symm.trans hp) (by simp)
    · exact (Function.update_of_ne hne _ _).trans hp

/-! ### The removal -/

theorem shardIdx_lt (k : UInt64) : shardIdx k < 64 := by
  simp only [shardIdx, UInt64.toNat_mod, UInt64.reduceToNat]
  exact Nat.mod_lt _ (by decide)

omit [DecidableEq ω] [DecidableEq κ] in
/-- `remove_session` erases the key id of its session. -/
theorem Sound.remove (h : Sound s) {keyId : UInt64} {p : ℕ} (hp : s.byKeyId keyId = some p)
    (hfree : s.Free (.keys (shardIdx keyId))) (hrest : s.remover = .rest) :
    Sound { s with byKeyId := Function.update s.byKeyId keyId none, remover := .erased p } := by
  have hold : ∀ keyId' q, Function.update s.byKeyId keyId none keyId' = some q →
      keyId' ≠ keyId ∧ s.byKeyId keyId' = some q := by
    intro keyId' q hq
    rcases eq_or_ne keyId' keyId with rfl | hne
    · exact absurd hq (by simp)
    · exact ⟨hne, (Function.update_of_ne hne _ _).symm.trans hq⟩
  refine { h with
    recycler := fun q stage hq => absurd (hrest.symm.trans (h.recycler q stage hq)) (by simp)
    recycling := fun q hq => nomatch hq
    leaving := fun q hq => Option.some.inj hq ▸ (h.keys keyId p hp).1
    keys := fun keyId' q hq => ⟨(h.keys keyId' q (hold keyId' q hq).2).1, ?_⟩
    distinct := fun keyId' keyId'' q hq hq' =>
      h.distinct keyId' keyId'' q (hold keyId' q hq).2 (hold keyId'' q hq').2
    endpoints := fun ep q hq => ⟨(h.endpoints ep q hq).1, trivial⟩
    routes := fun ip q hq => ⟨(h.routes ip q hq).1, trivial⟩
    handles := fun i q hq => ⟨(h.handles i q hq).1, nofun⟩
    snapshots := fun w ip snap q hw hq => ⟨(h.snapshots w ip snap q hw hq).1, nofun⟩
    vouched := h.vouched_of_free rfl rfl (fun keyId' q ⟨w, hw⟩ hq => ?_) fun _ _ _ he => he }
  · intro heq
    obtain rfl := Option.some.inj heq
    exact (hold keyId' p hq).1 (h.distinct keyId' keyId p (hold keyId' p hq).2 hp)
  · have hne : keyId' ≠ keyId := by
      rintro rfl
      exact hfree w hw
    exact (Function.update_of_ne hne _ _).trans hq

omit [DecidableEq ω] [DecidableEq κ] in
/-- The removal goes on with its session. What it asks of endpoints and routes from then on
is what they meet. -/
theorem Sound.advance (h : Sound s) {r : Remover} (hsession : r.session = s.remover.session)
    (hrecycling : ∀ p, s.remover ≠ .recycling p) (hrecycling' : ∀ p, r ≠ .recycling p)
    (hrecycled : ∀ p, r ≠ .recycled p)
    (hendpoints : ∀ ep p, s.byEndpoint ep = some p → r.MayHaveEndpoint p ep)
    (hroutes : ∀ ip p, s.routes.lookup ip = some p → r.MayHaveRoute p ip) :
    Sound { s with remover := r } :=
  { h with
    recycler := fun p stage hp => absurd (h.recycler p stage hp) (hrecycling p)
    recycling := fun p hp => absurd hp (hrecycling' p)
    leaving := fun p hp => h.leaving p (hsession.symm.trans hp)
    keys := fun keyId p hp => ⟨(h.keys keyId p hp).1, fun heq =>
      (h.keys keyId p hp).2 (hsession.symm.trans heq)⟩
    endpoints := fun ep p hp => ⟨(h.endpoints ep p hp).1, hendpoints ep p hp⟩
    routes := fun ip p hp => ⟨(h.routes ip p hp).1, hroutes ip p hp⟩
    handles := fun i p hp => ⟨(h.handles i p hp).1, hrecycled p⟩
    snapshots := fun w ip snap p hw hp => ⟨(h.snapshots w ip snap p hw hp).1, hrecycled p⟩ }

omit [DecidableEq ω] [DecidableEq κ] in
/-- The removal reads the address, which is that of every route to its session. -/
theorem Sound.load (h : Sound s) {p : ℕ} (hr : s.remover = .erased p)
    (hroutes : ∀ entry ∈ s.routes.entries, entry.2 = p →
      entry.1 = (s.epoch.session p).routing) :
    Sound { s with remover := .loaded p (s.epoch.session p).routing } := by
  refine h.advance (by rw [hr]; rfl) (by simp [hr]) nofun nofun (fun _ _ _ => trivial) ?_
  rintro ip q hq rfl
  exact hroutes ⟨ip, p⟩ (AList.mem_lookup_iff.mp hq) rfl

omit [DecidableEq ω] [DecidableEq κ] in
/-- The removal unmaps the address, and no route to its session is left. -/
theorem Sound.unmap (h : Sound s) {p : ℕ} {ip : UInt32} (hr : s.remover = .loaded p ip) :
    Sound { s.unmapIp ip with remover := .purging p 0 } := by
  have hroute : ∀ ip' q, s.routes.lookup ip' = some q → q = p → ip' = ip := by
    rintro ip' q hq rfl
    have hmay := (h.routes ip' q hq).2
    rw [hr] at hmay
    exact hmay rfl
  have hunmapped : Sound (s.unmapIp ip) ∧
      ∀ ip' q, (s.unmapIp ip).routes.lookup ip' = some q → q ≠ p := by
    rw [State.unmapIp]
    split
    · rename_i hzero
      refine ⟨h, fun ip' q hq heq => ?_⟩
      have hip := (hroute ip' q hq heq).trans hzero
      exact absurd (h.noZero.symm.trans (hip ▸ hq)) (by simp)
    · have hold : ∀ ip' q, (s.routes.erase ip).lookup ip' = some q →
          ip' ≠ ip ∧ s.routes.lookup ip' = some q := by
        intro ip' q hq
        rcases eq_or_ne ip' ip with rfl | hne
        · exact absurd ((AList.lookup_erase _ _).symm.trans hq) (by simp)
        · exact ⟨hne, (AList.lookup_erase_ne hne).symm.trans hq⟩
      refine ⟨{ h with
        routes := fun ip' q hq => h.routes ip' q (hold ip' q hq).2
        noZero := ?_ }, fun ip' q hq heq => ?_⟩
      · by_contra hne
        obtain ⟨q, hq⟩ := Option.ne_none_iff_exists'.mp hne
        exact absurd (h.noZero.symm.trans (hold 0 q hq).2) (by simp)
      · exact (hold ip' q hq).1 (hroute ip' q (hold ip' q hq).2 heq)
  have hr' : (s.unmapIp ip).remover = .loaded p ip := by
    rw [State.unmapIp]
    split <;> exact hr
  refine hunmapped.1.advance (by rw [hr']; rfl) (by simp [hr']) nofun nofun ?_ ?_
  · exact fun ep q _ _ => Nat.zero_le _
  · exact fun ip' q hq heq => hunmapped.2 ip' q hq heq.symm

omit [DecidableEq ω] [DecidableEq κ] in
/-- The removal purges a shard. -/
theorem Sound.purge (h : Sound s) {p n : ℕ} (hr : s.remover = .purging p n)
    (hfree : s.Free (.endpoints n)) :
    Sound { s.eraseEndpoints n (fun q => q = p) with remover := .purging p (n + 1) } := by
  refine (h.eraseEndpoints hfree fun q => q = p).advance ?_ ?_ nofun nofun ?_ ?_
  · change _ = s.remover.session
    rw [hr]
    rfl
  · change ∀ q, s.remover ≠ _
    simp [hr]
  · rintro ep q hq rfl
    obtain ⟨hep, hkept⟩ := eraseEndpoints_eq_some.mp hq
    have hmay := (h.endpoints ep p hep).2
    rw [hr] at hmay
    have hle : n ≤ shardIdx ep := hmay rfl
    have hne : shardIdx ep ≠ n := fun heq => hkept ⟨heq, by simp⟩
    exact Nat.lt_of_le_of_ne hle hne.symm
  · intro ip q hq
    have hmay := (h.routes ip q hq).2
    rw [hr] at hmay
    exact hmay

/-- `recycle` swaps the flag of the session, once all shards are purged. -/
theorem Sound.swap (h : Sound s) {p n : ℕ} {epoch : ReaderEpoch.State ℕ (ω × κ) Unit UInt32 Unit}
    (hr : s.remover = .purging p n) (hn : ¬n < 64)
    (hepoch : ReaderEpoch.step s.epoch (.recycle () p) = some epoch) :
    Sound { s with
      epoch := epoch
      remover := if (epoch.recycler ()).isSome then .recycling p else .recycled p } := by
  have hnone : s.epoch.recycler () = none := by
    by_contra hne
    obtain ⟨⟨q, stage⟩, hq⟩ := Option.ne_none_iff_exists'.mp hne
    exact absurd (hr.symm.trans (h.recycler q stage hq)) (by simp)
  have hdown : ∀ q, (s.epoch.session q).isRecycling = false := by
    intro q
    by_contra hne
    obtain ⟨stage, hstage⟩ := h.flagged q (Bool.eq_true_of_not_eq_false hne)
    exact absurd (hnone.symm.trans hstage) (by simp)
  have hguarded := h.guarded.step (a := .recycle () p) trivial hepoch
  simp only [ReaderEpoch.step, hnone, hdown p, Bool.false_eq_true, if_false,
    Option.some.injEq] at hepoch
  subst hepoch
  have hrecycler : ((s.epoch.setRecycling p true).setRecycler () (some (p, .bump))).recycler () =
      some (p, .bump) := by
    simp
  rw [hrecycler]
  refine { h with
    guarded := hguarded
    recycler := fun q stage hq => ?_
    flagged := fun q hq => ?_
    recycling := fun q hq => ⟨.bump, ?_⟩
    leaving := fun q hq => h.leaving q (by rw [hr]; exact hq)
    keys := fun keyId q hq => ⟨(h.keys keyId q hq).1, fun heq =>
      (h.keys keyId q hq).2 (by rw [hr]; exact heq)⟩
    endpoints := fun ep q hq => ⟨(h.endpoints ep q hq).1, ?_⟩
    routes := fun ip q hq => ⟨(h.routes ip q hq).1, ?_⟩
    handles := fun i q hq => ⟨(h.handles i q hq).1, fun h => by cases h⟩
    snapshots := fun w ip snap q hw hq =>
      ⟨(h.snapshots w ip snap q hw hq).1, fun h => by cases h⟩ }
  · obtain ⟨rfl, -⟩ := Prod.mk.inj (Option.some.inj (hrecycler.symm.trans hq))
    rfl
  · rcases eq_or_ne q p with rfl | hne
    · exact ⟨.bump, hrecycler⟩
    · rw [ReaderEpoch.setRecycler_session, ReaderEpoch.State.setRecycling,
        ReaderEpoch.setSession_session, Function.update_of_ne hne, hdown q] at hq
      exact absurd hq (by decide)
  · obtain rfl := Remover.recycling.inj hq
    exact hrecycler
  · rintro rfl
    have hmay := (h.endpoints ep p hq).2
    rw [hr] at hmay
    exact hn (lt_of_le_of_lt (hmay rfl) (shardIdx_lt ep))
  · have hmay := (h.routes ip q hq).2
    rw [hr] at hmay
    exact hmay

omit [DecidableEq ω] [Fintype ω] [Fintype κ] [DecidableEq κ] in
/-- What a step of `recycle` does to the handles, to its flag and to where it stands. -/
theorem nextRecycle_cases {st st' : ReaderEpoch.State ℕ (ω × κ) Unit UInt32 Unit} {p : ℕ}
    {stage : Stage} (hr : st.recycler () = some (p, stage))
    (hnext : ReaderEpoch.nextRecycle st () = some st') :
    st'.slot = st.slot ∧
      (∀ q, q ≠ p → (st'.session q).isRecycling = (st.session q).isRecycling) ∧
      ((∃ stage', st'.recycler () = some (p, stage')) ∨
        stage = .finish ∧ st'.recycler () = none ∧ (st'.session p).isRecycling = false) := by
  rw [ReaderEpoch.nextRecycle, hr] at hnext
  cases stage with
  | quiesce =>
    simp only at hnext
    split at hnext <;> obtain rfl := Option.some.inj hnext
    · exact ⟨rfl, fun _ _ => rfl, Or.inl ⟨_, hr⟩⟩
    · refine ⟨rfl, fun _ _ => rfl, Or.inl ⟨.clearRouting, ?_⟩⟩
      rw [ReaderEpoch.setRecycler_recycler, Function.update_self]
  | finish =>
    obtain rfl := Option.some.inj hnext
    refine ⟨rfl, fun q hq => ?_, Or.inr ⟨rfl, by simp, by simp [ReaderEpoch.State.setRecycling]⟩⟩
    simp [ReaderEpoch.State.setRecycling, hq]
  | bump | clearRouting | clearCrypto | clearTxSeq | clearReplay =>
    obtain rfl := Option.some.inj hnext
    refine ⟨rfl, fun q hq => ?_, Or.inl ⟨_, by
      rw [ReaderEpoch.setRecycler_recycler, Function.update_self]⟩⟩
    simp [ReaderEpoch.State.bump, hq]

omit [DecidableEq ω] [DecidableEq κ] in
/-- Once `recycle` has waited, the only handles that still refer to its session are those of
lookups that found it in a route snapshot. -/
theorem Sound.routed_of_refersTo (h : Sound s) {p : ℕ} (hr : s.remover = .recycling p)
    (hquiet : ∀ i, entered p (s.epoch.slot i) = false) {w : ω} {k : κ}
    (hk : refersTo p (s.epoch.slot (w, k)) = true) : s.Routed w p := by
  have hpend : pending p (s.epoch.slot (w, k)) = true := by
    rwa [refersTo, hquiet, Bool.or_false] at hk
  obtain ⟨l, source, hw⟩ := h.busy w k (by
    by_contra hne
    exact absurd ((pending_of_settled p (Bool.eq_true_of_not_eq_false hne)).symm.trans hpend)
      (by decide))
  have hvouched := h.vouched w k l source p hw hpend
  cases source with
  | index =>
    -- the removal has been through the shard that the lookup has locked
    obtain ⟨l', -, hentry⟩ := hvouched
    cases l' with
    | keys n =>
      obtain ⟨keyId, -, hp⟩ := hentry
      exact absurd (by rw [hr]; rfl) (h.keys keyId p hp).2
    | endpoints n =>
      obtain ⟨ep, -, hp⟩ := hentry
      have hmay := (h.endpoints ep p hp).2
      rw [hr] at hmay
      exact absurd rfl hmay
  | handle other =>
    obtain ⟨hd, hslot, hptr⟩ := hvouched
    have hin : entered p (s.epoch.slot (w, other)) = true := by
      rw [hslot]
      simp [entered, hptr]
    exact absurd ((hquiet _).symm.trans hin) (by decide)
  | routes =>
    rw [State.Routed, hw]
    exact hpend
  | none => exact hvouched.elim

/-- `recycle` makes a step. When it is done, nobody refers to its session any more. -/
theorem Sound.recycle (h : Sound s) {p : ℕ} {epoch : ReaderEpoch.State ℕ (ω × κ) Unit UInt32 Unit}
    (hr : s.remover = .recycling p)
    (hclear : (s.epoch.recycler ()).map (fun r => r.2) = some .finish → ∀ w, ¬s.Routed w p)
    (hepoch : ReaderEpoch.step s.epoch (.nextRecycle ()) = some epoch) :
    Sound { s with
      epoch := epoch
      remover := if (epoch.recycler ()).isSome then .recycling p else .recycled p } := by
  obtain ⟨stage, hstage⟩ := h.recycling p hr
  have hguarded := h.guarded.step (a := .nextRecycle ()) trivial hepoch
  obtain ⟨hslot, hothers, hend⟩ := nextRecycle_cases hstage hepoch
  have hflagged : ∀ q, q ≠ p → (epoch.session q).isRecycling = false := by
    intro q hq
    rw [hothers q hq]
    by_contra hne
    obtain ⟨stage', hq'⟩ := h.flagged q (Bool.eq_true_of_not_eq_false hne)
    exact hq (Prod.mk.inj (Option.some.inj (hq'.symm.trans hstage))).1
  have hleaving : ∀ q, some p = some q → s.Exists q := by
    intro q hq
    exact h.leaving q (by rw [hr]; exact hq)
  have hkeys : ∀ keyId q, s.byKeyId keyId = some q → s.Exists q ∧ some p ≠ some q :=
    fun keyId q hq =>
      ⟨(h.keys keyId q hq).1, fun heq => (h.keys keyId q hq).2 (by rw [hr]; exact heq)⟩
  have hendpoints : ∀ ep q, s.byEndpoint ep = some q → s.Exists q ∧ p ≠ q := by
    intro ep q hq
    have hmay := (h.endpoints ep q hq).2
    rw [hr] at hmay
    exact ⟨(h.endpoints ep q hq).1, hmay⟩
  have hroutes : ∀ ip q, s.routes.lookup ip = some q → s.Exists q ∧ p ≠ q := by
    intro ip q hq
    have hmay := (h.routes ip q hq).2
    rw [hr] at hmay
    exact ⟨(h.routes ip q hq).1, hmay⟩
  rcases hend with ⟨stage', hstage'⟩ | ⟨rfl, hdone, hdown⟩
  · rw [hstage']
    refine { h with
      guarded := hguarded
      recycler := fun q stage'' hq => ?_
      flagged := fun q hq => ?_
      recycling := fun q hq => ⟨stage', ?_⟩
      leaving := hleaving
      keys := hkeys
      endpoints := hendpoints
      routes := hroutes
      handles := fun i q hq => ⟨(h.handles i q (hslot ▸ hq)).1, nofun⟩
      snapshots := fun w ip snap q hw hq => ⟨(h.snapshots w ip snap q hw hq).1, nofun⟩
      own := fun w k other hk => h.own w k other (hslot ▸ hk)
      busy := fun w k hk => h.busy w k (hslot ▸ hk)
      vouched := fun w k l source q hw hq => ?_ }
    · obtain ⟨rfl, -⟩ := Prod.mk.inj (Option.some.inj (hstage'.symm.trans hq))
      rfl
    · rcases eq_or_ne q p with rfl | hne
      · exact ⟨stage', hstage'⟩
      · exact absurd ((hflagged q hne).symm.trans hq) (by decide)
    · obtain rfl := Remover.recycling.inj hq
      exact hstage'
    · have hold := h.vouched w k l source q hw (hslot ▸ hq)
      cases source with
      | index | routes | none => exact hold
      | handle other =>
        obtain ⟨hd, hother, hptr⟩ := hold
        exact ⟨hd, (congrFun hslot _).trans hother, hptr⟩
  · rw [hdone]
    have hquiet := h.guarded.quiet () p .finish hstage rfl
    have hrouted := hclear (by rw [hstage]; rfl)
    refine { h with
      guarded := hguarded
      recycler := fun q stage'' hq => absurd (hdone.symm.trans hq) (by simp)
      flagged := fun q hq => ?_
      recycling := fun q hq => nomatch hq
      leaving := hleaving
      keys := hkeys
      endpoints := hendpoints
      routes := hroutes
      handles := fun i q hq => ⟨(h.handles i q (hslot ▸ hq)).1, ?_⟩
      snapshots := fun w ip snap q hw hq => ⟨(h.snapshots w ip snap q hw hq).1, ?_⟩
      own := fun w k other hk => h.own w k other (hslot ▸ hk)
      busy := fun w k hk => h.busy w k (hslot ▸ hk)
      vouched := fun w k l source q hw hq => ?_ }
    · rcases eq_or_ne q p with rfl | hne
      · exact absurd (hdown.symm.trans hq) (by decide)
      · exact absurd ((hflagged q hne).symm.trans hq) (by decide)
    · intro heq
      obtain rfl := Remover.recycled.inj heq
      exact hrouted i.1 (h.routed_of_refersTo hr hquiet (k := i.2) (hslot ▸ hq))
    · intro heq
      obtain rfl := Remover.recycled.inj heq
      refine hrouted w ?_
      rw [State.Routed, show s.worker w = .snapshot ip snap from hw]
      exact hq
    · have hold := h.vouched w k l source q hw (hslot ▸ hq)
      cases source with
      | index | routes | none => exact hold
      | handle other =>
        obtain ⟨hd, hother, hptr⟩ := hold
        exact ⟨hd, (congrFun hslot _).trans hother, hptr⟩

omit [DecidableEq ω] [DecidableEq κ] in
/-- The session is deleted. -/
theorem Sound.delete (h : Sound s) {p : ℕ} (hr : s.remover = .recycled p) :
    Sound { s with remover := .rest, deleted := p :: s.deleted } := by
  have hexists : ∀ {q}, s.Exists q → q ≠ p → q < s.next ∧ q ∉ p :: s.deleted := fun hq hne =>
    ⟨hq.1, by simp [hne, hq.2]⟩
  refine { h with
    recycler := fun q stage hq => absurd (hr.symm.trans (h.recycler q stage hq)) (by simp)
    recycling := fun q hq => nomatch hq
    made := fun q hq => ?_
    leaving := fun q hq => nomatch hq
    keys := fun keyId q hq => ⟨hexists (h.keys keyId q hq).1 ?_, nofun⟩
    endpoints := fun ep q hq => ⟨hexists (h.endpoints ep q hq).1 ?_, trivial⟩
    routes := fun ip q hq => ⟨hexists (h.routes ip q hq).1 ?_, trivial⟩
    handles := fun i q hq => ⟨hexists (h.handles i q hq).1 ?_, nofun⟩
    snapshots := fun w ip snap q hw hq => ⟨hexists (h.snapshots w ip snap q hw hq).1 ?_, nofun⟩ }
  · rcases List.mem_cons.mp hq with rfl | hq
    · exact (h.leaving q (by rw [hr]; rfl)).1
    · exact h.made q hq
  · rintro rfl
    exact (h.keys keyId q hq).2 (by rw [hr]; rfl)
  · rintro rfl
    have hmay := (h.endpoints ep q hq).2
    rw [hr] at hmay
    exact hmay rfl
  · rintro rfl
    have hmay := (h.routes ip q hq).2
    rw [hr] at hmay
    exact hmay rfl
  · rintro rfl
    exact (h.handles i q hq).2 hr
  · rintro rfl
    exact (h.snapshots w ip snap q hw hq).2 hr

/-- **A step of the removal** on which nobody comes around it. -/
theorem Sound.advanceRemove (h : Sound s) {t : State ω κ} (hclear : s.ClearToRemove s.remover)
    (hfree : ∀ l ∈ s.remover.needs, s.Free l) (hstep : s.advanceRemove = some t) : Sound t := by
  rw [State.advanceRemove] at hstep
  cases hr : s.remover with
  | rest =>
    rw [hr] at hstep
    exact absurd hstep (by simp)
  | erased p =>
    rw [hr] at hstep hclear
    exact Option.some.inj hstep ▸ h.load hr hclear
  | loaded p ip =>
    rw [hr] at hstep
    exact Option.some.inj hstep ▸ h.unmap hr
  | purging p n =>
    rw [hr] at hstep hfree
    simp only at hstep
    split at hstep
    · rename_i hn
      exact Option.some.inj hstep ▸ h.purge hr (hfree _ (by simp [Remover.needs, hn]))
    · rename_i hn
      obtain ⟨epoch, hepoch, rfl⟩ := Option.map_eq_some_iff.mp hstep
      exact h.swap hr hn hepoch
  | recycling p =>
    rw [hr] at hstep hclear
    obtain ⟨epoch, hepoch, rfl⟩ := Option.map_eq_some_iff.mp hstep
    exact h.recycle hr hclear hepoch
  | recycled p =>
    rw [hr] at hstep
    exact Option.some.inj hstep ▸ h.delete hr

/-! ### Runs -/

/-- **A step** on which nobody comes around the removal. -/
theorem Sound.step (h : Sound s) {t : State ω κ} {a : Action ω κ} (hok : NoReentry s a)
    (hstep : Shards.step s a = some t) : Sound t := by
  cases a with
  | lock w l =>
    simp only [Shards.step] at hstep
    split at hstep
    · rename_i hw
      exact Option.some.inj hstep ▸ h.goto (h.settled (by simp [hw])) nofun nofun
    · exact absurd hstep (by simp)
  | findKey w k keyId =>
    simp only [Shards.step] at hstep
    split at hstep
    · rename_i l hw
      split at hstep
      · rename_i hl
        split at hstep
        · exact Option.some.inj hstep ▸ h
        · rename_i p hp
          refine h.constructOn (by simp [hw]) ⟨(h.keys keyId p hp).1, fun hr => ?_⟩ (fun _ => ?_)
            hstep
          · exact (h.keys keyId p hp).2 (by rw [hr]; rfl)
          · exact ⟨l, rfl, hl ▸ ⟨keyId, rfl, hp⟩⟩
      · exact absurd hstep (by simp)
    · exact absurd hstep (by simp)
  | findEndpoint w k ep =>
    simp only [Shards.step] at hstep
    split at hstep
    · rename_i l hw
      split at hstep
      · rename_i hl
        split at hstep
        · exact Option.some.inj hstep ▸ h
        · rename_i p hp
          obtain ⟨hexists, hmay⟩ := h.endpoints ep p hp
          refine h.constructOn (by simp [hw]) ⟨hexists, fun hr => ?_⟩ (fun _ => ?_) hstep
          · rw [hr] at hmay
            exact hmay rfl
          · exact ⟨l, rfl, hl ▸ ⟨ep, rfl, hp⟩⟩
      · exact absurd hstep (by simp)
    · exact absurd hstep (by simp)
  | unlock w =>
    simp only [Shards.step] at hstep
    split at hstep
    · rename_i l hw
      exact Option.some.inj hstep ▸ h.goto (h.settled (by simp [hw])) nofun nofun
    · exact absurd hstep (by simp)
  | loadRoutes w ip =>
    simp only [Shards.step] at hstep
    split at hstep
    · rename_i hw
      split at hstep
      · exact absurd hstep (by simp)
      · refine Option.some.inj hstep ▸ h.goto (h.settled (by simp [hw])) nofun ?_
        intro ip' snap p hsnap hp
        obtain ⟨rfl, rfl⟩ := Worker.snapshot.inj hsnap
        refine ⟨(h.routes ip p hp).1, fun hr => ?_⟩
        have hmay := (h.routes ip p hp).2
        rw [hr] at hmay
        exact hmay rfl
    · exact absurd hstep (by simp)
  | findRoute w k =>
    simp only [Shards.step] at hstep
    split at hstep
    · rename_i ip snap hw
      split at hstep
      · exact Option.some.inj hstep ▸ h.goto (h.settled (by simp [hw])) nofun nofun
      · rename_i p hp
        have hvouched : ∀ epoch, ({ s with epoch := epoch } : State ω κ).Vouched w p none .routes :=
          fun _ => trivial
        exact h.constructOn (by simp [hw]) (h.snapshots w ip snap p hw hp) hvouched hstep
    · exact absurd hstep (by simp)
  | handle w op =>
    simp only [Shards.step] at hstep
    split at hstep
    · rename_i hw
      obtain ⟨epoch, hepoch, rfl⟩ := Option.map_eq_some_iff.mp hstep
      exact h.beginHandle op none (by simp [hw]) hepoch
    · rename_i l hw
      obtain ⟨epoch, hepoch, rfl⟩ := Option.map_eq_some_iff.mp hstep
      exact h.beginHandle op (some l) (by simp [hw]) hepoch
    · exact absurd hstep (by simp)
  | next w =>
    simp only [Shards.step] at hstep
    split at hstep
    · rename_i k l source hw
      have hroom : s.RoomToGo w (.busy k l source) := hw ▸ hok
      have hdone : Shards.settled (s.epoch.slot (w, k)) = true → Sound (s.goto w (.after l)) := by
        intro hk
        refine h.goto (fun k' => ?_) (by cases l <;> exact nofun) (by cases l <;> exact nofun)
        by_contra hne
        obtain ⟨l', source', hbusy⟩ := h.busy w k' (Bool.eq_false_of_not_eq_true hne)
        obtain ⟨rfl, -⟩ := Worker.busy.inj (hbusy.symm.trans hw)
        exact hne hk
      split at hstep
      · rename_i hd hslot
        exact Option.some.inj hstep ▸ hdone (by rw [hslot]; rfl)
      · rename_i hslot
        exact Option.some.inj hstep ▸ hdone (by rw [hslot]; rfl)
      · obtain ⟨epoch, hepoch, rfl⟩ := Option.map_eq_some_iff.mp hstep
        exact h.next hw hroom hepoch
    · exact absurd hstep (by simp)
  | use w k =>
    obtain ⟨p, -, rfl⟩ := Option.map_eq_some_iff.mp hstep
    exact h
  | rekey w k =>
    obtain ⟨p, -, rfl⟩ := Option.map_eq_some_iff.mp hstep
    exact h.setSession rfl rfl
  | setRouting w k ip =>
    obtain ⟨p, -, rfl⟩ := Option.map_eq_some_iff.mp hstep
    exact h.setSession rfl rfl
  | mapIp w k ip =>
    obtain ⟨p, hp, rfl⟩ := Option.map_eq_some_iff.mp hstep
    exact h.mapIp hp (hok p hp)
  | updateEndpoint w k ep =>
    obtain ⟨p, hp, hstep⟩ := Option.bind_eq_some_iff.mp hstep
    split at hstep
    · rename_i hfree
      exact Option.some.inj hstep ▸ h.updateEndpoint hp hfree (hok p hp)
    · exact absurd hstep (by simp)
  | register keyId =>
    simp only [Shards.step] at hstep
    split at hstep
    · rename_i hok
      exact Option.some.inj hstep ▸ h.register hok.1 hok.2.1
    · exact absurd hstep (by simp)
  | cleanup n idle =>
    simp only [Shards.step] at hstep
    split at hstep
    · rename_i hok
      exact Option.some.inj hstep ▸ h.eraseEndpoints hok.2 idle
    · exact absurd hstep (by simp)
  | remove keyId =>
    simp only [Shards.step] at hstep
    split at hstep
    · rename_i hok
      split at hstep
      · exact Option.some.inj hstep ▸ h
      · rename_i p hp
        exact Option.some.inj hstep ▸ h.remove hp hok.2 hok.1
    · exact absurd hstep (by simp)
  | nextRemove =>
    simp only [Shards.step] at hstep
    split at hstep
    · rename_i hfree
      exact h.advanceRemove hok hfree hstep
    · exact absurd hstep (by simp)

omit [DecidableEq ω] [DecidableEq κ] in
theorem sound_init : Sound (init : State ω κ) where
  guarded := ReaderEpoch.guarded_init
  recycler := fun _ _ hp => nomatch hp
  flagged := fun _ hp => nomatch hp
  recycling := fun _ hp => nomatch hp
  made := fun _ hp => nomatch hp
  leaving := fun _ hp => nomatch hp
  keys := fun _ _ hp => nomatch hp
  distinct := fun _ _ _ hp => nomatch hp
  endpoints := fun _ _ hp => nomatch hp
  routes := fun _ _ hp => nomatch hp
  noZero := rfl
  handles := fun _ _ hp => nomatch hp
  snapshots := fun _ _ _ _ hw => nomatch hw
  own := fun _ _ _ hk => nomatch hk
  busy := fun _ _ hk => nomatch hk
  vouched := fun _ _ _ _ _ hw => nomatch hw

/-- **Deleted sessions are out of reach** in every state of a run in which nobody comes
around a removal. -/
theorem reclaimed_of_meets (as : List (Action ω κ)) (t : State ω κ)
    (hok : Meets Shards.step NoReentry (init : State ω κ) as)
    (hrun : runs Shards.step init as = some t) : Reclaimed t :=
  (inv_of_meets (I := Sound) (fun h hok hstep => h.step hok hstep) sound_init hok hrun).reclaimed

end

/-! ### Ways around the removal -/

/-- The worker finds the session of the key id 7, and has a handle on it. -/
def enter : List (Action Unit Unit) :=
  [.lock () (.keys (shardIdx 7)), .findKey () () 7] ++ List.replicate 7 (.next ()) ++ [.unlock ()]

/-- It gives the handle up. -/
def leave : List (Action Unit Unit) := .handle () (.destroy ()) :: List.replicate 2 (.next ())

/-- A session is made, gets an address and an endpoint, and the worker still has it. -/
def connect : List (Action Unit Unit) :=
  .register 7 :: enter ++ [.mapIp () () 3, .setRouting () () 3, .updateEndpoint () () 9]

/-- The worker loads the route snapshot, the session is removed, and the worker finds it in
the snapshot. -/
def snapshotRun : List (Action Unit Unit) :=
  connect ++ leave ++ .loadRoutes () 3 :: .remove 7 :: List.replicate 75 .nextRemove ++
    [.findRoute () ()]

/-- The worker enters the endpoint again when its shard is purged, and leaves. -/
def endpointRun : List (Action Unit Unit) :=
  connect ++ .remove 7 :: List.replicate 66 .nextRemove ++ .updateEndpoint () () 9 :: leave ++
    List.replicate 9 .nextRemove

/-- The worker maps the address again when it is unmapped, and leaves. -/
def mappedRun : List (Action Unit Unit) :=
  connect ++ .remove 7 :: List.replicate 2 .nextRemove ++ .mapIp () () 3 :: leave ++
    List.replicate 73 .nextRemove

/-- The sessions deleted, the session of the endpoint 9 and of the address 3, and whether the
handle refers to the session 0. -/
def outcome (t : State Unit Unit) : List ℕ × Option ℕ × Option ℕ × Bool :=
  (t.deleted, t.byEndpoint 9, t.routes.lookup 3, refersTo 0 (t.epoch.slot ((), ())))

/-- **A lookup follows its snapshot to a deleted session, and an endpoint or a route that a
worker enters late outlives its session.** -/
theorem not_reclaimed :
    (∃ t, runs step init snapshotRun = some t ∧ outcome t = ([0], none, none, true) ∧
      ¬Reclaimed t) ∧
    (∃ t, runs step init endpointRun = some t ∧ outcome t = ([0], some 0, none, false) ∧
      ¬Reclaimed t) ∧
    ∃ t, runs step init mappedRun = some t ∧ outcome t = ([0], none, some 0, false) ∧
      ¬Reclaimed t := by
  have hrun : ∀ (as : List (Action Unit Unit)) x, (runs step init as).map outcome = some x →
      ∃ t, runs step init as = some t ∧ outcome t = x := fun _ _ h => Option.map_eq_some_iff.mp h
  refine ⟨?_, ?_, ?_⟩
  · obtain ⟨t, ht, hout⟩ := hrun snapshotRun ([0], none, none, true)
      (by decide +kernel)
    refine ⟨t, ht, hout, fun h => ?_⟩
    obtain ⟨hdel, -, -, hslot⟩ := by simpa only [outcome, Prod.mk.injEq] using hout
    exact h.handles ((), ()) 0 hslot (by simp [hdel])
  · obtain ⟨t, ht, hout⟩ := hrun endpointRun ([0], some 0, none, false)
      (by decide +kernel)
    refine ⟨t, ht, hout, fun h => ?_⟩
    obtain ⟨hdel, hep, -, -⟩ := by simpa only [outcome, Prod.mk.injEq] using hout
    exact h.endpoints 9 0 hep (by simp [hdel])
  · obtain ⟨t, ht, hout⟩ := hrun mappedRun ([0], none, some 0, false)
      (by decide +kernel)
    refine ⟨t, ht, hout, fun h => ?_⟩
    obtain ⟨hdel, -, hip, -⟩ := by simpa only [outcome, Prod.mk.injEq] using hout
    exact h.routes 3 0 hip (by simp [hdel])

/-- The session is removed while the worker has it, and `recycle` waits until it leaves. -/
def waitingRun : List (Action Unit Unit) :=
  connect ++ .remove 7 :: List.replicate 70 .nextRemove ++ leave ++ List.replicate 7 .nextRemove

theorem reclaimed_waitingRun :
    ∃ t, runs step init waitingRun = some t ∧ outcome t = ([0], none, none, false) ∧
      Reclaimed t := by
  obtain ⟨t, ht, hout⟩ := Option.map_eq_some_iff.mp
    (show (runs step init waitingRun).map outcome = some ([0], none, none, false) by
      decide +kernel)
  exact ⟨t, ht, hout, reclaimed_of_meets waitingRun t (by decide +kernel) ht⟩

end Shards

end Aegs
