import Mathlib.Data.Fintype.Basic
import Aegs.Session.DeliverOnce

/-!
# Generation isolation

A re-key changes the generation, the filter, the keys and the routing in separate
steps, and a data packet takes its handle and its keys at different moments. Its
handle is tested until the two paths meet, and after that only the routing update
looks at the generation, before it loads and stores. So a packet of the old keys
may be committed to the new filter, be delivered a second time, and overwrite the
new routing (`Aegs.DataPath.not_isolated`).

The crossings that do so are named by `Aegs.DataPath.Undisturbed`, and they are
all, as long as the generation does not wrap: in every run without them the
generations stay apart (`Aegs.DataPath.apart_of_meets`). Nothing is asked of a
packet that does not decrypt, of one whose handle is out of date before its last
test, of one past it with a handle out of date where only the routing is at
stake, or of re-keys among themselves.
-/

namespace Aegs

namespace DataPath

open Transition

variable {ι K P E : Type} (A : Aead K P)

/-! ### The property -/

/-- The generation of the keys and the sequence number of every packet ever
written to TUN, latest first. -/
def deliveredNumbers : List (Event K P) → List (ℕ × UInt64)
  | [] => []
  | .deliver c _ p :: l => (c.gen, A.seq p) :: deliveredNumbers l
  | .reset _ :: l | .commit .. :: l | .reroute .. :: l => deliveredNumbers l

/-- No packet is committed to a filter newer than the keys it decrypted under. -/
def FilterIsolated : List (Event K P) → Prop
  | [] => True
  | .commit c filterGen _ :: l => filterGen ≤ c.gen ∧ FilterIsolated l
  | .reset _ :: l | .deliver .. :: l | .reroute .. :: l => FilterIsolated l

/-- No packet delivered before is delivered again once the filter is newer than
its keys. -/
def NotRedelivered : List (Event K P) → Prop
  | [] => True
  | .deliver c filterGen p :: l =>
    (c.gen < filterGen → (c.gen, A.seq p) ∉ deliveredNumbers A l) ∧ NotRedelivered l
  | .reset _ :: l | .commit .. :: l | .reroute .. :: l => NotRedelivered l

/-- No packet overwrites a routing newer than the keys it decrypted under. -/
def RoutingIsolated : List (Event K P) → Prop
  | [] => True
  | .reroute c routingGen _ :: l => routingGen ≤ c.gen ∧ RoutingIsolated l
  | .reset _ :: l | .commit .. :: l | .deliver .. :: l => RoutingIsolated l

instance : ∀ log : List (Event K P), Decidable (FilterIsolated log)
  | [] => isTrue trivial
  | .commit c filterGen _ :: l =>
    have := instDecidableFilterIsolated l
    inferInstanceAs (Decidable (filterGen ≤ c.gen ∧ FilterIsolated l))
  | .reset _ :: l | .deliver .. :: l | .reroute .. :: l => instDecidableFilterIsolated l

instance : ∀ log : List (Event K P), Decidable (NotRedelivered A log)
  | [] => isTrue trivial
  | .deliver c filterGen p :: l =>
    have := instDecidableNotRedelivered l
    inferInstanceAs (Decidable ((c.gen < filterGen → (c.gen, A.seq p) ∉ deliveredNumbers A l) ∧
      NotRedelivered A l))
  | .reset _ :: l | .commit .. :: l | .reroute .. :: l => instDecidableNotRedelivered l

instance : ∀ log : List (Event K P), Decidable (RoutingIsolated log)
  | [] => isTrue trivial
  | .reroute c routingGen _ :: l =>
    have := instDecidableRoutingIsolated l
    inferInstanceAs (Decidable (routingGen ≤ c.gen ∧ RoutingIsolated l))
  | .reset _ :: l | .commit .. :: l | .deliver .. :: l => instDecidableRoutingIsolated l

/-- **Generation isolation.** -/
structure Isolated (log : List (Event K P)) : Prop where
  /-- The new filter is not marked. -/
  filter : FilterIsolated log
  /-- Nothing is delivered again. -/
  delivery : NotRedelivered A log
  /-- The new routing is not overwritten. -/
  routing : RoutingIsolated log

/-! ### What a worker may still do -/

/-- A packet decrypts under a snapshot. -/
def authentic (c : SessionCrypto K) (p : P) : Bool := c.v3HandshakeDone && A.opens c.recvKey p

/-- The generation of the keys under which a worker may still commit: it has passed
the last test of its handle, or passes it as things stand. -/
def uncommitted (generation : UInt64) : Pc K P E → Option ℕ
  | .scanned p _ c => if authentic A c p then some c.gen else none
  | .copying p _ c g => if authentic A c p ∧ g = generation then some c.gen else none
  | .snapped f | .unmasked f | .found f | .taken f =>
    if authentic A f.crypto f.pkt ∧ f.gen = generation then some f.crypto.gen else none
  | .matched f | .peeked f => if authentic A f.crypto f.pkt then some f.crypto.gen else none
  | .opened f => some f.crypto.gen
  | _ => none

/-- The generation of the keys under which a worker may still store the routing:
it has passed the generation check, or will pass it as things stand. -/
def rerouting (generation : UInt64) : Pc K P E → Option ℕ
  | .scanned p _ c => if authentic A c p then some c.gen else none
  | .copying p _ c g => if authentic A c p ∧ g = generation then some c.gen else none
  | .snapped f | .unmasked f | .found f | .taken f | .matched f | .peeked f =>
    if authentic A f.crypto f.pkt ∧ f.gen = generation then some f.crypto.gen else none
  | .opened f | .committed f => if f.gen = generation then some f.crypto.gen else none
  | .valid f | .loaded f _ => some f.crypto.gen
  | _ => none

/-- The keys' generation and the number of a packet committed and not yet written
to TUN. -/
def unwritten : Pc K P E → Option (ℕ × UInt64)
  | .committed f | .valid f | .loaded f _ | .accepted f => some (f.crypto.gen, A.seq f.pkt)
  | _ => none

/-- The generation of the handle a worker holds ahead of the generation check. -/
def handleGen : Pc K P E → Option UInt64
  | .handled _ _ g | .tested _ _ g | .copying _ _ _ g => some g
  | .snapped f | .unmasked f | .found f | .taken f | .matched f | .peeked f | .opened f
  | .committed f => some f.gen
  | _ => none

/-! ### The crossings -/

/-- No packet that decrypts is between its snapshot and its commit under keys
older than `g`, and the numbers committed under such keys are still to be delivered
once each. -/
def ResetFree (s : State ι K P E) (g : ℕ) : Prop :=
  (∀ w, ∀ n ∈ uncommitted A s.generation (s.pc w), g ≤ n) ∧
    ∀ w, ∀ x ∈ unwritten A (s.pc w), x.1 < g →
      x ∉ deliveredNumbers A s.log ∧ ∀ w', x ∈ unwritten A (s.pc w') → w' = w

/-- No worker may still store the routing under keys older than `g`. -/
def RoutingFree (s : State ι K P E) (g : ℕ) : Prop :=
  ∀ w, ∀ n ∈ rerouting A s.generation (s.pc w), g ≤ n

/-- The keys, where the packet decrypts under them, are at least as new as the
filter and the routing. -/
def KeysNew (s : State ι K P E) (p : P) : Prop :=
  authentic A s.crypto p → s.filterGen ≤ s.crypto.gen ∧ s.routingGen ≤ s.crypto.gen

/-- What the condition below asks of the step a worker at `pc` is about to make. -/
def CrossingFree (s : State ι K P E) : Pc K P E → Prop
  | .tested p _ g => g = s.generation → KeysNew A s p
  | .tried p _ => KeysNew A s p
  | .rekey .txReset _ g => ResetFree A s g
  | .rekey .cryptoSet k g => k.kind = .handshake → RoutingFree A s g
  | .rekey (.routingLoaded _) _ g => RoutingFree A s g
  | _ => True

/-- **No crossing**: a packet that decrypts takes its snapshot from keys at least
as new as the filter and the routing, so not between the filter reset and the key
store of a re-key; a re-key resets the filter only when no such packet is between
its snapshot and its commit, and stores the routing only when no such packet of
older keys may still store it. And no re-key wraps the generation. -/
def Undisturbed (s : State ι K P E) : Action ι K P E → Prop
  | .start _ (.rekey _) => s.generation.toNat + 1 < UInt64.size
  | .next w => CrossingFree A s (s.pc w)
  | _ => True

instance [Fintype ι] [DecidableEq ι] (s : State ι K P E) (g : ℕ) :
    Decidable (ResetFree A s g) :=
  inferInstanceAs (Decidable ((∀ w, ∀ n ∈ uncommitted A s.generation (s.pc w), g ≤ n) ∧
    ∀ w, ∀ x ∈ unwritten A (s.pc w), x.1 < g →
      x ∉ deliveredNumbers A s.log ∧ ∀ w', x ∈ unwritten A (s.pc w') → w' = w))

instance [Fintype ι] (s : State ι K P E) (g : ℕ) : Decidable (RoutingFree A s g) :=
  inferInstanceAs (Decidable (∀ w, ∀ n ∈ rerouting A s.generation (s.pc w), g ≤ n))

instance (s : State ι K P E) (p : P) : Decidable (KeysNew A s p) :=
  inferInstanceAs (Decidable (authentic A s.crypto p →
    s.filterGen ≤ s.crypto.gen ∧ s.routingGen ≤ s.crypto.gen))

instance [Fintype ι] [DecidableEq ι] (s : State ι K P E) :
    ∀ pc, Decidable (CrossingFree A s pc)
  | .tested p _ g => inferInstanceAs (Decidable (g = s.generation → KeysNew A s p))
  | .tried p _ => inferInstanceAs (Decidable (KeysNew A s p))
  | .rekey .txReset _ g => inferInstanceAs (Decidable (ResetFree A s g))
  | .rekey .cryptoSet k g => inferInstanceAs (Decidable (k.kind = .handshake → RoutingFree A s g))
  | .rekey (.routingLoaded _) _ g => inferInstanceAs (Decidable (RoutingFree A s g))
  | .rekey .bumped _ _ | .rekey .filterReset _ _ | .idle | .handled .. | .snapped _ | .unmasked _
  | .searching .. | .candidate .. | .scanned .. | .copying .. | .found _ | .taken _ | .matched _
  | .peeked _ | .opened _ | .committed _ | .valid _ | .loaded .. | .accepted _ => isTrue trivial

instance [Fintype ι] [DecidableEq ι] (s : State ι K P E) : ∀ a, Decidable (Undisturbed A s a)
  | .start _ (.rekey _) => inferInstanceAs (Decidable (s.generation.toNat + 1 < UInt64.size))
  | .next w => inferInstanceAs (Decidable (CrossingFree A s (s.pc w)))
  | .start _ (.cached ..) | .start _ (.scan ..) | .drop _ => isTrue trivial

/-- **The invariant**: what each worker may still commit, and may still store, is
of keys at least as new as the filter and the routing; what is committed under
older keys is delivered at most once more. -/
structure Apart (s : State ι K P E) : Prop where
  /-- No handle is ahead of the generation. -/
  handles : ∀ w, ∀ g ∈ handleGen (s.pc w), g ≤ s.generation
  /-- Commits to come are of keys at least as new as the filter. -/
  keys : ∀ w, ∀ n ∈ uncommitted A s.generation (s.pc w), s.filterGen ≤ n
  /-- Routing stores to come are of keys at least as new as the routing. -/
  routes : ∀ w, ∀ n ∈ rerouting A s.generation (s.pc w), s.routingGen ≤ n
  /-- What is committed under older keys is neither delivered nor held twice. -/
  once : ∀ w, ∀ x ∈ unwritten A (s.pc w), x.1 < s.filterGen →
    x ∉ deliveredNumbers A s.log ∧ ∀ w', x ∈ unwritten A (s.pc w') → w' = w
  /-- The property itself. -/
  isolated : Isolated A s.log

section Steps

variable [DecidableEq ι] {A} {s : State ι K P E}

/-- A worker that moves to a place where it may commit, store and write no more
than the invariant allows, in a state with the same generations and the same
deliveries, disturbs nothing. -/
theorem Apart.goto (h : Apart A s) {t : State ι K P E} {w : ι} {pc : Pc K P E}
    (hpc : t.pc = s.pc) (hgen : t.generation = s.generation)
    (hfilter : t.filterGen = s.filterGen) (hrouting : t.routingGen = s.routingGen)
    (hdel : deliveredNumbers A t.log = deliveredNumbers A s.log) (hlog : Isolated A t.log)
    (hhandle : ∀ g ∈ handleGen pc, g ≤ s.generation)
    (hkeys : ∀ n ∈ uncommitted A s.generation pc, s.filterGen ≤ n)
    (hroute : ∀ n ∈ rerouting A s.generation pc, s.routingGen ≤ n)
    (hun : ∀ x ∈ unwritten A pc, x ∈ unwritten A (s.pc w) ∨ s.filterGen ≤ x.1) :
    Apart A (t.goto w pc) := by
  -- nobody holds a number committed under older keys that was not held before
  have hheld : ∀ w', ∀ x ∈ unwritten A ((t.goto w pc).pc w'), x.1 < s.filterGen →
      x ∈ unwritten A (s.pc w') :=
    forall_goto (Q := fun w' pc' => ∀ x ∈ unwritten A pc', x.1 < s.filterGen →
        x ∈ unwritten A (s.pc w'))
      (fun x hx hlt => (hun x hx).resolve_right (not_le.mpr hlt))
      (fun w' _ x hx _ => hpc ▸ hx)
  refine ⟨?_, ?_, ?_, ?_, hlog⟩
  · rw [goto_generation, hgen]
    exact forall_goto (Q := fun _ pc' => ∀ g ∈ handleGen pc', g ≤ s.generation) hhandle
      (fun w' _ => hpc ▸ h.handles w')
  · rw [goto_generation, hgen, goto_filterGen, hfilter]
    exact forall_goto (Q := fun _ pc' => ∀ n ∈ uncommitted A s.generation pc', s.filterGen ≤ n)
      hkeys (fun w' _ => hpc ▸ h.keys w')
  · rw [goto_generation, hgen, goto_routingGen, hrouting]
    exact forall_goto (Q := fun _ pc' => ∀ n ∈ rerouting A s.generation pc', s.routingGen ≤ n)
      hroute (fun w' _ => hpc ▸ h.routes w')
  · intro w' x hx hlt
    rw [goto_filterGen, hfilter] at hlt
    obtain ⟨hnew, halone⟩ := h.once w' x (hheld w' x hx hlt) hlt
    rw [goto_log, hdel]
    exact ⟨hnew, fun w'' hx' => halone w'' (hheld w'' x hx' hlt)⟩

/-- A worker that moves to where it holds no handle, no keys and no number disturbs nothing. -/
theorem Apart.goto_free (h : Apart A s) (w : ι) {pc : Pc K P E} (hhandle : handleGen pc = none)
    (hkeys : uncommitted A s.generation pc = none) (hroute : rerouting A s.generation pc = none)
    (hun : unwritten A pc = none) : Apart A (s.goto w pc) := by
  refine h.goto rfl rfl rfl rfl rfl h.isolated ?_ ?_ ?_ ?_
  · simp [hhandle]
  · simp [hkeys]
  · simp [hroute]
  · simp [hun]

/-- A generation that does not wrap is ahead of every handle taken before. -/
theorem lt_bump {g generation : UInt64} (hwrap : generation.toNat + 1 < UInt64.size)
    (hg : g ≤ generation) : g < generation + 1 := by
  have hadd : (generation + 1).toNat = generation.toNat + 1 := by
    rw [UInt64.toNat_add, UInt64.toNat_one]
    exact Nat.mod_eq_of_lt hwrap
  rw [UInt64.lt_iff_toNat_lt, hadd]
  exact Nat.lt_succ_of_le (UInt64.le_iff_toNat_le.mp hg)

/-- A bumped generation admits no handle taken before it, so fewer packets may
still be committed. -/
theorem uncommitted_of_bump {pc : Pc K P E} {generation : UInt64} {n : ℕ}
    (hwrap : generation.toNat + 1 < UInt64.size)
    (hhandle : ∀ g ∈ handleGen pc, g ≤ generation)
    (hn : n ∈ uncommitted A (generation + 1) pc) : n ∈ uncommitted A generation pc := by
  cases pc with
  | copying _ _ _ g =>
    have hlt : g < generation + 1 := lt_bump hwrap (hhandle g rfl)
    simp only [uncommitted] at hn
    rw [if_neg fun hg => UInt64.ne_of_lt hlt hg.2] at hn
    exact absurd hn (by simp)
  | snapped f | unmasked f | found f | taken f =>
    have hlt : f.gen < generation + 1 := lt_bump hwrap (hhandle f.gen rfl)
    simp only [uncommitted] at hn
    rw [if_neg fun hg => UInt64.ne_of_lt hlt hg.2] at hn
    exact absurd hn (by simp)
  | _ => exact hn

/-- Nor may more of them still store the routing. -/
theorem rerouting_of_bump {pc : Pc K P E} {generation : UInt64} {n : ℕ}
    (hwrap : generation.toNat + 1 < UInt64.size)
    (hhandle : ∀ g ∈ handleGen pc, g ≤ generation)
    (hn : n ∈ rerouting A (generation + 1) pc) : n ∈ rerouting A generation pc := by
  cases pc with
  | copying _ _ _ g =>
    have hlt : g < generation + 1 := lt_bump hwrap (hhandle g rfl)
    simp only [rerouting] at hn
    rw [if_neg fun hg => UInt64.ne_of_lt hlt hg.2] at hn
    exact absurd hn (by simp)
  | snapped f | unmasked f | found f | taken f | matched f | peeked f =>
    have hlt : f.gen < generation + 1 := lt_bump hwrap (hhandle f.gen rfl)
    simp only [rerouting] at hn
    rw [if_neg fun hg => UInt64.ne_of_lt hlt hg.2] at hn
    exact absurd hn (by simp)
  | opened f | committed f =>
    have hlt : f.gen < generation + 1 := lt_bump hwrap (hhandle f.gen rfl)
    simp only [rerouting] at hn
    rw [if_neg (UInt64.ne_of_lt hlt)] at hn
    exact absurd hn (by simp)
  | _ => exact hn

/-- **The bump**: every handle taken before it is out of date. -/
theorem Apart.bump (h : Apart A s) (hwrap : s.generation.toNat + 1 < UInt64.size) {w : ι}
    {k : Rekey K E} :
    Apart A ({ s with generation := s.generation + 1, rekeys := s.rekeys + 1 }.goto w
      (.rekey .bumped k (s.rekeys + 1))) := by
  have hbumped : Apart A { s with generation := s.generation + 1, rekeys := s.rekeys + 1 } :=
    { h with
      handles := fun w' g hg => UInt64.le_of_lt (lt_bump hwrap (h.handles w' g hg))
      keys := fun w' n hn => h.keys w' n (uncommitted_of_bump hwrap (h.handles w') hn)
      routes := fun w' n hn => h.routes w' n (rerouting_of_bump hwrap (h.handles w') hn) }
  exact hbumped.goto_free w rfl rfl rfl rfl

/-- **The commit**: the keys are at least as new as the filter. -/
theorem Apart.commit (h : Apart A s) {w : ι} {f : Flight K P E} (hpc : s.pc w = .opened f) :
    Apart A ({ s with
      replayFilter := s.replayFilter.updateCommit (A.seq f.pkt)
      log := .commit f.crypto s.filterGen f.pkt :: s.log }.goto w (.committed f)) := by
  have hkey : s.filterGen ≤ f.crypto.gen := h.keys w _ (by simp [hpc, uncommitted])
  have hgen := h.handles w
  have hroute := h.routes w
  rw [hpc] at hgen hroute
  refine h.goto rfl rfl rfl rfl rfl ?_ hgen (by simp [uncommitted]) hroute ?_
  · exact ⟨⟨hkey, h.isolated.filter⟩, h.isolated.delivery, h.isolated.routing⟩
  · intro x hx
    obtain rfl : (f.crypto.gen, A.seq f.pkt) = x := by simpa [unwritten] using hx
    exact Or.inr hkey

/-- **The routing store**: the keys are at least as new as the routing. -/
theorem Apart.reroute (h : Apart A s) {w : ι} {f : Flight K P E} {cur : SessionRouting E}
    (hpc : s.pc w = .loaded f cur) :
    Apart A ({ s with
      routing := { cur with client := some f.ep }
      log := .reroute f.crypto s.routingGen f.pkt :: s.log }.goto w (.accepted f)) := by
  have hkey : s.routingGen ≤ f.crypto.gen := h.routes w _ (by simp [hpc, rerouting])
  refine h.goto rfl rfl rfl rfl rfl ?_ (by simp [handleGen]) (by simp [uncommitted])
    (by simp [rerouting]) (by simp [hpc, unwritten])
  exact ⟨h.isolated.filter, h.isolated.delivery, hkey, h.isolated.routing⟩

/-- **The TUN write**: under older keys the number was not delivered before, and
nobody else holds it. -/
theorem Apart.deliver (h : Apart A s) {w : ι} {f : Flight K P E} (hpc : s.pc w = .accepted f) :
    Apart A ({ s with
      log := .deliver f.crypto s.filterGen f.pkt :: s.log }.goto w .idle) := by
  have hun : (f.crypto.gen, A.seq f.pkt) ∈ unwritten A (s.pc w) := by simp [hpc, unwritten]
  have hheld : ∀ w', ∀ x ∈ unwritten A ((s.goto w .idle).pc w'),
      w' ≠ w ∧ x ∈ unwritten A (s.pc w') :=
    forall_goto (Q := fun w' pc' => ∀ x ∈ unwritten A pc', w' ≠ w ∧ x ∈ unwritten A (s.pc w'))
      (by simp [unwritten]) (fun w' hw x hx => ⟨hw, hx⟩)
  have hidle : Apart A (s.goto w .idle) := h.goto_free w rfl rfl rfl rfl
  refine ⟨hidle.handles, hidle.keys, hidle.routes, fun w' x hx hlt => ?_, ?_⟩
  · obtain ⟨hw, hx'⟩ := hheld w' x hx
    obtain ⟨hnew, halone⟩ := h.once w' x hx' hlt
    refine ⟨?_, (hidle.once w' x hx hlt).2⟩
    rintro (_ | ⟨_, hmem⟩)
    · exact hw (halone w hun).symm
    · exact hnew hmem
  · exact ⟨h.isolated.filter, ⟨fun hlt => (h.once w _ hun hlt).1, h.isolated.delivery⟩,
      h.isolated.routing⟩

/-- **The reset**: the condition leaves nothing of older keys to be committed, and
each number once to be delivered. -/
theorem Apart.resetFilter (h : Apart A s) {w : ι} {k : Rekey K E} {g : ℕ}
    (hfree : ResetFree A s g) :
    Apart A ({ s with
      replayFilter := .reset
      filterGen := g
      log := .reset g :: s.log }.goto w (.rekey .filterReset k g)) := by
  have hreset : Apart A { s with
      replayFilter := .reset
      filterGen := g
      log := .reset g :: s.log } :=
    { handles := h.handles
      keys := hfree.1
      routes := h.routes
      once := hfree.2
      isolated := ⟨h.isolated.filter, h.isolated.delivery, h.isolated.routing⟩ }
  exact hreset.goto_free w rfl rfl rfl rfl

/-- **The new routing**: the condition leaves no store of older keys to come. -/
theorem Apart.setRouting (h : Apart A s) {w : ι} {k : Rekey K E} {g : ℕ}
    {cur : SessionRouting E} (hfree : RoutingFree A s g) :
    Apart A ({ s with routing := k.routing cur, routingGen := g }.goto w .idle) := by
  have hrouted : Apart A { s with routing := k.routing cur, routingGen := g } :=
    { h with routes := hfree }
  exact hrouted.goto_free w rfl rfl rfl rfl

/-- Every step the condition allows keeps the invariant. -/
theorem Apart.step [DecidableEq E] (h : Apart A s) {a : Action ι K P E} {t : State ι K P E}
    (hok : Undisturbed A s a) (hstep : step A s a = some t) : Apart A t := by
  rcases step_cases hstep with ⟨w, j, rfl, -, rfl⟩ | ⟨w, rfl, hmove⟩ | ⟨w, f, rfl, hpc, rfl⟩
  · cases j with
    | cached p e =>
      exact h.goto rfl rfl rfl rfl rfl h.isolated (by simp [handleGen]) (by simp [uncommitted])
        (by simp [rerouting]) (by simp [unwritten])
    | scan p e =>
      exact h.goto_free w rfl rfl rfl rfl
    | rekey k => exact h.bump hok
  · have hgen := h.handles w
    have hkey := h.keys w
    have hroute := h.routes w
    simp only [Undisturbed] at hok
    cases hmove with
    | @test p e g hpc heq =>
      rw [hpc] at hgen
      exact h.goto rfl rfl rfl rfl rfl h.isolated hgen (by simp [uncommitted])
        (by simp [rerouting]) (by simp [unwritten])
    | outdated | overtaken | reach | attempt | skip | uncopied | refuse =>
      exact h.goto_free w rfl rfl rfl rfl
    | @snapshot p e g hpc =>
      -- the handle may have gone out of date since its test
      rw [hpc] at hgen hok
      refine h.goto rfl rfl rfl rfl rfl h.isolated hgen ?_ ?_ (by simp [unwritten])
      · intro n hn
        obtain ⟨⟨hauth, hg⟩, rfl⟩ : (authentic A s.crypto p ∧ g = s.generation) ∧
            s.crypto.gen = n := by
          simpa [uncommitted] using hn
        exact (hok hg hauth).1
      · intro n hn
        obtain ⟨⟨hauth, hg⟩, rfl⟩ : (authentic A s.crypto p ∧ g = s.generation) ∧
            s.crypto.gen = n := by
          simpa [rerouting] using hn
        exact (hok hg hauth).2
    | unmask hpc | retest hpc _ | cache hpc =>
      rw [hpc] at hgen hkey hroute
      exact h.goto rfl rfl rfl rfl rfl h.isolated hgen hkey hroute (by simp [unwritten])
    | @scan p e hpc =>
      rw [hpc] at hok
      refine h.goto rfl rfl rfl rfl rfl h.isolated (by simp [handleGen]) ?_ ?_
        (by simp [unwritten])
      · intro n hn
        obtain ⟨hauth, rfl⟩ : authentic A s.crypto p ∧ s.crypto.gen = n := by
          simpa [uncommitted] using hn
        exact (hok hauth).1
      · intro n hn
        obtain ⟨hauth, rfl⟩ : authentic A s.crypto p ∧ s.crypto.gen = n := by
          simpa [rerouting] using hn
        exact (hok hauth).2
    | @copy p e c hpc =>
      rw [hpc] at hkey hroute
      refine h.goto rfl rfl rfl rfl rfl h.isolated (by simp [handleGen]) ?_ ?_
        (by simp [unwritten])
      · simpa [uncommitted] using hkey
      · simpa [rerouting] using hroute
    | @copied p e c g hpc heq =>
      rw [hpc] at hgen hkey hroute
      exact h.goto rfl rfl rfl rfl rfl h.isolated hgen hkey hroute (by simp [unwritten])
    | @take f hpc heq =>
      rw [hpc] at hgen hkey hroute
      refine h.goto rfl rfl rfl rfl rfl h.isolated hgen ?_ hroute (by simp [unwritten])
      simpa [uncommitted, heq] using hkey
    | replay hpc hpeek | forged hpc =>
      exact h.goto_free w rfl rfl rfl rfl
    | @peek f hpc hpeek =>
      rw [hpc] at hgen hkey hroute
      exact h.goto rfl rfl rfl rfl rfl h.isolated hgen hkey hroute (by simp [unwritten])
    | @decrypt f hpc hopen =>
      have hauth : authentic A f.crypto f.pkt = true := hopen
      rw [hpc] at hgen hkey hroute
      refine h.goto rfl rfl rfl rfl rfl h.isolated hgen ?_ ?_ (by simp [unwritten])
      · simpa [uncommitted, hauth] using hkey
      · simpa [rerouting, hauth] using hroute
    | commit hpc => exact h.commit hpc
    | @isValid f hpc heq =>
      rw [hpc] at hroute
      refine h.goto rfl rfl rfl rfl rfl h.isolated (by simp [handleGen]) (by simp [uncommitted])
        ?_ (by simp [hpc, unwritten])
      simpa [rerouting, heq] using hroute
    | @stale f hpc hne =>
      exact h.goto rfl rfl rfl rfl rfl h.isolated (by simp [handleGen]) (by simp [uncommitted])
        (by simp [rerouting]) (by simp [hpc, unwritten])
    | @load f hpc =>
      rw [hpc] at hroute
      exact h.goto rfl rfl rfl rfl rfl h.isolated (by simp [handleGen]) (by simp [uncommitted])
        hroute (by simp [hpc, unwritten])
    | @keep f cur hpc hcur =>
      exact h.goto rfl rfl rfl rfl rfl h.isolated (by simp [handleGen]) (by simp [uncommitted])
        (by simp [rerouting]) (by simp [hpc, unwritten])
    | reroute hpc hcur => exact h.reroute hpc
    | deliver hpc => exact h.deliver hpc
    | @resetTxSeq k g hpc =>
      have hkept : Apart A { s with txSeq := 0 } :=
        ⟨h.handles, h.keys, h.routes, h.once, h.isolated⟩
      exact hkept.goto_free w rfl rfl rfl rfl
    | resetFilter hpc =>
      rw [hpc] at hok
      exact h.resetFilter hok
    | @setCrypto k g hpc =>
      have hkept : Apart A { s with crypto := ⟨k.key, true, g⟩ } :=
        ⟨h.handles, h.keys, h.routes, h.once, h.isolated⟩
      exact hkept.goto_free w rfl rfl rfl rfl
    | loadRouting hpc =>
      exact h.goto_free w rfl rfl rfl rfl
    | setRouting cur hpc hst =>
      rw [hpc] at hok
      rcases hst with ⟨rfl, hkind⟩ | rfl
      · exact h.setRouting (hok hkind)
      · exact h.setRouting hok
  · exact h.goto_free w rfl rfl rfl rfl

end Steps

/-! ### Runs -/

theorem apart_init (zero : K) : Apart A (init zero : State ι K P E) where
  handles := fun w g hg => by simp [init, handleGen] at hg
  keys := fun w n hn => by simp [init, uncommitted] at hn
  routes := fun w n hn => by simp [init, rerouting] at hn
  once := fun w x hx => by simp [init, unwritten] at hx
  isolated := ⟨trivial, trivial, trivial⟩

/-- **The generations stay apart** in every state of a run without crossings. -/
theorem apart_of_meets [DecidableEq ι] [DecidableEq E] (zero : K)
    (as : List (Action ι K P E)) (s : State ι K P E)
    (hok : Meets (step A) (Undisturbed A) (init zero) as)
    (hrun : runs (step A) (init zero) as = some s) : Isolated A s.log :=
  (inv_of_meets (I := Apart A) (fun h hok hstep => h.step hok hstep)
    (apart_init A zero) hok hrun).isolated

/-! ### Packets that cross a re-key -/

/-- A handshake that installs the key `k` for the endpoint `e`, run to its end by
worker `0`. -/
def rekeyRun (k e : ℕ) : List (Action (Fin 3) ℕ (ℕ × UInt64) ℕ) :=
  .start 0 (.rekey ⟨.handshake, k, 0x0A080002, e⟩) :: List.replicate 4 (.next 0)

/-- Worker `w` delivers a packet of key `k` and number `n` that came from `e`. -/
def deliverRun (w : Fin 3) (k : ℕ) (n : UInt64) (e : ℕ) :
    List (Action (Fin 3) ℕ (ℕ × UInt64) ℕ) :=
  .start w (.cached (k, n) e) :: List.replicate 12 (.next w)

/-- A second copy of the delivered packet `1` has passed the last test of its handle,
and packet `2`, from a new endpoint, has loaded the routing, when the re-key comes. -/
def crossingRun : List (Action (Fin 3) ℕ (ℕ × UInt64) ℕ) :=
  rekeyRun 7 1 ++ deliverRun 1 7 1 1 ++
    .start 2 (.cached (7, 2) 2) :: List.replicate 10 (.next 2) ++
    .start 1 (.cached (7, 1) 1) :: List.replicate 5 (.next 1) ++ rekeyRun 9 3 ++
    List.replicate 2 (.next 2) ++ List.replicate 5 (.next 1)

/-- **No part of the isolation holds**: a packet of the old keys is committed to the
new filter, delivered again, and another one overwrites the new routing. -/
theorem not_isolated :
    ∃ s, runs (step idealAead) (init 0) crossingRun = some s ∧ ¬FilterIsolated s.log ∧
      ¬NotRedelivered idealAead s.log ∧ ¬RoutingIsolated s.log := by
  have hrun : (runs (step idealAead) (init 0) crossingRun).map (fun s =>
      (decide (FilterIsolated s.log), decide (NotRedelivered idealAead s.log),
        decide (RoutingIsolated s.log))) = some (false, false, false) := by
    decide +kernel
  obtain ⟨s, hs, hlog⟩ := Option.map_eq_some_iff.mp hrun
  simp only [Prod.mk.injEq, decide_eq_false_iff_not] at hlog
  exact ⟨s, hs, hlog⟩

/-- Packets before and after a re-key, none across it. -/
def separateRun : List (Action (Fin 3) ℕ (ℕ × UInt64) ℕ) :=
  rekeyRun 7 1 ++ deliverRun 1 7 1 1 ++ deliverRun 2 7 2 2 ++ rekeyRun 9 3 ++
    deliverRun 1 9 1 3 ++ deliverRun 2 9 2 4

theorem isolated_separateRun :
    ∃ s, runs (step idealAead) (init 0) separateRun = some s ∧ Isolated idealAead s.log := by
  obtain ⟨s, hs⟩ := Option.isSome_iff_exists.mp
    (show (runs (step idealAead) (init 0) separateRun).isSome = true by decide +kernel)
  exact ⟨s, hs, apart_of_meets idealAead 0 separateRun s (by decide +kernel) hs⟩

end DataPath

end Aegs
