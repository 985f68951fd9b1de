import Mathlib.Data.List.GetD
import Mathlib.Data.List.Perm.Subperm
import Aegs.Lib.BoundedMap
import Aegs.Lib.Transition

/-!
# The rate limiter

`FastRateLimiter` tracks addresses in a map, and notes each that comes in the next slot of a
ring. A full map makes room by evicting the address in the slot that is next, if that slot
is still the address's own.

`purge_expired` takes addresses out of the map and leaves their slots. The next addresses
then come into a map that is not full, at slots that may belong to addresses still tracked;
these have no slot from then on, and when the map is full again, the slot that is next may
be one of an address that is gone: nothing is evicted, and the map outgrows its capacity.
It stays within it exactly in the runs in which a full map always finds a tracked address at
the slot that is next (`Aegs.RateLimiter.meets_bounded_iff`), and it does so wherever no slot
of a tracked address is overwritten (`Aegs.RateLimiter.ownSlot_of_spares`).
-/

namespace Aegs

namespace RateLimiter

open BoundedMap Transition

/-- `Entry`, with times in `τ`. -/
structure Entry (τ : Type) where
  /-- `window_start`. -/
  windowStart : τ
  /-- `count`. -/
  count : ℕ
  /-- `generation`. -/
  generation : UInt64

/-- `RingSlot`. -/
structure RingSlot where
  /-- `ip`. -/
  ip : UInt32
  /-- `generation`. -/
  generation : UInt64
deriving DecidableEq

/-- What is asked of two times. -/
structure Clock (τ : Type) where
  /-- `now - window_start >= 1.0`. -/
  windowOver : τ → τ → Bool
  /-- `now - window_start > max_age_sec`. -/
  expired : τ → τ → Bool

/-- `FastRateLimiter`. -/
structure FastRateLimiter (τ : Type) where
  /-- `map_`. -/
  map : AList fun _ : UInt32 => Entry τ
  /-- `ring_`. -/
  ring : List RingSlot
  /-- `head_`. -/
  head : ℕ
  /-- `gen_counter_`. -/
  genCounter : UInt64

/-- The calls. -/
inductive Call (τ : Type)
  /-- `check(ip_num, now, max_per_sec)`. -/
  | check (ip : UInt32) (now : τ) (maxPerSec : ℕ)
  /-- `purge_expired(now, max_age_sec)`. -/
  | purgeExpired (now : τ)

section

variable {τ : Type} (clock : Clock τ) (capacity : ℕ)

/-- `FastRateLimiter()`. -/
def FastRateLimiter.new : FastRateLimiter τ := ⟨∅, List.replicate capacity ⟨0, 0⟩, 0, 0⟩

/-- The slot is that of an address that is tracked. -/
def RingSlot.live (slot : RingSlot) (map : AList fun _ : UInt32 => Entry τ) : Bool :=
  decide (slot.ip ≠ 0) &&
    (map.lookup slot.ip).any fun entry => decide (entry.generation = slot.generation)

/-- The slot that is next. -/
def FastRateLimiter.next (l : FastRateLimiter τ) : RingSlot := l.ring.getD l.head ⟨0, 0⟩

/-- Room is made for an address that is not tracked. -/
def FastRateLimiter.evict (l : FastRateLimiter τ) : AList fun _ : UInt32 => Entry τ :=
  if l.map.keys.length ≥ capacity then
    if l.next.live l.map then l.map.erase l.next.ip else l.map
  else l.map

/-- **`check`.** -/
def FastRateLimiter.check (l : FastRateLimiter τ) (ip : UInt32) (now : τ) (maxPerSec : ℕ) :
    Bool × FastRateLimiter τ :=
  match l.map.lookup ip with
  | none =>
    let gen := l.genCounter + 1
    (true, ⟨(l.evict capacity).insert ip ⟨now, 1, gen⟩, l.ring.set l.head ⟨ip, gen⟩,
      (l.head + 1) % capacity, gen⟩)
  | some entry =>
    if clock.windowOver now entry.windowStart then
      (true, { l with map := l.map.insert ip { entry with windowStart := now, count := 1 } })
    else
      (decide (entry.count + 1 ≤ maxPerSec),
        { l with map := l.map.insert ip { entry with count := entry.count + 1 } })

/-- **`purge_expired`.** -/
def FastRateLimiter.purgeExpired (l : FastRateLimiter τ) (now : τ) : FastRateLimiter τ :=
  { l with map := ⟨l.map.entries.filter fun e => !clock.expired now e.2.windowStart,
      l.map.nodupKeys.sublist List.filter_sublist⟩ }

/-- One call. -/
def step (l : FastRateLimiter τ) : Call τ → Option (FastRateLimiter τ)
  | .check ip now maxPerSec => some (l.check clock capacity ip now maxPerSec).2
  | .purgeExpired now => some (l.purgeExpired clock now)

/-- Behind the call no more addresses are tracked than the capacity. -/
def Bounded (l : FastRateLimiter τ) (a : Call τ) : Prop :=
  ∀ l', step clock capacity l a = some l' → l'.map.keys.length ≤ capacity

/-- **A full map finds an address to evict**: one that is tracked has the slot that is next. -/
def FindsLive (l : FastRateLimiter τ) : Call τ → Prop
  | .check ip _ _ => ip ∉ l.map → l.map.keys.length = capacity → l.next.live l.map = true
  | .purgeExpired _ => True

/-! ### The size of the map -/

theorem mem_of_live {slot : RingSlot} {map : AList fun _ : UInt32 => Entry τ}
    (hlive : slot.live map = true) : slot.ip ∈ map := by
  obtain ⟨entry, hentry, -⟩ := (Option.any_eq_true _ _).mp (Bool.and_eq_true_iff.mp hlive).2
  rw [← AList.lookup_isSome, hentry]
  rfl

/-- **What a call does to the size**: a new address is one more, unless another goes for it. -/
theorem length_check (l : FastRateLimiter τ) (ip : UInt32) (now : τ) (maxPerSec : ℕ) :
    (l.check clock capacity ip now maxPerSec).2.map.keys.length =
      if ip ∈ l.map then l.map.keys.length
      else if l.map.keys.length ≥ capacity ∧ l.next.live l.map = true then l.map.keys.length
      else l.map.keys.length + 1 := by
  rw [FastRateLimiter.check]
  cases hlookup : l.map.lookup ip with
  | some entry =>
    have hmem : ip ∈ l.map := by
      rw [← AList.lookup_isSome, hlookup]
      rfl
    rw [if_pos hmem]
    show (if _ then _ else _ : Bool × FastRateLimiter τ).2.map.keys.length = _
    split_ifs
    · exact length_insert_of_mem _ hmem
    · exact length_insert_of_mem _ hmem
  | none =>
    have hnot : ip ∉ l.map := AList.lookup_eq_none.mp hlookup
    rw [if_neg hnot]
    show ((l.evict capacity).insert ip _).keys.length = _
    rw [FastRateLimiter.evict]
    split_ifs with hfull hlive hboth hboth hboth
    · have hmem := mem_of_live hlive
      have hpos : 0 < l.map.keys.length := List.length_pos_of_mem hmem
      rw [length_insert _ fun h => hnot (AList.mem_erase.mp h).2, length_erase hmem]
      omega
    · exact absurd ⟨hfull, hlive⟩ hboth
    · exact absurd hboth.2 hlive
    · exact length_insert _ hnot
    · exact absurd hboth.1 hfull
    · exact length_insert _ hnot

theorem length_purgeExpired (l : FastRateLimiter τ) (now : τ) :
    (l.purgeExpired clock now).map.keys.length ≤ l.map.keys.length :=
  ((List.filter_sublist (l := l.map.entries)).map Sigma.fst).length_le

/-- A call keeps the bound exactly if it meets the condition. -/
theorem bounded_iff {l : FastRateLimiter τ} (hl : l.map.keys.length ≤ capacity) (a : Call τ) :
    Bounded clock capacity l a ↔ FindsLive capacity l a := by
  cases a with
  | purgeExpired now =>
    refine iff_of_true ?_ trivial
    rintro l' hstep
    obtain rfl := Option.some.inj hstep
    exact Nat.le_trans (length_purgeExpired clock l now) hl
  | check ip now maxPerSec =>
    have hlength := length_check clock capacity l ip now maxPerSec
    constructor
    · intro hbounded hnot hfull
      by_contra hlive
      have hle := hbounded _ rfl
      rw [hlength, if_neg hnot, if_neg fun h => hlive h.2, hfull] at hle
      omega
    · rintro hfinds l' hstep
      obtain rfl := Option.some.inj hstep
      rw [hlength]
      split_ifs with hmem hroom
      · exact hl
      · exact hl
      · by_contra hover
        have hfull : l.map.keys.length = capacity := by omega
        exact hroom ⟨Nat.le_of_eq hfull.symm, hfinds hmem hfull⟩

/-- **The capacity is kept** exactly in the runs in which a full map always finds a tracked
address at the slot that is next. -/
theorem meets_bounded_iff (as : List (Call τ)) :
    Meets (step clock capacity) (Bounded clock capacity) (.new capacity) as ↔
      Meets (step clock capacity) (FindsLive capacity) (.new capacity) as := by
  have hstart : (FastRateLimiter.new capacity : FastRateLimiter τ).map.keys.length ≤ capacity :=
    Nat.zero_le capacity
  constructor
  · exact Meets.imp (I := fun l : FastRateLimiter τ => l.map.keys.length ≤ capacity)
      (fun _ hbounded hstep => hbounded _ hstep)
      (fun hl hbounded => (bounded_iff clock capacity hl _).mp hbounded) hstart
  · exact Meets.imp (I := fun l : FastRateLimiter τ => l.map.keys.length ≤ capacity)
      (fun hl hfinds hstep => (bounded_iff clock capacity hl _).mpr hfinds _ hstep)
      (fun hl hfinds => (bounded_iff clock capacity hl _).mpr hfinds) hstart

/-! ### Slots of one's own -/

/-- **Every tracked address has a slot.** -/
structure OwnSlot (l : FastRateLimiter τ) : Prop where
  /-- The ring has its size. -/
  length : l.ring.length = capacity
  /-- The slot that is next is one of the ring. -/
  head : l.head < capacity
  /-- The address is not zero, and a slot has it with its generation. -/
  slot : ∀ ip e, l.map.lookup ip = some e → ip ≠ 0 ∧ ⟨ip, e.generation⟩ ∈ l.ring

/-- No slot of a tracked address is overwritten while the map is not full. -/
def Spares (l : FastRateLimiter τ) : Call τ → Prop
  | .check ip _ _ => ip ≠ 0 ∧
      (ip ∉ l.map → l.map.keys.length < capacity → l.next.live l.map = false)
  | .purgeExpired _ => True

theorem OwnSlot.next_eq {l : FastRateLimiter τ} (h : OwnSlot capacity l) :
    ∃ hhead : l.head < l.ring.length, l.next = l.ring[l.head] :=
  have hhead : l.head < l.ring.length := h.length ▸ h.head
  ⟨hhead, List.getD_eq_getElem _ _ hhead⟩

/-- The slot of a tracked address is live. -/
theorem OwnSlot.live {l : FastRateLimiter τ} (h : OwnSlot capacity l) {ip : UInt32} {e : Entry τ}
    (he : l.map.lookup ip = some e) : RingSlot.live ⟨ip, e.generation⟩ l.map = true := by
  rw [RingSlot.live, he, Option.any_some]
  simp [(h.slot ip e he).1]

/-- **A full map has no slot to spare**: it finds a tracked address at every slot. -/
theorem OwnSlot.live_of_full {l : FastRateLimiter τ} (h : OwnSlot capacity l)
    (hfull : capacity ≤ l.map.keys.length) : l.next.live l.map = true := by
  by_contra hdead
  obtain ⟨hhead, hnext⟩ := h.next_eq
  have hsubset : (l.map.entries.map fun e => (⟨e.1, e.2.generation⟩ : RingSlot)) ⊆
      l.ring.eraseIdx l.head := by
    intro slot hslot
    obtain ⟨e, he, rfl⟩ := List.mem_map.mp hslot
    have hlookup : l.map.lookup e.1 = some e.2 := AList.mem_lookup_iff.mpr he
    obtain ⟨i, hi, heq⟩ := List.mem_iff_getElem.mp (h.slot e.1 e.2 hlookup).2
    refine List.mem_eraseIdx_iff_getElem.mpr ⟨i, hi, ?_, heq⟩
    rintro rfl
    rw [hnext, heq] at hdead
    exact hdead (h.live capacity hlookup)
  have hnodup : (l.map.entries.map fun e => (⟨e.1, e.2.generation⟩ : RingSlot)).Nodup := by
    refine List.Nodup.of_map RingSlot.ip ?_
    rw [List.map_map]
    exact l.map.keys_nodup
  have hle := (List.Nodup.subperm hnodup hsubset).length_le
  have hkeys : l.map.keys.length = l.map.entries.length := List.length_map _
  rw [List.length_map, List.length_eraseIdx_of_lt hhead, h.length] at hle
  have hpos := h.head
  omega

/-- An address that stays when room is made has not the slot that is next. -/
theorem OwnSlot.lookup_evict {l : FastRateLimiter τ} (h : OwnSlot capacity l)
    (hspares : l.map.keys.length < capacity → l.next.live l.map = false) {ip : UInt32}
    {e : Entry τ} (he : (l.evict capacity).lookup ip = some e) :
    l.map.lookup ip = some e ∧ l.next ≠ ⟨ip, e.generation⟩ := by
  rw [FastRateLimiter.evict] at he
  split_ifs at he with hfull hlive
  · by_cases hip : ip = l.next.ip
    · rw [hip, AList.lookup_erase] at he
      exact nomatch he
    · rw [AList.lookup_erase_ne hip] at he
      refine ⟨he, fun heq => hip ?_⟩
      rw [heq]
  · exact absurd (h.live_of_full capacity hfull) hlive
  · refine ⟨he, fun heq => ?_⟩
    have hdead := hspares (Nat.not_le.mp hfull)
    rw [heq, h.live capacity he] at hdead
    exact nomatch hdead

/-- A call that spares the slots keeps them. -/
theorem OwnSlot.step {l l' : FastRateLimiter τ} {a : Call τ} (h : OwnSlot capacity l)
    (hspares : Spares capacity l a) (hstep : step clock capacity l a = some l') :
    OwnSlot capacity l' := by
  cases a with
  | purgeExpired now =>
    obtain rfl := Option.some.inj hstep
    refine ⟨h.length, h.head, fun ip e he => h.slot ip e ?_⟩
    have hmem := AList.mem_lookup_iff.mp he
    exact AList.mem_lookup_iff.mpr (List.mem_of_mem_filter hmem)
  | check ip now maxPerSec =>
    obtain rfl := Option.some.inj hstep
    have hpos : 0 < capacity := Nat.zero_lt_of_lt h.head
    obtain ⟨hhead, hnext⟩ := h.next_eq
    rw [FastRateLimiter.check]
    cases hlookup : l.map.lookup ip with
    | some entry =>
      -- the entry keeps its generation
      have hkept : ∀ e' : Entry τ, e'.generation = entry.generation →
          OwnSlot capacity { l with map := l.map.insert ip e' } := by
        intro e' hgen
        refine ⟨h.length, h.head, fun ip' e he => ?_⟩
        by_cases hip : ip' = ip
        · subst hip
          obtain rfl : e' = e := by
            rw [AList.lookup_insert] at he
            exact Option.some.inj he
          rw [hgen]
          exact h.slot ip' entry hlookup
        · rw [AList.lookup_insert_ne hip] at he
          exact h.slot ip' e he
      show OwnSlot capacity (if _ then _ else _ : Bool × FastRateLimiter τ).2
      split_ifs
      · exact hkept _ rfl
      · exact hkept _ rfl
    | none =>
      have hnot : ip ∉ l.map := AList.lookup_eq_none.mp hlookup
      refine ⟨?_, Nat.mod_lt _ hpos, fun ip' e he => ?_⟩
      · rw [List.length_set]
        exact h.length
      · by_cases hip : ip' = ip
        · subst hip
          obtain rfl := Option.some.inj (AList.lookup_insert (l.evict capacity) ▸ he)
          refine ⟨hspares.1, ?_⟩
          exact List.mem_iff_getElem.mpr ⟨l.head, by rwa [List.length_set],
            List.getElem_set_self _⟩
        · -- the slot of another address is not the one that is next
          rw [AList.lookup_insert_ne hip] at he
          obtain ⟨hlookup', hne⟩ := h.lookup_evict capacity (hspares.2 hnot) he
          obtain ⟨hzero, hmem⟩ := h.slot ip' e hlookup'
          refine ⟨hzero, ?_⟩
          obtain ⟨i, hi, heq⟩ := List.mem_iff_getElem.mp hmem
          refine List.mem_iff_getElem.mpr ⟨i, by rwa [List.length_set], ?_⟩
          rw [List.getElem_set_ne, heq]
          rintro rfl
          exact hne (hnext.trans heq)

/-- **Where no slot of a tracked address is overwritten** a full map finds one at every
slot. -/
theorem ownSlot_of_spares (hpos : 0 < capacity) {as : List (Call τ)}
    (hspares : Meets (step clock capacity) (Spares capacity) (.new capacity) as) :
    Meets (step clock capacity) (Bounded clock capacity) (.new capacity) as := by
  rw [meets_bounded_iff]
  refine hspares.imp (I := OwnSlot capacity) (fun h hs hstep => h.step clock capacity hs hstep)
    (fun {l a} h _ => ?_) ?_
  · cases a with
    | check ip now maxPerSec =>
      exact fun _ hfull => h.live_of_full capacity (Nat.le_of_eq hfull.symm)
    | purgeExpired now => trivial
  · refine ⟨List.length_replicate, hpos, fun ip e he => ?_⟩
    exact nomatch he

end

/-- Times in milliseconds. -/
def msClock : Clock ℤ := ⟨fun now start => decide (now - start ≥ 1000), fun now start =>
  decide (now - start > 10000)⟩

/-- Two addresses come, the first comes again, and the second expires; a third address takes
the slot of the first, and a fourth finds the slot of the second. -/
def outgrown : List (Call ℤ) :=
  [.check 1 0 10, .check 2 0 10, .check 1 10000 10, .purgeExpired 11000, .check 3 11000 10,
    .check 4 11000 10]

/-- **The map outgrows its capacity**: three addresses are tracked where there is room for
two. -/
theorem not_bounded :
    ¬∀ (capacity : ℕ) (as : List (Call ℤ)), 1 ≤ capacity →
      Meets (step msClock capacity) (Bounded msClock capacity) (.new capacity) as := by
  intro h
  have hrun : (runs (step msClock 2) (.new 2) outgrown).any (fun l =>
      decide (l.map.keys.length = 3)) = true := by
    decide +kernel
  obtain ⟨l, hl, hthree⟩ := (Option.any_eq_true _ _).mp hrun
  rw [show outgrown = outgrown.dropLast ++ [.check 4 11000 10] from rfl] at hl
  obtain ⟨before, hbefore, hlast⟩ := runs_snoc.mp hl
  have hle := ((h 2 (outgrown.dropLast ++ [.check 4 11000 10]) (by decide)).of_append
    hbefore).1 l hlast
  rw [of_decide_eq_true hthree] at hle
  exact absurd hle (by decide)

end RateLimiter

end Aegs
