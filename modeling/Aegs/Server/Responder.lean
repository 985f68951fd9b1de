import Mathlib.Data.List.Basic
import Mathlib.Tactic.NormNum
import Aegs.Lib.BoundedMap
import Aegs.Lib.Double
import Aegs.Lib.Transition

/-!
# The table of the responder

`BlackholeResponder::should_respond` keeps a token bucket for each address it has seen. What
is older than the window is dropped from the table, but only at the end of the function: a
call for a new address, one for an address that is over its ceilings and one for an address
without a token return before it. Of these only the last two need an address that comes
back, so a flood of new ones fills the table with entries that nothing drops.

Which entries are in the table is a matter of the calls: an address has one unless it was
quiet at the last cleanup (`Aegs.Responder.Recalls`). So the old entries stay within the
10000 that the code has in mind exactly if, at every call that returns early, no more
addresses than that have gone quiet since the last cleanup
(`Aegs.Responder.memory_bounded_iff`). The times and tokens are those of `Double`.
-/

namespace Aegs

namespace Responder

open BoundedMap Transition Double

/-- `RateLimitEntry`. -/
structure RateLimitEntry (F : Type) where
  /-- `tokens`. -/
  tokens : F
  /-- `last_refill`. -/
  lastRefill : F
  /-- `total_packets`. -/
  totalPackets : UInt64
  /-- `total_bytes`. -/
  totalBytes : UInt64
  /-- `window_start`. -/
  windowStart : F

/-- `rate_limits_`, by the text of an address. -/
abbrev Table (F : Type) := AList fun _ : List Char => RateLimitEntry F

section Model

variable {F : Type} [Double F]

/-- `kDefaultMaxRate`. -/
def defaultMaxRate : F := literal (1 / 5)

/-- `kBucketCapacity`. -/
def bucketCapacity : F := literal 1

/-- `kWindowDurationSec`. -/
def windowDurationSec : F := literal 60

/-- `kMaxPacketsPerIp`. -/
def maxPacketsPerIp : UInt64 := 50

/-- `kMaxBytesPerIp`. -/
def maxBytesPerIp : UInt64 := 8192

/-- The arguments of a call. -/
structure Call (F : Type) where
  /-- `ip`. -/
  ip : List Char
  /-- `now`. -/
  now : F
  /-- `max_rate`. -/
  maxRate : F
  /-- `estimated_bytes`. -/
  estimatedBytes : UInt64

/-- The window is reset once it has elapsed. -/
def RateLimitEntry.resetWindow (e : RateLimitEntry F) (now : F) : RateLimitEntry F :=
  if now - e.windowStart ≥ windowDurationSec then
    { e with windowStart := now, totalPackets := 0, totalBytes := 0 }
  else e

/-- The ceilings on packets and bytes. -/
def RateLimitEntry.overCeiling (e : RateLimitEntry F) : Bool :=
  e.totalPackets ≥ maxPacketsPerIp || e.totalBytes ≥ maxBytesPerIp

/-- Tokens are refilled. -/
def RateLimitEntry.refill (e : RateLimitEntry F) (now maxRate : F) : RateLimitEntry F :=
  let dt := now - e.lastRefill
  if dt > literal 0 then
    let tokens := e.tokens + dt * (literal 1 / maxRate)
    { e with
      tokens := if tokens > bucketCapacity then bucketCapacity else tokens
      lastRefill := now }
  else e

/-- A token is consumed. -/
def RateLimitEntry.consume (e : RateLimitEntry F) (estimatedBytes : UInt64) :
    RateLimitEntry F :=
  { e with
    tokens := e.tokens - literal 1
    totalPackets := e.totalPackets + 1
    totalBytes := e.totalBytes + estimatedBytes }

/-- The time is older than the window. -/
def old (time now : F) : Bool := now - time > windowDurationSec

/-- The entry is older than the window. -/
def RateLimitEntry.stale (e : RateLimitEntry F) (now : F) : Bool := old e.lastRefill now

/-- `max_rate` as it is used. -/
def Call.rate (c : Call F) : F := if c.maxRate ≤ literal 0 then defaultMaxRate else c.maxRate

/-- **`should_respond`.** -/
def shouldRespond (table : Table F) (c : Call F) : Bool × Table F :=
  match table.lookup c.ip with
  | none =>
    (true, table.insert c.ip ⟨bucketCapacity - literal 1, c.now, 1, c.estimatedBytes, c.now⟩)
  | some entry =>
    let entry := entry.resetWindow c.now
    if entry.overCeiling then (false, table.insert c.ip entry)
    else
      let entry := entry.refill c.now c.rate
      if entry.tokens < literal 1 then (false, table.insert c.ip entry)
      else
        let table := table.insert c.ip (entry.consume c.estimatedBytes)
        if table.keys.length > 10000 then (true, purge table fun _ e => e.stale c.now)
        else (true, table)

/-- The table, and the time of the last call. -/
structure State (F : Type) where
  /-- `rate_limits_`. -/
  table : Table F
  /-- The time of the last call. -/
  clock : F

/-- One call, at a time that is not before that of the last. -/
def step (st : State F) (c : Call F) : Option (State F) :=
  if st.clock ≤ c.now then some ⟨(shouldRespond st.table c).2, c.now⟩ else none

/-- How many entries are older than the window. -/
def staleCount (table : Table F) (now : F) : ℕ := countP table fun _ e => e.stale now

/-- **Behind the call at most 10000 entries are older than the window.** -/
def Bounded (st : State F) (c : Call F) : Prop :=
  ∀ st', step st c = some st' → staleCount st'.table c.now ≤ 10000

/-! ### The calls -/

/-- The address has no entry, or is under its ceilings: the call is entered as the last one
for it. -/
def refreshes (table : Table F) (c : Call F) : Bool :=
  (table.lookup c.ip).all fun e => !(e.resetWindow c.now).overCeiling

/-- The address has a token too: the call goes on to the cleanup. -/
def cleans (table : Table F) (c : Call F) : Bool :=
  (table.lookup c.ip).any fun e => !(e.resetWindow c.now).overCeiling &&
    !((e.resetWindow c.now).refill c.now c.rate).tokens < literal 1

/-- **What there was of calls.** -/
structure Calls (F : Type) where
  /-- The time of the last call for each address, not counting those over its ceilings. -/
  last : AList fun _ : List Char => F
  /-- The time of the last cleanup of a table of more than 10000 entries. -/
  cleanup : Option F

/-- Nobody has called. -/
def Calls.none : Calls F := ⟨∅, Option.none⟩

/-- A call is entered. -/
def note (st : State F) (h : Calls F) (c : Call F) : Calls F where
  last := if refreshes st.table c then h.last.insert c.ip c.now else h.last
  cleanup := if cleans st.table c && st.table.keys.length > 10000 then some c.now else h.cleanup

/-- The last call was quiet for longer than the window by then. -/
def Calls.quietBy (h : Calls F) (time : F) : Bool := h.cleanup.any fun cleanup => old time cleanup

/-- How many addresses other than this one have gone quiet since the last cleanup. -/
def Calls.quiet (h : Calls F) (ip : List Char) (now : F) : ℕ :=
  countP (h.last.erase ip) fun _ time => old time now && !h.quietBy time

/-- **Few addresses go quiet before a call that returns early**: the call reaches the
cleanup, or of the other addresses at most 10000 have gone quiet since the last one. -/
def FewQuiet (p : State F × Calls F) (c : Call F) : Prop :=
  p.1.clock ≤ c.now → cleans p.1.table c = true ∨ p.2.quiet c.ip c.now ≤ 10000

end Model

/-! ### Times -/

section Times

variable {F : Type} [Double F] {x y z : F}

/-- Two times are not apart. -/
def Same (x y : F) : Prop := x ≤ y ∧ y ≤ x

/-- What is not ahead of a time is not old then. -/
theorem old_of_le (h : y ≤ x) : old x y = false := by
  rw [old, decide_eq_false_iff_not]
  exact fun hlt => not_lt_sub_self x (by norm_num) (lt_sub_of_le h hlt)

/-- What is old stays old. -/
theorem old_mono (h : y ≤ z) (hold : old x y = true) : old x z = true := by
  rw [old, decide_eq_true_eq] at hold ⊢
  exact lt_sub_of_le h hold

/-- Times that are not apart are old together. -/
theorem old_congr (h : Same x y) (now : F) : old x now = old y now := by
  rw [Bool.eq_iff_iff]
  simp only [old, decide_eq_true_eq]
  exact ⟨lt_sub_of_ge h.2, lt_sub_of_ge h.1⟩

end Times

/-! ### One call -/

section Entries

variable {F : Type} [Double F] {e : RateLimitEntry F} {now : F}

/-- Over a ceiling the window has not elapsed: a reset would have cleared the counts. -/
theorem resetWindow_of_overCeiling (hover : (e.resetWindow now).overCeiling = true) :
    e.resetWindow now = e ∧ ¬now - e.windowStart ≥ windowDurationSec := by
  by_cases helapsed : now - e.windowStart ≥ windowDurationSec
  · rw [RateLimitEntry.resetWindow, if_pos helapsed] at hover
    exact absurd hover (by simp [RateLimitEntry.overCeiling, maxPacketsPerIp, maxBytesPerIp])
  · exact ⟨if_neg helapsed, helapsed⟩

/-- So its entry is not old. -/
theorem stale_of_overCeiling (hstart : e.windowStart ≤ e.lastRefill)
    (hover : (e.resetWindow now).overCeiling = true) : e.stale now = false := by
  rw [RateLimitEntry.stale, old, decide_eq_false_iff_not]
  intro hold
  exact (resetWindow_of_overCeiling hover).2 (le_of_lt (lt_sub_of_ge hstart hold))

/-- An entry is of a call at a time: it was refilled then, in a window begun before. -/
structure Fresh (e : RateLimitEntry F) (time : F) : Prop where
  /-- It was refilled then. -/
  refilled : Same e.lastRefill time
  /-- The window had begun. -/
  begun : e.windowStart ≤ e.lastRefill

/-- **A refill** leaves the entry of a call at this time. -/
theorem fresh_refill {time : F} (h : Fresh e time) (hle : time ≤ now) (maxRate : F) :
    Fresh ((e.resetWindow now).refill now maxRate) now := by
  have hlast : e.lastRefill ≤ now := le_trans h.refilled.1 hle
  have hnow : now ≤ now := le_self hle
  have hkept : (e.resetWindow now).lastRefill = e.lastRefill := by
    rw [RateLimitEntry.resetWindow]
    split <;> rfl
  have hbegun : ∀ t, now ≤ t → e.lastRefill ≤ t → (e.resetWindow now).windowStart ≤ t := by
    intro t hnowt hlastt
    rw [RateLimitEntry.resetWindow]
    split
    · exact hnowt
    · exact le_trans h.begun hlastt
  rw [RateLimitEntry.refill]
  dsimp only
  split
  · exact ⟨⟨hnow, hnow⟩, hbegun now hnow hlast⟩
  · -- no time has passed since the last refill
    rename_i hdt
    rw [hkept] at hdt
    have hsame : now ≤ e.lastRefill := le_of_sub hlast hdt
    have hself : e.lastRefill ≤ e.lastRefill := le_trans hlast hsame
    exact ⟨⟨hkept ▸ hlast, hkept ▸ hsame⟩, hkept ▸ hbegun e.lastRefill hsame hself⟩

/-- What a call has entered is not old. -/
theorem stale_of_fresh (h : Fresh e now) : e.stale now = false := by
  rw [RateLimitEntry.stale, old_congr h.refilled]
  exact old_of_le (le_self h.refilled.1)

end Entries

/-! ### The calls tell what is in the table -/

section Recalls

variable {F : Type} [Double F]

/-- **The calls tell what is in the table**: an address has an entry exactly if it was not
quiet at the last cleanup, and the entry is of its last call. -/
structure Recalls (p : State F × Calls F) : Prop where
  /-- An entry is of the last call for its address, which was not quiet. -/
  known : ∀ ip e, p.1.table.lookup ip = some e → ∃ time, p.2.last.lookup ip = some time ∧
    Fresh e time ∧ p.2.quietBy time = false
  /-- An address that has called and has no entry was quiet. -/
  dropped : ∀ ip time, p.2.last.lookup ip = some time → p.1.table.lookup ip = none →
    p.2.quietBy time = true
  /-- No call is ahead of the clock. -/
  last_le : ∀ ip time, p.2.last.lookup ip = some time → time ≤ p.1.clock
  /-- Nor is the cleanup. -/
  cleanup_le : ∀ time, p.2.cleanup = some time → time ≤ p.1.clock

/-- At the start nobody has called. -/
theorem recalls_start (clock : F) : Recalls ((⟨∅, clock⟩ : State F), Calls.none) where
  known := fun ip e he => by simp at he
  dropped := fun ip time htime => by simp [Calls.none] at htime
  last_le := fun ip time htime => by simp [Calls.none] at htime
  cleanup_le := fun time htime => by simp [Calls.none] at htime

variable {p : State F × Calls F}

/-- A call at a time that is not before the last cleanup is not quiet. -/
theorem quietBy_of_le {h : Calls F} {now : F} (hle : ∀ time, h.cleanup = some time → time ≤ now) :
    h.quietBy now = false := by
  rw [Calls.quietBy]
  cases hcleanup : h.cleanup with
  | none => rfl
  | some time => exact old_of_le (hle time hcleanup)

/-- **A call is entered**, in the table and among the calls. -/
theorem Recalls.enter (h : Recalls p) {c : Call F} {e : RateLimitEntry F}
    (hclock : p.1.clock ≤ c.now) (hfresh : Fresh e c.now) :
    Recalls ((⟨p.1.table.insert c.ip e, c.now⟩ : State F),
      { p.2 with last := p.2.last.insert c.ip c.now }) where
  known := fun ip e' he' => by
    rcases lookup_insert_cases ip e' he' with ⟨rfl, rfl⟩ | ⟨hne, hold⟩
    · exact ⟨c.now, AList.lookup_insert _, hfresh,
        quietBy_of_le fun time htime => le_trans (h.cleanup_le time htime) hclock⟩
    · obtain ⟨time, htime, hrest⟩ := h.known ip e' hold
      exact ⟨time, (AList.lookup_insert_ne hne).trans htime, hrest⟩
  dropped := fun ip time htime hnone => by
    rcases lookup_insert_cases ip time htime with ⟨rfl, -⟩ | ⟨hne, hold⟩
    · exact absurd hnone (by simp)
    · exact h.dropped ip time hold ((AList.lookup_insert_ne hne).symm.trans hnone)
  last_le := fun ip time htime => by
    rcases lookup_insert_cases ip time htime with ⟨-, rfl⟩ | ⟨-, hold⟩
    · exact le_self hclock
    · exact le_trans (h.last_le ip time hold) hclock
  cleanup_le := fun time htime => le_trans (h.cleanup_le time htime) hclock

/-- Time passes. -/
theorem Recalls.wait (h : Recalls p) {now : F} (hclock : p.1.clock ≤ now) :
    Recalls ((⟨p.1.table, now⟩ : State F), p.2) where
  known := h.known
  dropped := h.dropped
  last_le := fun ip time htime => le_trans (h.last_le ip time htime) hclock
  cleanup_le := fun time htime => le_trans (h.cleanup_le time htime) hclock

/-- **A cleanup** drops the addresses that are quiet by then. -/
theorem Recalls.purge (h : Recalls p) (hself : p.1.clock ≤ p.1.clock) :
    Recalls ((⟨BoundedMap.purge p.1.table fun _ e => e.stale p.1.clock, p.1.clock⟩ : State F),
      { p.2 with cleanup := some p.1.clock }) where
  known := fun ip e he => by
    obtain ⟨hold, hstale⟩ := lookup_purge he
    obtain ⟨time, htime, hfresh, -⟩ := h.known ip e hold
    exact ⟨time, htime, hfresh, (old_congr hfresh.refilled _).symm.trans hstale⟩
  dropped := fun ip time htime hnone => by
    show old time p.1.clock = true
    cases hlookup : p.1.table.lookup ip with
    | none =>
      have hquiet := h.dropped ip time htime hlookup
      rw [Calls.quietBy, Option.any_eq_true] at hquiet
      obtain ⟨cleanup, hcleanup, hold⟩ := hquiet
      exact old_mono (h.cleanup_le cleanup hcleanup) hold
    | some e =>
      obtain ⟨time', htime', hfresh, -⟩ := h.known ip e hlookup
      obtain rfl : time = time' := Option.some.inj (htime.symm.trans htime')
      rw [← old_congr hfresh.refilled]
      by_contra hkept
      rw [lookup_purge_of_lookup hlookup (by simpa [RateLimitEntry.stale] using hkept)] at hnone
      exact nomatch hnone
  last_le := h.last_le
  cleanup_le := fun time htime => Option.some.inj htime ▸ hself

/-- **The old entries of the other addresses** are of those that have gone quiet since the
last cleanup. -/
theorem Recalls.staleCount_erase (h : Recalls p) (ip : List Char) (now : F) :
    staleCount (p.1.table.erase ip) now = p.2.quiet ip now := by
  refine countP_eq_of_lookup fun ip' => ?_
  by_cases hip : ip' = ip
  · subst hip
    simp
  rw [AList.lookup_erase_ne hip, AList.lookup_erase_ne hip]
  constructor
  · rintro ⟨e, he, hstale⟩
    obtain ⟨time, htime, hfresh, hquiet⟩ := h.known ip' e he
    refine ⟨time, htime, ?_⟩
    rw [hquiet, ← old_congr hfresh.refilled]
    simpa [RateLimitEntry.stale] using hstale
  · rintro ⟨time, htime, hold⟩
    rw [Bool.and_eq_true, Bool.not_eq_true'] at hold
    cases hlookup : p.1.table.lookup ip' with
    | none => exact absurd (h.dropped ip' time htime hlookup) (by simp [hold.2])
    | some e =>
      obtain ⟨time', htime', hfresh, -⟩ := h.known ip' e hlookup
      obtain rfl : time = time' := Option.some.inj (htime.symm.trans htime')
      exact ⟨e, rfl, (old_congr hfresh.refilled now).trans hold.1⟩

/-- **What a call does**, by the path it takes. -/
inductive Path (table : Table F) (c : Call F) : Table F → Prop
  /-- A new address. -/
  | unknown (hlookup : table.lookup c.ip = none) (hrefreshes : refreshes table c = true)
      (hcleans : cleans table c = false) :
      Path table c (table.insert c.ip
        ⟨bucketCapacity - literal 1, c.now, 1, c.estimatedBytes, c.now⟩)
  /-- An address over a ceiling. -/
  | overCeiling {e} (hlookup : table.lookup c.ip = some e)
      (hover : (e.resetWindow c.now).overCeiling = true) (hrefreshes : refreshes table c = false)
      (hcleans : cleans table c = false) : Path table c (table.insert c.ip (e.resetWindow c.now))
  /-- An address without a token. -/
  | noToken {e} (hlookup : table.lookup c.ip = some e) (hrefreshes : refreshes table c = true)
      (hcleans : cleans table c = false) :
      Path table c (table.insert c.ip ((e.resetWindow c.now).refill c.now c.rate))
  /-- The cleanup is reached. -/
  | cleanup {e} (hlookup : table.lookup c.ip = some e) (hrefreshes : refreshes table c = true)
      (hcleans : cleans table c = true) :
      Path table c (if table.keys.length > 10000 then
        BoundedMap.purge (table.insert c.ip (((e.resetWindow c.now).refill c.now c.rate).consume
          c.estimatedBytes)) fun _ e => e.stale c.now
        else table.insert c.ip (((e.resetWindow c.now).refill c.now c.rate).consume
          c.estimatedBytes))

/-- Every call takes one of the paths. -/
theorem path (table : Table F) (c : Call F) : Path table c (shouldRespond table c).2 := by
  rw [shouldRespond]
  cases hlookup : table.lookup c.ip with
  | none => exact .unknown hlookup (by simp [refreshes, hlookup]) (by simp [cleans, hlookup])
  | some e =>
    dsimp only
    split
    · rename_i hover
      exact .overCeiling hlookup hover (by simp [refreshes, hlookup, hover])
        (by simp [cleans, hlookup, hover])
    · rename_i hover
      rw [Bool.not_eq_true] at hover
      split
      · rename_i htoken
        exact .noToken hlookup (by simp [refreshes, hlookup, hover])
          (by simp [cleans, hlookup, hover, htoken])
      · rename_i htoken
        have hmem : c.ip ∈ table := AList.lookup_isSome.mp (by simp [hlookup])
        have hpath := Path.cleanup hlookup (by simp [refreshes, hlookup, hover])
          (by simp [cleans, hlookup, hover, htoken])
        rw [length_insert_of_mem _ hmem]
        split <;> rename_i hlen
        · rwa [if_pos hlen] at hpath
        · rwa [if_neg hlen] at hpath

/-- An entry that is written back as it was. -/
theorem Recalls.rewrite (h : Recalls p) {ip : List Char} {e : RateLimitEntry F}
    (hlookup : p.1.table.lookup ip = some e) :
    Recalls ((⟨p.1.table.insert ip e, p.1.clock⟩ : State F), p.2) where
  known := fun ip' e' he' => by
    rcases lookup_insert_cases ip' e' he' with ⟨rfl, rfl⟩ | ⟨-, hold⟩
    · exact h.known ip' e' hlookup
    · exact h.known ip' e' hold
  dropped := fun ip' time htime hnone => by
    by_cases hip : ip' = ip
    · subst hip
      simp at hnone
    · exact h.dropped ip' time htime ((AList.lookup_insert_ne hip).symm.trans hnone)
  last_le := h.last_le
  cleanup_le := h.cleanup_le

/-- The entry of an address that is under its ceilings, behind the refill. -/
theorem Recalls.fresh (h : Recalls p) {c : Call F} {e : RateLimitEntry F}
    (hclock : p.1.clock ≤ c.now) (hlookup : p.1.table.lookup c.ip = some e) :
    Fresh ((e.resetWindow c.now).refill c.now c.rate) c.now := by
  obtain ⟨time, htime, hfresh, -⟩ := h.known c.ip e hlookup
  exact fresh_refill hfresh (le_trans (h.last_le c.ip time htime) hclock) c.rate

/-- **Every call** keeps the record of the calls in step with the table. -/
theorem Recalls.step (h : Recalls p) {c : Call F} (hclock : p.1.clock ≤ c.now) :
    Recalls ((⟨(shouldRespond p.1.table c).2, c.now⟩ : State F), note p.1 p.2 c) := by
  have hpath := path p.1.table c
  generalize (shouldRespond p.1.table c).2 = table at hpath ⊢
  have hnow : c.now ≤ c.now := le_self hclock
  cases hpath with
  | unknown hlookup hrefreshes hcleans =>
    rw [show note p.1 p.2 c = { p.2 with last := p.2.last.insert c.ip c.now } by
      simp [note, hrefreshes, hcleans]]
    exact h.enter hclock ⟨⟨hnow, hnow⟩, hnow⟩
  | @overCeiling e hlookup hover hrefreshes hcleans =>
    rw [show note p.1 p.2 c = p.2 by simp [note, hrefreshes, hcleans],
      (resetWindow_of_overCeiling hover).1]
    exact (h.rewrite hlookup).wait hclock
  | @noToken e hlookup hrefreshes hcleans =>
    rw [show note p.1 p.2 c = { p.2 with last := p.2.last.insert c.ip c.now } by
      simp [note, hrefreshes, hcleans]]
    exact h.enter hclock (h.fresh hclock hlookup)
  | @cleanup e hlookup hrefreshes hcleans =>
    have hfresh := h.fresh hclock hlookup
    have henter := h.enter (c := c) (e := ((e.resetWindow c.now).refill c.now c.rate).consume
      c.estimatedBytes) hclock ⟨hfresh.refilled, hfresh.begun⟩
    split <;> rename_i hlen
    · rw [show note p.1 p.2 c = ⟨p.2.last.insert c.ip c.now, some c.now⟩ by
        simp [note, hrefreshes, hcleans, hlen]]
      exact henter.purge hnow
    · rw [show note p.1 p.2 c = { p.2 with last := p.2.last.insert c.ip c.now } by
        simp [note, hrefreshes, hlen]]
      exact henter

/-- **A call that returns early** leaves the old entries of the other addresses. -/
theorem Recalls.staleCount_of_early (h : Recalls p) {c : Call F} (hclock : p.1.clock ≤ c.now)
    (hearly : cleans p.1.table c = false) :
    staleCount (shouldRespond p.1.table c).2 c.now = p.2.quiet c.ip c.now := by
  have hput : ∀ e : RateLimitEntry F, e.stale c.now = false →
      staleCount (p.1.table.insert c.ip e) c.now = p.2.quiet c.ip c.now := by
    intro e hstale
    rw [staleCount, countP_insert, hstale, ← h.staleCount_erase]
    rfl
  have hpath := path p.1.table c
  generalize (shouldRespond p.1.table c).2 = table at hpath ⊢
  have hnow : c.now ≤ c.now := le_self hclock
  cases hpath with
  | unknown hlookup _ _ => exact hput _ (stale_of_fresh ⟨⟨hnow, hnow⟩, hnow⟩)
  | @overCeiling e hlookup hover _ _ =>
    obtain ⟨time, -, hfresh, -⟩ := h.known c.ip e hlookup
    rw [(resetWindow_of_overCeiling hover).1]
    exact hput e (stale_of_overCeiling hfresh.begun hover)
  | @noToken e hlookup _ _ => exact hput _ (stale_of_fresh (h.fresh hclock hlookup))
  | cleanup _ _ hcleans => exact absurd hcleans (by simp [hearly])

/-- **The cleanup** leaves no old entry in a table of more than 10000. -/
theorem staleCount_of_cleans {table : Table F} {c : Call F} (hcleans : cleans table c = true) :
    staleCount (shouldRespond table c).2 c.now ≤ 10000 := by
  have hpath := path table c
  generalize (shouldRespond table c).2 = table' at hpath ⊢
  cases hpath with
  | unknown _ _ hnot | overCeiling _ _ _ hnot | noToken _ _ hnot =>
    exact absurd hcleans (by simp [hnot])
  | @cleanup e hlookup _ _ =>
    have hmem : c.ip ∈ table := AList.lookup_isSome.mp (by simp [hlookup])
    split <;> rename_i hlen
    · rw [staleCount, countP_purge]
      omega
    · refine (countP_le _ _).trans ?_
      rw [length_insert_of_mem _ hmem]
      exact not_lt.mp hlen

/-- **One call**: behind it at most 10000 entries are old exactly if it reaches the cleanup,
or few other addresses have gone quiet. -/
theorem Recalls.bounded_iff (h : Recalls p) (c : Call F) : Bounded p.1 c ↔ FewQuiet p c := by
  rw [Bounded, FewQuiet]
  by_cases hclock : p.1.clock ≤ c.now
  swap
  · exact iff_of_true (fun st' hst' => absurd hst' (by simp [Responder.step, hclock]))
      fun hle => absurd hle hclock
  have hiff : (∀ st', Responder.step p.1 c = some st' → staleCount st'.table c.now ≤ 10000) ↔
      staleCount (shouldRespond p.1.table c).2 c.now ≤ 10000 := by
    simp only [Responder.step, if_pos hclock, Option.some.injEq, forall_eq']
  rw [hiff]
  simp only [hclock, true_imp_iff]
  cases hcleans : cleans p.1.table c with
  | true => exact iff_of_true (staleCount_of_cleans hcleans) (Or.inl rfl)
  | false => simp [h.staleCount_of_early hclock hcleans]

/-! ### Runs -/

/-- A call that is made keeps the record in step. -/
theorem recalls_of_recording {p q : State F × Calls F} {c : Call F} (h : Recalls p)
    (hstep : recording Responder.step note p c = some q) : Recalls q := by
  obtain ⟨st, hst, rfl⟩ := Option.map_eq_some_iff.mp hstep
  rw [Responder.step] at hst
  split at hst
  · rename_i hclock
    obtain rfl := Option.some.inj hst
    exact h.step hclock
  · exact nomatch hst

/-- **The table is bounded along a run exactly if few addresses go quiet before every call
that returns early.** -/
theorem memory_bounded_iff (clock : F) (calls : List (Call F)) :
    Meets Responder.step Bounded ⟨∅, clock⟩ calls ↔
      Meets (recording Responder.step note) FewQuiet (⟨∅, clock⟩, Calls.none) calls := by
  rw [← meets_recording note Calls.none]
  constructor
  · exact Meets.imp (I := fun p : State F × Calls F => Recalls p)
      (fun h _ hstep => recalls_of_recording h hstep) (fun h hok => (h.bounded_iff _).mp hok)
      (recalls_start clock)
  · exact Meets.imp (I := fun p : State F × Calls F => Recalls p)
      (fun h _ hstep => recalls_of_recording h hstep) (fun h hok => (h.bounded_iff _).mpr hok)
      (recalls_start clock)

end Recalls

/-! ### A flood -/

/-- A call with the default arguments. -/
def call (ip : List Char) (now : ℚ) : Call ℚ := ⟨ip, now, defaultMaxRate, 80⟩

/-- The addresses of `10.0.0.0/16`. -/
def host (n : ℕ) : List Char :=
  ['1', '0', '.', '0', '.'] ++ (Nat.toDigits 10 (n / 256) ++ '.' :: Nat.toDigits 10 (n % 256))

/-- They are different. -/
theorem host_injective : Function.Injective host := by
  intro m n h
  have hdot : ∀ k, '.' ∉ Nat.toDigits 10 k := fun k hmem =>
    absurd (Nat.isDigit_of_mem_toDigits (by omega) le_rfl hmem) (by decide)
  have hdigits : ∀ {j k}, Nat.toDigits 10 j = Nat.toDigits 10 k → j = k := by
    intro j k hjk
    rw [← Nat.ofDigitChars_ten_toDigits (n := j), hjk, Nat.ofDigitChars_ten_toDigits]
  have hrest := List.append_cancel_left h
  rw [List.append_cons_inj_of_notMem (hdot _) (hdot _)] at hrest
  have hdiv := hdigits hrest.1
  have hmod := hdigits hrest.2.2
  rw [← Nat.div_add_mod m 256, ← Nat.div_add_mod n 256, hdiv, hmod]

/-- The table after calls for new addresses at one time: one entry more for each. -/
theorem staleCount_of_flood {t now : ℚ} (hold : now - t > windowDurationSec)
    {ips : List (List Char)} (hnodup : ips.Nodup) {table : Table ℚ}
    (hnew : ∀ ip ∈ ips, ip ∉ table) :
    ∃ table', runs step ⟨table, t⟩ (ips.map fun ip => call ip t) = some ⟨table', t⟩ ∧
      staleCount table' now = staleCount table now + ips.length ∧
        ∀ ip ∈ table', ip ∈ table ∨ ip ∈ ips := by
  induction ips generalizing table with
  | nil => exact ⟨table, rfl, rfl, fun ip hip => Or.inl hip⟩
  | cons ip ips ih =>
    rw [List.nodup_cons] at hnodup
    have hip : ip ∉ table := hnew ip (by simp)
    obtain ⟨entry, hentry⟩ : ∃ entry : RateLimitEntry ℚ,
        entry = ⟨bucketCapacity - literal 1, t, 1, 80, t⟩ := ⟨_, rfl⟩
    have hstale : entry.stale now = true := by
      rw [RateLimitEntry.stale, hentry, old, decide_eq_true_eq]
      exact hold
    -- a new address returns before the cleanup, with an entry that is old by `now`
    have hstep : step ⟨table, t⟩ (call ip t) = some ⟨table.insert ip entry, t⟩ := by
      rw [hentry]
      refine (if_pos (show t ≤ t from le_rfl)).trans ?_
      simp only [shouldRespond, call, AList.lookup_eq_none.mpr hip]
    have hnew' : ∀ ip' ∈ ips, ip' ∉ table.insert ip entry := by
      intro ip' hip'
      rw [AList.mem_insert]
      rintro (rfl | hin)
      · exact hnodup.1 hip'
      · exact hnew ip' (by simp [hip']) hin
    obtain ⟨table', hrun, hcount, hmem⟩ := ih hnodup.2 hnew'
    refine ⟨table', ?_, ?_, fun ip' hip' => ?_⟩
    · rw [List.map_cons, runs_cons, hstep, Option.bind_some, hrun]
    · rw [hcount, staleCount, countP_insert, hstale, if_pos rfl, countP_erase_of_notMem hip,
        staleCount, List.length_cons]
      omega
    · rcases hmem ip' hip' with hin | hin
      · rw [AList.mem_insert] at hin
        rcases hin with rfl | hin
        · exact Or.inr (by simp)
        · exact Or.inl hin
      · exact Or.inr (by simp [hin])

/-- A call for a new address makes no entry old. -/
theorem staleCount_of_unknown {table : Table ℚ} {ip : List Char} {now : ℚ}
    (hlookup : table.lookup ip = none) :
    staleCount (shouldRespond table (call ip now)).2 now = staleCount table now := by
  have hself : now ≤ now := le_rfl
  have hfresh : RateLimitEntry.stale
      ⟨bucketCapacity - literal 1, now, 1, (call ip now).estimatedBytes, now⟩ now = false :=
    stale_of_fresh ⟨⟨hself, hself⟩, hself⟩
  have hnew : ip ∉ table := AList.lookup_eq_none.mp hlookup
  rw [shouldRespond, show table.lookup (call ip now).ip = none from hlookup]
  dsimp only [call] at hfresh ⊢
  rw [staleCount, countP_insert, hfresh, countP_erase_of_notMem hnew]
  rfl

/-- **10001 addresses, and a minute later one more**: nothing was dropped. -/
theorem memory_not_bounded : ¬∀ calls : List (Call ℚ), Meets step Bounded ⟨∅, 0⟩ calls := by
  intro h
  obtain ⟨ips, hips⟩ : ∃ ips, ips = (List.range 10001).map host := ⟨_, rfl⟩
  have hnodup : ips.Nodup := by
    rw [hips]
    exact List.nodup_range.map host_injective
  have hlen : ips.length = 10001 := by rw [hips, List.length_map, List.length_range]
  obtain ⟨table, hrun, hcount, hmem⟩ := staleCount_of_flood
    (show (60 : ℚ) < 61 - 0 by norm_num) hnodup
    (show ∀ ip ∈ ips, ip ∉ (∅ : Table ℚ) from fun ip _ => AList.notMem_empty ip)
  have hbounded := (h (ips.map (fun ip => call ip 0) ++ [call (host 10001) 61])).of_append hrun
  have hnew : table.lookup (host 10001) = none := by
    rw [AList.lookup_eq_none]
    intro hin
    rcases hmem _ hin with hin | hin
    · exact AList.notMem_empty _ hin
    · rw [hips, List.mem_map] at hin
      obtain ⟨n, hn, heq⟩ := hin
      have := host_injective heq
      rw [List.mem_range] at hn
      omega
  have hle : staleCount (shouldRespond table (call (host 10001) 61)).2 61 ≤ 10000 :=
    hbounded.1 _ (if_pos (show (0 : ℚ) ≤ 61 by norm_num))
  have hzero : staleCount (∅ : Table ℚ) 61 = 0 := rfl
  rw [staleCount_of_unknown hnew] at hle
  omega

end Responder

end Aegs
