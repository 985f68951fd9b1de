import Mathlib.Data.List.GetD
import Mathlib.Data.Nat.Bitwise
import Aegs.Tunnel.Packet

/-!
# What the filter of the tunnel remembers

`AntiReplayFilter` of `aegs_server.py` moves its marks a byte at a time and then some bits
further. The bits that leave a byte are handed to the byte in front of it, where they stand
for numbers that are newer by up to two bytes, and not to the byte behind it: a mark
survives an advance only within its byte. `Aegs.Tunnel.kept` says which numbers that leaves,
and `Aegs.Tunnel.Remembers` that the filter turns these down.
-/

namespace Aegs

namespace Tunnel

/-! ### Marks -/

theorem oneShiftLeft_toNat (diff : ℕ) :
    ((1 : UInt8) <<< UInt8.ofNat (diff % 8)).toNat = 2 ^ (diff % 8) := by
  have hmod : diff % 8 < 8 := Nat.mod_lt _ (by decide)
  have hpow : 2 ^ (diff % 8) < 2 ^ 8 := Nat.pow_lt_pow_right (by decide) hmod
  rw [UInt8.toNat_shiftLeft, UInt8.toNat_ofNat', Nat.mod_eq_of_lt (a := diff % 8) (by omega),
    Nat.mod_eq_of_lt hmod, show (1 : UInt8).toNat = 1 from rfl, Nat.shiftLeft_eq, Nat.one_mul,
    Nat.mod_eq_of_lt hpow]

/-- The test for a mark reads one bit. -/
theorem marked_iff (window : List UInt8) (diff : ℕ) :
    marked window diff = true ↔ (window.getD (diff / 8) 0).toNat.testBit (diff % 8) = true := by
  rw [marked, decide_eq_true_iff, ne_eq, ← UInt8.toNat_inj, UInt8.toNat_and, oneShiftLeft_toNat,
    Nat.and_two_pow]
  cases (window.getD (diff / 8) 0).toNat.testBit (diff % 8) with
  | false => simp
  | true => simp

/-- A mark made is there. -/
theorem marked_mark {window : List UInt8} {diff : ℕ} (hdiff : diff / 8 < window.length) :
    marked (mark window diff) diff = true := by
  have hpow : 2 ^ (diff % 8) < 2 ^ 8 :=
    Nat.pow_lt_pow_right (by decide) (Nat.mod_lt _ (by decide))
  rw [marked_iff, mark, List.getD_eq_getElem _ _ (by rwa [List.length_modify]),
    List.getElem_modify_eq, UInt8.toNat_or, Nat.testBit_or, oneShiftLeft_toNat,
    Nat.testBit_two_pow_self, Bool.or_true]

/-- And the others are still there. -/
theorem marked_mark_of_marked {window : List UInt8} {diff : ℕ} (other : ℕ)
    (h : marked window diff = true) : marked (mark window other) diff = true := by
  rw [marked_iff] at h ⊢
  by_cases hlen : diff / 8 < window.length
  · rw [List.getD_eq_getElem _ _ hlen] at h
    rw [mark, List.getD_eq_getElem _ _ (by rwa [List.length_modify]), List.getElem_modify]
    split
    · rw [UInt8.toNat_or, Nat.testBit_or, h, Bool.true_or]
    · exact h
  · rw [List.getD_eq_default _ _ (Nat.not_lt.mp hlen)] at h
    exact absurd h (by simp)

/-! ### An advance -/

theorem length_shiftBits (bitsShift : ℕ) (window : List UInt8) :
    (shiftBits bitsShift window).1.length = window.length := by
  induction window with
  | nil => rfl
  | cons b bytes ih => exact congrArg (· + 1) ih

/-- Each byte is moved within itself, and something comes in from the byte behind it. -/
theorem getD_shiftBits (bitsShift : ℕ) (window : List UInt8) {i : ℕ}
    (hi : i < window.length) :
    ∃ carry, (shiftBits bitsShift window).1.getD i 0 =
      (window.getD i 0 <<< UInt8.ofNat bitsShift) ||| carry := by
  induction window generalizing i with
  | nil => exact absurd hi (Nat.not_lt_zero i)
  | cons b bytes ih =>
    cases i with
    | zero => exact ⟨_, rfl⟩
    | succ i => exact ih (Nat.lt_of_succ_lt_succ hi)

/-- A mark that stays within its byte. -/
theorem marked_shiftBits {window : List UInt8} {diff bitsShift : ℕ}
    (hroom : diff % 8 + bitsShift < 8) (h : marked window diff = true) :
    marked (shiftBits bitsShift window).1 (diff + bitsShift) = true := by
  have hdiv : (diff + bitsShift) / 8 = diff / 8 := by omega
  have hmod : (diff + bitsShift) % 8 = diff % 8 + bitsShift := by omega
  rw [marked_iff] at h ⊢
  by_cases hlen : diff / 8 < window.length
  · obtain ⟨carry, hbyte⟩ := getD_shiftBits bitsShift window hlen
    rw [hdiv, hmod, hbyte, UInt8.toNat_or, Nat.testBit_or, UInt8.toNat_shiftLeft,
      UInt8.toNat_ofNat', Nat.testBit_mod_two_pow, Nat.mod_eq_of_lt (a := bitsShift) (by omega),
      Nat.mod_eq_of_lt (a := bitsShift) (by omega),
      Nat.testBit_shiftLeft, Nat.add_sub_cancel, h]
    simp [hroom]
  · rw [List.getD_eq_default _ _ (Nat.not_lt.mp hlen)] at h
    exact absurd h (by simp)

/-- The bytes of a window that moves a byte at a time. -/
def moveBytes (window : List UInt8) (bytesShift : ℕ) : List UInt8 :=
  if 0 < bytesShift then
    List.replicate bytesShift 0 ++ window.take (window.length - bytesShift)
  else window

theorem length_moveBytes {window : List UInt8} {bytesShift : ℕ}
    (h : bytesShift ≤ window.length) : (moveBytes window bytesShift).length = window.length := by
  rw [moveBytes]
  split
  · rw [List.length_append, List.length_replicate, List.length_take]
    omega
  · rfl

/-- A mark moves with its byte, unless it leaves the window. -/
theorem marked_moveBytes {window : List UInt8} {diff bytesShift : ℕ}
    (hlen : diff / 8 + bytesShift < window.length) (h : marked window diff = true) :
    marked (moveBytes window bytesShift) (diff + 8 * bytesShift) = true := by
  rw [moveBytes]
  split
  · rw [marked_iff] at h ⊢
    rw [Nat.add_mul_div_left _ _ (by decide), Nat.add_mul_mod_self_left,
      List.getD_append_right _ _ _ _ (by simp), List.length_replicate, Nat.add_sub_cancel]
    rw [List.getD_eq_getElem _ _ (by omega)] at h
    rw [List.getD_eq_getElem _ _ (by rw [List.length_take]; omega), List.getElem_take]
    exact h
  · rw [show bytesShift = 0 by omega]
    exact h

theorem advanceWindow_of_lt {window : List UInt8} {diff : ℕ} (hdiff : diff < windowSize) :
    advanceWindow window diff =
      if 0 < diff % 8 then (shiftBits (diff % 8) (moveBytes window (diff / 8))).1
      else moveBytes window (diff / 8) :=
  if_neg (Nat.not_le.mpr hdiff)

theorem length_advanceWindow {window : List UInt8} (hlen : window.length = windowSize / 8)
    (diff : ℕ) : (advanceWindow window diff).length = windowSize / 8 := by
  rcases Nat.lt_or_ge diff windowSize with hdiff | hdiff
  · have hmove : diff / 8 ≤ window.length := by
      rw [hlen]
      exact Nat.div_le_div_right hdiff.le
    rw [advanceWindow_of_lt hdiff]
    split
    · rw [length_shiftBits, length_moveBytes hmove, hlen]
    · rw [length_moveBytes hmove, hlen]
  · rw [advanceWindow, if_pos hdiff, List.length_replicate]

/-- **A mark that an advance leaves**: it stays in the window, and its bits have room in the
byte. -/
theorem marked_advanceWindow {window : List UInt8} (hlen : window.length = windowSize / 8)
    {diff age : ℕ} (hroom : age % 8 + diff % 8 < 8) (hsize : age + diff < windowSize)
    (h : marked window age = true) : marked (advanceWindow window diff) (age + diff) = true := by
  have hmove : marked (moveBytes window (diff / 8)) (age + 8 * (diff / 8)) = true := by
    refine marked_moveBytes ?_ h
    rw [hlen]
    simp only [windowSize] at hsize ⊢
    omega
  rw [advanceWindow_of_lt (by omega)]
  split
  · rw [show age + diff = age + 8 * (diff / 8) + diff % 8 by omega]
    exact marked_shiftBits (by omega) hmove
  · rw [show age + diff = age + 8 * (diff / 8) by omega]
    exact hmove

/-! ### The numbers that are left -/

/-- Of numbers that a filter has accepted, those whose marks are where they belong when it
has become another: none behind a new filter, and behind an advance those whose bits had
room in their byte. -/
def kept (f f' : AntiReplayFilter) (numbers : List ℕ) : List ℕ :=
  if f' = .new then []
  else numbers.filter fun n => (f.maxSeq - n) % 8 + (f'.maxSeq - f.maxSeq) % 8 < 8

theorem kept_subset (f f' : AntiReplayFilter) (numbers : List ℕ) :
    kept f f' numbers ⊆ numbers := by
  rw [kept]
  split
  · exact List.nil_subset _
  · exact List.filter_subset_self numbers

theorem mem_kept {f f' : AntiReplayFilter} {numbers : List ℕ} {n : ℕ}
    (h : n ∈ kept f f' numbers) :
    n ∈ numbers ∧ (f.maxSeq - n) % 8 + (f'.maxSeq - f.maxSeq) % 8 < 8 := by
  rw [kept] at h
  split at h
  · exact absurd h List.not_mem_nil
  · exact ⟨List.mem_of_mem_filter h, of_decide_eq_true (List.mem_filter.mp h).2⟩

/-- A filter turns down each of these numbers: it is marked, or too old. -/
structure Remembers (f : AntiReplayFilter) (numbers : List ℕ) : Prop where
  /-- The size of the window. -/
  length_window : f.window.length = windowSize / 8
  /-- No number is zero. -/
  pos : ∀ n ∈ numbers, 0 < n
  /-- None is ahead of the filter. -/
  le_maxSeq : ∀ n ∈ numbers, n ≤ f.maxSeq
  /-- Those in the window are marked. -/
  marked : ∀ n ∈ numbers, f.maxSeq - n < windowSize → marked f.window (f.maxSeq - n) = true

theorem remembers_new : Remembers .new [] where
  length_window := List.length_replicate
  pos := fun _ hmem => nomatch hmem
  le_maxSeq := fun _ hmem => nomatch hmem
  marked := fun _ hmem => nomatch hmem

theorem Remembers.mono {f : AntiReplayFilter} {numbers fewer : List ℕ} (h : Remembers f numbers)
    (hsub : fewer ⊆ numbers) : Remembers f fewer where
  length_window := h.length_window
  pos := fun n hmem => h.pos n (hsub hmem)
  le_maxSeq := fun n hmem => h.le_maxSeq n (hsub hmem)
  marked := fun n hmem => h.marked n (hsub hmem)

/-- Numbers that it remembers are turned down, and old ones. -/
theorem Remembers.turnsDown {f : AntiReplayFilter} {numbers : List ℕ} (h : Remembers f numbers)
    {n : ℕ} (hn : n ∈ numbers ∨ n + windowSize ≤ f.maxSeq) : (f.checkAndUpdate n).1 = true := by
  have hle : n ≤ f.maxSeq := by
    rcases hn with hmem | hold
    · exact h.le_maxSeq n hmem
    · exact le_of_add_le_left hold
  rw [AntiReplayFilter.checkAndUpdate]
  split
  · rfl
  · rw [if_neg (Nat.not_lt.mpr hle)]
    simp only
    split
    · rfl
    · rename_i hrecent
      rcases hn with hmem | hold
      · rw [if_pos (h.marked n hmem (Nat.not_le.mp hrecent))]
      · exact absurd (Nat.le_sub_of_add_le' hold) hrecent

/-- **What the filter remembers behind a number**: what `Aegs.Tunnel.kept` leaves, and the
number, if it is accepted. -/
theorem Remembers.checkAndUpdate {f : AntiReplayFilter} {numbers : List ℕ}
    (h : Remembers f numbers) (seq : ℕ) :
    Remembers (f.checkAndUpdate seq).2 (kept f (f.checkAndUpdate seq).2 numbers) ∧
      ((f.checkAndUpdate seq).1 = false →
        Remembers (f.checkAndUpdate seq).2 (seq :: kept f (f.checkAndUpdate seq).2 numbers)) := by
  have hsame : Remembers f (kept f f numbers) := h.mono (kept_subset f f numbers)
  rw [AntiReplayFilter.checkAndUpdate]
  split
  · exact ⟨hsame, fun hturned => nomatch hturned⟩
  rename_i hzero
  split
  · -- an advance: the new number is the first of the window
    rename_i hahead
    have hlen := length_advanceWindow h.length_window (seq - f.maxSeq)
    have hboth : Remembers ⟨seq, mark (advanceWindow f.window (seq - f.maxSeq)) 0⟩
        (seq :: kept f ⟨seq, mark (advanceWindow f.window (seq - f.maxSeq)) 0⟩ numbers) := by
      refine ⟨?_, ?_, ?_, ?_⟩
      · rw [mark, List.length_modify, hlen]
      · refine List.forall_mem_cons.mpr ⟨Nat.pos_of_ne_zero hzero, fun n hmem => ?_⟩
        exact h.pos n (mem_kept hmem).1
      · refine List.forall_mem_cons.mpr ⟨le_rfl, fun n hmem => ?_⟩
        exact (h.le_maxSeq n (mem_kept hmem).1).trans hahead.le
      · refine List.forall_mem_cons.mpr ⟨fun _ => ?_, fun n hmem hsize => ?_⟩
        · rw [Nat.sub_self]
          exact marked_mark (by rw [hlen]; decide)
        · obtain ⟨hnumber, hroom⟩ := mem_kept hmem
          have hle := h.le_maxSeq n hnumber
          simp only at hroom hsize ⊢
          rw [show seq - n = f.maxSeq - n + (seq - f.maxSeq) by omega] at hsize ⊢
          refine marked_mark_of_marked 0 (marked_advanceWindow h.length_window hroom hsize ?_)
          exact h.marked n hnumber (by omega)
    exact ⟨hboth.mono (List.subset_cons_self _ _), fun _ => hboth⟩
  rename_i hbehind
  simp only
  split
  · exact ⟨hsame, fun hturned => nomatch hturned⟩
  rename_i hrecent
  split
  · exact ⟨hsame, fun hturned => nomatch hturned⟩
  · -- a number within the window
    have hindex : (f.maxSeq - seq) / 8 < f.window.length := by
      rw [h.length_window]
      simp only [windowSize] at hrecent ⊢
      omega
    have hboth : Remembers { f with window := mark f.window (f.maxSeq - seq) }
        (seq :: kept f { f with window := mark f.window (f.maxSeq - seq) } numbers) := by
      refine ⟨?_, ?_, ?_, ?_⟩
      · rw [mark, List.length_modify, h.length_window]
      · refine List.forall_mem_cons.mpr ⟨Nat.pos_of_ne_zero hzero, fun n hmem => ?_⟩
        exact h.pos n (mem_kept hmem).1
      · refine List.forall_mem_cons.mpr ⟨Nat.not_lt.mp hbehind, fun n hmem => ?_⟩
        exact h.le_maxSeq n (mem_kept hmem).1
      · refine List.forall_mem_cons.mpr ⟨fun _ => marked_mark hindex, fun n hmem hsize => ?_⟩
        exact marked_mark_of_marked _ (h.marked n (mem_kept hmem).1 hsize)
    exact ⟨hboth.mono (List.subset_cons_self _ _), fun _ => hboth⟩

end Tunnel

end Aegs
