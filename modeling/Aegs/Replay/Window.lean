import Mathlib.Data.Nat.ModEq
import Aegs.Replay.Filter

/-!
# The bitmap filter refines the sliding window

The invariant of the ring, and the two facts it gives: a call of
`Aegs.AntiReplayFilterT.checkAndUpdate` answers as the abstract window of
`SlidingWindow` does, and a commit marks exactly its own number.

With more than one word, the bit of a number `n` is bit `n % 64` of slot
`n / 64 % W`, and a slot is shared by all the word numbers of one residue. What
makes the reading unambiguous is that only the last `W` word numbers are ever
read: `Aegs.AntiReplayFilterT.Represents` says what a bit stands for on those and
nothing about the rest, and the words entering that range are the ones the
clearing loop has just emptied. With a single word there is no sharing, the bit
`d` is the number `d` below the highest.
-/

namespace Aegs

namespace AntiReplayFilterT

open SlidingWindow

/-! ### Bits of a word -/

/-- Bit `j` of a word. -/
def hasBit (v : UInt64) (j : ℕ) : Bool := v.toBitVec.getLsbD j

@[simp] theorem hasBit_zero (j : ℕ) : hasBit 0 j = false := by
  simp [hasBit]

theorem one_shiftLeft_toBitVec (s : UInt64) :
    ((1 : UInt64) <<< s).toBitVec = BitVec.twoPow 64 (s.toNat % 64) := by
  rw [UInt64.toBitVec_shiftLeft, BitVec.twoPow_eq]
  rfl

theorem hasBit_or_one_shiftLeft (v s : UInt64) (j : ℕ) :
    hasBit (v ||| (1 <<< s)) j = (hasBit v j || decide (j = s.toNat % 64)) := by
  have hlt : s.toNat % 64 < 64 := Nat.mod_lt _ (by decide)
  simp only [hasBit, UInt64.toBitVec_or, BitVec.getLsbD_or, one_shiftLeft_toBitVec,
    BitVec.getLsbD_twoPow, hlt, decide_true, Bool.true_and, eq_comm]

/-- The test `bitmap & (1ULL << s)` reads one bit. -/
theorem and_one_shiftLeft_ne_zero (v s : UInt64) :
    v &&& (1 <<< s) ≠ 0 ↔ hasBit v (s.toNat % 64) = true := by
  have hlt : s.toNat % 64 < 64 := Nat.mod_lt _ (by decide)
  rw [ne_eq, ← UInt64.toBitVec_inj, UInt64.toBitVec_and, one_shiftLeft_toBitVec, hasBit]
  constructor
  · intro h
    by_contra hbit
    refine h (BitVec.eq_of_getLsbD_eq fun j hj => ?_)
    rw [BitVec.getLsbD_and, BitVec.getLsbD_twoPow]
    by_cases hj' : s.toNat % 64 = j
    · subst hj'
      simp [Bool.not_eq_true _ ▸ hbit]
    · simp [hj']
  · intro h hz
    have hbit := congrArg (fun b : BitVec 64 => b.getLsbD (s.toNat % 64)) hz
    simp only [BitVec.getLsbD_and, BitVec.getLsbD_twoPow, h, hlt, decide_true,
      Bool.and_self] at hbit
    simp at hbit

/-- The one-word slide: old bits move up by the distance, the new number is bit `0`. -/
theorem hasBit_slide (v d : UInt64) (hd : d.toNat < 64) {j : ℕ} (hj : j < 64) :
    hasBit ((v <<< d) ||| 1) j =
      (decide (j = 0) || (decide (d.toNat ≤ j) && hasBit v (j - d.toNat))) := by
  have hone : (1 : UInt64).toBitVec.getLsbD j = decide (j = 0) := by
    simp [BitVec.getLsbD_one]
  have hsh : (d.toBitVec % 64).toNat = d.toNat := by
    rw [BitVec.toNat_umod]
    exact Nat.mod_eq_of_lt hd
  simp only [hasBit, UInt64.toBitVec_or, BitVec.getLsbD_or, hone, UInt64.toBitVec_shiftLeft,
    BitVec.shiftLeft_eq', hsh, BitVec.getLsbD_shiftLeft, hj, decide_true, Bool.true_and]
  rw [Bool.or_comm]
  by_cases hle : d.toNat ≤ j
  · simp [hle, Nat.not_lt.mpr hle]
  · simp [hle, Nat.lt_of_not_le hle]

/-! ### Words of the ring -/

variable {W : ℕ}

theorem word_setWord (b : Vector UInt64 W) {i j : ℕ} (v : UInt64) (hj : j < W) :
    word (setWord b i v) j = if i = j then v else word b j := by
  rw [word, word, setWord, Vector.getElem?_eq_getElem hj, Vector.getElem?_eq_getElem hj,
    Vector.getElem_setIfInBounds]
  split <;> rfl

@[simp] theorem word_replicate_zero (i : ℕ) : word (Vector.replicate W (0 : UInt64)) i = 0 := by
  by_cases hi : i < W <;> simp [word, hi]

theorem slot_eq_mod [BitmapWords W] (w : ℕ) : slot W w = w % W := by
  obtain ⟨k, rfl⟩ := BitmapWords.exists_pow W
  exact Nat.and_two_pow_sub_one_eq_mod w k

/-- The clearing loop empties the slots of the word numbers it walks, and leaves
the others alone. -/
theorem word_clearWords [BitmapWords W] (b : Vector UInt64 W) (l c : ℕ) {i : ℕ} (hi : i < W) :
    word (clearWords b l c) i =
      if i ∈ (List.range' (l + 1) (c - l)).map (· % W) then 0 else word b i := by
  rw [clearWords]
  generalize List.range' (l + 1) (c - l) = ws
  induction ws generalizing b with
  | nil => simp
  | cons w ws ih =>
    rw [List.foldl_cons, ih, word_setWord _ _ hi, slot_eq_mod, List.map_cons]
    by_cases hw : w % W = i
    · rw [if_pos hw, if_pos (List.mem_cons.mpr (Or.inl hw.symm)), ite_self]
    · rw [if_neg hw]
      exact if_congr (by simp [Ne.symm hw]) rfl rfl

/-- A slot no walked word number falls on keeps its word. -/
theorem word_clearWords_of_notMem [BitmapWords W] (b : Vector UInt64 W) {l c w : ℕ}
    (h : ∀ w', l < w' → w' ≤ c → w' % W ≠ w % W) :
    word (clearWords b l c) (w % W) = word b (w % W) := by
  rw [word_clearWords b l c (Nat.mod_lt _ BitmapWords.pos), if_neg]
  simp only [List.mem_map, List.mem_range'_1, not_exists, not_and]
  intro w' hw'
  exact h w' (by omega) (by omega)

/-- The slot of a walked word number is empty. -/
theorem word_clearWords_of_mem [BitmapWords W] (b : Vector UInt64 W) {l c w : ℕ}
    (h1 : l < w) (h2 : w ≤ c) : word (clearWords b l c) (w % W) = 0 := by
  rw [word_clearWords b l c (Nat.mod_lt _ BitmapWords.pos), if_pos]
  exact List.mem_map.mpr ⟨w, List.mem_range'_1.mpr ⟨by omega, by omega⟩, rfl⟩

/-! ### The branches of the code, in natural numbers -/

theorem shiftRight_six_toNat (s : UInt64) : (s >>> 6).toNat = s.toNat / 64 := by
  rw [UInt64.toNat_shiftRight, Nat.shiftRight_eq_div_pow]
  rfl

theorem and_sixtyThree_toNat (s : UInt64) : (s &&& 63).toNat % 64 = s.toNat % 64 := by
  have h : (s &&& 63).toNat = s.toNat % 64 := by
    rw [UInt64.toNat_and]
    exact Nat.and_two_pow_sub_one_eq_mod s.toNat 6
  rw [h, Nat.mod_mod]

theorem shiftRight_six_sub_toNat {s t : UInt64} (h : t.toNat ≤ s.toNat) :
    ((s >>> 6) - (t >>> 6)).toNat = s.toNat / 64 - t.toNat / 64 := by
  rw [UInt64.toNat_sub_of_le, shiftRight_six_toNat, shiftRight_six_toNat]
  rw [UInt64.le_iff_toNat_le, shiftRight_six_toNat, shiftRight_six_toNat]
  exact Nat.div_le_div_right h

/-- `check_peek` with one word: the bit of a number is its distance below the
highest. -/
theorem checkPeek_one (hW : W = 1) (f : AntiReplayFilterT W) (seq : UInt64) :
    f.checkPeek seq = false ↔ seq.toNat ≠ 0 ∧ (f.lastSeq.toNat < seq.toNat ∨
      (f.lastSeq.toNat - seq.toNat < 64 ∧
        hasBit (word f.bitmap 0) (f.lastSeq.toNat - seq.toNat) = false)) := by
  rw [checkPeek, if_pos hW]
  by_cases h0 : seq = 0
  · simp [h0]
  have h0' : seq.toNat ≠ 0 := fun hc => h0 (UInt64.toNat_inj.mp hc)
  rw [if_neg h0]
  by_cases hgt : seq > f.lastSeq
  · have hgt' : f.lastSeq.toNat < seq.toNat := UInt64.lt_iff_toNat_lt.mp hgt
    simp [hgt, h0', hgt']
  have hle : seq.toNat ≤ f.lastSeq.toNat := Nat.le_of_not_lt fun hc =>
    hgt (UInt64.lt_iff_toNat_lt.mpr hc)
  have hdiff : (f.lastSeq - seq).toNat = f.lastSeq.toNat - seq.toNat :=
    UInt64.toNat_sub_of_le _ _ (UInt64.le_iff_toNat_le.mpr hle)
  have hge : f.lastSeq - seq ≥ 64 ↔ 64 ≤ f.lastSeq.toNat - seq.toNat := by
    rw [ge_iff_le, UInt64.le_iff_toNat_le, hdiff]
    rfl
  rw [if_neg hgt]
  simp only [hge]
  by_cases hold : 64 ≤ f.lastSeq.toNat - seq.toNat
  · rw [if_pos hold]
    constructor
    · simp
    · rintro ⟨-, hlt | ⟨hlt, -⟩⟩ <;> omega
  have hmod : (f.lastSeq.toNat - seq.toNat) % 64 = f.lastSeq.toNat - seq.toNat :=
    Nat.mod_eq_of_lt (by omega)
  rw [if_neg hold]
  simp only [and_one_shiftLeft_ne_zero, hdiff, hmod]
  cases hasBit (word f.bitmap 0) (f.lastSeq.toNat - seq.toNat) <;> simp [h0'] <;> omega

/-- `check_peek` with several words: the slot and the bit of a number are its own,
and the test against `WINDOW_SIZE` never decides alone. -/
theorem checkPeek_ring [BitmapWords W] (hW : W ≠ 1) (f : AntiReplayFilterT W) (seq : UInt64) :
    f.checkPeek seq = false ↔ seq.toNat ≠ 0 ∧ (f.lastSeq.toNat < seq.toNat ∨
      (f.lastSeq.toNat / 64 - seq.toNat / 64 < W ∧
        hasBit (word f.bitmap (seq.toNat / 64 % W)) (seq.toNat % 64) = false)) := by
  rw [checkPeek, if_neg hW]
  by_cases h0 : seq = 0
  · simp [h0]
  have h0' : seq.toNat ≠ 0 := fun hc => h0 (UInt64.toNat_inj.mp hc)
  rw [if_neg h0]
  by_cases hgt : seq > f.lastSeq
  · have hgt' : f.lastSeq.toNat < seq.toNat := UInt64.lt_iff_toNat_lt.mp hgt
    simp [hgt, h0', hgt']
  have hle : seq.toNat ≤ f.lastSeq.toNat := Nat.le_of_not_lt fun hc =>
    hgt (UInt64.lt_iff_toNat_lt.mpr hc)
  have hdiff : (f.lastSeq - seq).toNat = f.lastSeq.toNat - seq.toNat :=
    UInt64.toNat_sub_of_le _ _ (UInt64.le_iff_toNat_le.mpr hle)
  rw [if_neg hgt]
  simp only [hdiff, shiftRight_six_sub_toNat hle, windowSize, ge_iff_le]
  by_cases hold : W ≤ f.lastSeq.toNat / 64 - seq.toNat / 64
  · rw [if_pos (Or.inr hold)]
    constructor
    · simp
    · rintro ⟨-, hlt | ⟨hlt, -⟩⟩ <;> omega
  have hin : ¬(W * 64 ≤ f.lastSeq.toNat - seq.toNat ∨
      W ≤ f.lastSeq.toNat / 64 - seq.toNat / 64) := by omega
  rw [if_neg hin]
  simp only [and_one_shiftLeft_ne_zero, and_sixtyThree_toNat, shiftRight_six_toNat, slot_eq_mod]
  cases hasBit (word f.bitmap (seq.toNat / 64 % W)) (seq.toNat % 64) <;> simp [h0'] <;> omega

/-! ### What the bits stand for -/

/-- **Inside the window**, as the code measures it: in numbers with one word, in
word numbers with more. -/
def near (W M n : ℕ) : Prop := if W = 1 then M - n < 64 else (M >>> 6) - (n >>> 6) < W

theorem near_one {W M n : ℕ} (hW : W = 1) : near W M n ↔ M - n < 64 := by
  rw [near, if_pos hW]

theorem near_ring {W M n : ℕ} (hW : W ≠ 1) : near W M n ↔ M / 64 - n / 64 < W := by
  rw [near, if_neg hW, Nat.shiftRight_eq_div_pow, Nat.shiftRight_eq_div_pow]

theorem movesForward_near (W : ℕ) : MovesForward (near W) := by
  intro M M' n hM h
  by_cases hW : W = 1
  · rw [near_one hW] at h ⊢
    omega
  · rw [near_ring hW] at h ⊢
    omega

/-- **The invariant of the filter**: the highest number is the recorded one, and
the bit of every number still inside the window says whether it was accepted. -/
structure Represents (f : AntiReplayFilterT W) (acc : List ℕ) : Prop where
  /-- `last_seq_` is the highest accepted number. -/
  last : f.lastSeq.toNat = highest acc
  /-- With one word, bit `d` stands for the number `d` below the highest. -/
  one : W = 1 → ∀ d < 64,
    (hasBit (word f.bitmap 0) d = true ↔ d ≤ highest acc ∧ highest acc - d ∈ acc)
  /-- With more, the slots of the last `W` word numbers are theirs alone. -/
  ring : W ≠ 1 → ∀ n, n / 64 ≤ highest acc / 64 → highest acc / 64 - n / 64 < W →
    (hasBit (word f.bitmap (n / 64 % W)) (n % 64) = true ↔ n ∈ acc)

theorem represents_reset : Represents (reset : AntiReplayFilterT W) [] where
  last := rfl
  one := fun _ d _ => by simp [reset]
  ring := fun _ n _ _ => by simp [reset]

variable {f : AntiReplayFilterT W} {acc : List ℕ}

/-- **A peek answers as the window does.** -/
theorem Represents.checkPeek [BitmapWords W] (h : Represents f acc) (seq : UInt64) :
    f.checkPeek seq = false ↔ Admits (near W) acc seq.toNat := by
  have hlt_mem : highest acc < seq.toNat → seq.toNat ∉ acc := fun hlt hmem =>
    absurd (le_highest hmem) (Nat.not_le.mpr hlt)
  by_cases hW : W = 1
  · rw [checkPeek_one hW, Admits, h.last, near_one hW]
    rcases Nat.lt_or_ge (highest acc) seq.toNat with hlt | hle
    · simp [hlt, hlt_mem hlt]
    by_cases hin : highest acc - seq.toNat < 64
    · have hbit := h.one hW _ hin
      rw [Nat.sub_sub_self hle] at hbit
      rw [← Bool.not_eq_true, hbit]
      simp [Nat.not_lt.mpr hle, hin]
    · simp [Nat.not_lt.mpr hle, hin]
  · rw [checkPeek_ring hW, Admits, h.last, near_ring hW]
    rcases Nat.lt_or_ge (highest acc) seq.toNat with hlt | hle
    · simp [hlt, hlt_mem hlt]
    by_cases hin : highest acc / 64 - seq.toNat / 64 < W
    · rw [← Bool.not_eq_true, h.ring hW _ (Nat.div_le_div_right hle) hin]
      simp [Nat.not_lt.mpr hle, hin]
    · simp [Nat.not_lt.mpr hle, hin]

/-! ### What a commit marks -/

theorem updateCommit_zero (f : AntiReplayFilterT W) : f.updateCommit 0 = f := by
  rw [updateCommit, if_pos rfl]

/-- Two word numbers less than `W` apart share a slot only when they are equal. -/
theorem eq_of_mod_eq {a c : ℕ} (hle : a ≤ c) (hlt : c - a < W) (h : a % W = c % W) : a = c := by
  have hdvd : W ∣ c - a := (Nat.modEq_iff_dvd' hle).mp h
  have hz := Nat.eq_zero_of_dvd_of_lt hdvd hlt
  omega

/-- **The slide**: after the clearing loop, or after the whole ring is emptied, the
slots of the window of the new number stand for what was accepted before it. -/
theorem Represents.slide [BitmapWords W] (h : Represents f acc) (hW : W ≠ 1) {s : ℕ}
    (hlt : highest acc < s) {n : ℕ} (hn : n / 64 ≤ s / 64) (hin : s / 64 - n / 64 < W) :
    hasBit (word (if s - highest acc ≥ windowSize W then Vector.replicate W 0
      else clearWords f.bitmap (highest acc / 64) (s / 64)) (n / 64 % W)) (n % 64) = true ↔
      n ∈ acc := by
  have hnew : highest acc / 64 < n / 64 → n ∉ acc := by
    intro hc hmem
    exact absurd (Nat.div_le_div_right (le_highest hmem)) (Nat.not_le.mpr hc)
  by_cases hfull : s - highest acc ≥ windowSize W
  · -- a jump of at least the whole window: no old word number is left in it
    rw [if_pos hfull]
    have hold : highest acc / 64 < n / 64 := by
      rw [windowSize] at hfull
      omega
    simp [hnew hold]
  rw [if_neg hfull]
  rcases Nat.lt_or_ge (highest acc / 64) (n / 64) with hold | hold
  · rw [word_clearWords_of_mem _ hold hn]
    simp [hnew hold]
  · -- an old word number: the loop walks none that shares its slot
    rw [word_clearWords_of_notMem]
    · exact h.ring hW n hold (by omega)
    · intro w h1 h2 hc
      exact absurd (eq_of_mod_eq (a := n / 64) (c := w) (by omega) (by omega) hc.symm) (by omega)

/-- Setting the bit of `s` in the ring marks `s` and nothing else of its window. -/
theorem hasBit_mark (b : Vector UInt64 W) {s : UInt64} {n : ℕ} (hW : 0 < W)
    (halone : n / 64 % W = s.toNat / 64 % W → n / 64 = s.toNat / 64) :
    hasBit (word (setWord b (s.toNat / 64 % W)
      (word b (s.toNat / 64 % W) ||| (1 <<< (s &&& 63)))) (n / 64 % W)) (n % 64) = true ↔
      n = s.toNat ∨ hasBit (word b (n / 64 % W)) (n % 64) = true := by
  rw [word_setWord _ _ (Nat.mod_lt _ hW)]
  by_cases hslot : s.toNat / 64 % W = n / 64 % W
  · have hword : n / 64 = s.toNat / 64 := halone hslot.symm
    rw [if_pos hslot, hasBit_or_one_shiftLeft, and_sixtyThree_toNat, hslot, Bool.or_eq_true,
      decide_eq_true_eq, or_comm]
    refine or_congr ⟨fun hc => by omega, fun hc => by rw [hc]⟩ Iff.rfl
  · rw [if_neg hslot]
    refine ⟨Or.inr, fun hc => hc.resolve_left ?_⟩
    rintro rfl
    exact hslot rfl

/-- A commit ahead of the highest number slides the window onto it. -/
theorem Represents.commit_ahead [BitmapWords W] (h : Represents f acc) {seq : UInt64}
    (hlt : highest acc < seq.toNat) : Represents (f.updateCommit seq) (seq.toNat :: acc) := by
  have h0 : seq ≠ 0 := by
    rintro rfl
    exact absurd hlt (Nat.not_lt_zero _)
  have hgt : seq > f.lastSeq := by
    rw [gt_iff_lt, UInt64.lt_iff_toNat_lt, h.last]
    exact hlt
  have hmax : highest (seq.toNat :: acc) = seq.toNat := by
    rw [highest_cons]
    exact max_eq_left hlt.le
  have hdiff : (seq - f.lastSeq).toNat = seq.toNat - highest acc := by
    rw [UInt64.toNat_sub_of_le _ _ (UInt64.le_of_lt hgt), h.last]
  by_cases hW : W = 1
  · refine ⟨?_, fun _ d hd => ?_, fun hc => absurd hW hc⟩
    · rw [hmax, updateCommit, if_neg h0, if_pos hW, if_pos hgt]
    · rw [hmax, updateCommit, if_neg h0, if_pos hW, if_pos hgt, word_setWord _ _ (by omega),
        if_pos rfl]
      have hlt64 : seq - f.lastSeq < 64 ↔ seq.toNat - highest acc < 64 := by
        rw [UInt64.lt_iff_toNat_lt, hdiff]
        rfl
      have hold : ∀ n ∈ acc, n ≤ highest acc := fun n hn => le_highest hn
      by_cases hnear : seq.toNat - highest acc < 64
      · rw [if_pos (hlt64.mpr hnear), hasBit_slide _ _ (hdiff ▸ hnear) hd, hdiff]
        rcases Nat.eq_zero_or_pos d with rfl | hd0
        · simp
        · have hne : seq.toNat - d ≠ seq.toNat := by omega
          have hd0' : d ≠ 0 := by omega
          simp only [hd0', decide_false, Bool.false_or, Bool.and_eq_true, decide_eq_true_eq,
            List.mem_cons, hne, false_or]
          rw [h.one hW _ (by omega)]
          constructor
          · rintro ⟨h1, h2, h3⟩
            refine ⟨by omega, ?_⟩
            have he : seq.toNat - d = highest acc - (d - (seq.toNat - highest acc)) := by omega
            rw [he]
            exact h3
          · rintro ⟨h1, h2⟩
            have hb := hold _ h2
            refine ⟨by omega, by omega, ?_⟩
            have he : highest acc - (d - (seq.toNat - highest acc)) = seq.toNat - d := by omega
            rw [he]
            exact h2
      · rw [if_neg (fun hc => hnear (hlt64.mp hc))]
        have hone : hasBit 1 d = decide (d = 0) := by simp [hasBit, BitVec.getLsbD_one]
        rw [hone, decide_eq_true_eq, List.mem_cons]
        constructor
        · rintro rfl
          exact ⟨Nat.zero_le _, Or.inl (Nat.sub_zero _)⟩
        · rintro ⟨h1, h2 | h2⟩
          · omega
          · have := hold _ h2
            omega
  · refine ⟨?_, fun hc => absurd hc hW, fun _ n hn1 hn2 => ?_⟩
    · rw [hmax, updateCommit, if_neg h0, if_neg hW]
      simp only [if_pos hgt]
    · rw [hmax] at hn1 hn2
      rw [updateCommit, if_neg h0, if_neg hW]
      simp only [if_pos hgt, hdiff, h.last, shiftRight_six_toNat, slot_eq_mod]
      rw [hasBit_mark _ BitmapWords.pos (eq_of_mod_eq hn1 hn2), h.slide hW hlt hn1 hn2,
        List.mem_cons]

/-- A commit inside the window marks its number in place. -/
theorem Represents.commit_behind [BitmapWords W] (h : Represents f acc) {seq : UInt64}
    (h0 : seq ≠ 0) (hle : seq.toNat ≤ highest acc) (hin : near W (highest acc) seq.toNat) :
    Represents (f.updateCommit seq) (seq.toNat :: acc) := by
  have hngt : ¬seq > f.lastSeq := by
    rw [gt_iff_lt, UInt64.lt_iff_toNat_lt, h.last]
    omega
  have hmax : highest (seq.toNat :: acc) = highest acc := by
    rw [highest_cons]
    exact max_eq_right hle
  have hdiff : (f.lastSeq - seq).toNat = highest acc - seq.toNat := by
    rw [UInt64.toNat_sub_of_le _ _ (UInt64.le_iff_toNat_le.mpr (by rw [h.last]; exact hle)), h.last]
  by_cases hW : W = 1
  · have hlt : f.lastSeq - seq < 64 := by
      rw [UInt64.lt_iff_toNat_lt, hdiff]
      exact (near_one hW).mp hin
    have hupd : f.updateCommit seq = { f with
        bitmap := setWord f.bitmap 0 (word f.bitmap 0 ||| (1 <<< (f.lastSeq - seq))) } := by
      rw [updateCommit, if_neg h0, if_pos hW, if_neg hngt]
      simp only [if_pos hlt]
    refine ⟨by rw [hupd, hmax]; exact h.last, fun _ d hd => ?_, fun hc => absurd hW hc⟩
    have hd' : (f.lastSeq - seq).toNat % 64 = highest acc - seq.toNat := by
      rw [hdiff]
      exact Nat.mod_eq_of_lt ((near_one hW).mp hin)
    rw [hupd, hmax, word_setWord _ _ (by omega), if_pos rfl, hasBit_or_one_shiftLeft, hd',
      Bool.or_eq_true, decide_eq_true_eq, h.one hW d hd, List.mem_cons]
    constructor
    · rintro (⟨h1, h2⟩ | rfl)
      · exact ⟨h1, Or.inr h2⟩
      · exact ⟨by omega, Or.inl (by omega)⟩
    · rintro ⟨h1, h2 | h2⟩
      · exact Or.inr (by omega)
      · exact Or.inl ⟨h1, h2⟩
  · have hin' := (near_ring hW).mp hin
    have hlast : f.lastSeq.toNat = highest acc := h.last
    have hword : ((f.lastSeq >>> 6) - (seq >>> 6)).toNat = highest acc / 64 - seq.toNat / 64 := by
      rw [shiftRight_six_sub_toNat (by rw [hlast]; exact hle), hlast]
    have hupd : f.updateCommit seq = { f with
        bitmap := setWord f.bitmap (seq.toNat / 64 % W)
          (word f.bitmap (seq.toNat / 64 % W) ||| (1 <<< (seq &&& 63))) } := by
      rw [updateCommit, if_neg h0, if_neg hW]
      simp only [if_neg hngt, hdiff, hword, windowSize, shiftRight_six_toNat, slot_eq_mod]
      rw [if_pos ⟨by omega, hin'⟩]
    refine ⟨by rw [hupd, hmax]; exact h.last, fun hc => absurd hc hW, fun _ n hn1 hn2 => ?_⟩
    rw [hmax] at hn1 hn2
    rw [hupd, List.mem_cons, ← h.ring hW n hn1 hn2]
    refine hasBit_mark _ BitmapWords.pos fun hslot => ?_
    rcases Nat.le_total (n / 64) (seq.toNat / 64) with hc | hc
    · exact eq_of_mod_eq hc (by omega) hslot
    · exact (eq_of_mod_eq hc (by omega) hslot.symm).symm

/-- A commit behind the window changes nothing. -/
theorem Represents.commit_out (h : Represents f acc) {seq : UInt64}
    (hle : seq.toNat ≤ highest acc) (hout : ¬near W (highest acc) seq.toNat) :
    f.updateCommit seq = f := by
  by_cases h0 : seq = 0
  · rw [h0, updateCommit_zero]
  have hlast : f.lastSeq.toNat = highest acc := h.last
  have hngt : ¬seq > f.lastSeq := by
    rw [gt_iff_lt, UInt64.lt_iff_toNat_lt, hlast]
    omega
  have hdiff : (f.lastSeq - seq).toNat = highest acc - seq.toNat := by
    rw [UInt64.toNat_sub_of_le _ _ (UInt64.le_iff_toNat_le.mpr (by rw [hlast]; exact hle)), hlast]
  rw [updateCommit, if_neg h0]
  by_cases hW : W = 1
  · rw [near_one hW] at hout
    have hnlt : ¬f.lastSeq - seq < 64 := by
      rw [UInt64.lt_iff_toNat_lt, hdiff]
      exact hout
    simp only [if_pos hW, if_neg hngt, if_neg hnlt]
  · rw [near_ring hW] at hout
    have hword : ((f.lastSeq >>> 6) - (seq >>> 6)).toNat = highest acc / 64 - seq.toNat / 64 := by
      rw [shiftRight_six_sub_toNat (by rw [hlast]; exact hle), hlast]
    simp only [if_neg hW, if_neg hngt, hword]
    exact if_neg fun hc => hout hc.2

/-- **A commit marks its own number**: inside the window the number joins the
accepted ones, outside it nothing happens. -/
theorem Represents.updateCommit [BitmapWords W] (h : Represents f acc) (seq : UInt64) :
    Represents (f.updateCommit seq) (seq.toNat :: acc) ∨
      (f.updateCommit seq = f ∧ (seq = 0 ∨
        (seq.toNat ≤ highest acc ∧ ¬near W (highest acc) seq.toNat))) := by
  by_cases h0 : seq = 0
  · exact Or.inr ⟨by rw [h0, updateCommit_zero], Or.inl h0⟩
  rcases Nat.lt_or_ge (highest acc) seq.toNat with hlt | hle
  · exact Or.inl (h.commit_ahead hlt)
  by_cases hin : near W (highest acc) seq.toNat
  · exact Or.inl (h.commit_behind h0 hle hin)
  · exact Or.inr ⟨h.commit_out hle hin, Or.inr ⟨hle, hin⟩⟩



/-! ### Runs of the combined call -/

/-- The filter as a machine answering a stream of `check_and_update` calls. -/
def filter (W : ℕ) : Filter (AntiReplayFilterT W) UInt64 where
  init := reset
  val := UInt64.toNat
  check := checkAndUpdate

/-- The state after a run of calls from the reset state. -/
def after (W : ℕ) (seqs : List UInt64) : AntiReplayFilterT W := ((filter W).run seqs).1

/-- The numbers a run of calls from the reset state accepted, latest first. -/
def accepted (W : ℕ) (seqs : List UInt64) : List ℕ := ((filter W).run seqs).2

/-- The verdict of the combined call is the peek's. -/
theorem checkAndUpdate_fst (f : AntiReplayFilterT W) (seq : UInt64) :
    (f.checkAndUpdate seq).1 = f.checkPeek seq := by
  rw [checkAndUpdate]
  split <;> simp_all

theorem checkAndUpdate_snd_of_accept {seq : UInt64} (h : f.checkPeek seq = false) :
    (f.checkAndUpdate seq).2 = f.updateCommit seq := by
  rw [checkAndUpdate, if_neg (by simp [h])]

theorem checkAndUpdate_snd_of_reject {seq : UInt64} (h : f.checkPeek seq = true) :
    (f.checkAndUpdate seq).2 = f := by
  rw [checkAndUpdate, if_pos h]

/-- **The bitmap filter is a sliding window.** -/
theorem refines_filter (W : ℕ) [BitmapWords W] : Refines (filter W) (near W) Represents where
  init := represents_reset
  verdict := fun {f acc} h seq => by
    change (f.checkAndUpdate seq).1 = false ↔ Admits (near W) acc seq.toNat
    rw [checkAndUpdate_fst, h.checkPeek]
  accept := fun {f acc} h seq hv => by
    change (f.checkAndUpdate seq).1 = false at hv
    change Represents (f.checkAndUpdate seq).2 (seq.toNat :: acc)
    rw [checkAndUpdate_fst] at hv
    obtain ⟨hn, -, hwin⟩ := (h.checkPeek seq).mp hv
    rw [checkAndUpdate_snd_of_accept hv]
    rcases h.updateCommit seq with hup | ⟨-, rfl | ⟨hle, hout⟩⟩
    · exact hup
    · exact absurd rfl hn
    · exact absurd hwin fun hc => hc.elim (Nat.not_lt.mpr hle) hout
  reject := fun {f acc} h seq hv => by
    change (f.checkAndUpdate seq).1 = true at hv
    change Represents (f.checkAndUpdate seq).2 acc
    rw [checkAndUpdate_fst] at hv
    rw [checkAndUpdate_snd_of_reject hv]
    exact h

/-- **The filter accepts exactly the new numbers of its window**, after any run of
calls whatever the gaps and jumps, and so accepts no number twice. -/
theorem checkAndUpdate_accepts_iff (W : ℕ) [BitmapWords W] (seqs : List UInt64) (seq : UInt64) :
    (((after W seqs).checkAndUpdate seq).1 = false ↔
      seq ≠ 0 ∧ seq.toNat ∉ accepted W seqs ∧
        (highest (accepted W seqs) < seq.toNat ∨
          near W (highest (accepted W seqs)) seq.toNat)) ∧
      (accepted W seqs).Nodup := by
  have hzero : seq ≠ 0 ↔ seq.toNat ≠ 0 := not_congr UInt64.toNat_inj.symm
  rw [hzero]
  exact ⟨(refines_filter W).check_iff seqs seq, (refines_filter W).nodup seqs⟩

/-- The default filter after a jump of exactly its window, on the oldest number
that is still inside. -/
theorem checkAndUpdate_accepts_full_jump :
    (((after 32 [1, 2049]).checkAndUpdate 64).1 = false ↔
      (64 : UInt64) ≠ 0 ∧ (64 : UInt64).toNat ∉ accepted 32 [1, 2049] ∧
        (highest (accepted 32 [1, 2049]) < (64 : UInt64).toNat ∨
          near 32 (highest (accepted 32 [1, 2049])) (64 : UInt64).toNat)) ∧
      (accepted 32 [1, 2049]).Nodup :=
  checkAndUpdate_accepts_iff 32 [1, 2049] 64

/-! ### Peek and commit apart

The data path of the server peeks before it decrypts and commits after. What it
may rely on in between is that a rejection is for good, until the next reset. -/

/-- A filter some run of commits has led to since its last reset. -/
def Coherent (f : AntiReplayFilterT W) : Prop := ∃ acc, Represents f acc

theorem coherent_reset : Coherent (reset : AntiReplayFilterT W) := ⟨[], represents_reset⟩

theorem Coherent.updateCommit [BitmapWords W] (h : Coherent f) (seq : UInt64) :
    Coherent (f.updateCommit seq) := by
  obtain ⟨acc, hacc⟩ := h
  rcases hacc.updateCommit seq with hup | ⟨hid, -⟩
  · exact ⟨_, hup⟩
  · exact ⟨acc, by rw [hid]; exact hacc⟩

/-- **What is committed is rejected from then on.** -/
theorem Coherent.checkPeek_updateCommit_self [BitmapWords W] (h : Coherent f) (seq : UInt64) :
    (f.updateCommit seq).checkPeek seq = true := by
  obtain ⟨acc, hacc⟩ := h
  rw [← Bool.not_eq_false]
  rcases hacc.updateCommit seq with hup | ⟨hid, hout⟩
  · rw [hup.checkPeek]
    exact not_admits_cons _ _ _
  · rw [hid, hacc.checkPeek]
    rintro ⟨hn, -, hwin⟩
    rcases hout with rfl | ⟨hle, hout⟩
    · exact hn rfl
    · exact hwin.elim (Nat.not_lt.mpr hle) hout

/-- **A rejection is for good**: no commit makes a rejected number acceptable. -/
theorem Coherent.checkPeek_updateCommit [BitmapWords W] (h : Coherent f) {seq : UInt64}
    (hrej : f.checkPeek seq = true) (seq' : UInt64) :
    (f.updateCommit seq').checkPeek seq = true := by
  obtain ⟨acc, hacc⟩ := h
  rw [← Bool.not_eq_false] at hrej ⊢
  rcases hacc.updateCommit seq' with hup | ⟨hid, -⟩
  · rw [hup.checkPeek]
    exact fun hc => hrej ((hacc.checkPeek seq).mpr (hc.of_cons (movesForward_near W)))
  · rw [hid]
    exact hrej

end AntiReplayFilterT

end Aegs
