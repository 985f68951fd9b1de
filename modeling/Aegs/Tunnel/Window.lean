import Aegs.Lib.SlidingWindow
import Aegs.Tunnel.Filter

/-!
# The filter of the tunnel, for every size of its window

`AntiReplayFilter` takes the size of its window, and a filter of the default size is that of
`Aegs.Tunnel.Packet` (`Aegs.Tunnel.SizedFilter.toDefault_checkAndUpdate`). Such a filter is to
refine the sliding window of `SlidingWindow`, with the numbers less than the size behind the
highest near it.

The loop over the bits takes from the last byte to the first, and hands each byte's bits to the
byte in front: behind an advance, the mark of the number `seq - p` is where that of
`seq - (p + 16)` should be, for every place `p` that the bits of a byte leave free. The filter
answers as the window does for as long as that makes no difference
(`Aegs.Tunnel.admits_iff_moves`).
-/

namespace Aegs

namespace Tunnel

open SlidingWindow

/-! ### The filter -/

/-- `AntiReplayFilter`. -/
structure SizedFilter where
  /-- `window_size`. -/
  size : ℕ
  /-- `max_seq`. -/
  maxSeq : ℕ
  /-- `window`. -/
  window : List UInt8
deriving DecidableEq

namespace SizedFilter

/-- A new filter. -/
def new (size : ℕ) : SizedFilter := ⟨size, 0, List.replicate (size / 8) 0⟩

/-- The window after an advance by `diff`. -/
def advanceWindow (f : SizedFilter) (diff : ℕ) : List UInt8 :=
  if f.size ≤ diff then List.replicate (f.size / 8) 0
  else
    let window := moveBytes f.window (diff / 8)
    if 0 < diff % 8 then (shiftBits (diff % 8) window).1 else window

/-- `check_and_update`: whether the number is turned down, and the filter after it. -/
def checkAndUpdate (f : SizedFilter) (seq : ℕ) : Bool × SizedFilter :=
  if seq = 0 then (true, f)
  else if f.maxSeq < seq then
    (false, { f with maxSeq := seq, window := mark (f.advanceWindow (seq - f.maxSeq)) 0 })
  else
    let diff := f.maxSeq - seq
    if f.size ≤ diff then (true, f)
    else if marked f.window diff then (true, f)
    else (false, { f with window := mark f.window diff })

/-- A filter of the default size. -/
def toDefault (f : SizedFilter) : AntiReplayFilter := ⟨f.maxSeq, f.window⟩

/-- **A filter of the default size** is that of the tunnel. -/
theorem toDefault_checkAndUpdate {f : SizedFilter} (hsize : f.size = windowSize) (seq : ℕ) :
    f.toDefault.checkAndUpdate seq =
      ((f.checkAndUpdate seq).1, (f.checkAndUpdate seq).2.toDefault) := by
  have hmax : f.toDefault.maxSeq = f.maxSeq := rfl
  have hwindow : f.toDefault.window = f.window := rfl
  rw [AntiReplayFilter.checkAndUpdate, checkAndUpdate, hmax, hwindow, ← hsize]
  by_cases hzero : seq = 0
  · rw [if_pos hzero, if_pos hzero]
  rw [if_neg hzero, if_neg hzero]
  by_cases hahead : f.maxSeq < seq
  · rw [if_pos hahead, if_pos hahead, Tunnel.advanceWindow, advanceWindow, ← hsize]
    rfl
  rw [if_neg hahead, if_neg hahead]
  simp only
  by_cases hold : f.size ≤ f.maxSeq - seq
  · rw [if_pos hold, if_pos hold]
  rw [if_neg hold, if_neg hold]
  by_cases hmarked : marked f.window (f.maxSeq - seq) = true
  · rw [if_pos hmarked, if_pos hmarked]
  · rw [if_neg hmarked, if_neg hmarked]
    rfl

end SizedFilter

/-- The filter, as one that answers a stream of numbers. -/
def sized (size : ℕ) : Filter SizedFilter ℕ := ⟨.new size, id, SizedFilter.checkAndUpdate⟩

/-- The numbers near the highest. -/
def near (size M n : ℕ) : Prop := M - n < size

/-! ### Where the marks go -/

theorem marked_mark_iff {window : List UInt8} {diff other : ℕ}
    (hother : other / 8 < window.length) :
    marked (mark window other) diff = true ↔ diff = other ∨ marked window diff = true := by
  constructor
  · intro h
    by_cases heq : diff = other
    · exact .inl heq
    · refine .inr ?_
      rw [marked_iff] at h ⊢
      by_cases hbyte : diff / 8 = other / 8
      · rw [mark, hbyte, List.getD_eq_getElem _ _ (by rwa [List.length_modify]),
          List.getElem_modify_eq, UInt8.toNat_or, Nat.testBit_or, oneShiftLeft_toNat,
          Nat.testBit_two_pow_of_ne (by omega), Bool.or_false] at h
        rwa [hbyte, List.getD_eq_getElem _ _ hother]
      · rwa [mark, List.getD_eq_getElem?_getD, List.getElem?_modify_ne _ _ (Ne.symm hbyte),
          ← List.getD_eq_getElem?_getD] at h
  · rintro (rfl | h)
    · exact marked_mark hother
    · exact marked_mark_of_marked other h

theorem not_marked_replicate (n diff : ℕ) : ¬marked (List.replicate n 0) diff = true := by
  intro h
  rw [marked_iff] at h
  by_cases hlen : diff / 8 < n
  · rw [List.getD_eq_getElem _ _ (by rwa [List.length_replicate]), List.getElem_replicate] at h
    exact absurd h (by simp)
  · rw [List.getD_eq_default _ _ (by rw [List.length_replicate]; omega)] at h
    exact absurd h (by simp)

/-- A mark is in the window. -/
theorem lt_of_marked {window : List UInt8} {diff : ℕ} (h : marked window diff = true) :
    diff / 8 < window.length := by
  by_contra hlen
  rw [marked_iff, List.getD_eq_default _ _ (not_lt.mp hlen)] at h
  exact absurd h (by simp)

theorem marked_moveBytes_iff {window : List UInt8} {bytesShift : ℕ} (diff : ℕ) :
    marked (moveBytes window bytesShift) diff = true ↔
      8 * bytesShift ≤ diff ∧ diff / 8 < window.length ∧
        marked window (diff - 8 * bytesShift) = true := by
  rw [moveBytes]
  split
  · rename_i hshift
    by_cases hle : 8 * bytesShift ≤ diff
    · have hdiv : (diff - 8 * bytesShift) / 8 = diff / 8 - bytesShift := by omega
      have hmod : (diff - 8 * bytesShift) % 8 = diff % 8 := by omega
      rw [marked_iff, marked_iff,
        List.getD_append_right _ _ _ _ (by rw [List.length_replicate]; omega),
        List.length_replicate, hdiv, hmod]
      by_cases hlen : diff / 8 < window.length
      · rw [List.getD_eq_getElem _ _ (by rw [List.length_take]; omega), List.getElem_take,
          List.getD_eq_getElem _ _ (by omega)]
        exact ⟨fun h => ⟨hle, hlen, h⟩, fun h => h.2.2⟩
      · rw [List.getD_eq_default _ _ (by rw [List.length_take]; omega)]
        exact ⟨fun h => absurd h (by simp), fun h => absurd h.2.1 hlen⟩
    · refine ⟨fun h => ?_, fun h => absurd h.1 hle⟩
      rw [marked_iff, List.getD_append _ _ _ _ (by rw [List.length_replicate]; omega)] at h
      rw [List.getD_eq_getElem _ _ (by rw [List.length_replicate]; omega),
        List.getElem_replicate] at h
      exact absurd h (by simp)
  · rename_i hshift
    obtain rfl : bytesShift = 0 := by omega
    exact ⟨fun h => ⟨Nat.zero_le _, lt_of_marked h, h⟩, fun h => h.2.2⟩

/-- The carry is the byte behind. -/
theorem shiftBits_snd (bitsShift : ℕ) (window : List UInt8) :
    (shiftBits bitsShift window).2 = window.getD 0 0 >>> UInt8.ofNat (8 - bitsShift) := by
  cases window with
  | nil => exact UInt8.zero_shiftRight.symm
  | cons b bytes => rfl

/-- **Each byte is moved within itself**, and takes in the byte behind it. -/
theorem getD_shiftBits_eq (bitsShift : ℕ) (window : List UInt8) (i : ℕ) :
    (shiftBits bitsShift window).1.getD i 0 =
      (window.getD i 0 <<< UInt8.ofNat bitsShift) |||
        (window.getD (i + 1) 0 >>> UInt8.ofNat (8 - bitsShift)) := by
  induction window generalizing i with
  | nil => simp [shiftBits]
  | cons b bytes ih =>
    cases i with
    | zero =>
      rw [List.getD_cons_succ, ← shiftBits_snd]
      rfl
    | succ i => exact ih i

theorem ofNat_toNat_mod {n : ℕ} (hn : n < 8) : (UInt8.ofNat n).toNat % 8 = n := by
  rw [UInt8.toNat_ofNat']
  omega

/-- **Where the marks of a byte go**: to their places as long as the byte has room, and
otherwise to the byte in front. -/
theorem marked_shiftBits_iff {bitsShift : ℕ} (hpos : 0 < bitsShift) (hlt : bitsShift < 8)
    (window : List UInt8) (diff : ℕ) :
    marked (shiftBits bitsShift window).1 diff = true ↔
      if bitsShift ≤ diff % 8 then marked window (diff - bitsShift) = true
      else marked window (diff + 16 - bitsShift) = true := by
  have hmod : diff % 8 < 8 := Nat.mod_lt _ (by decide)
  have hleft : ((window.getD (diff / 8) 0) <<< UInt8.ofNat bitsShift).toNat.testBit (diff % 8) =
      (decide (bitsShift ≤ diff % 8) &&
        (window.getD (diff / 8) 0).toNat.testBit (diff % 8 - bitsShift)) := by
    rw [UInt8.toNat_shiftLeft, ofNat_toNat_mod hlt, Nat.testBit_mod_two_pow, Nat.testBit_shiftLeft,
      decide_eq_true hmod, Bool.true_and]
  have hright : ((window.getD (diff / 8 + 1) 0) >>> UInt8.ofNat (8 - bitsShift)).toNat.testBit
      (diff % 8) = (window.getD (diff / 8 + 1) 0).toNat.testBit (8 - bitsShift + diff % 8) := by
    rw [UInt8.toNat_shiftRight, ofNat_toNat_mod (by omega), Nat.testBit_shiftRight]
  rw [marked_iff, getD_shiftBits_eq, UInt8.toNat_or, Nat.testBit_or, hleft, hright]
  split
  · -- the byte behind has no such bit
    rename_i hroom
    have hdiv : (diff - bitsShift) / 8 = diff / 8 := by omega
    have hrem : (diff - bitsShift) % 8 = diff % 8 - bitsShift := by omega
    have hsmall : (window.getD (diff / 8 + 1) 0).toNat < 2 ^ (8 - bitsShift + diff % 8) :=
      lt_of_lt_of_le (UInt8.toNat_lt _) (Nat.pow_le_pow_right (by decide) (by omega))
    rw [marked_iff, hdiv, hrem, decide_eq_true hroom, Bool.true_and,
      Nat.testBit_lt_two_pow hsmall, Bool.or_false]
  · rename_i hroom
    have hdiv : (diff + 16 - bitsShift) / 8 = diff / 8 + 1 := by omega
    have hrem : (diff + 16 - bitsShift) % 8 = 8 - bitsShift + diff % 8 := by omega
    rw [marked_iff, hdiv, hrem, decide_eq_false hroom, Bool.false_and, Bool.false_or]

namespace SizedFilter

variable {f : SizedFilter}

theorem length_advanceWindow (hlen : f.window.length = f.size / 8) (diff : ℕ) :
    (f.advanceWindow diff).length = f.size / 8 := by
  rw [advanceWindow]
  split
  · exact List.length_replicate
  · rename_i hdiff
    have hmove : (moveBytes f.window (diff / 8)).length = f.size / 8 :=
      (length_moveBytes (by rw [hlen]; omega)).trans hlen
    simp only
    split
    · rw [length_shiftBits, hmove]
    · exact hmove

/-- **Where the marks go in an advance**: the mark of a place is the one that should be there,
unless the bits of its byte leave the place free; then it is the one two bytes behind. -/
theorem marked_advanceWindow_iff (hlen : f.window.length = f.size / 8) (hdvd : 8 ∣ f.size)
    {diff : ℕ} (hdiff : diff < f.size) {p : ℕ} (hp : p < f.size) :
    marked (f.advanceWindow diff) p = true ↔
      if diff % 8 ≤ p % 8 then diff ≤ p ∧ marked f.window (p - diff) = true
      else diff ≤ p + 16 ∧ p + 8 < f.size ∧ marked f.window (p + 16 - diff) = true := by
  obtain ⟨n, hn⟩ := hdvd
  have hbytes : f.window.length = n := by omega
  rw [advanceWindow, if_neg (not_le.mpr hdiff)]
  simp only
  split
  · rename_i hbits
    rw [marked_shiftBits_iff hbits (Nat.mod_lt _ (by decide))]
    split
    · rename_i hroom
      rw [marked_moveBytes_iff, hbytes,
        show p - diff % 8 - 8 * (diff / 8) = p - diff by omega]
      exact ⟨fun h => ⟨by omega, h.2.2⟩, fun h => ⟨by omega, by omega, h.2⟩⟩
    · rename_i hroom
      rw [marked_moveBytes_iff, hbytes,
        show p + 16 - diff % 8 - 8 * (diff / 8) = p + 16 - diff by omega]
      exact ⟨fun h => ⟨by omega, by omega, h.2.2⟩, fun h => ⟨by omega, by omega, h.2.2⟩⟩
  · rename_i hbits
    rw [if_pos (by omega), marked_moveBytes_iff, hbytes,
      show p - 8 * (diff / 8) = p - diff by omega]
    exact ⟨fun h => ⟨by omega, h.2.2⟩, fun h => ⟨by omega, by omega, h.2⟩⟩

end SizedFilter

/-! ### What an advance may not move -/

/-- **No mark is missed**: if the number advances the window, each place that the bits of a byte
leave free is that of an accepted number exactly when the one two bytes behind is, as far as
there is one. -/
def Moves (size : ℕ) (acc : List ℕ) (seq : ℕ) : Prop :=
  highest acc < seq → seq - highest acc < size →
    ∀ p, 0 < p → p < size → p % 8 < (seq - highest acc) % 8 →
      (seq - p ∈ acc ↔ p + 8 < size ∧ seq - (p + 16) ∈ acc)

/-- No mark is missed if each has room in its byte. -/
theorem moves_of_room {size : ℕ} {acc : List ℕ} {seq : ℕ} (hpos : 0 ∉ acc)
    (hroom : ∀ n ∈ acc, seq - n < size + 16 →
      (highest acc - n) % 8 + (seq - highest acc) % 8 < 8) : Moves size acc seq := by
  intro hahead hdiff p hp hlt hbits
  constructor
  · intro hmem
    have hle := le_highest hmem
    have hne : seq - p ≠ 0 := fun hzero => hpos (hzero ▸ hmem)
    have := hroom _ hmem (by omega)
    omega
  · rintro ⟨hfit, hmem⟩
    have hle := le_highest hmem
    have hne : seq - (p + 16) ≠ 0 := fun hzero => hpos (hzero ▸ hmem)
    have := hroom _ hmem (by omega)
    omega

/-- **The filter knows what it has accepted**: the places of its window with a mark are those of
the accepted numbers. -/
structure Exact (size : ℕ) (f : SizedFilter) (acc : List ℕ) : Prop where
  /-- `window_size`. -/
  size_eq : f.size = size
  /-- The length of the window. -/
  length_window : f.window.length = size / 8
  /-- `max_seq`. -/
  maxSeq_eq : f.maxSeq = highest acc
  /-- No accepted number is zero. -/
  pos : 0 ∉ acc
  /-- The marks. -/
  marked_iff : ∀ p, p < size → (marked f.window p = true ↔ p ≤ f.maxSeq ∧ f.maxSeq - p ∈ acc)

section

variable {size : ℕ}

theorem exact_new (size : ℕ) : Exact size (.new size) [] where
  size_eq := rfl
  length_window := List.length_replicate
  maxSeq_eq := rfl
  pos := List.not_mem_nil
  marked_iff := fun _ _ =>
    ⟨fun h => absurd h (not_marked_replicate _ _), fun h => absurd h.2 List.not_mem_nil⟩

variable {f : SizedFilter} {acc : List ℕ}

/-- **A filter that knows what it has accepted answers as the window does.** -/
theorem Exact.verdict (h : Exact size f acc) (seq : ℕ) :
    (f.checkAndUpdate seq).1 = false ↔ Admits (near size) acc seq := by
  rw [SizedFilter.checkAndUpdate, Admits, ← h.maxSeq_eq]
  by_cases hzero : seq = 0
  · rw [if_pos hzero]
    exact ⟨fun hturned => (nomatch hturned), fun hadmits => absurd hzero hadmits.1⟩
  rw [if_neg hzero]
  by_cases hahead : f.maxSeq < seq
  · rw [if_pos hahead]
    refine ⟨fun _ => ⟨hzero, fun hmem => ?_, .inl hahead⟩, fun _ => rfl⟩
    exact absurd (h.maxSeq_eq ▸ le_highest hmem) (not_le.mpr hahead)
  rw [if_neg hahead]
  simp only [h.size_eq]
  by_cases hold : size ≤ f.maxSeq - seq
  · rw [if_pos hold]
    refine ⟨fun hturned => (nomatch hturned), fun hadmits => ?_⟩
    rcases hadmits.2.2 with hlt | hnear
    · exact absurd hlt hahead
    · exact absurd hnear (not_lt.mpr hold)
  rw [if_neg hold]
  have hiff := h.marked_iff (f.maxSeq - seq) (not_le.mp hold)
  have hback : f.maxSeq - (f.maxSeq - seq) = seq := by omega
  rw [hback] at hiff
  by_cases hmarked : marked f.window (f.maxSeq - seq) = true
  · rw [if_pos hmarked]
    exact ⟨fun hturned => (nomatch hturned), fun hadmits => absurd (hiff.mp hmarked).2 hadmits.2.1⟩
  · rw [if_neg hmarked]
    refine ⟨fun _ => ⟨hzero, fun hmem => hmarked (hiff.mpr ⟨Nat.sub_le _ _, hmem⟩), .inr ?_⟩,
      fun _ => rfl⟩
    exact not_le.mp hold

theorem call_ahead {seq : ℕ} (hmax : f.maxSeq < seq) :
    (sized size).call (f, acc) seq =
      ({ f with maxSeq := seq, window := mark (f.advanceWindow (seq - f.maxSeq)) 0 },
        seq :: acc) := by
  have hcheck : (sized size).check f seq =
      (false, { f with maxSeq := seq, window := mark (f.advanceWindow (seq - f.maxSeq)) 0 }) := by
    change f.checkAndUpdate seq = _
    rw [SizedFilter.checkAndUpdate, if_neg (by omega), if_pos hmax]
  rw [Filter.call, hcheck]
  rfl

/-- A mark behind an advance, from where it was. -/
theorem Exact.marked_sub_iff (h : Exact size f acc) {seq : ℕ} (hahead : f.maxSeq < seq) {q : ℕ}
    (hq : q - (seq - f.maxSeq) < size) :
    (seq - f.maxSeq ≤ q ∧ marked f.window (q - (seq - f.maxSeq)) = true) ↔ seq - q ∈ acc := by
  rw [h.marked_iff _ hq]
  constructor
  · rintro ⟨hle, -, hmem⟩
    rwa [show f.maxSeq - (q - (seq - f.maxSeq)) = seq - q by omega] at hmem
  · intro hmem
    have hhigh := h.maxSeq_eq ▸ le_highest hmem
    have hne : seq - q ≠ 0 := fun hzero => h.pos (hzero ▸ hmem)
    refine ⟨by omega, by omega, ?_⟩
    rwa [show f.maxSeq - (q - (seq - f.maxSeq)) = seq - q by omega]

/-- **The marks behind an advance**, from the accepted numbers. -/
theorem Exact.marked_advanceWindow (h : Exact size f acc) (hdvd : 8 ∣ size) {seq : ℕ}
    (hahead : f.maxSeq < seq) (hdiff : seq - f.maxSeq < size) {p : ℕ} (hp : p < size) :
    marked (f.advanceWindow (seq - f.maxSeq)) p = true ↔
      if (seq - f.maxSeq) % 8 ≤ p % 8 then seq - p ∈ acc
      else p + 8 < size ∧ seq - (p + 16) ∈ acc := by
  have hsize := h.size_eq
  have hmarked := SizedFilter.marked_advanceWindow_iff (h.length_window.trans (by rw [hsize]))
    (hsize ▸ hdvd) (hsize ▸ hdiff) (hsize ▸ hp)
  obtain ⟨n, hn⟩ := hdvd
  rw [hmarked, hsize]
  split
  · exact h.marked_sub_iff hahead (by omega)
  · by_cases hfit : p + 8 < size
    · rw [← h.marked_sub_iff hahead (by omega)]
      exact ⟨fun hmark => ⟨hfit, hmark.1, hmark.2.2⟩, fun hmark => ⟨hmark.2.1, hfit, hmark.2.2⟩⟩
    · exact ⟨fun hmark => absurd hmark.2.1 hfit, fun hmark => absurd hmark.1 hfit⟩

/-- The new number is the first of the window. -/
theorem Exact.moved (h : Exact size f acc) (hpos : 0 < size) (hdvd : 8 ∣ size) {seq : ℕ}
    (hahead : f.maxSeq < seq)
    (hmarks : ∀ p, 0 < p → p < size →
      (marked (f.advanceWindow (seq - f.maxSeq)) p = true ↔ seq - p ∈ acc)) :
    Exact size ((sized size).call (f, acc) seq).1 ((sized size).call (f, acc) seq).2 := by
  have hlen := SizedFilter.length_advanceWindow (h.length_window.trans (by rw [h.size_eq]))
    (seq - f.maxSeq)
  rw [h.size_eq] at hlen
  rw [call_ahead hahead]
  refine ⟨h.size_eq, ?_, ?_, ?_, fun p hp => ?_⟩
  · rw [mark, List.length_modify, hlen]
  · rw [highest_cons, max_eq_left]
    exact h.maxSeq_eq ▸ hahead.le
  · exact List.not_mem_cons_of_ne_of_not_mem (by omega) h.pos
  · simp only
    rw [marked_mark_iff (by rw [hlen]; obtain ⟨n, hn⟩ := hdvd; omega), List.mem_cons]
    rcases Nat.eq_zero_or_pos p with rfl | hp'
    · exact ⟨fun _ => ⟨Nat.zero_le _, .inl (Nat.sub_zero seq)⟩, fun _ => .inl rfl⟩
    · rw [hmarks p hp' hp]
      constructor
      · rintro (rfl | hmem)
        · exact absurd hp' (lt_irrefl 0)
        · have hne : seq - p ≠ 0 := fun hzero => h.pos (hzero ▸ hmem)
          exact ⟨by omega, .inr hmem⟩
      · rintro ⟨-, heq | hmem⟩
        · omega
        · exact .inr hmem

/-- **A number that does not advance the window**, or by its whole size, is no trouble. -/
theorem Exact.stay (h : Exact size f acc) (hpos : 0 < size) (hdvd : 8 ∣ size) {seq : ℕ}
    (hstay : f.maxSeq < seq → size ≤ seq - f.maxSeq) :
    Exact size ((sized size).call (f, acc) seq).1 ((sized size).call (f, acc) seq).2 := by
  by_cases hahead : f.maxSeq < seq
  · refine h.moved hpos hdvd hahead fun p hp hlt => ?_
    rw [SizedFilter.advanceWindow, if_pos (h.size_eq ▸ hstay hahead)]
    refine ⟨fun hmark => absurd hmark (not_marked_replicate _ _), fun hmem => ?_⟩
    have hhigh := h.maxSeq_eq ▸ le_highest hmem
    have hwide := hstay hahead
    have hne : seq - p ≠ 0 := fun hzero => h.pos (hzero ▸ hmem)
    omega
  have hcheck : (sized size).check f seq = f.checkAndUpdate seq := rfl
  rw [SizedFilter.checkAndUpdate] at hcheck
  rw [Filter.call, hcheck]
  by_cases hzero : seq = 0
  · rw [if_pos hzero]
    exact h
  rw [if_neg hzero, if_neg hahead]
  simp only [h.size_eq]
  by_cases hold : size ≤ f.maxSeq - seq
  · rw [if_pos hold]
    exact h
  rw [if_neg hold]
  by_cases hmarked : marked f.window (f.maxSeq - seq) = true
  · rw [if_pos hmarked]
    exact h
  · rw [if_neg hmarked]
    have hindex : (f.maxSeq - seq) / 8 < f.window.length := by
      rw [h.length_window]
      obtain ⟨n, hn⟩ := hdvd
      omega
    refine ⟨rfl, ?_, ?_, ?_, fun p hp => ?_⟩
    · simp only
      rw [mark, List.length_modify, h.length_window]
    · have hhigh := h.maxSeq_eq
      change f.maxSeq = max seq (highest acc)
      omega
    · exact List.not_mem_cons_of_ne_of_not_mem (Ne.symm hzero) h.pos
    · change marked (mark f.window (f.maxSeq - seq)) p = true ↔
        p ≤ f.maxSeq ∧ f.maxSeq - p ∈ seq :: acc
      rw [marked_mark_iff hindex, h.marked_iff p hp, List.mem_cons]
      constructor
      · rintro (rfl | ⟨hle, hmem⟩)
        · exact ⟨Nat.sub_le _ _, .inl (by omega)⟩
        · exact ⟨hle, .inr hmem⟩
      · rintro ⟨hle, heq | hmem⟩
        · exact .inl (by omega)
        · exact .inr ⟨hle, hmem⟩

/-- **A step**: a filter that knows what it has accepted still does, if no mark is missed. -/
theorem Exact.call (h : Exact size f acc) (hpos : 0 < size) (hdvd : 8 ∣ size) {seq : ℕ}
    (hmoves : Moves size acc seq) :
    Exact size ((sized size).call (f, acc) seq).1 ((sized size).call (f, acc) seq).2 := by
  by_cases hadvance : f.maxSeq < seq ∧ seq - f.maxSeq < size
  · obtain ⟨hahead, hdiff⟩ := hadvance
    refine h.moved hpos hdvd hahead fun p hp hlt => ?_
    rw [h.marked_advanceWindow hdvd hahead hdiff hlt]
    split
    · rfl
    · rename_i hbits
      rw [h.maxSeq_eq] at hahead hdiff hbits
      exact (hmoves hahead hdiff p hp hlt (not_le.mp hbits)).symm
  · exact h.stay hpos hdvd fun hahead => not_lt.mp fun hlt => hadvance ⟨hahead, hlt⟩

/-- **If a mark is missed**, there is a number about which the next answer is wrong. -/
theorem Exact.moves (h : Exact size f acc) (hdvd : 8 ∣ size) {seq : ℕ}
    (hverdict : ∀ next, (((sized size).call (f, acc) seq).1.checkAndUpdate next).1 = false ↔
      Admits (near size) ((sized size).call (f, acc) seq).2 next) : Moves size acc seq := by
  intro hahead hdiff p hp hlt hbits
  by_cases hzero : seq - p = 0
  · have hfar : seq - (p + 16) = 0 := by omega
    rw [hzero, hfar]
    exact ⟨fun hmem => absurd hmem h.pos, fun hmem => absurd hmem.2 h.pos⟩
  rw [← h.maxSeq_eq] at hahead hdiff hbits
  have hmarked := h.marked_advanceWindow hdvd hahead hdiff hlt
  rw [if_neg (not_le.mpr hbits)] at hmarked
  have hnext := hverdict (seq - p)
  -- the filter answers with the mark of the place
  have hanswer : (((sized size).call (f, acc) seq).1.checkAndUpdate (seq - p)).1 = false ↔
      ¬marked (f.advanceWindow (seq - f.maxSeq)) p = true := by
    have hlen := SizedFilter.length_advanceWindow (h.length_window.trans (by rw [h.size_eq]))
      (seq - f.maxSeq)
    have hback : seq - (seq - p) = p := by omega
    have hmark := @marked_mark_iff (f.advanceWindow (seq - f.maxSeq)) p 0
      (by rw [hlen, h.size_eq]; obtain ⟨n, hn⟩ := hdvd; omega)
    rw [call_ahead hahead, SizedFilter.checkAndUpdate, if_neg hzero, if_neg (by simp only; omega)]
    simp only [hback, h.size_eq]
    rw [if_neg (not_le.mpr hlt)]
    split
    · rename_i hset
      rcases hmark.mp hset with hfirst | hset
      · omega
      · exact ⟨fun hturned => (nomatch hturned), fun hclear => absurd hset hclear⟩
    · rename_i hclear
      exact ⟨fun _ hset => hclear (hmark.mpr (.inr hset)), fun _ => rfl⟩
  have hadmits : Admits (near size) ((sized size).call (f, acc) seq).2 (seq - p) ↔
      seq - p ∉ acc := by
    rw [call_ahead hahead]
    constructor
    · rintro ⟨-, hnew, -⟩ hmem
      exact hnew (List.mem_cons_of_mem _ hmem)
    · intro hnew
      refine ⟨hzero, List.not_mem_cons_of_ne_of_not_mem (by omega) hnew, .inr ?_⟩
      have hhigh : highest (seq :: acc) = seq := by
        rw [highest_cons, max_eq_left (h.maxSeq_eq ▸ hahead.le)]
      rw [near, hhigh]
      omega
  rw [hanswer, hadmits, not_iff_not] at hnext
  exact hnext.symm.trans hmarked

end

/-! ### Runs -/

section

variable {size : ℕ}

/-- **A run** keeps what a filter knows if each of its steps does. -/
theorem exact_of_moves (hpos : 0 < size) (hdvd : 8 ∣ size) {xs : List ℕ}
    (hmoves : ∀ ys seq, ys ++ [seq] <+: xs →
      Exact size ((sized size).run ys).1 ((sized size).run ys).2 →
        Moves size ((sized size).run ys).2 seq) :
    ∀ ys, ys <+: xs → Exact size ((sized size).run ys).1 ((sized size).run ys).2 := by
  intro ys
  induction ys using List.reverseRecOn with
  | nil => exact fun _ => exact_new size
  | append_singleton ys seq ih =>
    intro hys
    have hbefore := ih ((List.prefix_append ys [seq]).trans hys)
    rw [Filter.run_snoc]
    exact hbefore.call hpos hdvd (hmoves ys seq hys hbefore)

/-- **The filter refines the window** in a run exactly when no advance of the run misses a
mark. -/
theorem admits_iff_moves (hpos : 0 < size) (hdvd : 8 ∣ size) (xs : List ℕ) :
    (∀ ys, ys <+: xs → ∀ next, (((sized size).run ys).1.checkAndUpdate next).1 = false ↔
      Admits (near size) ((sized size).run ys).2 next) ↔
    ∀ ys seq, ys ++ [seq] <+: xs → Moves size ((sized size).run ys).2 seq := by
  constructor
  · intro hverdict
    have hmoves : ∀ ys seq, ys ++ [seq] <+: xs →
        Exact size ((sized size).run ys).1 ((sized size).run ys).2 →
          Moves size ((sized size).run ys).2 seq := by
      intro ys seq hys hbefore
      have hnext := hverdict _ hys
      rw [Filter.run_snoc] at hnext
      exact hbefore.moves hdvd hnext
    intro ys seq hys
    exact hmoves ys seq hys (exact_of_moves hpos hdvd hmoves ys
      ((List.prefix_append ys [seq]).trans hys))
  · intro hmoves ys hys next
    have hexact := exact_of_moves hpos hdvd fun ys seq hys _ => hmoves ys seq hys
    exact (hexact ys hys).verdict next

end

/-- **The number 7 is let through twice**: its mark is lost when the window advances from 8 to
15. -/
theorem not_admits_iff :
    ¬∀ size, 0 < size → 8 ∣ size → ∀ ys next,
      (((sized size).run ys).1.checkAndUpdate next).1 = false ↔
        Admits (near size) ((sized size).run ys).2 next := by
  intro h
  have hiff := h 2048 (by decide) (by decide) [7, 8, 15] 7
  have hpass : (((sized 2048).run [7, 8, 15]).1.checkAndUpdate 7).1 = false := by decide +kernel
  have hmem : 7 ∈ ((sized 2048).run [7, 8, 15]).2 := by decide +kernel
  exact (hiff.mp hpass).2.1 hmem

/-- Three numbers whose marks have room. -/
theorem admits_threeNumbers :
    ((sized 2048).run [1, 4, 12]).2 = [12, 4, 1] ∧
      ∀ ys, ys <+: [1, 4, 12] → ∀ next,
        (((sized 2048).run ys).1.checkAndUpdate next).1 = false ↔
          Admits (near 2048) ((sized 2048).run ys).2 next := by
  refine ⟨by decide +kernel,
    (admits_iff_moves (by decide) (by decide) [1, 4, 12]).mpr fun ys seq hys => ?_⟩
  have hcases : (ys = [] ∧ seq = 1) ∨ (ys = [1] ∧ seq = 4) ∨ (ys = [1, 4] ∧ seq = 12) := by
    match ys, hys with
    | [], hys => simpa using hys
    | [a], hys => simpa using hys
    | [a, b], hys => simpa [and_assoc] using hys
    | a :: b :: c :: ys, hys =>
      have hle := hys.length_le
      simp only [List.length_append, List.length_cons, List.length_nil] at hle
      omega
  rcases hcases with ⟨rfl, rfl⟩ | ⟨rfl, rfl⟩ | ⟨rfl, rfl⟩
  · exact moves_of_room List.not_mem_nil fun n hn => absurd hn List.not_mem_nil
  · have hacc : ((sized 2048).run [1]).2 = [1] := by decide +kernel
    rw [hacc]
    exact moves_of_room (by decide) (by decide)
  · have hacc : ((sized 2048).run [1, 4]).2 = [4, 1] := by decide +kernel
    rw [hacc]
    exact moves_of_room (by decide) (by decide)

end Tunnel

end Aegs
