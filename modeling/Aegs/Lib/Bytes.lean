import Mathlib.Data.Vector.Defs
import Mathlib.Tactic.Common
import Mathlib.Tactic.IntervalCases

/-!
# Byte buffers and byte order

`memcpy` into and out of buffers of fixed length, and the two byte orders of 16-,
32- and 64-bit words, written as C code writes them: with shifts and ors.

A word is determined by its bytes in either order, and conversely; what one end
wrote at an offset the other end reads there, and a copy elsewhere does not disturb
it.
-/

namespace Aegs

namespace Bytes

/-! ### Places by number

Where definitions of several modules read a buffer at one place, the bound has a name, so that
it is the same proof in all of them. -/

theorem zero_lt_4 : 0 < 4 := by decide

theorem one_lt_4 : 1 < 4 := by decide

theorem two_lt_4 : 2 < 4 := by decide

theorem three_lt_4 : 3 < 4 := by decide

theorem zero_lt_12 : 0 < 12 := by decide

theorem five_lt_12 : 5 < 12 := by decide

theorem zero_lt_16 : 0 < 16 := by decide

theorem one_lt_16 : 1 < 16 := by decide

theorem two_lt_16 : 2 < 16 := by decide

theorem three_lt_16 : 3 < 16 := by decide

theorem four_lt_16 : 4 < 16 := by decide

theorem five_lt_16 : 5 < 16 := by decide

theorem eight_lt_16 : 8 < 16 := by decide

theorem nine_lt_16 : 9 < 16 := by decide

theorem ten_lt_16 : 10 < 16 := by decide

theorem eleven_lt_16 : 11 < 16 := by decide

theorem zero_lt_32 : 0 < 32 := by decide

/-! ### Copying -/

section Copy

variable {n k k' : ℕ}

/-- `memcpy(&dst[off], src, k)`. -/
def copyIn (dst : Vector UInt8 n) (off : ℕ) (src : Vector UInt8 k) : Vector UInt8 n :=
  Vector.ofFn fun i => if h : off ≤ i ∧ i < off + k then src[i.val - off] else dst[i]

/-- `memcpy(dst, &src[off], k)`, out of a datagram. -/
def copyOut (src : List UInt8) (off k : ℕ) : Vector UInt8 k :=
  Vector.ofFn fun i => src.getD (off + i) 0

theorem getD_toList (v : Vector UInt8 n) {i : ℕ} (hi : i < n) :
    v.toList.getD i 0 = v[i] := by
  rw [List.getD_eq_getElem?_getD, Vector.getElem?_toList, Vector.getElem?_eq_getElem hi]
  rfl

theorem getElem_copyIn_of_mem (dst : Vector UInt8 n) {off i : ℕ} (src : Vector UInt8 k)
    (hn : i < n) (hi : off ≤ i ∧ i < off + k) :
    (copyIn dst off src)[i] = src[i - off] := by
  rw [copyIn, Vector.getElem_ofFn, dif_pos hi]

theorem getElem_copyIn_of_notMem (dst : Vector UInt8 n) {off i : ℕ} (src : Vector UInt8 k)
    (hn : i < n) (hi : ¬(off ≤ i ∧ i < off + k)) : (copyIn dst off src)[i] = dst[i] := by
  rw [copyIn, Vector.getElem_ofFn, dif_neg hi]
  rfl

/-- What was copied in is read back. -/
theorem copyOut_copyIn_self (dst : Vector UInt8 n) {off : ℕ} (src : Vector UInt8 k)
    (hk : off + k ≤ n) : copyOut (copyIn dst off src).toList off k = src := by
  ext i hi
  rw [copyOut, Vector.getElem_ofFn, getD_toList _ (by omega),
    getElem_copyIn_of_mem dst src (by omega) ⟨by omega, by omega⟩]
  simp

/-- A copy elsewhere is not seen. -/
theorem copyOut_copyIn_of_disjoint (dst : Vector UInt8 n) {off off' : ℕ} (src : Vector UInt8 k)
    (hdisj : off' + k' ≤ off ∨ off + k ≤ off') (hk : off' + k' ≤ n) :
    copyOut (copyIn dst off src).toList off' k' = copyOut dst.toList off' k' := by
  ext i hi
  rw [copyOut, copyOut, Vector.getElem_ofFn, Vector.getElem_ofFn, getD_toList _ (by omega),
    getD_toList _ (by omega), getElem_copyIn_of_notMem dst src (by omega) (by omega)]

/-- The bytes ahead of the copy stay. -/
theorem take_copyIn (dst : Vector UInt8 n) {off m : ℕ} (src : Vector UInt8 k) (hm : m ≤ off) :
    (copyIn dst off src).toList.take m = dst.toList.take m := by
  refine List.ext_getElem (by simp) fun i hi _ => ?_
  have him : i < m := by
    rw [List.length_take] at hi
    omega
  have hin : i < n := by
    rw [List.length_take, Vector.length_toList] at hi
    omega
  rw [List.getElem_take, List.getElem_take, Vector.getElem_toList, Vector.getElem_toList,
    getElem_copyIn_of_notMem dst src hin (by omega)]

theorem copyOut_toList (v : Vector UInt8 n) : copyOut v.toList 0 n = v := by
  ext i hi
  rw [copyOut, Vector.getElem_ofFn, Nat.zero_add, getD_toList v hi]

/-- What is read lies ahead of the seam. -/
theorem copyOut_append_left (a b : List UInt8) {off : ℕ} (h : off + k ≤ a.length) :
    copyOut (a ++ b) off k = copyOut a off k := by
  ext i hi
  rw [copyOut, copyOut, Vector.getElem_ofFn, Vector.getElem_ofFn, List.getD_eq_getElem?_getD,
    List.getD_eq_getElem?_getD, List.getElem?_append_left (by omega)]

/-- What is read lies behind the seam. -/
theorem copyOut_append_right (a b : List UInt8) {off : ℕ} (h : a.length ≤ off) :
    copyOut (a ++ b) off k = copyOut b (off - a.length) k := by
  ext i hi
  rw [copyOut, copyOut, Vector.getElem_ofFn, Vector.getElem_ofFn, List.getD_eq_getElem?_getD,
    List.getD_eq_getElem?_getD, List.getElem?_append_right (by omega), Nat.sub_add_comm h]

end Copy

/-! ### Byte order -/

/-- The bytes of a 64-bit word in memory, least significant first. -/
def le64 (x : UInt64) : Vector UInt8 8 :=
  #v[x.toUInt8, (x >>> 8).toUInt8, (x >>> 16).toUInt8, (x >>> 24).toUInt8, (x >>> 32).toUInt8,
    (x >>> 40).toUInt8, (x >>> 48).toUInt8, (x >>> 56).toUInt8]

/-- The 64-bit word with these bytes in memory. -/
def ofLe64 (b : Vector UInt8 8) : UInt64 :=
  b[0].toUInt64 ||| (b[1].toUInt64 <<< 8) ||| (b[2].toUInt64 <<< 16) ||| (b[3].toUInt64 <<< 24) |||
    (b[4].toUInt64 <<< 32) ||| (b[5].toUInt64 <<< 40) ||| (b[6].toUInt64 <<< 48) |||
    (b[7].toUInt64 <<< 56)

/-- The bytes of a 64-bit word, most significant first. -/
def be64 (x : UInt64) : Vector UInt8 8 :=
  #v[(x >>> 56).toUInt8, (x >>> 48).toUInt8, (x >>> 40).toUInt8, (x >>> 32).toUInt8,
    (x >>> 24).toUInt8, (x >>> 16).toUInt8, (x >>> 8).toUInt8, x.toUInt8]

/-- The 64-bit word with these bytes, most significant first. -/
def ofBe64 (b : Vector UInt8 8) : UInt64 :=
  (b[0].toUInt64 <<< 56) ||| (b[1].toUInt64 <<< 48) ||| (b[2].toUInt64 <<< 40) |||
    (b[3].toUInt64 <<< 32) ||| (b[4].toUInt64 <<< 24) ||| (b[5].toUInt64 <<< 16) |||
    (b[6].toUInt64 <<< 8) ||| b[7].toUInt64

/-- The bytes of a 32-bit word, least significant first. -/
def le32 (x : UInt32) : Vector UInt8 4 :=
  #v[x.toUInt8, (x >>> 8).toUInt8, (x >>> 16).toUInt8, (x >>> 24).toUInt8]

/-- The bytes of a 32-bit word, most significant first. -/
def be32 (x : UInt32) : Vector UInt8 4 :=
  #v[(x >>> 24).toUInt8, (x >>> 16).toUInt8, (x >>> 8).toUInt8, x.toUInt8]

/-- The 32-bit word with these bytes, least significant first. -/
def ofLe32 (b : Vector UInt8 4) : UInt32 :=
  b[0].toUInt32 ||| (b[1].toUInt32 <<< 8) ||| (b[2].toUInt32 <<< 16) ||| (b[3].toUInt32 <<< 24)

/-- The 32-bit word with these bytes, most significant first. -/
def ofBe32 (b : Vector UInt8 4) : UInt32 :=
  (b[0].toUInt32 <<< 24) ||| (b[1].toUInt32 <<< 16) ||| (b[2].toUInt32 <<< 8) ||| b[3].toUInt32

/-- `__builtin_bswap32`. -/
def bswap32 (x : UInt32) : UInt32 := ofLe32 (be32 x)

/-- The bytes of a 16-bit word, least significant first. -/
def le16 (x : UInt16) : Vector UInt8 2 := #v[x.toUInt8, (x >>> 8).toUInt8]

/-- The 16-bit word with these bytes, least significant first. -/
def ofLe16 (b : Vector UInt8 2) : UInt16 := b[0].toUInt16 ||| (b[1].toUInt16 <<< 8)

/-- The bytes of a 16-bit word, most significant first. -/
def be16 (x : UInt16) : Vector UInt8 2 := #v[(x >>> 8).toUInt8, x.toUInt8]

/-- The 16-bit word with these bytes, most significant first. -/
def ofBe16 (b : Vector UInt8 2) : UInt16 := (b[0].toUInt16 <<< 8) ||| b[1].toUInt16

/-- The bit `i` of a byte put back where it was taken from. -/
theorem getLsbD_byteAt {w : ℕ} (x : BitVec w) {s i : ℕ} (hi : i < w) :
    ((BitVec.setWidth w (BitVec.setWidth 8 (x >>> s))) <<< s).getLsbD i =
      (decide (s ≤ i ∧ i < s + 8) && x.getLsbD i) := by
  rw [BitVec.getLsbD_shiftLeft, BitVec.getLsbD_setWidth, BitVec.getLsbD_setWidth,
    BitVec.getLsbD_ushiftRight]
  by_cases hs : s ≤ i
  · have hsub : s + (i - s) = i := by omega
    rw [hsub]
    by_cases hi8 : i < s + 8
    · simp [hs, hi8, hi, show ¬i < s by omega, show i - s < w by omega,
        show i - s < 8 by omega]
    · simp [hs, hi8, hi, show ¬i < s by omega, show ¬i - s < 8 by omega]
  · simp [hs, show i < s by omega]

/-- The same for a 64-bit word. -/
theorem getLsbD_byte64 (x : UInt64) {s : UInt64} (hs : s.toNat < 64) {i : ℕ} (hi : i < 64) :
    ((x >>> s).toUInt8.toUInt64 <<< s).toBitVec.getLsbD i =
      (decide (s.toNat ≤ i ∧ i < s.toNat + 8) && x.toBitVec.getLsbD i) := by
  have hmod : (s.toBitVec % 64).toNat = s.toNat := Nat.mod_eq_of_lt hs
  rw [UInt64.toBitVec_shiftLeft, UInt8.toBitVec_toUInt64, UInt64.toBitVec_toUInt8,
    UInt64.toBitVec_shiftRight, BitVec.shiftLeft_eq', BitVec.ushiftRight_eq', hmod]
  exact getLsbD_byteAt x.toBitVec hi

/-- The byte `i` of a 64-bit word. -/
theorem getElem_le64 (x : UInt64) {i : ℕ} (hi : i < 8) :
    (le64 x)[i].toBitVec = (x.toBitVec >>> (i * 8)).setWidth 8 := by
  interval_cases i
  · exact (UInt64.toBitVec_toUInt8 x).trans (by simp)
  all_goals
    refine (UInt64.toBitVec_toUInt8 _).trans ?_
    rw [UInt64.toBitVec_shiftRight, BitVec.ushiftRight_eq']
    rfl

theorem ofLe64_le64 (x : UInt64) : ofLe64 (le64 x) = x := by
  apply UInt64.eq_of_toBitVec_eq
  apply BitVec.eq_of_getLsbD_eq
  intro i hi
  have h0 := getLsbD_byte64 x (s := 0) (by decide) hi
  rw [UInt64.shiftRight_zero, UInt64.shiftLeft_zero] at h0
  simp only [ofLe64, le64, Vector.getElem_mk, List.getElem_toArray, List.getElem_cons_zero,
    List.getElem_cons_succ, UInt64.toBitVec_or, BitVec.getLsbD_or, h0,
    getLsbD_byte64 x (s := 8) (by decide) hi, getLsbD_byte64 x (s := 16) (by decide) hi,
    getLsbD_byte64 x (s := 24) (by decide) hi, getLsbD_byte64 x (s := 32) (by decide) hi,
    getLsbD_byte64 x (s := 40) (by decide) hi, getLsbD_byte64 x (s := 48) (by decide) hi,
    getLsbD_byte64 x (s := 56) (by decide) hi]
  cases x.toBitVec.getLsbD i
  · simp
  · simp
    omega

theorem ofBe64_be64 (x : UInt64) : ofBe64 (be64 x) = x := by
  apply UInt64.eq_of_toBitVec_eq
  apply BitVec.eq_of_getLsbD_eq
  intro i hi
  have h0 := getLsbD_byte64 x (s := 0) (by decide) hi
  rw [UInt64.shiftRight_zero, UInt64.shiftLeft_zero] at h0
  simp only [ofBe64, be64, Vector.getElem_mk, List.getElem_toArray, List.getElem_cons_zero,
    List.getElem_cons_succ, UInt64.toBitVec_or, BitVec.getLsbD_or, h0,
    getLsbD_byte64 x (s := 8) (by decide) hi, getLsbD_byte64 x (s := 16) (by decide) hi,
    getLsbD_byte64 x (s := 24) (by decide) hi, getLsbD_byte64 x (s := 32) (by decide) hi,
    getLsbD_byte64 x (s := 40) (by decide) hi, getLsbD_byte64 x (s := 48) (by decide) hi,
    getLsbD_byte64 x (s := 56) (by decide) hi]
  cases x.toBitVec.getLsbD i
  · simp
  · simp
    omega

/-- The most significant byte first is the other order, backwards. -/
theorem reverse_be64 (x : UInt64) : (be64 x).reverse = le64 x := by
  simp only [be64, le64, Vector.reverse_mk, List.reverse_toArray, List.reverse_cons,
    List.reverse_nil, List.nil_append, List.cons_append]

theorem be64_inj {x y : UInt64} : be64 x = be64 y ↔ x = y := by
  refine ⟨fun h => ?_, congrArg be64⟩
  rw [← ofLe64_le64 x, ← ofLe64_le64 y, ← reverse_be64, ← reverse_be64, h]

/-- The same for a 32-bit word. -/
theorem getLsbD_byte32 (x : UInt32) {s : UInt32} (hs : s.toNat < 32) {i : ℕ} (hi : i < 32) :
    ((x >>> s).toUInt8.toUInt32 <<< s).toBitVec.getLsbD i =
      (decide (s.toNat ≤ i ∧ i < s.toNat + 8) && x.toBitVec.getLsbD i) := by
  have hmod : (s.toBitVec % 32).toNat = s.toNat := Nat.mod_eq_of_lt hs
  rw [UInt32.toBitVec_shiftLeft, UInt8.toBitVec_toUInt32, UInt32.toBitVec_toUInt8,
    UInt32.toBitVec_shiftRight, BitVec.shiftLeft_eq', BitVec.ushiftRight_eq', hmod]
  exact getLsbD_byteAt x.toBitVec hi

theorem ofLe32_le32 (x : UInt32) : ofLe32 (le32 x) = x := by
  apply UInt32.eq_of_toBitVec_eq
  apply BitVec.eq_of_getLsbD_eq
  intro i hi
  have h0 := getLsbD_byte32 x (s := 0) (by decide) hi
  rw [UInt32.shiftRight_zero, UInt32.shiftLeft_zero] at h0
  simp only [ofLe32, le32, Vector.getElem_mk, List.getElem_toArray, List.getElem_cons_zero,
    List.getElem_cons_succ, UInt32.toBitVec_or, BitVec.getLsbD_or, h0,
    getLsbD_byte32 x (s := 8) (by decide) hi, getLsbD_byte32 x (s := 16) (by decide) hi,
    getLsbD_byte32 x (s := 24) (by decide) hi]
  cases x.toBitVec.getLsbD i
  · simp
  · simp
    omega

theorem ofBe32_be32 (x : UInt32) : ofBe32 (be32 x) = x := by
  apply UInt32.eq_of_toBitVec_eq
  apply BitVec.eq_of_getLsbD_eq
  intro i hi
  have h0 := getLsbD_byte32 x (s := 0) (by decide) hi
  rw [UInt32.shiftRight_zero, UInt32.shiftLeft_zero] at h0
  simp only [ofBe32, be32, Vector.getElem_mk, List.getElem_toArray, List.getElem_cons_zero,
    List.getElem_cons_succ, UInt32.toBitVec_or, BitVec.getLsbD_or, h0,
    getLsbD_byte32 x (s := 8) (by decide) hi, getLsbD_byte32 x (s := 16) (by decide) hi,
    getLsbD_byte32 x (s := 24) (by decide) hi]
  cases x.toBitVec.getLsbD i
  · simp
  · simp
    omega

/-- A 32-bit word gives its bytes back. -/
theorem le32_ofLe32 (b : Vector UInt8 4) : le32 (ofLe32 b) = b := by
  have hbyte : ∀ (k : ℕ) (hk : k < 4) (i : ℕ), i < 8 →
      (ofLe32 b).toBitVec.getLsbD (8 * k + i) = b[k].toBitVec.getLsbD i := by
    intro k hk i hi
    simp only [ofLe32, UInt32.toBitVec_or, UInt32.toBitVec_shiftLeft, UInt8.toBitVec_toUInt32,
      BitVec.getLsbD_or, BitVec.shiftLeft_eq', BitVec.getLsbD_shiftLeft, BitVec.getLsbD_setWidth]
    interval_cases k <;> interval_cases i <;> simp
  have hshift : ∀ (k : ℕ) (hk : k < 4), ((ofLe32 b).toBitVec >>> (8 * k)).setWidth 8 =
      b[k].toBitVec := by
    intro k hk
    apply BitVec.eq_of_getLsbD_eq
    intro i hi
    rw [BitVec.getLsbD_setWidth, BitVec.getLsbD_ushiftRight, hbyte k hk i hi]
    simp [hi]
  have h0 := hshift 0 (by decide)
  rw [BitVec.ushiftRight_zero] at h0
  refine Vector.ext fun i hi => UInt8.toBitVec_inj.mp ?_
  interval_cases i
  · exact h0
  · exact hshift 1 (by decide)
  · exact hshift 2 (by decide)
  · exact hshift 3 (by decide)

/-- The two byte orders give the same word exactly when the bytes read the same in
both directions. -/
theorem ofLe32_be32_eq_iff (x : UInt32) :
    ofLe32 (be32 x) = x ↔
      (x >>> 24).toUInt8 = x.toUInt8 ∧ (x >>> 16).toUInt8 = (x >>> 8).toUInt8 := by
  have hinj : ofLe32 (be32 x) = x ↔ be32 x = le32 x := by
    constructor
    · intro h
      rw [← le32_ofLe32 (be32 x), h]
    · intro h
      rw [h, ofLe32_le32]
  rw [hinj, be32, le32, Vector.mk.injEq]
  constructor
  · intro h
    simp at h
    exact ⟨h.1, h.2.1⟩
  · rintro ⟨h1, h2⟩
    rw [h1, h2]

/-- The same for a 16-bit word. -/
theorem getLsbD_byte16 (x : UInt16) {s : UInt16} (hs : s.toNat < 16) {i : ℕ} (hi : i < 16) :
    ((x >>> s).toUInt8.toUInt16 <<< s).toBitVec.getLsbD i =
      (decide (s.toNat ≤ i ∧ i < s.toNat + 8) && x.toBitVec.getLsbD i) := by
  have hmod : (s.toBitVec % 16).toNat = s.toNat := Nat.mod_eq_of_lt hs
  rw [UInt16.toBitVec_shiftLeft, UInt8.toBitVec_toUInt16, UInt16.toBitVec_toUInt8,
    UInt16.toBitVec_shiftRight, BitVec.shiftLeft_eq', BitVec.ushiftRight_eq', hmod]
  exact getLsbD_byteAt x.toBitVec hi

theorem ofLe16_le16 (x : UInt16) : ofLe16 (le16 x) = x := by
  apply UInt16.eq_of_toBitVec_eq
  apply BitVec.eq_of_getLsbD_eq
  intro i hi
  have h0 := getLsbD_byte16 x (s := 0) (by decide) hi
  rw [UInt16.shiftRight_zero, UInt16.shiftLeft_zero] at h0
  simp only [ofLe16, le16, Vector.getElem_mk, List.getElem_toArray, List.getElem_cons_zero,
    List.getElem_cons_succ, UInt16.toBitVec_or, BitVec.getLsbD_or, h0,
    getLsbD_byte16 x (s := 8) (by decide) hi]
  cases x.toBitVec.getLsbD i
  · simp
  · simp
    omega

theorem ofBe16_be16 (x : UInt16) : ofBe16 (be16 x) = x := by
  rw [ofBe16, be16, UInt16.or_comm]
  exact ofLe16_le16 x

end Bytes

end Aegs
