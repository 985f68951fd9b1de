import Mathlib.Algebra.Group.Nat.Defs
import Mathlib.Data.List.Basic
import Mathlib.Tactic.Common

/-!
# UTF-8 with replacement characters

Text is encoded strictly and decoded with replacement: where the bytes do not go on as
their lead byte asks, the part that does is replaced by one `U+FFFD`, and decoding goes on
behind it. This is how decoders do it that follow the practice recommended by Unicode.

`Utf8.decodeReplace_eq_iff` is about text that is cut off after as many *bytes* as it has
*characters*: it survives only if all its characters are ASCII, or all but the last, and
this one is the replacement character itself.
-/

namespace Utf8

/-- `U+FFFD`. -/
def replacementChar : Char := Char.ofNat 0xFFFD

/-- The bytes of a text. -/
def encode (text : List Char) : List UInt8 := text.flatMap String.utf8EncodeChar

/-- What a lead byte asks for: the number of continuation bytes, and the bounds of the
first of them. -/
def lead (b : ℕ) : Option (ℕ × ℕ × ℕ) :=
  if 0xC2 ≤ b ∧ b ≤ 0xDF then some (1, 0x80, 0xBF)
  else if b = 0xE0 then some (2, 0xA0, 0xBF)
  else if b = 0xED then some (2, 0x80, 0x9F)
  else if 0xE1 ≤ b ∧ b ≤ 0xEF then some (2, 0x80, 0xBF)
  else if b = 0xF0 then some (3, 0x90, 0xBF)
  else if b = 0xF4 then some (3, 0x80, 0x8F)
  else if 0xF1 ≤ b ∧ b ≤ 0xF3 then some (3, 0x80, 0xBF)
  else none

/-- The continuation bytes that are there, of those that are asked for. -/
def tails : ℕ → ℕ → ℕ → List UInt8 → List UInt8
  | 0, _, _, _ => []
  | _ + 1, _, _, [] => []
  | owed + 1, low, high, b :: bytes =>
    if low ≤ b.toNat ∧ b.toNat ≤ high then b :: tails owed 0x80 0xBF bytes else []

/-- The code point of a lead byte with its continuation bytes. -/
def codePoint (b : ℕ) (owed : ℕ) (continuation : List UInt8) : ℕ :=
  continuation.foldl (fun v byte => v * 64 + (byte.toNat - 0x80)) (b % 2 ^ (6 - owed))

/-- The first character, and how many of the bytes behind the first one it takes. -/
def decodeOne (b : UInt8) (bytes : List UInt8) : Char × ℕ :=
  if b.toNat < 0x80 then (Char.ofNat b.toNat, 0)
  else
    match lead b.toNat with
    | none => (replacementChar, 0)
    | some (owed, low, high) =>
      let continuation := tails owed low high bytes
      if continuation.length = owed then (Char.ofNat (codePoint b.toNat owed continuation), owed)
      else (replacementChar, continuation.length)

/-- The characters, by at most so many steps. -/
def decodeSteps : ℕ → List UInt8 → List Char
  | 0, _ => []
  | _ + 1, [] => []
  | n + 1, b :: bytes =>
    (decodeOne b bytes).1 :: decodeSteps n (bytes.drop (decodeOne b bytes).2)

/-- Decoding with replacement. -/
def decodeReplace (bytes : List UInt8) : List Char := decodeSteps bytes.length bytes

/-- An ASCII character. -/
def IsAscii (c : Char) : Prop := c.toNat < 0x80

instance : DecidablePred IsAscii := fun c => inferInstanceAs (Decidable (c.toNat < 0x80))

/-! ### Encoding -/

@[simp] theorem encode_nil : encode [] = [] := rfl

@[simp] theorem encode_cons (c : Char) (text : List Char) :
    encode (c :: text) = String.utf8EncodeChar c ++ encode text := List.flatMap_cons

@[simp] theorem encode_append (text text' : List Char) :
    encode (text ++ text') = encode text ++ encode text' := List.flatMap_append

theorem utf8EncodeChar_of_isAscii {c : Char} (h : IsAscii c) :
    String.utf8EncodeChar c = [UInt8.ofNat c.toNat] := by
  have hle : c.val.toNat ≤ 0x7f := Nat.lt_succ_iff.mp h
  rw [String.utf8EncodeChar]
  exact if_pos hle

theorem length_encode_of_isAscii {text : List Char} (h : ∀ c ∈ text, IsAscii c) :
    (encode text).length = text.length := by
  induction text with
  | nil => rfl
  | cons c text ih =>
    rw [encode_cons, utf8EncodeChar_of_isAscii (h c List.mem_cons_self), List.length_append,
      ih fun c hc => h c (List.mem_cons_of_mem _ hc)]
    simp [Nat.add_comm]

/-- A character has at least one byte. -/
theorem length_le_length_encode (text : List Char) : text.length ≤ (encode text).length := by
  induction text with
  | nil => exact Nat.le_refl _
  | cons c text ih =>
    have hpos := Char.utf8Size_pos c
    rw [encode_cons, List.length_append, String.length_utf8EncodeChar, List.length_cons]
    omega

/-- Two bytes in front of the rest, a lead byte and a continuation byte within its bounds. -/
def Leads (bytes : List UInt8) : Prop :=
  ∃ b b' rest owed low high, bytes = b :: b' :: rest ∧ 0x80 ≤ b.toNat ∧
    lead b.toNat = some (owed + 1, low, high) ∧ low ≤ b'.toNat ∧ b'.toNat ≤ high

/-- How two numbers below 256 lead. -/
theorem leads_of_toNat {n n' owed low high : ℕ} {rest : List UInt8} (hn : n < 256)
    (hn' : n' < 256) (hge : 0x80 ≤ n) (hlead : lead n = some (owed + 1, low, high))
    (hlow : low ≤ n') (hhigh : n' ≤ high) : Leads (UInt8.ofNat n :: UInt8.ofNat n' :: rest) := by
  have htoNat : (UInt8.ofNat n).toNat = n := Nat.mod_eq_of_lt hn
  have htoNat' : (UInt8.ofNat n').toNat = n' := Nat.mod_eq_of_lt hn'
  exact ⟨_, _, rest, owed, low, high, rfl, by omega, by rw [htoNat, hlead], by omega, by omega⟩

/-- **The bytes of a character that is not ASCII** lead. -/
theorem leads_utf8EncodeChar {c : Char} (h : ¬IsAscii c) : Leads (String.utf8EncodeChar c) := by
  have hlow : 0x80 ≤ c.val.toNat := Nat.le_of_not_lt h
  have hvalid : c.val.toNat < 0xD800 ∨ 0xDFFF < c.val.toNat ∧ c.val.toNat < 0x110000 := c.valid
  simp only [String.utf8EncodeChar]
  generalize c.val.toNat = v at hlow hvalid
  rw [if_neg (by omega)]
  split_ifs with htwo hthree
  · have hlead : lead (v / 64 % 32 + 0xC0) = some (0 + 1, 0x80, 0xBF) := by
      rw [lead, if_pos (by omega)]
    exact leads_of_toNat (by omega) (by omega) (by omega) hlead (by omega) (by omega)
  · -- three bytes: the first and the last block of `E0` to `EF` have bounds of their own
    rcases (by omega : v < 0x1000 ∨ v / 4096 = 0xD ∨ 0x1000 ≤ v ∧ v / 4096 ≠ 0xD) with
      hfirst | hlast | ⟨hge, hne⟩
    · have hlead : lead (v / 4096 % 16 + 0xE0) = some (1 + 1, 0xA0, 0xBF) := by
        rw [lead, if_neg (by omega), if_pos (by omega)]
      exact leads_of_toNat (by omega) (by omega) (by omega) hlead (by omega) (by omega)
    · have hlead : lead (v / 4096 % 16 + 0xE0) = some (1 + 1, 0x80, 0x9F) := by
        rw [lead, if_neg (by omega), if_neg (by omega), if_pos (by omega)]
      exact leads_of_toNat (by omega) (by omega) (by omega) hlead (by omega) (by omega)
    · have hlead : lead (v / 4096 % 16 + 0xE0) = some (1 + 1, 0x80, 0xBF) := by
        rw [lead, if_neg (by omega), if_neg (by omega), if_neg (by omega), if_pos (by omega)]
      exact leads_of_toNat (by omega) (by omega) (by omega) hlead (by omega) (by omega)
  · -- four bytes, and likewise for `F0` to `F4`
    rcases (by omega : v < 0x40000 ∨ v / 262144 = 4 ∨ 0x40000 ≤ v ∧ v / 262144 ≠ 4) with
      hfirst | hlast | ⟨hge, hne⟩
    · have hlead : lead (v / 262144 % 8 + 0xF0) = some (2 + 1, 0x90, 0xBF) := by
        rw [lead, if_neg (by omega), if_neg (by omega), if_neg (by omega), if_neg (by omega),
          if_pos (by omega)]
      exact leads_of_toNat (by omega) (by omega) (by omega) hlead (by omega) (by omega)
    · have hlead : lead (v / 262144 % 8 + 0xF0) = some (2 + 1, 0x80, 0x8F) := by
        rw [lead, if_neg (by omega), if_neg (by omega), if_neg (by omega), if_neg (by omega),
          if_neg (by omega), if_pos (by omega)]
      exact leads_of_toNat (by omega) (by omega) (by omega) hlead (by omega) (by omega)
    · have hlead : lead (v / 262144 % 8 + 0xF0) = some (2 + 1, 0x80, 0xBF) := by
        rw [lead, if_neg (by omega), if_neg (by omega), if_neg (by omega), if_neg (by omega),
          if_neg (by omega), if_neg (by omega), if_pos (by omega)]
      exact leads_of_toNat (by omega) (by omega) (by omega) hlead (by omega) (by omega)

/-! ### Decoding -/

/-- More steps than there are bytes change nothing. -/
theorem decodeSteps_of_le {n : ℕ} {bytes : List UInt8} (h : bytes.length ≤ n) :
    decodeSteps n bytes = decodeReplace bytes := by
  rw [decodeReplace]
  induction n using Nat.strongRecOn generalizing bytes with
  | ind n ih =>
    cases bytes with
    | nil =>
      cases n <;> rfl
    | cons b bytes =>
      obtain ⟨m, rfl⟩ : ∃ m, n = m + 1 := ⟨n - 1, by simp at h; omega⟩
      rw [List.length_cons] at h
      simp only [List.length_cons, decodeSteps]
      have hdrop : (bytes.drop (decodeOne b bytes).2).length ≤ bytes.length := by
        rw [List.length_drop]
        omega
      rw [ih m (by omega) (by omega)]
      rcases Nat.eq_or_lt_of_le (Nat.le_of_succ_le_succ h) with heq | hlt
      · subst heq
        rw [ih bytes.length (by omega) hdrop]
      · rw [ih bytes.length (by omega) hdrop]

@[simp] theorem decodeReplace_nil : decodeReplace [] = [] := rfl

theorem decodeReplace_cons (b : UInt8) (bytes : List UInt8) :
    decodeReplace (b :: bytes) =
      (decodeOne b bytes).1 :: decodeReplace (bytes.drop (decodeOne b bytes).2) := by
  rw [decodeReplace, List.length_cons, decodeSteps,
    decodeSteps_of_le (by rw [List.length_drop]; omega)]

/-- There are not more characters than bytes. -/
theorem length_decodeReplace_le (bytes : List UInt8) :
    (decodeReplace bytes).length ≤ bytes.length := by
  induction hlen : bytes.length using Nat.strongRecOn generalizing bytes with
  | ind n ih =>
    cases bytes with
    | nil => exact Nat.zero_le _
    | cons b bytes =>
      rw [List.length_cons] at hlen
      have hle := ih (bytes.drop (decodeOne b bytes).2).length
        (by rw [List.length_drop]; omega) _ rfl
      rw [decodeReplace_cons, List.length_cons]
      rw [List.length_drop] at hle
      omega

theorem decodeReplace_ascii {text : List Char} (h : ∀ c ∈ text, IsAscii c) (bytes : List UInt8) :
    decodeReplace (encode text ++ bytes) = text ++ decodeReplace bytes := by
  induction text with
  | nil => rfl
  | cons c text ih =>
    have hc := h c List.mem_cons_self
    have hbyte : (UInt8.ofNat c.toNat).toNat = c.toNat :=
      Nat.mod_eq_of_lt (Nat.lt_trans hc (by decide))
    have hone : ∀ bytes, decodeOne (UInt8.ofNat c.toNat) bytes = (c, 0) := by
      intro bytes
      rw [decodeOne, hbyte, if_pos (show c.toNat < 0x80 from hc), Char.ofNat_toNat]
    rw [encode_cons, utf8EncodeChar_of_isAscii hc, List.append_assoc, List.singleton_append,
      decodeReplace_cons, hone, List.drop_zero, List.cons_append,
      ih fun c hc => h c (List.mem_cons_of_mem _ hc)]

/-- The two bytes of a lead go into one character. -/
theorem length_decodeReplace_lt_of_leads {bytes : List UInt8} (h : Leads bytes) :
    (decodeReplace bytes).length < bytes.length := by
  obtain ⟨b, b', rest, owed, low, high, rfl, hge, hlead, hlow, hhigh⟩ := h
  have hused : 1 ≤ (decodeOne b (b' :: rest)).2 := by
    rw [decodeOne, if_neg (Nat.not_lt.mpr hge), hlead]
    simp only [tails, hlow, hhigh, and_self, if_true, List.length_cons]
    split <;> omega
  have hle := length_decodeReplace_le ((b' :: rest).drop (decodeOne b (b' :: rest)).2)
  rw [decodeReplace_cons, List.length_cons]
  rw [List.length_drop, List.length_cons] at hle
  simp only [List.length_cons]
  omega

/-- A lead byte on its own is replaced. -/
theorem decodeReplace_lead {b : UInt8} {owed low high : ℕ} (hge : 0x80 ≤ b.toNat)
    (hlead : lead b.toNat = some (owed + 1, low, high)) :
    decodeReplace [b] = [replacementChar] := by
  rw [decodeReplace_cons, decodeOne, if_neg (Nat.not_lt.mpr hge), hlead]
  simp [tails]

/-! ### Text cut off after as many bytes as it has characters -/

/-- **A text cut off after as many bytes as it has characters** is decoded to itself exactly
if it is ASCII, or if all but its last character are, and the last is `U+FFFD`. -/
theorem decodeReplace_eq_iff (text : List Char) (rest : List UInt8) :
    decodeReplace ((encode text ++ rest).take text.length) = text ↔
      (∀ c ∈ text, IsAscii c) ∨
        ∃ front, text = front ++ [replacementChar] ∧ ∀ c ∈ front, IsAscii c := by
  induction text with
  | nil => exact iff_of_true rfl (Or.inl fun c hc => nomatch hc)
  | cons c text ih =>
    by_cases hc : IsAscii c
    · -- an ASCII character is one byte, and does not change anything behind it
      have hself : decodeReplace ((encode (c :: text) ++ rest).take (c :: text).length) =
          c :: decodeReplace ((encode text ++ rest).take text.length) := by
        have hone := @decodeReplace_ascii [c] (by simpa using hc)
        rw [encode_cons, utf8EncodeChar_of_isAscii hc, List.length_cons]
        rw [encode_cons, utf8EncodeChar_of_isAscii hc, encode_nil] at hone
        exact hone _
      rw [hself, List.cons.injEq, ih]
      constructor
      · rintro ⟨-, hall | ⟨front, rfl, hfront⟩⟩
        · exact Or.inl (List.forall_mem_cons.mpr ⟨hc, hall⟩)
        · exact Or.inr ⟨c :: front, rfl, List.forall_mem_cons.mpr ⟨hc, hfront⟩⟩
      · rintro (hall | ⟨_ | ⟨c', front⟩, heq, hfront⟩)
        · exact ⟨rfl, Or.inl (List.forall_mem_cons.mp hall).2⟩
        · obtain ⟨rfl, -⟩ := List.cons.inj heq
          exact absurd hc (by decide)
        · obtain ⟨-, rfl⟩ := List.cons.inj heq
          exact ⟨rfl, Or.inr ⟨front, rfl, (List.forall_mem_cons.mp hfront).2⟩⟩
    · obtain ⟨b, b', more, owed, low, high, hencode, hge, hlead, hlow, hhigh⟩ :=
        leads_utf8EncodeChar hc
      have hnot : ¬∀ c' ∈ c :: text, IsAscii c' := fun hall => hc (hall c List.mem_cons_self)
      rw [encode_cons, hencode, List.cons_append, List.cons_append, List.cons_append,
        List.length_cons, List.take_succ_cons]
      cases text with
      | nil =>
        rw [List.length_nil, List.take_zero, decodeReplace_lead hge hlead, or_iff_right hnot]
        constructor
        · intro heq
          exact ⟨[], heq.symm, fun c hc => nomatch hc⟩
        · rintro ⟨_ | ⟨c', front⟩, heq, -⟩
          · exact heq.symm
          · exact absurd (List.cons.inj heq).2 (by simp)
      | cons c' text =>
        refine iff_of_false (fun heq => ?_) (not_or.mpr ⟨hnot, ?_⟩)
        · -- two of the bytes are one character, so that there are too few of them
          rw [List.cons_append, List.length_cons, List.take_succ_cons] at heq
          have hleads := congrArg List.length heq ▸ length_decodeReplace_lt_of_leads
            ⟨b, b', (more ++ encode (c' :: text) ++ rest).take text.length, owed, low, high, rfl,
              hge, hlead, hlow, hhigh⟩
          simp only [List.length_cons, List.length_take] at hleads
          omega
        · rintro ⟨_ | ⟨c'', front⟩, heq, hfront⟩
          · exact absurd (List.cons.inj heq).2 (by simp)
          · obtain ⟨rfl, -⟩ := List.cons.inj heq
            exact hc (hfront c List.mem_cons_self)

end Utf8
