import Mathlib.Data.List.Basic

/-!
# Buffers with checked accesses

A read or a write that would leave its buffer has no result, so that a program that always
has one accesses nothing else.

Encoders write one piece behind the other: if the pieces fit, what they leave is what they
wrote and, behind it, what the buffer held before (`Checked.writeAll_eq_some`).
-/

namespace Checked

variable {α : Type*}

/-- So many elements from an offset on. -/
def read (src : List α) (off len : ℕ) : Option (List α) :=
  if off + len ≤ src.length then some ((src.drop off).take len) else none

/-- One element. -/
def read1 (src : List α) (i : ℕ) : Option α := src[i]?

/-- A buffer and the offset of the next write. -/
structure Writer (α : Type*) where
  /-- The buffer. -/
  buf : List α
  /-- Where the next piece goes. -/
  off : ℕ

/-- A buffer of `n` elements `x`. -/
def Writer.new (n : ℕ) (x : α) : Writer α := ⟨List.replicate n x, 0⟩

/-- A piece is written, and the offset is moved behind it. -/
def Writer.write (w : Writer α) (src : List α) : Option (Writer α) :=
  if w.off + src.length ≤ w.buf.length then
    some ⟨w.buf.take w.off ++ src ++ w.buf.drop (w.off + src.length), w.off + src.length⟩
  else none

/-- The pieces are written one behind the other. -/
def writeAll (w : Writer α) (pieces : List (List α)) : Option (Writer α) :=
  pieces.foldlM Writer.write w

/-! ### Reads -/

/-- A read inside the buffer has a result of its length. -/
theorem read_eq_some {src : List α} {off len : ℕ} (h : off + len ≤ src.length) :
    ∃ out, read src off len = some out ∧ out.length = len := by
  refine ⟨_, if_pos h, ?_⟩
  rw [List.length_take, List.length_drop]
  omega

/-- An element inside the buffer is read. -/
theorem read1_eq_some {src : List α} {i : ℕ} (h : i < src.length) :
    ∃ x, read1 src i = some x := ⟨src[i], List.getElem?_eq_getElem h⟩

/-! ### Writes -/

@[simp] theorem writeAll_nil (w : Writer α) : writeAll w [] = some w := rfl

theorem writeAll_cons (w : Writer α) (src : List α) (pieces : List (List α)) :
    writeAll w (src :: pieces) = (w.write src).bind fun w' => writeAll w' pieces := by
  rw [writeAll, List.foldlM_cons]
  rfl

/-- The state behind what was written: the bytes, and the rest of the old buffer. -/
theorem write_append {old bytes src : List α} (h : bytes.length + src.length ≤ old.length) :
    Writer.write ⟨bytes ++ old.drop bytes.length, bytes.length⟩ src =
      some ⟨bytes ++ src ++ old.drop (bytes ++ src).length, (bytes ++ src).length⟩ := by
  have hlen : (bytes ++ old.drop bytes.length).length = old.length := by
    rw [List.length_append, List.length_drop]
    omega
  rw [Writer.write, hlen, if_pos h, List.take_left, List.drop_append, List.drop_eq_nil_of_le
    (Nat.le_add_right _ _), List.nil_append, Nat.add_sub_cancel_left, List.drop_drop,
    List.length_append]

/-- Behind what was written, pieces that fit are written too. -/
theorem writeAll_append (old bytes : List α) (pieces : List (List α))
    (h : bytes.length + pieces.flatten.length ≤ old.length) :
    writeAll ⟨bytes ++ old.drop bytes.length, bytes.length⟩ pieces =
      some ⟨bytes ++ pieces.flatten ++ old.drop (bytes ++ pieces.flatten).length,
        (bytes ++ pieces.flatten).length⟩ := by
  induction pieces generalizing bytes with
  | nil => simp
  | cons src pieces ih =>
    rw [List.flatten_cons, List.length_append] at h
    have hrest : (bytes ++ src).length + pieces.flatten.length ≤ old.length := by
      rw [List.length_append]
      omega
    rw [writeAll_cons, write_append (by omega), Option.bind_some, ih _ hrest, List.flatten_cons,
      List.append_assoc bytes src]

/-- **Pieces that fit are written in their order**, and what is behind them stays. -/
theorem writeAll_eq_some {pieces : List (List α)} {n : ℕ} {x : α}
    (h : pieces.flatten.length ≤ n) :
    writeAll (.new n x) pieces =
      some ⟨pieces.flatten ++ List.replicate (n - pieces.flatten.length) x,
        pieces.flatten.length⟩ := by
  have hall := writeAll_append (List.replicate n x) [] pieces (by simpa using h)
  simpa [Writer.new] using hall

/-- A write does not change the size of the buffer, and moves the offset by its length. -/
theorem length_of_write {w w' : Writer α} {src : List α} (h : w.write src = some w') :
    w'.buf.length = w.buf.length ∧ w'.off = w.off + src.length ∧
      w.off + src.length ≤ w.buf.length := by
  rw [Writer.write] at h
  split at h
  · rename_i hle
    obtain rfl := Option.some.inj h
    refine ⟨?_, rfl, hle⟩
    simp only [List.length_append, List.length_take, List.length_drop]
    omega
  · exact absurd h (by simp)

/-- A piece that fits is written. -/
theorem write_eq_some {w : Writer α} {src : List α} (h : w.off + src.length ≤ w.buf.length) :
    ∃ w', w.write src = some w' ∧ w'.buf.length = w.buf.length := by
  obtain ⟨w', hw⟩ : ∃ w', w.write src = some w' := ⟨_, if_pos h⟩
  exact ⟨w', hw, (length_of_write hw).1⟩

end Checked
