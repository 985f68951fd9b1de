import Mathlib.Data.List.Basic
import Mathlib.Data.Nat.Basic

/-!
# Counter mode

A stream that is combined with the data place by place, in blocks of `n` places that are made
one by one from a counter. Data can be cut wherever a block ends
(`CounterMode.stream_append`), so that a loop that takes one block after the other
(`CounterMode.stream_eq_block_append`) does what is done place by place; and if combining twice
gives back what was there, so does the stream (`CounterMode.stream_stream`).
-/

namespace CounterMode

variable {α κ : Type} (op : α → κ → α)

/-- **The stream**: the place `i` is combined with the place `i % n` of the block `i / n`. -/
def stream (n : ℕ) (pad : ℕ → ℕ → κ) (data : List α) : List α :=
  data.mapIdx fun i b => op b (pad (i / n) (i % n))

variable {op} {n : ℕ} {pad : ℕ → ℕ → κ}

@[simp] theorem length_stream (data : List α) : (stream op n pad data).length = data.length :=
  List.length_mapIdx

@[simp] theorem getElem?_stream (data : List α) (i : ℕ) :
    (stream op n pad data)[i]? = data[i]?.map fun b => op b (pad (i / n) (i % n)) :=
  List.getElem?_mapIdx

/-- What undoes itself at a place undoes itself on the stream. -/
theorem stream_stream (hop : ∀ b k, op (op b k) k = b) (data : List α) :
    stream op n pad (stream op n pad data) = data := by
  refine List.ext_getElem? fun i => ?_
  rw [getElem?_stream, getElem?_stream]
  cases data[i]? with
  | none => rfl
  | some b => exact congrArg some (hop b _)

/-- **Data that are cut where a block ends.** -/
theorem stream_append (hn : 0 < n) {a : List α} {k : ℕ} (ha : a.length = n * k) (b : List α) :
    stream op n pad (a ++ b) = stream op n pad a ++ stream op n (fun j => pad (k + j)) b := by
  refine List.ext_getElem? fun i => ?_
  rcases lt_or_ge i a.length with hi | hi
  · rw [List.getElem?_append_left (by rwa [length_stream]), getElem?_stream, getElem?_stream,
      List.getElem?_append_left hi]
  · rw [List.getElem?_append_right (by rwa [length_stream]), getElem?_stream, getElem?_stream,
      List.getElem?_append_right hi, length_stream]
    obtain ⟨j, rfl⟩ := Nat.exists_eq_add_of_le hi
    rw [Nat.add_sub_cancel_left, ha, Nat.mul_add_div hn, Nat.mul_add_mod]

/-- A block, or the beginning of one. -/
theorem stream_of_length_le {data : List α} (h : data.length ≤ n) :
    stream op n pad data = data.mapIdx fun i b => op b (pad 0 i) := by
  refine List.ext_getElem? fun i => ?_
  rw [getElem?_stream, List.getElem?_mapIdx]
  rcases lt_or_ge i data.length with hi | hi
  · rw [Nat.div_eq_of_lt (Nat.lt_of_lt_of_le hi h), Nat.mod_eq_of_lt (Nat.lt_of_lt_of_le hi h)]
  · rw [List.getElem?_eq_none hi]
    rfl

/-- **The first block, and the rest** under the next counter: how a loop goes. -/
theorem stream_eq_block_append (hn : 0 < n) (data : List α) :
    stream op n pad data = ((data.take n).mapIdx fun i b => op b (pad 0 i)) ++
      stream op n (fun j => pad (1 + j)) (data.drop n) := by
  rcases lt_or_ge data.length n with hlt | hge
  · have hle := Nat.le_of_lt hlt
    rw [List.take_of_length_le hle, List.drop_eq_nil_of_le hle, stream_of_length_le hle]
    exact (List.append_nil _).symm
  · conv_lhs => rw [← List.take_append_drop n data]
    rw [stream_append hn (k := 1) (by rw [List.length_take]; omega),
      stream_of_length_le (List.length_take_le _ _)]

end CounterMode
