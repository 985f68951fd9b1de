import Mathlib.Data.Nat.Bitwise
import Mathlib.Data.List.Induction
import Aegs.Lib.SlidingWindow

/-!
# The anti-replay filter

`AntiReplayFilterT<BITMAP_WORDS>` of `network_security.h`: the highest sequence
number committed and a ring of 64-bit words, recycled modulo the number of words.
The two branches of the template (`BITMAP_WORDS == 1` and more) keep the bitmap
differently and are both here: with one word the bits are distances below the
highest number, with more they are absolute positions in the ring.

Sequence numbers and words are `UInt64`. `WINDOW_SIZE` and the word numbers of
the clearing loop are natural numbers: a word number is below `2 ^ 58`, and
`BITMAP_WORDS * 64` only wraps for a bitmap larger than any address space.
-/

namespace Aegs

/-- The `static_assert` on the template argument: a power of two. -/
class BitmapWords (W : ℕ) : Prop where
  /-- `BITMAP_WORDS > 0`. -/
  pos : 0 < W
  /-- `(BITMAP_WORDS & (BITMAP_WORDS - 1)) == 0`. -/
  mask : W &&& (W - 1) = 0

instance : BitmapWords 1 := ⟨by decide, by decide⟩

instance : BitmapWords 16 := ⟨by decide, by decide⟩

instance : BitmapWords 32 := ⟨by decide, by decide⟩

theorem BitmapWords.exists_pow (W : ℕ) [BitmapWords W] : ∃ k, W = 2 ^ k :=
  (Nat.and_sub_one_eq_zero_iff_isPowerOfTwo (BitmapWords.pos (W := W)).ne').mp BitmapWords.mask

/-- The state of a filter: `last_seq_` and `bitmap_`. -/
structure AntiReplayFilterT (W : ℕ) where
  /-- The highest sequence number committed. -/
  lastSeq : UInt64
  /-- The ring of words. -/
  bitmap : Vector UInt64 W
deriving DecidableEq, Repr

namespace AntiReplayFilterT

variable {W : ℕ}

/-- `WINDOW_SIZE`. -/
def windowSize (W : ℕ) : ℕ := W * 64

/-- `reset()`, and the state a filter is constructed in. -/
def reset : AntiReplayFilterT W := ⟨0, Vector.replicate W 0⟩

/-- The ring slot of a word number: `w & (BITMAP_WORDS - 1)`. -/
def slot (W : ℕ) (w : ℕ) : ℕ := w &&& (W - 1)

/-- `bitmap_[i]`. -/
def word (b : Vector UInt64 W) (i : ℕ) : UInt64 := b[i]?.getD 0

/-- `bitmap_[i] = v`. -/
def setWord (b : Vector UInt64 W) (i : ℕ) (v : UInt64) : Vector UInt64 W := b.setIfInBounds i v

/-- The loop `for (w = last_word + 1; w <= curr_word; ++w) bitmap_[w & mask] = 0`. -/
def clearWords (b : Vector UInt64 W) (lastWord currWord : ℕ) : Vector UInt64 W :=
  (List.range' (lastWord + 1) (currWord - lastWord)).foldl (fun b w => setWord b (slot W w) 0) b

/-- `check_peek`: `true` rejects `seq` as a replay or as too old. Nothing is
written. -/
def checkPeek (f : AntiReplayFilterT W) (seq : UInt64) : Bool :=
  if seq = 0 then true
  else if W = 1 then
    if seq > f.lastSeq then false
    else
      let diff := f.lastSeq - seq
      if diff ≥ 64 then true
      else if word f.bitmap 0 &&& (1 <<< diff) ≠ 0 then true
      else false
  else
    if seq > f.lastSeq then false
    else
      let diff := f.lastSeq - seq
      if diff.toNat ≥ windowSize W ∨ ((f.lastSeq >>> 6) - (seq >>> 6)).toNat ≥ W then true
      else if word f.bitmap (slot W (seq >>> 6).toNat) &&& (1 <<< (seq &&& 63)) ≠ 0 then true
      else false

/-- `update_commit`: mark `seq`, sliding the window when it is ahead. -/
def updateCommit (f : AntiReplayFilterT W) (seq : UInt64) : AntiReplayFilterT W :=
  if seq = 0 then f
  else if W = 1 then
    if seq > f.lastSeq then
      let diff := seq - f.lastSeq
      { lastSeq := seq
        bitmap := setWord f.bitmap 0 (if diff < 64 then (word f.bitmap 0 <<< diff) ||| 1 else 1) }
    else
      let diff := f.lastSeq - seq
      if diff < 64 then
        { f with bitmap := setWord f.bitmap 0 (word f.bitmap 0 ||| (1 <<< diff)) }
      else f
  else
    let i := slot W (seq >>> 6).toNat
    if seq > f.lastSeq then
      let diff := seq - f.lastSeq
      let b :=
        if diff.toNat ≥ windowSize W then Vector.replicate W 0
        else clearWords f.bitmap (f.lastSeq >>> 6).toNat (seq >>> 6).toNat
      { lastSeq := seq, bitmap := setWord b i (word b i ||| (1 <<< (seq &&& 63))) }
    else
      let diff := f.lastSeq - seq
      if diff.toNat < windowSize W ∧ ((f.lastSeq >>> 6) - (seq >>> 6)).toNat < W then
        { f with bitmap := setWord f.bitmap i (word f.bitmap i ||| (1 <<< (seq &&& 63))) }
      else f

/-- `check_and_update`: `true` rejects; otherwise `seq` is committed. -/
def checkAndUpdate (f : AntiReplayFilterT W) (seq : UInt64) : Bool × AntiReplayFilterT W :=
  if f.checkPeek seq then (true, f) else (false, f.updateCommit seq)

end AntiReplayFilterT

/-- `AntiReplayFilter`, the 2048-packet filter of a session. -/
abbrev AntiReplayFilter := AntiReplayFilterT 32

end Aegs
