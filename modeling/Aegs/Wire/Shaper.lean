import Mathlib.Data.Nat.Notation
import Mathlib.Tactic.Common

/-!
# Padding and junk

How long a data packet gets, beyond what it carries: `semantic_pad` of the traffic
shaper pads a frame to one of two sizes, with a jitter, and `generate_junk_len` draws the
length of the junk between the header and the nonce.

What is drawn at random is an argument. A `uniform_int_distribution` over an interval is
its distance from the lower end.
-/

namespace Aegs

namespace Wire

/-- `FRAME_HDR`. -/
def frameHdr : ℕ := 2

/-- What `semantic_pad` draws. -/
structure ShaperDraws where
  /-- `pct_dist`. -/
  pct : Fin 100
  /-- `med_dist`, from `kMediumLow` to `kMediumHigh`. -/
  medium : Fin 257
  /-- The jitter of a small packet, from `-kSmallJitter` to `kSmallJitter`. -/
  smallJitter : Fin 33
  /-- `small_pad`. -/
  smallPad : Fin 33
  /-- The jitter of a large packet, from `-kLargeJitter` to `kLargeJitter`. -/
  largeJitter : Fin 65

/-- The padding of a frame of `total` bytes to a target. -/
def padTo (target total : ℕ) : ℕ := if total ≥ target then 0 else target - total

theorem padTo_eq (target total : ℕ) : padTo target total = target - total := by
  rw [padTo]
  split <;> omega

/-- `semantic_pad`, of a shaper that has it enabled or not. -/
def semanticPad (enabled : Bool) (d : ShaperDraws) (payloadLen : ℕ) : ℕ :=
  if ¬enabled then 0
  else
    let total := frameHdr + payloadLen
    if d.pct < 5 then padTo (512 + d.medium.val) total
    else if payloadLen ≤ 200 then padTo (256 - 16 + d.smallJitter.val) total
    else if total ≥ 1350 then d.smallPad.val
    else padTo (1350 - 32 + d.largeJitter.val) total

/-- `generate_junk_len`, with the byte it draws if the library has one. -/
def generateJunkLen : Option UInt8 → ℕ
  | none => 0
  | some b => if b < 50 then 16 + b.toNat % 49 else 0

theorem generateJunkLen_le (b : Option UInt8) : generateJunkLen b ≤ 64 := by
  rcases b with _ | b
  · exact Nat.zero_le 64
  · rw [generateJunkLen]
    split <;> omega

theorem semanticPad_le (d : ShaperDraws) (payloadLen : ℕ) :
    semanticPad true d payloadLen ≤ 1382 := by
  simp only [semanticPad, padTo_eq]
  split
  · contradiction
  · split
    · omega
    · split
      · omega
      · split
        · omega
        · omega

/-- A small payload is not padded beyond the medium size. -/
theorem semanticPad_small (d : ShaperDraws) {payloadLen : ℕ} (h : payloadLen ≤ 200) :
    frameHdr + payloadLen + semanticPad true d payloadLen ≤ 768 := by
  simp only [semanticPad, frameHdr, padTo_eq, h, if_true]
  split
  · contradiction
  · split
    · omega
    · omega

/-- **A shaped frame has more than 202 bytes**: a small one is padded to 240, a large one
is that long by itself. -/
theorem lt_semanticPad (d : ShaperDraws) (payloadLen : ℕ) :
    202 < frameHdr + payloadLen + semanticPad true d payloadLen := by
  simp only [semanticPad, frameHdr, padTo_eq]
  split
  · contradiction
  · split
    · omega
    · split
      · omega
      · omega

end Wire

end Aegs
