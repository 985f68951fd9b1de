import Mathlib.Algebra.Order.Ring.Rat

/-!
# Arithmetic that rounds

The operations on `double` are rounded, so that few laws of the rationals are left: a
tenth is not a tenth, a sum depends on its order, and a NaN does not even equal itself.
What survives is the order. Rounding is monotone, so a difference is monotone in both
arguments, and with gradual underflow a difference is positive where its arguments are
apart. `Double` states this much and leaves the operations open (`Double.rounded`); of a NaN it
says nothing, since nothing compares with it.
-/

/-- **The arithmetic of `double`**, with the laws that rounding leaves. -/
class Double (F : Type) extends Add F, Sub F, Mul F, Div F, LE F, LT F where
  /-- The value of a literal of the source. -/
  literal : ℚ → F
  /-- `<=`. -/
  decLe : ∀ x y : F, Decidable (x ≤ y)
  /-- `<`. -/
  decLt : ∀ x y : F, Decidable (x < y)
  /-- The order is transitive. -/
  le_trans : ∀ {x y z : F}, x ≤ y → y ≤ z → x ≤ z
  /-- What compares is not a NaN. -/
  le_self : ∀ {x y : F}, x ≤ y → y ≤ y
  /-- `<` is stricter than `<=`. -/
  le_of_lt : ∀ {x y : F}, x < y → x ≤ y
  /-- A difference is monotone. -/
  lt_sub_of_le : ∀ {x y z b : F}, x ≤ y → b < x - z → b < y - z
  /-- It is antitone in what is subtracted. -/
  lt_sub_of_ge : ∀ {x y z b : F}, x ≤ y → b < z - y → b < z - x
  /-- Underflow is gradual: a difference that is not positive is of equal numbers. -/
  le_of_sub : ∀ {x y : F}, y ≤ x → ¬literal 0 < x - y → x ≤ y
  /-- A number less itself is zero, or a NaN. -/
  not_lt_sub_self : ∀ {q : ℚ} (x : F), 0 ≤ q → ¬literal q < x - x

namespace Double

instance {F : Type} [Double F] (x y : F) : Decidable (x ≤ y) := decLe x y

instance {F : Type} [Double F] (x y : F) : Decidable (x < y) := decLt x y

/-- **Monotone rounding** of exact arithmetic keeps the laws, as long as it rounds nothing
positive to zero. -/
@[reducible] def rounded (round : ℚ → ℚ) (hmono : ∀ {x y}, x ≤ y → round x ≤ round y)
    (hzero : round 0 = 0) (hpos : ∀ {x}, 0 < x → 0 < round x) : Double ℚ where
  add x y := round (x + y)
  sub x y := round (x - y)
  mul x y := round (x * y)
  div x y := round (x / y)
  literal := round
  decLe := inferInstance
  decLt := inferInstance
  le_trans := fun hxy hyz => hxy.trans hyz
  le_self := fun _ => le_rfl
  le_of_lt := fun hlt => hlt.le
  lt_sub_of_le := fun hle hlt => hlt.trans_le (hmono (sub_le_sub_right hle _))
  lt_sub_of_ge := fun hle hlt => hlt.trans_le (hmono (sub_le_sub_left hle _))
  le_of_sub := fun _ hnot => by
    by_contra hlt
    refine hnot ?_
    rw [hzero]
    exact hpos (sub_pos.mpr (not_le.mp hlt))
  not_lt_sub_self := fun x hq => by
    show ¬round _ < round (x - x)
    rw [sub_self]
    exact not_lt.mpr (hmono hq)

/-- **Exact arithmetic** rounds nothing. -/
instance exact : Double ℚ := rounded id (fun h => h) rfl fun h => h

end Double
