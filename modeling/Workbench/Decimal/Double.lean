/-!
# Double precision numbers

A finite number of 64 bits, held exactly: a sign, a significand of at most 53 bits and a power of
two.  The operations round to the nearest such number, a half to the even neighbour.

* `roundDiv` is the rounding of a quotient, with its law `roundDiv_within_half`;
* `Double.ofRatio?` rounds a quotient of natural numbers to a double, and says when it is too large;
* `Double.mul?` and `Double.div?` are the product and the quotient, each rounded once.
-/

namespace Workbench

/-! ## 1. Rounding a quotient -/

/-- The natural number nearest to `num / den`; a half goes to the even neighbour. -/
def roundDiv (num den : Nat) : Nat :=
  let q := num / den
  let r := num % den
  if 2 * r < den then q
  else if den < 2 * r then q + 1
  else if q % 2 == 0 then q
  else q + 1

/-- The rounded quotient is at most half a unit away. -/
theorem roundDiv_within_half {num den : Nat} (h : 0 < den) :
    2 * (roundDiv num den * den) ≤ 2 * num + den ∧
      2 * num ≤ 2 * (roundDiv num den * den) + den := by
  have hdiv := Nat.div_add_mod num den
  have hlt := Nat.mod_lt num h
  have hcomm : den * (num / den) = num / den * den := Nat.mul_comm _ _
  have hsucc : (num / den + 1) * den = num / den * den + den := Nat.succ_mul _ _
  simp only [roundDiv]
  split
  · constructor <;> omega
  · split
    · constructor <;> omega
    · split <;> constructor <;> omega

/-! ## 2. The type -/

/-- The number `± significand · 2 ^ scale / 2 ^ 1074`.  The significand has at most 53 bits, and
exactly 53 unless the scale is zero, so each number but zero has one form; zero has two, by its
sign. -/
structure Double where
  negative : Bool
  significand : Nat
  scale : Nat
  deriving DecidableEq, Repr, Inhabited

namespace Double

/-- The largest scale of a finite number. -/
def maxScale : Nat := 2045

/-- Zero with a sign. -/
def zero (negative : Bool) : Double := ⟨negative, 0, 0⟩

/-- The number is zero, of either sign. -/
def isZero (d : Double) : Bool := d.significand == 0

/-- The number with the other sign. -/
def neg (d : Double) : Double := { d with negative := !d.negative }

/-! ## 3. Rounding to a double -/

/-- The double nearest to `num / den`, of the given sign; nothing if it exceeds the largest finite
number. -/
def ofRatio? (negative : Bool) (num den : Nat) : Option Double :=
  let units := num * Nat.pow 2 1074
  let whole := units / den
  let scale := if whole < Nat.pow 2 53 then 0 else whole.log2 - 52
  let m := roundDiv units (den * Nat.pow 2 scale)
  let (m, scale) := if m == Nat.pow 2 53 then (Nat.pow 2 52, scale + 1) else (m, scale)
  if scale > maxScale then none else some ⟨negative, m, scale⟩

/-- The double nearest to a natural number below the largest finite double. -/
def ofNat (n : Nat) : Double :=
  (ofRatio? false n 1).getD (zero false)

/-- The product of two doubles. -/
def mul? (a b : Double) : Option Double :=
  ofRatio? (a.negative != b.negative)
    (a.significand * b.significand * Nat.pow 2 (a.scale + b.scale)) (Nat.pow 2 2148)

/-- The quotient of two doubles, the second not zero. -/
def div? (a b : Double) : Option Double :=
  ofRatio? (a.negative != b.negative) (a.significand * Nat.pow 2 a.scale)
    (b.significand * Nat.pow 2 b.scale)

end Double
end Workbench
