import Workbench.Decimal.Double

/-!
# The shortest decimal of a double

The decimal text of a double has as few digits as any decimal that reads back to it, and among
those it is the nearest.  `Double.shortest` finds the digits; `Double.text` writes them: in
positional form from a hundred thousandth up to below ten million millions thousandfold (`10 ^ 16`),
always with a digit after the point, and with a signed exponent elsewhere.
-/

namespace Workbench
namespace Double

/-! ## 1. Digits -/

/-- A decimal `digits · 10 ^ (places - 400)`. -/
structure Scientific where
  digits : Nat
  places : Nat
  deriving DecidableEq, Repr

/-- The bounds of the numbers that round to a double, and the double itself, all three as
numerators over `2 ^ 1076`, and whether the bounds belong to them. -/
def neighbourhood (d : Double) : Nat × Nat × Nat × Bool :=
  let unit := Nat.pow 2 d.scale
  let value := 4 * d.significand * unit
  let below := if d.significand == Nat.pow 2 52 && d.scale != 0 then unit else 2 * unit
  (value - below, value, value + 2 * unit, d.significand % 2 == 0)

/-- The decimal `digits · 10 ^ (places - 400)` rounds to the double. -/
def readsBack (d : Double) (digits places : Nat) : Bool :=
  let (low, _, high, closed) := d.neighbourhood
  let x := digits * Nat.pow 10 places * Nat.pow 2 1076
  let low := low * Nat.pow 10 400
  let high := high * Nat.pow 10 400
  if closed then low ≤ x && x ≤ high else low < x && x < high

/-- The decimal nearest to the double among its two neighbours on the grid `10 ^ (places - 400)`
that read back; of two that are equally near, the one with the even last digit. -/
def nearestOn? (d : Double) (places : Nat) : Option Nat :=
  let value := d.neighbourhood.2.1 * Nat.pow 10 400
  let step := Nat.pow 10 places * Nat.pow 2 1076
  let lower := value / step
  let rest := value % step
  match d.readsBack lower places && lower != 0, d.readsBack (lower + 1) places with
  | true, true =>
    if 2 * rest < step || (2 * rest == step && lower % 2 == 0) then some lower
    else some (lower + 1)
  | true, false => some lower
  | false, true => some (lower + 1)
  | false, false => none

/-- The place, counted from `10 ^ (-400)`, of the leading digit of a double. -/
def leadingPlace (d : Double) : Nat :=
  let value := d.neighbourhood.2.1 * Nat.pow 10 400 / Nat.pow 2 1076
  (Nat.toDigits 10 value).length - 1

/-- The first grid, from the coarsest, that holds a decimal which reads back; `n` more grids are
tried. -/
def shortestFrom (d : Double) : Nat → Nat → Scientific
  | 0, places => ⟨(d.nearestOn? places).getD 0, places⟩
  | n + 1, places =>
    match d.nearestOn? places with
    | some digits => ⟨digits, places⟩
    | none => d.shortestFrom n (places - 1)

/-- The shortest decimal of a double. -/
def shortest (d : Double) : Scientific :=
  d.shortestFrom 17 (d.leadingPlace + 1)

/-! ## 2. Text -/

/-- A number of zeros. -/
def zeros (n : Nat) : String := String.ofList (List.replicate n '0')

/-- The digits of a decimal without the zeros at its end, and their count. -/
def trimZeros : List Char → List Char
  | [] => []
  | c :: r =>
    match trimZeros r with
    | [] => if c == '0' then [] else [c]
    | t => c :: t

/-- The unsigned text of a decimal whose first digit stands for `10 ^ exponent`. -/
def layout (digits : List Char) (exponent : Int) : String :=
  let n := digits.length
  if 0 ≤ exponent && exponent < 16 then
    let whole := exponent.toNat + 1
    if n ≤ whole then String.ofList digits ++ zeros (whole - n) ++ ".0"
    else String.ofList (digits.take whole) ++ "." ++ String.ofList (digits.drop whole)
  else if -5 ≤ exponent && exponent < 0 then
    "0." ++ zeros ((-exponent).toNat - 1) ++ String.ofList digits
  else
    let tail := if n ≤ 1 then "" else "." ++ String.ofList (digits.drop 1)
    let sign := if exponent < 0 then "e-" else "e+"
    String.ofList (digits.take 1) ++ tail ++ sign ++ toString exponent.natAbs

/-- The text of a double. -/
def text (d : Double) : String :=
  let sign := if d.negative then "-" else ""
  if d.isZero then sign ++ "0.0"
  else
    let s := d.shortest
    let all := Nat.toDigits 10 s.digits
    sign ++ layout (trimZeros all) ((s.places : Int) - 400 + (all.length : Int) - 1)

end Double
end Workbench
