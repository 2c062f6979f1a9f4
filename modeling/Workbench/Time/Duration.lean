/-!
# Durations

A length of time in nanoseconds, and its text: the largest of the units second, millisecond,
microsecond and nanosecond that is not larger than the duration, with as many decimal places as
needed and no more.
-/

namespace Workbench

/-- A length of time. -/
structure Duration where
  nanos : Nat
  deriving DecidableEq, Repr, Inhabited

namespace Duration

/-- A number of seconds. -/
def ofSeconds (n : Nat) : Duration := ⟨n * 1000000000⟩

/-- A number of milliseconds. -/
def ofMillis (n : Nat) : Duration := ⟨n * 1000000⟩

/-- A number of microseconds. -/
def ofMicros (n : Nat) : Duration := ⟨n * 1000⟩

/-- The whole seconds. -/
def seconds (d : Duration) : Nat := d.nanos / 1000000000

/-- The duration is zero. -/
def isZero (d : Duration) : Bool := d.nanos == 0

/-- Characters without the zeros at their end. -/
def dropZeros : List Char → List Char
  | [] => []
  | c :: r =>
    match dropZeros r with
    | [] => if c == '0' then [] else [c]
    | t => c :: t

/-- A number written with exactly `width` digits, the leading ones zero. -/
def padded (width n : Nat) : List Char :=
  let digits := Nat.toDigits 10 n
  List.replicate (width - digits.length) '0' ++ digits

/-- A count of nanoseconds in a unit of `10 ^ places` nanoseconds. -/
def inUnit (nanos places : Nat) (unit : String) : String :=
  let whole := toString (nanos / Nat.pow 10 places)
  let part := nanos % Nat.pow 10 places
  let places := if part == 0 then [] else dropZeros (padded places part)
  if places.isEmpty then whole ++ unit else whole ++ "." ++ String.ofList places ++ unit

/-- The text of a duration. -/
def text (d : Duration) : String :=
  if 1000000000 ≤ d.nanos then inUnit d.nanos 9 "s"
  else if 1000000 ≤ d.nanos then inUnit d.nanos 6 "ms"
  else if 1000 ≤ d.nanos then inUnit d.nanos 3 "µs"
  else inUnit d.nanos 0 "ns"

end Duration
end Workbench
