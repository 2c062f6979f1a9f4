import Workbench.Text.Blank
import Workbench.Time.Duration

/-!
# Points in time

A date and a time of day in universal time, its text after RFC 3339 and the reading of such a text.
The text has no fraction, or one of three, six or nine digits, whichever is enough.  Reading is
lenient: blanks may stand before the numbers and separators, a space or a lower-case letter may
stand for the `T`, the offset may lack its colon, and digits beyond the ninth of a fraction are
dropped.  The second 60 is a leap second.
-/

namespace Workbench

/-- A point in time, in universal time. -/
structure Timestamp where
  year : Int
  month : Nat
  day : Nat
  hour : Nat
  minute : Nat
  second : Nat
  nanos : Nat
  deriving DecidableEq, Repr, Inhabited

namespace Timestamp

/-! ## 1. The calendar -/

/-- A leap year of the Gregorian calendar. -/
def isLeapYear (y : Int) : Bool :=
  y % 4 == 0 && (y % 100 != 0 || y % 400 == 0)

/-- The number of days of a month. -/
def daysInMonth (y : Int) (m : Nat) : Nat :=
  if m == 2 then (if isLeapYear y then 29 else 28)
  else if m == 4 || m == 6 || m == 9 || m == 11 then 30
  else 31

/-- The first and the last year that can be written. -/
def minYear : Int := -262143

/-- The last year that can be written. -/
def maxYear : Int := 262142

/-- The date exists and its year can be written. -/
def isDate (y : Int) (m d : Nat) : Bool :=
  minYear ≤ y && y ≤ maxYear && 1 ≤ m && m ≤ 12 && 1 ≤ d && d ≤ daysInMonth y m

/-- The day after a date. -/
def nextDay (y : Int) (m d : Nat) : Int × Nat × Nat :=
  if d < daysInMonth y m then (y, m, d + 1)
  else if m < 12 then (y, m + 1, 1)
  else (y + 1, 1, 1)

/-- The day before a date. -/
def previousDay (y : Int) (m d : Nat) : Int × Nat × Nat :=
  if 1 < d then (y, m, d - 1)
  else if 1 < m then (y, m - 1, daysInMonth y (m - 1))
  else (y - 1, 12, 31)

/-- The date that lies a number of days after the first of January 1970. -/
def dateOfDays (days : Nat) : Int × Nat × Nat :=
  -- Years are counted from a March, so that the leap day ends one.
  let z := days + 719468
  let era := z / 146097
  let doe := z % 146097
  let yoe := (doe - doe / 1460 + doe / 36524 - doe / 146096) / 365
  let doy := doe - (365 * yoe + yoe / 4 - yoe / 100)
  let mp := (5 * doy + 2) / 153
  let d := doy - (153 * mp + 2) / 5 + 1
  let m := if mp < 10 then mp + 3 else mp - 9
  let y := yoe + era * 400 + (if m ≤ 2 then 1 else 0)
  (y, m, d)

/-- The point in time a number of nanoseconds after the beginning of 1970. -/
def ofNanos (n : Nat) : Timestamp :=
  let seconds := n / 1000000000
  let (y, m, d) := dateOfDays (seconds / 86400)
  let s := seconds % 86400
  ⟨y, m, d, s / 3600, s / 60 % 60, s % 60, n % 1000000000⟩

/-! ## 2. Writing -/

/-- A number with two digits at least. -/
def two (n : Nat) : String := String.ofList (Duration.padded 2 n)

/-- The year: four digits, and a sign where that is not enough. -/
def yearText (y : Int) : String :=
  if 0 ≤ y ∧ y ≤ 9999 then String.ofList (Duration.padded 4 y.toNat)
  else (if y < 0 then "-" else "+") ++ String.ofList (Duration.padded 4 y.natAbs)

/-- The fraction of a second. -/
def fractionText (nanos : Nat) : String :=
  if nanos == 0 then ""
  else if nanos % 1000000 == 0 then "." ++ String.ofList (Duration.padded 3 (nanos / 1000000))
  else if nanos % 1000 == 0 then "." ++ String.ofList (Duration.padded 6 (nanos / 1000))
  else "." ++ String.ofList (Duration.padded 9 nanos)

/-- The text without an offset. -/
def localText (t : Timestamp) : String :=
  yearText t.year ++ "-" ++ two t.month ++ "-" ++ two t.day ++ "T" ++ two t.hour ++ ":" ++
    two t.minute ++ ":" ++ two t.second ++ fractionText t.nanos

/-- The text with the letter that stands for universal time. -/
def text (t : Timestamp) : String := t.localText ++ "Z"

/-- The text with the offset of universal time in digits. -/
def textWithOffset (t : Timestamp) : String := t.localText ++ "+00:00"

/-! ## 3. Reading -/

/-- Why a text is no point in time. -/
inductive Fault where
  | outOfRange
  | impossible
  | invalid
  | tooShort
  | tooLong
  deriving DecidableEq, Repr

namespace Fault

/-- The wording of a fault. -/
def message : Fault → String
  | outOfRange => "input is out of range"
  | impossible => "no possible date and time matching input"
  | invalid => "input contains invalid characters"
  | tooShort => "premature end of input"
  | tooLong => "trailing input"

end Fault

/-- The characters after the blanks at the front. -/
def skipBlanks (cs : List Char) : List Char := cs.dropWhile Text.isBlank

/-- The number that digits stand for. -/
def digitsValue (ds : List Char) : Nat :=
  ds.foldl (fun n c => n * 10 + (c.toNat - 48)) 0

/-- At least one digit and at most `width`. -/
def readDigits (width : Nat) (cs : List Char) : Except Fault (List Char × List Char) :=
  if cs.isEmpty then .error .tooShort
  else
    let digits := (cs.take width).takeWhile Char.isDigit
    if digits.isEmpty then .error .invalid else .ok (digits, cs.drop digits.length)

/-- A number of one or two digits within bounds, blanks before it. -/
def readField (low high : Nat) (cs : List Char) : Except Fault (Nat × List Char) := do
  let (digits, r) ← readDigits 2 (skipBlanks cs)
  let n := digitsValue digits
  if low ≤ n && n ≤ high then return (n, r) else throw .outOfRange

/-- A year: up to four digits, or a sign and any number of digits. -/
def readYear (cs : List Char) : Except Fault (Int × List Char) := do
  let cs := skipBlanks cs
  match cs with
  | '-' :: r =>
    let (digits, r) ← readDigits r.length r
    let n := digitsValue digits
    if n ≤ Nat.pow 2 31 then return (-(n : Int), r) else throw .outOfRange
  | '+' :: r =>
    let (digits, r) ← readDigits r.length r
    let n := digitsValue digits
    if n < Nat.pow 2 31 then return ((n : Int), r) else throw .outOfRange
  | _ =>
    let (digits, r) ← readDigits 4 cs
    return ((digitsValue digits : Int), r)

/-- A separator, blanks before it. -/
def readSeparator (sep : Char) (cs : List Char) : Except Fault (List Char) :=
  match skipBlanks cs with
  | [] => .error .tooShort
  | c :: r => if c == sep then .ok r else .error .invalid

/-- The fraction of a second in nanoseconds, if there is one. -/
def readFraction (cs : List Char) : Except Fault (Nat × List Char) :=
  match cs with
  | '.' :: r => do
    let (digits, r) ← readDigits 9 r
    return (digitsValue digits * Nat.pow 10 (9 - digits.length), r.dropWhile Char.isDigit)
  | _ => .ok (0, cs)

/-- The minutes of an offset, with whatever colons and blanks stand before them. -/
def readOffsetMinutes (cs : List Char) : Except Fault (Nat × List Char) :=
  match cs.dropWhile fun c => c == ':' || Text.isBlank c with
  | a :: b :: r =>
    if '0' ≤ a && a ≤ '5' && b.isDigit then .ok (digitsValue [a, b], r)
    else if '6' ≤ a && a ≤ '9' && b.isDigit then .error .outOfRange
    else .error .invalid
  | [a] => if a.utf8Size < 2 then .error .tooShort else .error .invalid
  | [] => .error .tooShort

/-- The hours and minutes of an offset after its sign, in minutes. -/
def readOffsetSize (cs : List Char) : Except Fault (Nat × List Char) :=
  match cs with
  | a :: b :: r =>
    if a.isDigit && b.isDigit then do
      let (minutes, r) ← readOffsetMinutes r
      return (digitsValue [a, b] * 60 + minutes, r)
    else .error .invalid
  | [a] => if a.utf8Size < 2 then .error .tooShort else .error .invalid
  | [] => .error .tooShort

/-- An offset in minutes: a letter `Z`, the name `UTC`, or a sign with hours and minutes. -/
def readOffset (cs : List Char) : Except Fault (Int × List Char) :=
  match (cs.take 3).map Char.toUpper with
  | ['U', 'T', 'C'] => .ok (0, cs.drop 3)
  | _ =>
    match cs with
    | [] => .error .tooShort
    | c :: r =>
      if c == 'Z' || c == 'z' then .ok (0, r)
      else if c == '+' then do
        let (n, r) ← readOffsetSize r
        return ((n : Int), r)
      else if c == '-' || c.toNat == 0x2212 then do
        let (n, r) ← readOffsetSize r
        return (-(n : Int), r)
      else .error .invalid

/-- The point in time in universal time of a local one. -/
def shift (t : Timestamp) (offset : Int) : Except Fault Timestamp :=
  if 1440 ≤ offset.natAbs then .error .outOfRange
  else
    let minutes := (t.hour * 60 + t.minute : Int) - offset
    let (y, m, d) :=
      if minutes < 0 then previousDay t.year t.month t.day
      else if 1440 ≤ minutes then nextDay t.year t.month t.day
      else (t.year, t.month, t.day)
    let inDay := (minutes % 1440).toNat
    if minYear ≤ y ∧ y ≤ maxYear then
      .ok { t with year := y, month := m, day := d, hour := inDay / 60, minute := inDay % 60 }
    else .error .impossible

/-- The letter or space between date and time. -/
def readDivider (cs : List Char) : Except Fault (List Char) :=
  match cs with
  | [] => .error .tooShort
  | c :: r => if c == 'T' || c == 't' || c == ' ' then .ok r else .error .invalid

/-- The point in time that a list of characters stands for. -/
def parseChars (cs : List Char) : Except Fault Timestamp := do
  let (year, cs) ← readYear cs
  let cs ← readSeparator '-' cs
  let (month, cs) ← readField 1 12 cs
  let cs ← readSeparator '-' cs
  let (day, cs) ← readField 1 31 cs
  let cs ← readDivider cs
  let (hour, cs) ← readField 0 23 cs
  let cs ← readSeparator ':' cs
  let (minute, cs) ← readField 0 59 cs
  let cs ← readSeparator ':' cs
  let (second, cs) ← readField 0 60 cs
  let (nanos, cs) ← readFraction cs
  let (offset, cs) ← readOffset (skipBlanks cs)
  if !(skipBlanks cs).isEmpty then throw .tooLong
  if !isDate year month day then throw .outOfRange
  shift ⟨year, month, day, hour, minute, second, nanos⟩ offset

/-- The point in time that a text stands for. -/
def parse (s : String) : Except Fault Timestamp := parseChars s.toList

end Timestamp
end Workbench
