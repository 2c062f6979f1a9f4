import Workbench.Json.Basic
import Workbench.Json.Fault

/-!
# The words of a JSON text

Readers of blanks, of the fixed words, of strings and of numbers.

A number is an integer if it has neither point nor exponent and fits 64 bits (`-0` does not: it is
the double minus zero).  Any other number is the double that comes from its leading digits, as many
as fit 64 bits, scaled by its power of ten in at most three rounded steps (`Double.scaleTen`); one
that is too large is a fault.
-/

namespace Workbench
namespace Json

/-! ## 1. Blanks and fixed words -/

/-- The four blanks of JSON. -/
def isSpace (c : Char) : Bool :=
  c == ' ' || c == '\n' || c == '\t' || c == '\r'

/-- The characters after the blanks at the front. -/
def skipSpace (cs : List Char) : List Char := cs.dropWhile isSpace

/-- Takes the given characters from the front. -/
def readWord : List Char → Reader Unit
  | [], cs => .ok ((), cs)
  | _ :: _, [] => .error (.here .endInValue [])
  | w :: ws, c :: cs => if c == w then readWord ws cs else .error (.next .expectedIdent (c :: cs))

/-! ## 2. Strings -/

/-- The value of a hexadecimal digit. -/
def hexValue? (c : Char) : Option Nat :=
  if '0' ≤ c ∧ c ≤ '9' then some (c.toNat - 48)
  else if 'a' ≤ c ∧ c ≤ 'f' then some (c.toNat - 87)
  else if 'A' ≤ c ∧ c ≤ 'F' then some (c.toNat - 55)
  else none

/-- The number of bytes of a list of characters. -/
def byteCount (cs : List Char) : Nat :=
  cs.foldl (fun n c => n + c.utf8Size) 0

/-- Four hexadecimal digits.  Their number is looked at first, in bytes: a text that ends within
four bytes is cut short, whatever those are. -/
def readHex : Reader Nat
  | a :: b :: c :: d :: r =>
    match hexValue? a, hexValue? b, hexValue? c, hexValue? d with
    | some a, some b, some c, some d => .ok (((a * 16 + b) * 16 + c) * 16 + d, r)
    | _, _, _, _ => .error ⟨.invalidEscape, a :: b :: c :: d :: r, 4⟩
  | cs =>
    if byteCount cs < 4 then .error (.here .endInString [])
    else .error ⟨.invalidEscape, cs, 4⟩

/-- The character of a code written as one or two groups of four hexadecimal digits; a code above
the first plane needs both halves of a surrogate pair. -/
def readCode (cs : List Char) : Except Fault (Char × List Char) := do
  let (n, r) ← readHex cs
  if 0xDC00 ≤ n && n ≤ 0xDFFF then throw (.here .loneSurrogate r)
  if n < 0xD800 || 0xDBFF < n then return (Char.ofNat n, r)
  match r with
  | [] => throw (.here .endInString [])
  | '\\' :: [] => throw (.here .endInString [])
  | '\\' :: 'u' :: r =>
    let (m, r) ← readHex r
    if m < 0xDC00 || 0xDFFF < m then throw (.here .loneSurrogate r)
    return (Char.ofNat ((n - 0xD800) * 0x400 + (m - 0xDC00) + 0x10000), r)
  | '\\' :: c :: r => throw (.next .endOfHexEscape (c :: r))
  | c :: r => throw (.next .endOfHexEscape (c :: r))

/-- What a letter stands for after a backslash. -/
def escapeLetter? (c : Char) : Option Char :=
  if c == '"' || c == '\\' || c == '/' then some c
  else if c == 'b' then some '\x08'
  else if c == 'f' then some '\x0c'
  else if c == 'n' then some '\n'
  else if c == 'r' then some '\r'
  else if c == 't' then some '\t'
  else none

/-- The characters of a string after its opening quote, in reverse before `acc`.  Each step takes at
least one character, so the count of characters bounds the steps. -/
def readStringFrom : Nat → List Char → Reader (List Char)
  | 0, _, cs => .error (.here .endInString cs)
  | _ + 1, _, [] => .error (.here .endInString [])
  | n + 1, acc, c :: r =>
    if c == '"' then .ok (acc.reverse, r)
    else if c == '\\' then
      match r with
      | [] => .error (.here .endInString [])
      | e :: r =>
        match escapeLetter? e with
        | some d => readStringFrom n (d :: acc) r
        | none =>
          if e == 'u' then
            match readCode r with
            | .ok (d, r) => readStringFrom n (d :: acc) r
            | .error f => .error f
          else .error (.next .invalidEscape (e :: r))
    else if c.toNat < 32 then .error (.next .controlCharacter (c :: r))
    else readStringFrom n (c :: acc) r

/-- A string, its opening quote already taken. -/
def readString (cs : List Char) : Except Fault (String × List Char) :=
  match readStringFrom (cs.length + 1) [] cs with
  | .ok (s, r) => .ok (String.ofList s, r)
  | .error f => .error f

/-- Passes over a string, its opening quote already taken; a code need not be that of a character.
A control character is not entered: its place is that in front of it. -/
def skipStringFrom : Nat → Reader Unit
  | 0, cs => .error (.here .endInString cs)
  | _ + 1, [] => .error (.here .endInString [])
  | n + 1, c :: r =>
    if c == '"' then .ok ((), r)
    else if c == '\\' then
      match r with
      | [] => .error (.here .endInString [])
      | e :: r =>
        if (escapeLetter? e).isSome then skipStringFrom n r
        else if e == 'u' then
          match readHex r with
          | .ok (_, r) => skipStringFrom n r
          | .error f => .error f
        else .error (.next .invalidEscape (e :: r))
    else if c.toNat < 32 then .error (.here .controlCharacter (c :: r))
    else skipStringFrom n r

/-- Passes over a string, its opening quote already taken. -/
def skipString (cs : List Char) : Except Fault (Unit × List Char) :=
  skipStringFrom (cs.length + 1) cs

end Json

/-! ## 3. Numbers -/

namespace Double

/-- The double times a power of ten.  A power outside the table of exact and rounded powers is
reached by dividing by `10 ^ 308`; two such steps leave nothing of a number of 64 bits. -/
def scaleTenFrom : Nat → Double → Int → Option Double
  | 0, d, _ => some d
  | n + 1, d, e =>
    if e.natAbs ≤ 308 then
      if 0 ≤ e then d.mul? (ofNat (Nat.pow 10 e.natAbs)) else d.div? (ofNat (Nat.pow 10 e.natAbs))
    else if d.isZero then some d
    else if 0 ≤ e then none
    else
      match d.div? (ofNat (Nat.pow 10 308)) with
      | some d => scaleTenFrom n d (e + 308)
      | none => none

/-- The double times a power of ten; nothing if that is too large. -/
def scaleTen (d : Double) (e : Int) : Option Double := scaleTenFrom 3 d e

end Double

namespace Json

/-- The largest integer of 64 bits. -/
def maxInteger : Nat := Nat.pow 2 64 - 1

/-- The number with more decimal digits, as long as it fits 64 bits, and the digits left over. -/
def absorb (n : Nat) : List Char → Nat × List Char
  | [] => (n, [])
  | c :: r =>
    let m := n * 10 + (c.toNat - 48)
    if maxInteger < m then (n, c :: r) else absorb m r

/-- The double of a sign, leading digits and a power of ten. -/
def scaled (negative : Bool) (significand : Nat) (exponent : Int) (rest : List Char) :
    Except Fault (Number × List Char) :=
  match (Double.ofNat significand).scaleTen exponent with
  | some d => .ok (.double (if negative then d.neg else d), rest)
  | none => .error (.here .numberOutOfRange rest)

/-- An exponent of more than 31 bits counts as infinite: the digits up to the one that exceeds it,
and those after. -/
def splitExponent (n : Nat) : List Char → Nat × Option (List Char)
  | [] => (n, none)
  | c :: r =>
    let m := n * 10 + (c.toNat - 48)
    if Nat.pow 2 31 - 1 < m then (n, some r) else splitExponent m r

/-- An exponent and the number it ends; the letter is already taken. -/
def readExponent (negative : Bool) (significand : Nat) (exponent : Int) (cs : List Char) :
    Except Fault (Number × List Char) :=
  let (down, cs) :=
    match cs with
    | '+' :: r => (false, r)
    | '-' :: r => (true, r)
    | cs => (false, cs)
  match cs with
  | [] => .error (.here .endInValue [])
  | c :: r =>
    if c.isDigit then
      let digits := (c :: r).takeWhile Char.isDigit
      let rest := (c :: r).dropWhile Char.isDigit
      match splitExponent 0 digits with
      | (n, none) => scaled negative significand (if down then exponent - n else exponent + n) rest
      | (_, some later) =>
        if significand != 0 && !down then .error (.here .numberOutOfRange (later ++ rest))
        else .ok (.double (.zero negative), rest)
    else .error (.next .invalidNumber (c :: r))

/-- The digits after a point and the number they end; the point is already taken. -/
def readFraction (negative : Bool) (significand : Nat) (exponent : Int) (cs : List Char) :
    Except Fault (Number × List Char) :=
  let digits := cs.takeWhile Char.isDigit
  let rest := cs.dropWhile Char.isDigit
  if digits.isEmpty then
    match rest with
    | [] => .error (.here .endInValue [])
    | c :: r => .error (.next .invalidNumber (c :: r))
  else
    let (n, later) := absorb significand digits
    let e := exponent - ((digits.length - later.length : Nat) : Int)
    match rest with
    | c :: r =>
      if c == 'e' || c == 'E' then readExponent negative n e r else scaled negative n e rest
    | [] => scaled negative n e rest

/-- The integer of a sign and digits that fit 64 bits. -/
def wholeNumber (negative : Bool) (n : Nat) : Number :=
  if negative then
    if n == 0 || Nat.pow 2 63 < n then .double (Double.ofNat n).neg else .int (-n)
  else .int n

/-- A number, its sign already taken. -/
def readNumber (negative : Bool) (cs : List Char) : Except Fault (Number × List Char) :=
  match cs with
  | [] => .error (.here .endInValue [])
  | c :: r =>
    if !c.isDigit then .error (.next .invalidNumber (c :: r))
    else
      let digits := if c == '0' then [c] else (c :: r).takeWhile Char.isDigit
      let rest := if c == '0' then r else (c :: r).dropWhile Char.isDigit
      let (n, later) := absorb 0 digits
      match rest with
      | [] =>
        if later.isEmpty then .ok (wholeNumber negative n, rest)
        else scaled negative n later.length rest
      | d :: s =>
        if d.isDigit then .error (.next .invalidNumber (d :: s))
        else if d == '.' then readFraction negative n later.length s
        else if d == 'e' || d == 'E' then readExponent negative n later.length s
        else if later.isEmpty then .ok (wholeNumber negative n, rest)
        else scaled negative n later.length rest

/-- Passes over the digits of an exponent; the letter is already taken. -/
def skipExponent (cs : List Char) : Except Fault (Unit × List Char) :=
  let cs :=
    match cs with
    | '+' :: r => r
    | '-' :: r => r
    | cs => cs
  match cs with
  | [] => .error (.here .invalidNumber [])
  | c :: r =>
    if c.isDigit then .ok ((), r.dropWhile Char.isDigit)
    else .error (.next .invalidNumber (c :: r))

/-- Passes over a number, its sign already taken.  A number that is cut short is an invalid one. -/
def skipNumber (cs : List Char) : Except Fault (Unit × List Char) :=
  match cs with
  | [] => .error (.here .invalidNumber [])
  | c :: r =>
    if !c.isDigit then .error (.next .invalidNumber (c :: r))
    else
      match if c == '0' then r else r.dropWhile Char.isDigit with
      | [] => .ok ((), [])
      | d :: s =>
        if d.isDigit then .error (.next .invalidNumber (d :: s))
        else if d == '.' then
          match s.dropWhile Char.isDigit with
          | [] =>
            if s.isEmpty then .error (.here .invalidNumber []) else .ok ((), [])
          | e :: t =>
            if s.head?.all Char.isDigit then
              if e == 'e' || e == 'E' then skipExponent t else .ok ((), e :: t)
            else .error (.next .invalidNumber (e :: t))
        else if d == 'e' || d == 'E' then skipExponent s
        else .ok ((), d :: s)

end Json
end Workbench
