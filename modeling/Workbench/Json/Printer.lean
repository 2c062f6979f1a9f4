import Workbench.Json.Basic
import Workbench.Decimal.Shortest
import Workbench.Text.Quoted

/-!
# JSON text

`Json.compact` writes a value without blanks; `Json.pretty` writes every item and every member on a
line of its own, two more spaces in for each level, and empty containers as `[]` and an empty pair
of braces.  Of the characters of a string only the quote, the backslash and the controls below the
space are escaped.
-/

namespace Workbench
namespace Json

/-! ## 1. Strings and numbers -/

/-- One character inside a string. -/
def escapeChar (c : Char) : List Char :=
  if c == '"' then ['\\', '"']
  else if c == '\\' then ['\\', '\\']
  else if c == '\n' then ['\\', 'n']
  else if c == '\t' then ['\\', 't']
  else if c == '\r' then ['\\', 'r']
  else if c.toNat == 8 then ['\\', 'b']
  else if c.toNat == 12 then ['\\', 'f']
  else if c.toNat < 32 then
    ['\\', 'u', '0', '0', Nat.digitChar (c.toNat / 16), Nat.digitChar (c.toNat % 16)]
  else [c]

/-- The characters of a string, quotes included. -/
def stringChars (s : String) : List Char :=
  '"' :: (s.toList.flatMap escapeChar ++ ['"'])

end Json

namespace Number

/-- The text of a number. -/
def text : Number → String
  | .int i => toString i
  | .double d => d.text

end Number

namespace Json

/-! ## 2. Without blanks -/

mutual

/-- The characters of a value written without blanks. -/
def compactChars : Json → List Char
  | .null => "null".toList
  | .bool b => (if b then "true" else "false").toList
  | .num n => n.text.toList
  | .str s => stringChars s
  | .arr items => '[' :: (compactItems items ++ [']'])
  | .obj members => '\x7b' :: (compactMembers members ++ ['\x7d'])

/-- The characters of items, with commas between them. -/
def compactItems : List Json → List Char
  | [] => []
  | [j] => compactChars j
  | j :: r => compactChars j ++ ',' :: compactItems r

/-- The characters of members, with commas between them. -/
def compactMembers : List (String × Json) → List Char
  | [] => []
  | [(k, j)] => stringChars k ++ ':' :: compactChars j
  | (k, j) :: r => stringChars k ++ ':' :: (compactChars j ++ ',' :: compactMembers r)

end

/-- The text of a value without blanks. -/
def compact (j : Json) : String := String.ofList j.compactChars

/-! ## 3. On lines of their own -/

/-- A line end and the spaces before what stands `depth` levels deep. -/
def lineStart (depth : Nat) : List Char :=
  '\n' :: List.replicate (2 * depth) ' '

mutual

/-- The characters of a value that stands `depth` levels deep. -/
def prettyChars (depth : Nat) : Json → List Char
  | .arr [] => ['[', ']']
  | .arr items => '[' :: (prettyItems (depth + 1) items ++ lineStart depth ++ [']'])
  | .obj [] => ['\x7b', '\x7d']
  | .obj members => '\x7b' :: (prettyMembers (depth + 1) members ++ lineStart depth ++ ['\x7d'])
  | .null => "null".toList
  | .bool b => (if b then "true" else "false").toList
  | .num n => n.text.toList
  | .str s => stringChars s

/-- The characters of items, each on a line of its own. -/
def prettyItems (depth : Nat) : List Json → List Char
  | [] => []
  | [j] => lineStart depth ++ prettyChars depth j
  | j :: r => lineStart depth ++ prettyChars depth j ++ ',' :: prettyItems depth r

/-- The characters of members, each on a line of its own. -/
def prettyMembers (depth : Nat) : List (String × Json) → List Char
  | [] => []
  | [(k, j)] => lineStart depth ++ stringChars k ++ ':' :: ' ' :: prettyChars depth j
  | (k, j) :: r =>
    lineStart depth ++ stringChars k ++ ':' :: ' ' :: (prettyChars depth j ++
      ',' :: prettyMembers depth r)

end

/-- The text of a value with every item and member on a line of its own. -/
def pretty (j : Json) : String := String.ofList (j.prettyChars 0)

end Json
end Workbench
