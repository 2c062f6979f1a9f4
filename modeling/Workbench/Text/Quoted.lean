import Workbench.Text.Shapeless

/-!
# Quoted text

A text as a message shows it: between double quotes, with a backslash before a quote and a
backslash, the usual letters for line ends and tabs, and the code in braces for every character
that has no shape of its own.
-/

namespace Workbench
namespace Text

/-- The lower-case hexadecimal digits of a number. -/
def hex (n : Nat) : String :=
  String.ofList (Nat.toDigits 16 n)

/-- One character of a quoted text. -/
def quoteChar (c : Char) : String :=
  if c == '\x00' then "\\0"
  else if c == '\t' then "\\t"
  else if c == '\r' then "\\r"
  else if c == '\n' then "\\n"
  else if c == '"' then "\\\""
  else if c == '\\' then "\\\\"
  else if c.toNat < 32 || c.toNat == 127 || isShapeless c then "\\u\x7b" ++ hex c.toNat ++ "\x7d"
  else String.singleton c

/-- A text between double quotes. -/
def quote (s : String) : String :=
  "\"" ++ String.join (s.toList.map quoteChar) ++ "\""

end Text
end Workbench
