import Workbench.Json.Printer
import Workbench.Time.Timestamp

/-!
# Mismatches

Why a value does not have the shape asked for, and the wording of each reason.
-/

namespace Workbench

/-- The kind of value that was found where another was expected. -/
inductive Found where
  | null
  | bool (b : Bool)
  | integer (i : Int)
  | floating (d : Double)
  | text (s : String)
  | list
  | object
  deriving DecidableEq, Repr

namespace Found

/-- The kind of a number. -/
def ofNumber : Number → Found
  | .int i => .integer i
  | .double d => .floating d

/-- The kind of a value. -/
def ofJson : Json → Found
  | .null => .null
  | .bool b => .bool b
  | .num n => ofNumber n
  | .str s => .text s
  | .arr _ => .list
  | .obj _ => .object

/-- How a message names what was found. -/
def message : Found → String
  | null => "null"
  | bool b => "boolean `" ++ (if b then "true" else "false") ++ "`"
  | integer i => "integer `" ++ toString i ++ "`"
  | floating d => "floating point `" ++ d.text ++ "`"
  | text s => "string " ++ Text.quote s
  | list => "sequence"
  | object => "map"

end Found

/-- Why a value does not have a shape. -/
inductive Mismatch where
  /-- A value of another kind. -/
  | wrongType (found : Found) (expected : String)
  /-- The right kind of value, out of its range. -/
  | wrongValue (found : Found) (expected : String)
  /-- A list of the wrong length. -/
  | wrongLength (length : Nat) (expected : String)
  | missingField (name : String)
  | duplicateField (name : String)
  | unknownVariant (name : String) (variants : List String)
  | badTime (fault : Timestamp.Fault)
  deriving DecidableEq, Repr

namespace Mismatch

/-- The names that would have been accepted. -/
def oneOf : List String → String
  | [] => "there are no variants"
  | [a] => "expected `" ++ a ++ "`"
  | [a, b] => "expected `" ++ a ++ "` or `" ++ b ++ "`"
  | names => "expected one of " ++ String.intercalate ", " (names.map fun n => "`" ++ n ++ "`")

/-- The wording of a mismatch. -/
def message : Mismatch → String
  | wrongType found expected => "invalid type: " ++ found.message ++ ", expected " ++ expected
  | wrongValue found expected => "invalid value: " ++ found.message ++ ", expected " ++ expected
  | wrongLength length expected =>
    "invalid length " ++ toString length ++ ", expected " ++ expected
  | missingField name => "missing field `" ++ name ++ "`"
  | duplicateField name => "duplicate field `" ++ name ++ "`"
  | unknownVariant name variants => "unknown variant `" ++ name ++ "`, " ++ oneOf variants
  | badTime fault => fault.message

end Mismatch
end Workbench
