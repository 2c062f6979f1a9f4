import Workbench.Json.Printer
import Workbench.Shape.Encode
import Workbench.Tool.Error

/-!
# Envelopes

Every call ends in one envelope: success or failure, a message, and either data or an error with its
code.  An envelope is sent as its JSON text, members in the order of the fields, each on a line of
its own.
-/

namespace Workbench

/-- What a tool that succeeded tells. -/
structure ToolOutput where
  message : String
  data : Json
  deriving DecidableEq, Repr

/-- The answer to a call. -/
structure ResponseEnvelope where
  success : Bool
  message : String
  data : Json
  error : Option String
  errorCode : Option String
  deriving DecidableEq, Repr

namespace ResponseEnvelope

instance : Shaped ResponseEnvelope where
  shape := .record "ResponseEnvelope" (.ofList
    [(.plain "success", .flag), (.plain "message", .text), (.trailing "data", .any),
      (.trailing "error", .option .text), (.trailing "error_code", .option .text)])
  toValue e := (e.success, e.message, e.data, e.error, e.errorCode, ())
  ofValue v := ⟨v.1, v.2.1, v.2.2.1, v.2.2.2.1, v.2.2.2.2.1⟩
  ofValue_toValue _ := rfl
  toValue_ofValue _ := rfl

/-- The envelope of a success. -/
def ok (message : String) (data : Json) : ResponseEnvelope := ⟨true, message, data, none, none⟩

/-- The envelope of a failure. -/
def failure (tool : String) (e : ToolError) : ResponseEnvelope :=
  ⟨false, tool ++ " failed", .null, some e.message, some e.code⟩

/-- The envelope of the end of a call. -/
def ofResult (tool : String) : Except ToolError ToolOutput → ResponseEnvelope
  | .ok out => ok out.message out.data
  | .error e => failure tool e

/-- The text of an envelope. -/
def text (e : ResponseEnvelope) : String :=
  ((Shaped.shape ResponseEnvelope).encodeInOrder (Shaped.toValue e)).pretty

/-- The result that is sent to the caller. -/
def toolResult (e : ResponseEnvelope) : Json :=
  Json.object
    [("content", .arr [Json.object [("type", .str "text"), ("text", .str e.text)]]),
      ("isError", .bool (!e.success))]

end ResponseEnvelope
end Workbench
