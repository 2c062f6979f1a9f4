/-!
# Faults of a JSON text

Why a text is no JSON, or is JSON of another shape than asked for, and where.  A fault remembers
the characters that were still to be read, so that its line and column follow from the whole text:
lines count from one, and columns count the bytes since the line began.
-/

namespace Workbench
namespace Json

/-! ## 1. Causes -/

/-- Why reading stopped.  `data` is a value that is well formed and yet not the one asked for. -/
inductive Cause where
  | endInList
  | endInObject
  | endInString
  | endInValue
  | expectedColon
  | expectedCommaOrBracket
  | expectedCommaOrBrace
  | expectedIdent
  | expectedValue
  | invalidEscape
  | invalidNumber
  | numberOutOfRange
  | controlCharacter
  | keyMustBeString
  | loneSurrogate
  | trailingComma
  | trailingCharacters
  | endOfHexEscape
  | tooDeep
  | data (message : String)
  deriving DecidableEq, Repr

/-- The three kinds of causes: the text is cut short, the value does not fit, or the text breaks
the rules of JSON. -/
inductive Category where
  | syntaxError
  | data
  | eof
  deriving DecidableEq, Repr

namespace Cause

/-- The wording of a cause. -/
def message : Cause → String
  | endInList => "EOF while parsing a list"
  | endInObject => "EOF while parsing an object"
  | endInString => "EOF while parsing a string"
  | endInValue => "EOF while parsing a value"
  | expectedColon => "expected `:`"
  | expectedCommaOrBracket => "expected `,` or `]`"
  | expectedCommaOrBrace => "expected `,` or `\x7d`"
  | expectedIdent => "expected ident"
  | expectedValue => "expected value"
  | invalidEscape => "invalid escape"
  | invalidNumber => "invalid number"
  | numberOutOfRange => "number out of range"
  | controlCharacter => "control character (\\u0000-\\u001F) found while parsing a string"
  | keyMustBeString => "key must be a string"
  | loneSurrogate => "lone leading surrogate in hex escape"
  | trailingComma => "trailing comma"
  | trailingCharacters => "trailing characters"
  | endOfHexEscape => "unexpected end of hex escape"
  | tooDeep => "recursion limit exceeded"
  | data message => message

/-- The kind of a cause. -/
def category : Cause → Category
  | endInList | endInObject | endInString | endInValue => .eof
  | data _ => .data
  | _ => .syntaxError

end Cause

namespace Category

/-- The name of a kind. -/
def name : Category → String
  | syntaxError => "Syntax"
  | data => "Data"
  | eof => "Eof"

end Category

/-! ## 2. Places -/

/-- A place in a text. -/
structure Position where
  line : Nat
  column : Nat
  deriving DecidableEq, Repr

namespace Position

/-- The place where a text begins. -/
def start : Position := ⟨1, 0⟩

/-- The place after one more character. -/
def after (p : Position) (c : Char) : Position :=
  if c == '\n' then ⟨p.line + 1, 0⟩ else ⟨p.line, p.column + c.utf8Size⟩

/-- The place some bytes further on; a character that is entered and not passed counts by its
bytes. -/
def advance (p : Position) : Nat → List Char → Position
  | 0, _ => p
  | _, [] => p
  | n, c :: r =>
    if c.utf8Size ≤ n then (p.after c).advance (n - c.utf8Size) r
    else ⟨p.line, p.column + n⟩
  termination_by structural _ cs => cs

end Position

/-- A cause, the characters that were not yet read, and how many bytes of those the place lies
beyond. -/
structure Fault where
  cause : Cause
  rest : List Char
  ahead : Nat
  deriving DecidableEq, Repr

namespace Fault

/-- A fault at the next character. -/
def here (cause : Cause) (rest : List Char) : Fault := ⟨cause, rest, 0⟩

/-- A fault whose place is counted behind the next character. -/
def next (cause : Cause) (rest : List Char) : Fault := ⟨cause, rest, 1⟩

/-- The place of a fault in a text that ends with the characters not yet read. -/
def position (text : List Char) (f : Fault) : Position :=
  ((text.take (text.length - f.rest.length)).foldl Position.after Position.start).advance
    f.ahead f.rest

/-- The whole message of a fault in a text. -/
def message (text : List Char) (f : Fault) : String :=
  let p := f.position text
  f.cause.message ++ " at line " ++ toString p.line ++ " column " ++ toString p.column

end Fault

/-- A reader takes a value from the front of the characters, or finds a fault. -/
abbrev Reader (α : Type) := List Char → Except Fault (α × List Char)

end Json
end Workbench
