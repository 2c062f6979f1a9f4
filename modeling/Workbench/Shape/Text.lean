import Workbench.Shape.Decode
import Workbench.Json.Reader
import Workbench.Json.Skip

/-!
# Reading a shape from a text

`Shape.readText` reads a value of a shape from a JSON text in one pass.  It differs from decoding a
value that has been read before in what it can see: the members come in the order of the text,
each as often as it is there, and a value that does not fit is reported before anything behind it
is looked at.  A mismatch of a whole record gets its place after the end of the record has been
tried.
-/

namespace Workbench
namespace Shape

open Json (Fault Cause Reader)

/-! ## 1. Faults -/

/-- A fault whose place is known, or a mismatch that still waits for the record around it to give
it one, with the characters left where it was noticed. -/
inductive Trouble where
  | placed (f : Fault)
  | pending (m : Mismatch) (rest : List Char)
  deriving DecidableEq, Repr

/-- A mismatch placed at the next character. -/
def Trouble.at (m : Mismatch) (rest : List Char) : Trouble :=
  .placed (.here (.data m.message) rest)

/-- A trouble of a container as a fault, after its end has been tried: what remains then is the
place of a mismatch. -/
def Trouble.settle (afterEnd : List Char → List Char) : Trouble → Fault
  | .placed f => f
  | .pending m rest => .here (.data m.message) (afterEnd rest)

/-- The characters left after the end of a list has been tried. -/
def afterListEnd (cs : List Char) : List Char :=
  match Json.skipSpace cs with
  | [] => []
  | c :: r =>
    if c == ']' then r
    else if c == ',' then Json.skipSpace r
    else c :: r

/-- The characters left after the end of an object has been tried. -/
def afterObjectEnd (cs : List Char) : List Char :=
  match Json.skipSpace cs with
  | [] => []
  | c :: r => if c == '\x7d' then r else c :: r

/-- The fault of a value of another kind than expected.  The value is read as far as it is needed to
name its kind; what is wrong in that part counts first. -/
def wrongKind (expected : String) (c : Char) (r : List Char) : Fault :=
  if c == '[' then .here (.data (Mismatch.wrongType .list expected).message) (c :: r)
  else if c == '\x7b' then .here (.data (Mismatch.wrongType .object expected).message) (c :: r)
  else
    match Json.readScalar c r with
    | .error f => f
    | .ok (j, r) => .here (.data (Mismatch.wrongType (.ofJson j) expected).message) r

/-! ## 2. Values -/

/-- A value whose decoding needs no more than one scalar of the text. -/
def readOne {α : Type} (isStart : Char → Bool) (expected : String)
    (decode : Json → Except Mismatch α) (cs : List Char) : Except Fault (α × List Char) :=
  match Json.skipSpace cs with
  | [] => .error (.here .endInValue [])
  | c :: r =>
    if isStart c then
      match Json.readScalar c r with
      | .error f => .error f
      | .ok (j, r) =>
        match decode j with
        | .ok v => .ok (v, r)
        | .error m => .error (.here (.data m.message) r)
    else .error (wrongKind expected c r)

/-- Whether a character begins a number. -/
def startsNumber (c : Char) : Bool := c == '-' || c.isDigit

/-- A value read whole and then decoded. -/
def readWhole {α : Type} (depth : Nat) (decode : Json → Except Mismatch α) (cs : List Char) :
    Except Fault (α × List Char) :=
  match Json.readValue depth cs with
  | .error f => .error f
  | .ok (j, r) =>
    match decode j with
    | .ok v => .ok (v, r)
    | .error m => .error (.here (.data m.message) r)

/-- The items of a list, each read by `item`. -/
def readItems {α : Type} (item : Reader α) :
    Nat → Bool → List α → List Char → Except Fault (List α × List Char)
  | 0, _, _, cs => .error (.here .endInList cs)
  | n + 1, first, acc, cs =>
    match Json.nextItem first cs with
    | .error f => .error f
    | .ok (false, r) => .ok (acc.reverse, r)
    | .ok (true, r) =>
      match item r with
      | .error f => .error f
      | .ok (v, r) => readItems item n false (v :: acc) r

/-- The members of an object, each put into the slots by `member`. -/
def readMembers {σ : Type}
    (member : String → List Char → σ → Except Trouble (σ × List Char)) :
    Nat → Bool → σ → List Char → Except Trouble (σ × List Char)
  | 0, _, _, cs => .error (.placed (.here .endInObject cs))
  | n + 1, first, slots, cs =>
    match Json.nextKey first cs with
    | .error f => .error (.placed f)
    | .ok (none, r) => .ok (slots, r)
    | .ok (some key, r) =>
      match member key r slots with
      | .error t => .error t
      | .ok (slots, r) => readMembers member n false slots r

end Shape

mutual

/-- A value of a shape from the front of a text, with at most `depth` containers around one
another. -/
def Shape.read : (s : Shape) → (depth : Nat) → Json.Reader s.Value
  | .text, _, cs =>
    Shape.readOne (fun c => c == '"') "a string" (fun j => Shape.text.decode j) cs
  | .natural kind, _, cs =>
    Shape.readOne Shape.startsNumber kind.label (fun j => (Shape.natural kind).decode j) cs
  | .flag, _, cs =>
    Shape.readOne (fun c => c == 't' || c == 'f') "a boolean" (fun j => Shape.flag.decode j) cs
  | .any, depth, cs => Json.readValue depth cs
  | .object, depth, cs => Shape.readWhole depth (fun j => Shape.object.decode j) cs
  | .time, _, cs =>
    Shape.readOne (fun c => c == '"') Shape.timeLabel (fun j => Shape.time.decode j) cs
  | .choice variants, depth, cs =>
    Shape.readWhole depth (fun j => (Shape.choice variants).decode j) cs
  | .option s, depth, cs =>
    match Json.skipSpace cs with
    | 'n' :: r =>
      match Json.readWord "ull".toList r with
      | .error f => .error f
      | .ok (_, r) => .ok (none, r)
    | cs =>
      match s.read depth cs with
      | .error f => .error f
      | .ok (v, r) => .ok (some v, r)
  | .list s, depth, cs =>
    match Json.skipSpace cs with
    | [] => .error (.here .endInValue [])
    | c :: r =>
      if c == '[' then
        match depth with
        | 0 => .error (.next .tooDeep (c :: r))
        | depth + 1 =>
          match Shape.readItems (fun cs => s.read depth cs) (r.length + 1) true [] r with
          | .error f => .error f
          | .ok (vs, r) =>
            match Json.endList r with
            | .error f => .error f
            | .ok (_, r) => .ok (vs, r)
      else .error (Shape.wrongKind "a sequence" c r)
  | .record name fields, depth, cs =>
    match Json.skipSpace cs with
    | [] => .error (.here .endInValue [])
    | c :: r =>
      if c == '\x7b' then
        match depth with
        | 0 => .error (.next .tooDeep (c :: r))
        | depth + 1 =>
          match Shape.readMembers (fun key cs slots => fields.readMember depth key cs slots)
              (r.length + 1) true fields.noSlots r with
          | .error t => .error (t.settle Shape.afterObjectEnd)
          | .ok (slots, r) =>
            match fields.fill slots with
            | .error m => .error ((Shape.Trouble.pending m r).settle Shape.afterObjectEnd)
            | .ok vs =>
              match Json.endObject r with
              | .error f => .error f
              | .ok (_, r) => .ok (vs, r)
      else if c == '[' then
        match depth with
        | 0 => .error (.next .tooDeep (c :: r))
        | depth + 1 =>
          match Fields.readItems name fields.length 0 depth fields r with
          | .error t => .error (t.settle Shape.afterListEnd)
          | .ok (vs, r) =>
            match Json.endList r with
            | .error f => .error f
            | .ok (_, r) => .ok (vs, r)
      else .error (Shape.wrongKind ("struct " ++ name) c r)

/-- Reads the member of a key into the slot of its field; the key is already taken. -/
def Fields.readMember : (fields : Fields) → (depth : Nat) → String → List Char → fields.Slots →
    Except Shape.Trouble (fields.Slots × List Char)
  | .nil, _, _, cs, slots =>
    match Json.readColon cs with
    | .error f => .error (.placed f)
    | .ok (_, r) =>
      match Json.skipValue r with
      | .error f => .error (.placed f)
      | .ok (_, r) => .ok (slots, r)
  | .cons f s rest, depth, key, cs, (slot, slots) =>
    if f.accepts key then
      match slot with
      | some _ => .error (.pending (.duplicateField f.name) cs)
      | none =>
        match Json.readColon cs with
        | .error f => .error (.placed f)
        | .ok (_, r) =>
          match s.read depth r with
          | .error f => .error (.placed f)
          | .ok (v, r) => .ok ((some v, slots), r)
    else
      match rest.readMember depth key cs slots with
      | .error t => .error t
      | .ok (slots, r) => .ok ((slot, slots), r)

/-- Reads the values of fields given as a list, up to the end of the fields. -/
def Fields.readItems (name : String) (size : Nat) : Nat → (depth : Nat) → (fields : Fields) →
    List Char → Except Shape.Trouble (fields.Values × List Char)
  | _, _, .nil, cs => .ok ((), cs)
  | index, depth, .cons f s rest, cs =>
    match Json.nextItem (index == 0) cs with
    | .error f => .error (.placed f)
    | .ok (true, r) =>
      match s.read depth r with
      | .error f => .error (.placed f)
      | .ok (v, r) =>
        match Fields.readItems name size (index + 1) depth rest r with
        | .error t => .error t
        | .ok (vs, r) => .ok ((v, vs), r)
    | .ok (false, r) =>
      match f.fromItems (fun j => s.decode j)
          (.wrongLength index (Shape.elementsLabel name size)) [] with
      | .error m => .error (.pending m r)
      | .ok v =>
        match Fields.readItems name size (index + 1) depth rest r with
        | .error t => .error t
        | .ok (vs, r) => .ok ((v, vs), r)

end

/-- A whole text as a value of a type of the library. -/
def readText (α : Type) [Shaped α] (text : String) : Except Json.Fault α :=
  match (Shaped.shape α).read Json.maxDepth text.toList with
  | .error f => .error f
  | .ok (v, r) =>
    match Json.readEnd r with
    | .error f => .error f
    | .ok () => .ok (Shaped.ofValue v)

end Workbench
