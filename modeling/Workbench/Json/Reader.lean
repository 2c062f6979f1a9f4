import Workbench.Json.Token

/-!
# Reading JSON values

`Json.parse` reads a whole text as one value.  At most 127 containers may be nested.  The members of
an object come out in the order of their keys, and of two members with one key the later counts.
-/

namespace Workbench
namespace Json

/-- How many containers may be nested in a text. -/
def maxDepth : Nat := 127

/-! ## 1. Containers -/

/-- Whether one more item follows in a list, and the characters of the item, or of the end of the
list. -/
def nextItem (first : Bool) (cs : List Char) : Except Fault (Bool × List Char) :=
  match skipSpace cs with
  | [] => .error (.here .endInList [])
  | c :: r =>
    if c == ']' then .ok (false, c :: r)
    else if first then .ok (true, c :: r)
    else if c == ',' then
      match skipSpace r with
      | [] => .error (.here .endInValue [])
      | d :: s => if d == ']' then .error (.next .trailingComma (d :: s)) else .ok (true, d :: s)
    else .error (.next .expectedCommaOrBracket (c :: r))

/-- Takes the end of a list. -/
def endList (cs : List Char) : Except Fault (Unit × List Char) :=
  match skipSpace cs with
  | [] => .error (.here .endInList [])
  | c :: r =>
    if c == ']' then .ok ((), r)
    else if c == ',' then
      match skipSpace r with
      | [] => .error (.here .trailingCharacters [])
      | d :: s =>
        .error (.next (if d == ']' then .trailingComma else .trailingCharacters) (d :: s))
    else .error (.next .trailingCharacters (c :: r))

/-- Takes the next key of an object with its colon; nothing at the end of the object (not
taken). -/
def nextKey (first : Bool) (cs : List Char) : Except Fault (Option String × List Char) :=
  match skipSpace cs with
  | [] => .error (.here .endInObject [])
  | c :: r =>
    if c == '\x7d' then .ok (none, c :: r)
    else if first then
      if c == '"' then key r else .error (.next .keyMustBeString (c :: r))
    else if c == ',' then
      match skipSpace r with
      | [] => .error (.here .endInValue [])
      | d :: s =>
        if d == '"' then key s
        else if d == '\x7d' then .error (.next .trailingComma (d :: s))
        else .error (.next .keyMustBeString (d :: s))
    else .error (.next .expectedCommaOrBrace (c :: r))
where
  key (cs : List Char) : Except Fault (Option String × List Char) :=
    match readString cs with
    | .ok (s, r) => .ok (some s, r)
    | .error f => .error f

/-- Takes the colon after a key. -/
def readColon (cs : List Char) : Except Fault (Unit × List Char) :=
  match skipSpace cs with
  | [] => .error (.here .endInObject [])
  | c :: r => if c == ':' then .ok ((), r) else .error (.next .expectedColon (c :: r))

/-- Takes the end of an object. -/
def endObject (cs : List Char) : Except Fault (Unit × List Char) :=
  match skipSpace cs with
  | [] => .error (.here .endInObject [])
  | c :: r =>
    if c == '\x7d' then .ok ((), r)
    else .error (.next (if c == ',' then .trailingComma else .trailingCharacters) (c :: r))

/-! ## 2. Values -/

/-- A value that is no container, the first character already taken off `r`. -/
def readScalar (c : Char) (r : List Char) : Except Fault (Json × List Char) := do
  if c == 'n' then
    let (_, r) ← readWord "ull".toList r
    return (.null, r)
  else if c == 't' then
    let (_, r) ← readWord "rue".toList r
    return (.bool true, r)
  else if c == 'f' then
    let (_, r) ← readWord "alse".toList r
    return (.bool false, r)
  else if c == '-' then
    let (n, r) ← readNumber true r
    return (.num n, r)
  else if c.isDigit then
    let (n, r) ← readNumber false (c :: r)
    return (.num n, r)
  else if c == '"' then
    let (s, r) ← readString r
    return (.str s, r)
  else throw (.next .expectedValue (c :: r))

mutual

/-- A value with at most `depth` containers around one another. -/
def readValueFrom : Nat → Nat → Reader Json
  | 0, _, cs => .error (.here .endInValue cs)
  | n + 1, depth, cs =>
    match skipSpace cs with
    | [] => .error (.here .endInValue [])
    | c :: r =>
      if c == '[' then
        match depth with
        | 0 => .error (.next .tooDeep (c :: r))
        | depth + 1 =>
          match readItemsFrom n depth true [] r with
          | .error f => .error f
          | .ok (items, r) =>
            match endList r with
            | .error f => .error f
            | .ok (_, r) => .ok (.arr items, r)
      else if c == '\x7b' then
        match depth with
        | 0 => .error (.next .tooDeep (c :: r))
        | depth + 1 =>
          match readMembersFrom n depth true [] r with
          | .error f => .error f
          | .ok (members, r) =>
            match endObject r with
            | .error f => .error f
            | .ok (_, r) => .ok (.obj members, r)
      else readScalar c r

/-- The items of a list up to its end, after those in `acc`, which stand in reverse. -/
def readItemsFrom : Nat → Nat → Bool → List Json → Reader (List Json)
  | 0, _, _, _, cs => .error (.here .endInList cs)
  | n + 1, depth, first, acc, cs =>
    match nextItem first cs with
    | .error f => .error f
    | .ok (false, r) => .ok (acc.reverse, r)
    | .ok (true, r) =>
      match readValueFrom n depth r with
      | .error f => .error f
      | .ok (j, r) => readItemsFrom n depth false (j :: acc) r

/-- The members of an object up to its end, added to those in `acc`. -/
def readMembersFrom : Nat → Nat → Bool → List (String × Json) → Reader (List (String × Json))
  | 0, _, _, _, cs => .error (.here .endInObject cs)
  | n + 1, depth, first, acc, cs =>
    match nextKey first cs with
    | .error f => .error f
    | .ok (none, r) => .ok (acc, r)
    | .ok (some key, r) =>
      match readColon r with
      | .error f => .error f
      | .ok (_, r) =>
        match readValueFrom n depth r with
        | .error f => .error f
        | .ok (j, r) => readMembersFrom n depth false (insertMember key j acc) r

end

/-- A value from the front of a text.  Every second step takes a character, so twice the count of
characters bounds the steps. -/
def readValue (depth : Nat) (cs : List Char) : Except Fault (Json × List Char) :=
  readValueFrom (2 * cs.length + 2) depth cs

/-- Nothing but blanks is left. -/
def readEnd (cs : List Char) : Except Fault Unit :=
  match skipSpace cs with
  | [] => .ok ()
  | c :: r => .error (.next .trailingCharacters (c :: r))

/-- A whole text as one value. -/
def parse (text : String) : Except Fault Json :=
  match readValue maxDepth text.toList with
  | .error f => .error f
  | .ok (j, r) =>
    match readEnd r with
    | .error f => .error f
    | .ok () => .ok j

end Json
end Workbench
