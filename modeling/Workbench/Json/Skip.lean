import Workbench.Json.Token

/-!
# Passing over a value

A member whose name says nothing to the reader is passed over.  Its text must still obey the rules
of JSON; but its numbers need not fit, its strings need not be Unicode, and it may be nested to any
depth.
-/

namespace Workbench
namespace Json

/-- An open list or object around the place being read. -/
inductive Frame where
  | list
  | object
  deriving DecidableEq, Repr

namespace Frame

/-- What is wrong when the text ends inside. -/
def atEnd : Frame → Cause
  | list => .endInList
  | object => .endInObject

/-- What is wrong when neither a comma nor the end follows a value. -/
def noComma : Frame → Cause
  | list => .expectedCommaOrBracket
  | object => .expectedCommaOrBrace

/-- The character that ends it. -/
def closing : Frame → Char
  | list => ']'
  | object => '\x7d'

end Frame

/-- Passes over a key and its colon. -/
def skipKey (cs : List Char) : Except Fault (Unit × List Char) :=
  match skipSpace cs with
  | [] => .error (.here .endInObject [])
  | c :: r =>
    if c == '"' then
      match skipString r with
      | .error f => .error f
      | .ok (_, r) =>
        match skipSpace r with
        | [] => .error (.here .endInObject [])
        | c :: r =>
          if c == ':' then .ok ((), r) else .error (.next .expectedColon (c :: r))
    else .error (.next .keyMustBeString (c :: r))

/-- Passes over a value that is no container, the first character already taken off `r`. -/
def skipScalar (c : Char) (r : List Char) : Except Fault (Unit × List Char) :=
  if c == 'n' then readWord "ull".toList r
  else if c == 't' then readWord "rue".toList r
  else if c == 'f' then readWord "alse".toList r
  else if c == '-' then skipNumber r
  else if c.isDigit then skipNumber (c :: r)
  else if c == '"' then skipString r
  else .error (.next .expectedValue (c :: r))

/-- What is to be read next: a value, or what follows a value or an opening. -/
inductive Expect where
  | value
  /-- Inside `frame`; `fresh` if nothing stands in it yet. -/
  | separator (fresh : Bool) (frame : Frame)
  deriving DecidableEq, Repr

/-- Passes over the rest of a value inside the open frames.  Every second step takes a character, so
twice the count of characters bounds the steps. -/
def skipFrom : Nat → List Frame → Expect → Reader Unit
  | 0, _, _, cs => .error (.here .endInValue cs)
  | n + 1, frames, .value, cs =>
    match skipSpace cs with
    | [] => .error (.here .endInValue [])
    | c :: r =>
      if c == '[' then skipFrom n frames (.separator true .list) r
      else if c == '\x7b' then skipFrom n frames (.separator true .object) r
      else
        match skipScalar c r with
        | .error f => .error f
        | .ok (_, r) =>
          match frames with
          | [] => .ok ((), r)
          | frame :: outer => skipFrom n outer (.separator false frame) r
  | n + 1, frames, .separator fresh frame, cs =>
    match skipSpace cs with
    | [] => .error (.here frame.atEnd [])
    | c :: r =>
      if c == frame.closing then
        match frames with
        | [] => .ok ((), r)
        | outer :: others => skipFrom n others (.separator false outer) r
      else if !fresh && c != ',' then .error (.next frame.noComma (c :: r))
      else
        let inside := if fresh then c :: r else r
        match frame with
        | .list => skipFrom n (frame :: frames) .value inside
        | .object =>
          match skipKey inside with
          | .error f => .error f
          | .ok (_, r) => skipFrom n (frame :: frames) .value r

/-- Passes over one value. -/
def skipValue (cs : List Char) : Except Fault (Unit × List Char) :=
  skipFrom (2 * cs.length + 2) [] .value cs

end Json
end Workbench
