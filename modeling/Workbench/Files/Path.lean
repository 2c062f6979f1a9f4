/-!
# Paths

A path is a text cut at its slashes.  It is printed as it was written, and it is compared, split and
climbed by its components: repeated slashes, a slash at the end and dots inside mean nothing.

* `Path.components` are the parts that count;
* `Path.join` puts a path behind another, and an absolute one replaces it;
* `Path.parent?`, `Path.fileName?`, `Path.fileStem?` and `Path.extension?` take the last part apart;
* `Path.expandHome` replaces a leading `~/`.
-/

namespace Workbench

/-! ## 1. The type -/

/-- A path: the texts between its slashes.  Without any it is the empty path, as is the path whose
only text is empty. -/
structure Path where
  segments : List String
  deriving DecidableEq, Repr, Inhabited

/-- A part of a path that counts. -/
inductive Component where
  | root
  /-- A dot at the very beginning. -/
  | here
  | up
  | name (s : String)
  deriving DecidableEq, Repr

namespace Path

/-- The characters cut at the slashes. -/
def splitChars : List Char → List (List Char)
  | [] => [[]]
  | c :: r =>
    if c == '/' then [] :: splitChars r
    else
      match splitChars r with
      | [] => [[c]]
      | s :: ss => (c :: s) :: ss

/-- The path of a text. -/
def ofString (s : String) : Path := ⟨(splitChars s.toList).map String.ofList⟩

/-- The text of a path. -/
def text (p : Path) : String := String.intercalate "/" p.segments

/-- The empty path. -/
def empty : Path := ⟨[""]⟩

/-- The path without any text. -/
def isEmpty (p : Path) : Bool := p.segments == [] || p.segments == [""]

/-- The path begins with a slash. -/
def isAbsolute (p : Path) : Bool :=
  match p.segments with
  | "" :: _ :: _ => true
  | _ => false

/-- Some text of the path holds the character NUL, which no file name can. -/
def hasNul (p : Path) : Bool := p.segments.any fun s => s.toList.contains '\x00'

/-! ## 2. Components -/

/-- The component of a segment that is not the first; empty ones and dots mean nothing. -/
def component? (s : String) : Option Component :=
  if s == "" || s == "." then none
  else if s == ".." then some .up
  else some (.name s)

/-- The components of the segments after the root or the first segment. -/
def bodyComponents (ss : List String) : List Component := ss.filterMap component?

/-- The components of a path. -/
def components (p : Path) : List Component :=
  match p.segments with
  | [] => []
  | "" :: s :: ss => .root :: bodyComponents (s :: ss)
  | s :: ss => if s == "." then .here :: bodyComponents ss else bodyComponents (s :: ss)

/-- Two paths lead the same way. -/
def sameAs (p q : Path) : Bool := p.components == q.components

/-! ## 3. Joining and climbing -/

/-- The second path behind the first; an absolute one takes its place. -/
def join (p q : Path) : Path :=
  if q.isAbsolute || p.isEmpty then q
  else if p.segments.getLast? == some "" then ⟨p.segments.dropLast ++ q.segments⟩
  else ⟨p.segments ++ (if q.segments.isEmpty then [""] else q.segments)⟩

/-- A name behind a path. -/
def child (p : Path) (name : String) : Path := p.join ⟨[name]⟩

/-- Segments without the empty ones and the dots at their end. -/
def dropIdle : List String → List String
  | [] => []
  | s :: ss =>
    match dropIdle ss with
    | [] => if s == "" || s == "." then [] else [s]
    | t => s :: t

/-- The segments of a body without its last component. -/
def dropLastComponent (ss : List String) : List String := dropIdle (dropIdle ss).dropLast

/-- The path without its last component; nothing for the root and the empty path. -/
def parent? (p : Path) : Option Path :=
  match p.segments with
  | [] => none
  | "" :: s :: ss =>
    if (bodyComponents (s :: ss)).isEmpty then none
    else
      match dropLastComponent (s :: ss) with
      | [] => some ⟨["", ""]⟩
      | t => some ⟨"" :: t⟩
  | s :: ss =>
    if s == "." then
      if (bodyComponents ss).isEmpty then some empty
      else some ⟨s :: dropLastComponent ss⟩
    else if (bodyComponents (s :: ss)).isEmpty then none
    else
      match dropLastComponent (s :: ss) with
      | [] => some empty
      | t => some ⟨t⟩

/-- The path and everything above it, `n` steps at most. -/
def ancestorsFrom : Nat → Path → List Path
  | 0, p => [p]
  | n + 1, p =>
    match p.parent? with
    | none => [p]
    | some q => p :: ancestorsFrom n q

/-- The path and everything above it, nearest first. -/
def ancestors (p : Path) : List Path := ancestorsFrom (p.segments.length + 1) p

/-! ## 4. The last component -/

/-- The last component, if it is a name. -/
def fileName? (p : Path) : Option String :=
  match p.components.getLast? with
  | some (.name s) => some s
  | _ => none

/-- The characters before the last dot and those after it. -/
def splitLastDot : List Char → Option (List Char × List Char)
  | [] => none
  | c :: r =>
    match splitLastDot r with
    | some (before, after) => some (c :: before, after)
    | none => if c == '.' then some ([], r) else none

/-- A file name as stem and extension.  A name whose only dot is its first character has no
extension. -/
def splitName (name : String) : String × Option String :=
  match splitLastDot name.toList with
  | some (c :: before, after) => (String.ofList (c :: before), some (String.ofList after))
  | _ => (name, none)

/-- The last component without its extension. -/
def fileStem? (p : Path) : Option String := p.fileName?.map fun n => (splitName n).1

/-- The extension of the last component. -/
def extension? (p : Path) : Option String := p.fileName?.bind fun n => (splitName n).2

/-! ## 5. The home directory -/

/-- The path of a text, with the home directory for a leading `~/`. -/
def expandHome (home : Option String) (s : String) : Path :=
  match s.toList, home with
  | '~' :: '/' :: rest, some h => (ofString h).join (ofString (String.ofList rest))
  | _, _ => ofString s

end Path
end Workbench
