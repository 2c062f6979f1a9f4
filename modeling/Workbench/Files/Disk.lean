import Workbench.Files.Fault
import Workbench.Files.Path
import Workbench.Files.Tree

/-!
# The disk

A file tree as a program sees it: with a working directory, from which relative paths lead on, and
perhaps a home directory.  Every operation is a function of the disk.

A path is followed name by name.  Each name but the last must be that of a directory, two dots lead
one directory up, and a slash or a dot at the end asks for a directory.  Names and whole paths have
a greatest length.
-/

namespace Workbench

/-- A file tree, the directory where relative paths begin, and the home directory. -/
structure Disk where
  tree : FileTree
  cwd : Key
  home : Option String
  deriving DecidableEq, Repr, Inhabited

namespace Disk

/-! ## 1. Following paths -/

/-- The longest name of an entry, in bytes. -/
def maxName : Nat := 255

/-- The first length, in bytes, at which a path is too long. -/
def maxPath : Nat := 4096

/-- The way to an entry: the names that lead there, the last one first, each with what it leads
to. -/
abbrev Trail := List (String × Node)

/-- The entry to which a trail leads. -/
def here (d : Disk) : Trail → Node
  | [] => .directory d.tree
  | (_, node) :: _ => node

/-- The key of the entry to which a trail leads. -/
def keyOf (trail : Trail) : Key := (trail.map Prod.fst).reverse

/-- The trail one segment further on. -/
def step (d : Disk) (trail : Trail) (segment : String) : Except FileFault Trail :=
  match d.here trail with
  | .file _ => .error .notDirectory
  | .directory inside =>
    if segment == "" || segment == "." then .ok trail
    else if segment == ".." then .ok (trail.drop 1)
    else if maxName < segment.utf8ByteSize then .error .nameTooLong
    else
      match inside.child? segment with
      | some node => .ok ((segment, node) :: trail)
      | none => .error .notFound

/-- The trail to which segments lead. -/
def follow (d : Disk) : Trail → List String → Except FileFault Trail
  | trail, [] => .ok trail
  | trail, s :: ss =>
    match d.step trail s with
    | .ok trail => d.follow trail ss
    | .error f => .error f

/-- The segments of a path, from the root on. -/
def route (d : Disk) (p : Path) : List String :=
  if p.isAbsolute then p.segments.drop 1 else d.cwd ++ p.segments

/-- Why a path leads nowhere whatever the disk holds. -/
def pathFault? (p : Path) : Option FileFault :=
  if p.hasNul then some .nulInPath
  else if p.isEmpty then some .notFound
  else if maxPath ≤ p.text.utf8ByteSize then some .nameTooLong
  else none

/-- The entry that a path leads to. -/
def find (d : Disk) (p : Path) : Except FileFault Key :=
  match pathFault? p with
  | some f => .error f
  | none => (d.follow [] (d.route p)).map keyOf

/-- What a path leads to. -/
def entry? (d : Disk) (p : Path) : Option Entry :=
  match d.find p with
  | .ok key => d.tree.get? key
  | .error _ => none

/-- The path leads somewhere. -/
def pathExists (d : Disk) (p : Path) : Bool := (d.entry? p).isSome

/-- The path leads to a directory. -/
def isDirectory (d : Disk) (p : Path) : Bool := d.entry? p == some .directory

/-- The path leads to a file. -/
def isFile (d : Disk) (p : Path) : Bool :=
  match d.entry? p with
  | some (.file _) => true
  | _ => false

/-! ## 2. Reading -/

/-- The names in a directory. -/
def readDirectory (d : Disk) (p : Path) : Except FileFault (List String) :=
  match d.find p with
  | .error f => .error f
  | .ok key => if d.tree.isDirectory key then .ok (d.tree.names key) else .error .notDirectory

/-- The content of a file. -/
def readFile (d : Disk) (p : Path) : Except FileFault String :=
  match d.find p with
  | .error f => .error f
  | .ok key =>
    match d.tree.get? key with
    | some (.file content) => .ok content
    | some .directory => .error .isDirectory
    | none => .error .notFound

/-! ## 3. Writing -/

/-- The segments without the empty ones at their end. -/
def dropSlashes : List String → List String
  | [] => []
  | s :: ss =>
    match dropSlashes ss with
    | [] => if s == "" then [] else [s]
    | t => s :: t

/-- The place that a path names for a new entry: the directory and, unless the path ends in dots or
is that of the root, the name. -/
def place (d : Disk) (p : Path) : Except FileFault (Key × Option String) :=
  match pathFault? p with
  | some f => .error f
  | none =>
    let segments := dropSlashes (d.route p)
    match d.follow [] segments.dropLast with
    | .error f => .error f
    | .ok trail =>
      match d.here trail, segments.getLast? with
      | .file _, _ => .error .notDirectory
      | .directory _, none => .ok (keyOf trail, none)
      | .directory _, some s =>
        if s == "." || s == ".." then .ok (keyOf trail, none)
        else if maxName < s.utf8ByteSize then .error .nameTooLong
        else .ok (keyOf trail, some s)

/-- The disk with an entry at a key. -/
def put (d : Disk) (key : Key) (entry : Entry) : Disk := { d with tree := d.tree.put key entry }

/-- A new directory. -/
def makeDirectory (d : Disk) (p : Path) : Except FileFault Disk :=
  match d.place p with
  | .error f => .error f
  | .ok (_, none) => .error .alreadyExists
  | .ok (dir, some name) =>
    if (d.tree.get? (dir ++ [name])).isSome then .error .alreadyExists
    else .ok (d.put (dir ++ [name]) .directory)

/-- The path ends in a slash. -/
def endsInSlash (p : Path) : Bool :=
  1 < p.segments.length && p.segments.getLast? == some ""

/-- The key of a file that is to be written, which need not exist yet. -/
def openForWriting (d : Disk) (p : Path) : Except FileFault Key :=
  match d.place p with
  | .error f => .error f
  | .ok (_, none) => .error .isDirectory
  | .ok (dir, some name) =>
    if endsInSlash p || d.tree.isDirectory (dir ++ [name]) then .error .isDirectory
    else .ok (dir ++ [name])

/-- Writes a file, new or not. -/
def writeFile (d : Disk) (p : Path) (content : String) : Except FileFault Disk :=
  match d.openForWriting p with
  | .error f => .error f
  | .ok key => .ok (d.put key (.file content))

/-- Copies a file.  The target is emptied before the source is read, so a file copied to itself is
empty afterwards. -/
def copyFile (d : Disk) (source target : Path) : Except FileFault Disk :=
  match d.readFile source with
  | .error f => .error f
  | .ok _ =>
    match d.writeFile target "" with
    | .error f => .error f
    | .ok emptied =>
      match emptied.readFile source with
      | .error f => .error f
      | .ok content => emptied.writeFile target content

/-- The missing directories among a path and what lies above it, the outermost first, after one of
them has been made or found. -/
def makeUpTo (d : Disk) : List Path → List Path → Except FileFault (Disk × List Path)
  | missing, [] => .ok (d, missing)
  | missing, p :: above =>
    if p.components.isEmpty || p.parent?.isNone then .ok (d, missing)
    else
      match d.makeDirectory p with
      | .ok d => .ok (d, missing)
      | .error .notFound => d.makeUpTo (p :: missing) above
      | .error .alreadyExists =>
        if d.isDirectory p then .ok (d, missing) else .error .alreadyExists
      | .error f => .error f

/-- Makes directories that were missing, the outermost first, up to the first that cannot be
made. -/
def makeAll (d : Disk) : List Path → Disk × Except FileFault Unit
  | [] => (d, .ok ())
  | p :: ps =>
    match d.makeDirectory p with
    | .ok d => d.makeAll ps
    | .error f =>
      if f == .alreadyExists && d.isDirectory p then d.makeAll ps else (d, .error f)

/-- Makes a directory and all that are missing above it.  Those that were made stay when a later
one cannot be. -/
def makeDirectories (d : Disk) (p : Path) : Disk × Except FileFault Unit :=
  match d.makeUpTo [] p.ancestors with
  | .error f => (d, .error f)
  | .ok (d, missing) => d.makeAll missing

/-- Removes what a path leads to, with all that lies below it. -/
def remove (d : Disk) (p : Path) : Except FileFault Disk :=
  match d.find p with
  | .error f => .error f
  | .ok key => .ok { d with tree := d.tree.remove key }

/-- The path of a text, with the home directory for a leading `~/`. -/
def expandHome (d : Disk) (s : String) : Path := Path.expandHome d.home s

end Disk
end Workbench
