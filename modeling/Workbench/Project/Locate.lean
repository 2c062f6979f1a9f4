import Workbench.Files.Disk
import Workbench.Text.Blank
import Workbench.Text.Letters
import Workbench.Tool.Error

/-!
# Locating a project

A caller names a project by a project file, by a directory and a name, or by a directory alone; then
the first project file below it decides.  `Project.locate` gives the directory that holds the
project and the project's name.
-/

namespace Workbench
namespace Project

/-- The file is a project file: its extension begins with `ap` in any case. -/
def isProjectFile (p : Path) : Bool :=
  match p.extension? with
  | some e => ['a', 'p'].isPrefixOf (Text.asciiLower e).toList
  | none => false

/-- A sorted list with one more name. -/
def insertName (n : String) : List String → List String
  | [] => [n]
  | m :: r => if n ≤ m then n :: m :: r else m :: insertName n r

/-- Names in increasing order. -/
def sortNames (ns : List String) : List String := ns.foldr insertName []

/-- The first result among those that an action gives for a list; a fault ends the search. -/
def firstM {α β ε : Type} (f : α → Except ε (Option β)) : List α → Except ε (Option β)
  | [] => .ok none
  | a :: r =>
    match f a with
    | .error e => .error e
    | .ok (some b) => .ok (some b)
    | .ok none => firstM f r

/-- The first project file at most `levels` levels below a directory: its own files come first, in
the order of their names, then its directories. -/
def findFrom (d : Disk) : Nat → Path → Except FileFault (Option Path)
  | 0, _ => .ok none
  | levels + 1, dir =>
    match d.readDirectory dir with
    | .error f => .error f
    | .ok names =>
      let entries := (sortNames names).map dir.child
      match entries.find? fun p => d.isFile p && isProjectFile p with
      | some p => .ok (some p)
      | none => firstM (findFrom d levels) (entries.filter d.isDirectory)

/-- The first project file below a directory. -/
def findFile (d : Disk) (dir : Path) : Except FileFault (Option Path) :=
  findFrom d (d.tree.depth + 1) dir

/-- The path as its text, as the reason of an error. -/
def named (p : Path) : ToolError := .invalidPath p.text

/-- The directory that holds a project, and the project's name, from the directory of the project
and the path that errors name. -/
def storeAndName (dir shown : Path) : Except ToolError (Path × String) :=
  match dir.fileName? with
  | some name => .ok (dir.parent?.getD dir, name)
  | none => .error (named shown)

/-- The directory that holds the project that a caller means, and the project's name. -/
def locate (d : Disk) (p : Path) (name : Option String) : Except ToolError (Path × String) :=
  if !d.pathExists p then .error (.projectNotFound p.text)
  else if d.isFile p then
    if !isProjectFile p then
      .error (.invalidPath ("not a project file (.ap*): " ++ p.text))
    else
      match p.parent? with
      | none => .error (named p)
      | some dir => storeAndName dir p
  else
    match name.filter fun n => !Text.allBlank n with
    | some name => .ok (p, name)
    | none =>
      match findFile d p with
      | .error f => .error (.ofFileFault f)
      | .ok none => .error (.projectNotFound ("no project file found in " ++ p.text))
      | .ok (some file) =>
        let dir := file.parent?.getD p
        if dir.sameAs p then storeAndName p p
        else
          match dir.fileName? with
          | some name => .ok (p, name)
          | none => .error (named dir)

end Project
end Workbench
