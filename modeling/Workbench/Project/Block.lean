import Workbench.Files.Disk
import Workbench.Project.Report
import Workbench.Text.Letters

/-!
# Blocks

The blocks of a project are the files below its directory whose extension is one of four, in any
case; names that begin with a dot are passed over, with all that lies below them.

* `Disk.blocksBelow` walks the directories; `Disk.blocks` sorts what was found by folder and name.
-/

namespace Workbench

/-! ## 1. Files that are blocks -/

namespace Block

/-- The extensions of blocks. -/
def extensions : List String := ["xml", "scl", "udt", "db"]

/-- The name of the block that a file is, or nothing for a file of another kind. -/
def stem? (p : Path) : Option String :=
  match p.extension? with
  | none => none
  | some e => if extensions.contains (Text.asciiLower e) then p.fileStem? else none

/-- The text with the letters `a` to `z` in upper case. -/
def asciiUpper (s : String) : String := String.ofList (s.toList.map Char.toUpper)

/-- The beginnings of names that tell the type of a block. -/
def kinds : List String := ["UDT", "OB", "FB", "FC", "DB"]

/-- The type of a block: by its extension, or by the beginning of its name. -/
def kind (stem : String) (p : Path) : String :=
  let e := Text.asciiLower (p.extension?.getD "")
  if e == "scl" then "SCL"
  else if e == "udt" then "UDT"
  else if e == "db" then "DB"
  else (kinds.find? fun k => k.toList.isPrefixOf (asciiUpper stem).toList).getD "XML"

/-- The name is passed over. -/
def isHidden (name : String) : Bool := name.toList.head? == some '.'

end Block

/-- A block and its file. -/
structure FoundBlock where
  info : BlockInfo
  source : Path
  deriving DecidableEq, Repr

namespace FoundBlock

/-- The block that a file in a folder is. -/
def ofFile? (folder : List String) (p : Path) : Option FoundBlock :=
  (Block.stem? p).map fun stem =>
    ⟨⟨stem, Block.kind stem p, String.intercalate "/" folder⟩, p⟩

/-- The order of listings: by folder, then by name. -/
def le (a b : FoundBlock) : Bool :=
  a.info.path < b.info.path || (a.info.path == b.info.path && a.info.name ≤ b.info.name)

/-- A sorted list with one more block, before those that are not smaller. -/
def insertSorted (b : FoundBlock) : List FoundBlock → List FoundBlock
  | [] => [b]
  | c :: r => if b.le c then b :: c :: r else c :: insertSorted b r

/-- The blocks in the order of listings; of equal ones the earlier stays first. -/
def sort (bs : List FoundBlock) : List FoundBlock := bs.foldr insertSorted []

end FoundBlock

/-! ## 2. The walk -/

namespace Disk

/-- The blocks below a directory that lies in a folder of the project, `levels` levels deep. -/
def blocksBelow (d : Disk) : Nat → List String → Path → Except FileFault (List FoundBlock)
  | 0, _, _ => .ok []
  | levels + 1, folder, dir =>
    match d.readDirectory dir with
    | .error f => .error f
    | .ok names =>
      let visible := names.filter fun n => !Block.isHidden n
      match visible.mapM fun name =>
          let path := dir.child name
          if d.isDirectory path then d.blocksBelow levels (folder ++ [name]) path
          else .ok (FoundBlock.ofFile? folder path).toList with
      | .error f => .error f
      | .ok parts => .ok parts.flatten

/-- The blocks of the project in a directory, in the order of listings. -/
def blocks (d : Disk) (dir : Path) : Except FileFault (List FoundBlock) :=
  match d.blocksBelow (d.tree.depth + 1) [] dir with
  | .error f => .error f
  | .ok bs => .ok (FoundBlock.sort bs)

end Disk
end Workbench
