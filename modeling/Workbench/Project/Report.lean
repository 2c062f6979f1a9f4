import Workbench.Shape.Basic

/-!
# Projects, blocks and reports

What an operation on a project tells its caller: the summary of the open project, its blocks, and
the reports of an export and an import with an entry for each item.
-/

namespace Workbench

/-- The open project. -/
structure ProjectInfo where
  name : String
  /-- The directory that holds the directory of the project. -/
  storePath : String
  path : String
  isModified : Bool
  blockCount : Nat
  deriving DecidableEq, Repr

instance : Shaped ProjectInfo where
  shape := .record "ProjectInfo" (.ofList
    [(.plain "name", .text), (.plain "store_path", .text), (.plain "path", .text),
      (.plain "is_modified", .flag), (.plain "block_count", .natural .size)])
  toValue i := (i.name, i.storePath, i.path, i.isModified, i.blockCount, ())
  ofValue v := ⟨v.1, v.2.1, v.2.2.1, v.2.2.2.1, v.2.2.2.2.1⟩
  ofValue_toValue _ := rfl
  toValue_ofValue _ := rfl

/-- A block of a project. -/
structure BlockInfo where
  name : String
  blockType : String
  /-- The directory of the block below that of the project, with slashes. -/
  path : String
  deriving DecidableEq, Repr

instance : Shaped BlockInfo where
  shape := .record "BlockInfo" (.ofList
    [(.plain "name", .text), (.plain "type", .text), (.plain "path", .text)])
  toValue i := (i.name, i.blockType, i.path, ())
  ofValue v := ⟨v.1, v.2.1, v.2.2.1⟩
  ofValue_toValue _ := rfl
  toValue_ofValue _ := rfl

/-- A block that was exported, and the file it went to. -/
structure ExportedBlock where
  blockName : String
  filePath : String
  deriving DecidableEq, Repr

instance : Shaped ExportedBlock where
  shape := .record "ExportedBlock" (.ofList
    [(.plain "block_name", .text), (.plain "file_path", .text)])
  toValue i := (i.blockName, i.filePath, ())
  ofValue v := ⟨v.1, v.2.1⟩
  ofValue_toValue _ := rfl
  toValue_ofValue _ := rfl

/-- A file that was imported, the block it became, and the folder that was asked for. -/
structure ImportedBlock where
  path : String
  blockName : String
  folder : Option String
  deriving DecidableEq, Repr

instance : Shaped ImportedBlock where
  shape := .record "ImportedBlock" (.ofList
    [(.plain "path", .text), (.plain "block_name", .text), (.omitted "folder", .option .text)])
  toValue i := (i.path, i.blockName, i.folder, ())
  ofValue v := ⟨v.1, v.2.1, v.2.2.1⟩
  ofValue_toValue _ := rfl
  toValue_ofValue _ := rfl

/-- An item of a batch that failed. -/
structure ItemError where
  item : String
  error : String
  deriving DecidableEq, Repr

instance : Shaped ItemError where
  shape := .record "ItemError" (.ofList [(.plain "item", .text), (.plain "error", .text)])
  toValue i := (i.item, i.error, ())
  ofValue v := ⟨v.1, v.2.1⟩
  ofValue_toValue _ := rfl
  toValue_ofValue _ := rfl

/-- How the items of a batch ended. -/
structure BatchSummary where
  total : Nat
  succeeded : Nat
  failed : Nat
  deriving DecidableEq, Repr

namespace BatchSummary

/-- The summary of a batch by its two outcomes. -/
def ofCounts (succeeded failed : Nat) : BatchSummary := ⟨succeeded + failed, succeeded, failed⟩

instance : Shaped BatchSummary where
  shape := .record "BatchSummary" (.ofList
    [(.plain "total", .natural .size), (.plain "succeeded", .natural .size),
      (.plain "failed", .natural .size)])
  toValue i := (i.total, i.succeeded, i.failed, ())
  ofValue v := ⟨v.1, v.2.1, v.2.2.1⟩
  ofValue_toValue _ := rfl
  toValue_ofValue _ := rfl

end BatchSummary

/-- What became of an export. -/
structure ExportReport where
  outputPath : String
  exported : List ExportedBlock
  errors : List ItemError
  summary : BatchSummary
  deriving DecidableEq, Repr

instance : Shaped ExportReport where
  shape := .record "ExportReport" (.ofList
    [(.plain "output_path", .text), (.plain "exported", .list (Shaped.shape ExportedBlock)),
      (.plain "errors", .list (Shaped.shape ItemError)),
      (.plain "summary", Shaped.shape BatchSummary)])
  toValue i := (i.outputPath, i.exported.map Shaped.toValue, i.errors.map Shaped.toValue,
    Shaped.toValue i.summary, ())
  ofValue v := ⟨v.1, List.map (fun e => Shaped.ofValue e) v.2.1,
    List.map (fun e => Shaped.ofValue e) v.2.2.1, Shaped.ofValue v.2.2.2.1⟩
  ofValue_toValue i := by
    simp only [Shaped.ofValue_toValue, Shaped.map_ofValue_toValue]
  toValue_ofValue v := by
    exact Prod.ext rfl (Prod.ext (Shaped.map_toValue_ofValue v.2.1)
      (Prod.ext (Shaped.map_toValue_ofValue v.2.2.1) rfl))

/-- What became of an import. -/
structure ImportReport where
  imported : List ImportedBlock
  errors : List ItemError
  summary : BatchSummary
  deriving DecidableEq, Repr

instance : Shaped ImportReport where
  shape := .record "ImportReport" (.ofList
    [(.plain "imported", .list (Shaped.shape ImportedBlock)),
      (.plain "errors", .list (Shaped.shape ItemError)),
      (.plain "summary", Shaped.shape BatchSummary)])
  toValue i := (i.imported.map Shaped.toValue, i.errors.map Shaped.toValue,
    Shaped.toValue i.summary, ())
  ofValue v := ⟨List.map (fun e => Shaped.ofValue e) v.1,
    List.map (fun e => Shaped.ofValue e) v.2.1, Shaped.ofValue v.2.2.1⟩
  ofValue_toValue i := by
    simp only [Shaped.ofValue_toValue, Shaped.map_ofValue_toValue]
  toValue_ofValue v := by
    exact Prod.ext (Shaped.map_toValue_ofValue v.1)
      (Prod.ext (Shaped.map_toValue_ofValue v.2.1) rfl)

end Workbench
