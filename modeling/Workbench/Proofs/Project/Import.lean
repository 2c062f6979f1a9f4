import Workbench.Proofs.Files.Copying
import Workbench.Proofs.Project.Export

/-!
# Importing files

An import copies files into one folder of the project, each under its own name.  A later file takes
the place of an earlier one with the same name, and a file that lies in the folder already is copied
onto itself and left empty; both are reported as imported.

* `Workspace.Brought` is what an import promises of a file, and `Workspace.Imports` what it does;
* `Workspace.Importing` holds after every file (`Importing.step`), and `imports_of_importBlocks` is
  the whole import;
* `not_brought_ownFile` is a file that is its own target.
-/

namespace Workbench

namespace Workspace

/-! ## 1. Statements -/

/-- Items that were to be imported, each with its entry in the report. -/
abbrev ImportItems := List (Path × Except ItemError ImportedBlock)

/-- The entry names the file. -/
def Names (file : Path) : Except ItemError ImportedBlock → Prop
  | .ok e => e.path = file.text
  | .error e => e.item = file.text

/-- The entries of a report belong to the files, one to each. -/
structure ImportEntries (report : ImportReport) (files : List Path) (items : ImportItems) :
    Prop where
  files : items.map Prod.fst = files
  imported : report.imported = items.filterMap fun item => item.2.toOption
  errors : report.errors = items.filterMap fun item => fault? item.2
  named : ∀ item ∈ items, Names item.1 item.2

/-- The files that are reported as imported. -/
def importedFiles (items : ImportItems) : List Path :=
  items.filterMap fun item => item.2.toOption.map fun _ => item.1

/-- The directory has a file with the name of the imported one, and it holds what that one held in
the beginning. -/
def Brought (before after : Disk) (dir file : Path) : Prop :=
  ∃ name key content, file.fileName? = some name ∧ after.find file = .ok key ∧
    before.tree.get? key = some (.file content) ∧ after.readFile (dir.child name) = .ok content

/-- The file lies where an import would copy it. -/
def IsOwnTarget (after : Disk) (dir file : Path) : Prop :=
  ∃ name key, file.fileName? = some name ∧ after.find file = .ok key ∧
    after.find (dir.child name) = .ok key

/-- Another of the files bears the same name. -/
def HasRival (after : Disk) (files : List Path) (file : Path) : Prop :=
  ∃ other ∈ files, other.fileName? = file.fileName? ∧ after.find other ≠ after.find file

/-- **What an import does**: `before` is the disk before it, and `after` the one behind it. -/
structure Imports (before : Disk) (dir : Path) (after : Disk) (items : ImportItems) : Prop where
  /-- Paths lead where they led. -/
  leads : ∀ p key, before.find p = .ok key → after.find p = .ok key
  /-- Each imported file is there under its own name. -/
  present : ∀ file ∈ importedFiles items, ∃ name content, file.fileName? = some name ∧
    after.readFile (dir.child name) = .ok content
  /-- It holds what the imported file held, unless that is its own target or has a rival. -/
  brought : ∀ file ∈ importedFiles items, ¬ IsOwnTarget after dir file →
    ¬ HasRival after (importedFiles items) file → Brought before after dir file
  /-- In every case it holds what the last file with its name held, and nothing if that one was its
  own target. -/
  last : ∀ front file rest, importedFiles items = front ++ file :: rest →
    (∀ other ∈ rest, other.fileName? ≠ file.fileName?) → before.Arrived after dir file

/-! ## 2. One file after the other -/

/-- What an import has done and told after some of the files. -/
structure Importing (before : Disk) (dir : Path) (items : ImportItems) (b : Batch ImportedBlock) :
    Prop where
  filled : before.Filled dir (importedFiles items) b.disk
  done : b.done = items.filterMap fun item => item.2.toOption
  errors : b.errors = items.filterMap fun item => fault? item.2
  named : ∀ item ∈ items, Names item.1 item.2

section Steps

variable {before : Disk} {dir : Path} {items : ImportItems} {b : Batch ImportedBlock}

theorem Importing.nil (before : Disk) (dir : Path) : Importing before dir [] ⟨before, [], []⟩ where
  filled := .nil before dir
  done := rfl
  errors := rfl
  named item hitem := by cases hitem

theorem named_concat {file : Path} {v : Except ItemError ImportedBlock}
    (h : ∀ item ∈ items, Names item.1 item.2) (hv : Names file v) :
    ∀ item ∈ items ++ [(file, v)], Names item.1 item.2 := by
  intro item hitem
  rcases List.mem_append.mp hitem with hbefore | hnew
  · exact h item hbefore
  · obtain rfl := List.mem_singleton.mp hnew
    exact hv

/-- A file that is not imported; directories may have been made for it. -/
theorem Importing.failed (hi : Importing before dir items b) {disk : Disk}
    (h : b.disk.Extends disk) (file : Path) (reason : String) :
    Importing before dir (items ++ [(file, .error ⟨file.text, reason⟩)])
      { b with disk := disk, errors := b.errors ++ [⟨file.text, reason⟩] } where
  filled := by
    have hsame : importedFiles (items ++ [(file, .error ⟨file.text, reason⟩)]) =
        importedFiles items := by
      simp [importedFiles, List.filterMap_append, Except.toOption]
    rw [hsame]
    exact hi.filled.directories h
  done := by simp [hi.done, List.filterMap_append, Except.toOption]
  errors := by simp [hi.errors, List.filterMap_append, fault?]
  named := named_concat hi.named rfl

/-- A file that is imported. -/
theorem Importing.arrived (hi : Importing before dir items b) {made disk : Disk}
    (hmade : b.disk.Extends made) {file : Path} {name : String} (hname : file.fileName? = some name)
    (hcopy : made.copyFile file (dir.child name) = .ok disk) (stem : String)
    (folder : Option String) :
    Importing before dir (items ++ [(file, .ok ⟨file.text, stem, folder⟩)])
      { b with disk := disk, done := b.done ++ [⟨file.text, stem, folder⟩] } where
  filled := by
    have hmore : importedFiles (items ++ [(file, .ok ⟨file.text, stem, folder⟩)]) =
        importedFiles items ++ [file] := by
      simp [importedFiles, List.filterMap_append, Except.toOption]
    rw [hmore]
    exact (hi.filled.directories hmade).copy hname hcopy
  done := by simp [hi.done, List.filterMap_append, Except.toOption]
  errors := by simp [hi.errors, List.filterMap_append, fault?]
  named := named_concat hi.named rfl

/-- To copy a file into a directory is to make the directory first, and then to copy. -/
theorem copyInto_cases {d disk : Disk} {source : Path} {name : String}
    {r : Except FileFault Unit} (h : copyInto d source dir name = (disk, r)) :
    (∃ f, r = .error f ∧ d.Extends disk) ∨
      ∃ made, r = .ok () ∧ d.Extends made ∧
        made.copyFile source (dir.child name) = .ok disk := by
  have hextends := Disk.extends_makeDirectories (d := d) dir
  unfold copyInto at h
  split at h
  · rename_i made f hmade
    cases h
    rw [hmade] at hextends
    exact Or.inl ⟨f, rfl, hextends⟩
  · rename_i made hmade
    rw [hmade] at hextends
    split at h
    · rename_i copied hcopy
      cases h
      exact Or.inr ⟨made, rfl, hextends, hcopy⟩
    · rename_i f hcopy
      cases h
      exact Or.inl ⟨f, rfl, hextends⟩

/-- **What becomes of one file**: an error, and directories may have been made for it; or it is
copied under its own name, and reported as the block of its stem. -/
theorem importOne_cases (dir : Path) (folder : Option String) (b : Batch ImportedBlock)
    (file : Path) :
    (∃ disk reason, b.disk.Extends disk ∧ importOne dir folder b file =
      { b with disk := disk, errors := b.errors ++ [⟨file.text, reason⟩] }) ∨
    ∃ made disk stem name, Block.stem? file = some stem ∧ file.fileName? = some name ∧
      b.disk.Extends made ∧ made.copyFile file (dir.child name) = .ok disk ∧
      importOne dir folder b file =
        { b with disk := disk, done := b.done ++ [⟨file.text, stem, folder⟩] } := by
  unfold importOne
  split
  · exact Or.inl ⟨_, _, .refl b.disk, rfl⟩
  · split
    · rename_i stem name hstem hname
      split
      · rename_i disk hcopied
        rcases copyInto_cases hcopied with ⟨f, herror, -⟩ | ⟨made, -, hmade, hcopy⟩
        · cases herror
        · exact Or.inr ⟨made, disk, stem, name, hstem, hname, hmade, hcopy, rfl⟩
      · rename_i disk f hcopied
        rcases copyInto_cases hcopied with ⟨-, -, hextends⟩ | ⟨made, hdone, -, -⟩
        · exact Or.inl ⟨disk, _, hextends, rfl⟩
        · cases hdone
    · exact Or.inl ⟨_, _, .refl b.disk, rfl⟩

/-- **One file more.** -/
theorem Importing.step (hi : Importing before dir items b) (folder : Option String) (file : Path) :
    ∃ v, Importing before dir (items ++ [(file, v)]) (importOne dir folder b file) := by
  rcases importOne_cases dir folder b file with ⟨disk, reason, hextends, hone⟩ |
    ⟨made, disk, stem, name, -, hname, hmade, hcopy, hone⟩
  · rw [hone]
    exact ⟨_, hi.failed hextends file reason⟩
  · rw [hone]
    exact ⟨_, hi.arrived hmade hname hcopy stem folder⟩

/-- **All files**, by induction over those that are still to come. -/
theorem Importing.all (hi : Importing before dir items b) (folder : Option String)
    (files : List Path) :
    ∃ items', items'.map Prod.fst = items.map Prod.fst ++ files ∧
      Importing before dir items' (files.foldl (importOne dir folder) b) := by
  induction files generalizing items b with
  | nil => exact ⟨items, by simp, hi⟩
  | cons file files ih =>
    obtain ⟨v, hv⟩ := hi.step folder file
    obtain ⟨items', hfst, hall⟩ := ih hv
    exact ⟨items', by simpa using hfst, hall⟩

/-- A file that is not its own target and has no rival is the last of its name, as far as its
content goes. -/
theorem Importing.brought (hi : Importing before dir items b) {file : Path}
    (hfile : file ∈ importedFiles items) (hown : ¬ IsOwnTarget b.disk dir file)
    (hrival : ¬ HasRival b.disk (importedFiles items) file) : Brought before b.disk dir file := by
  obtain ⟨last, hlast, hsame, name, key, sourceKey, content, hname, hkey, hsource, hget, -,
    hother⟩ := hi.filled.arrived hfile
  have hfilename : file.fileName? = some name := hsame ▸ hname
  have hfind : b.disk.find file = .ok sourceKey :=
    Classical.byContradiction fun hne =>
      hrival ⟨last, hlast, hsame, fun heq => hne (heq ▸ hsource)⟩
  have hne : sourceKey ≠ key := by
    rintro rfl
    exact hown ⟨name, sourceKey, hfilename, hfind, hkey⟩
  exact ⟨name, sourceKey, content, hfilename, hfind, hother hne,
    Disk.readFile_ok.mpr ⟨key, hkey, hget⟩⟩

/-- **What an import does**, by what holds after the last file. -/
theorem Importing.imports (hi : Importing before dir items b) :
    Imports before dir b.disk items where
  leads _ _ h := hi.filled.grows.find h
  present file hfile := by
    obtain ⟨last, -, hsame, name, key, -, content, hname, hkey, -, hget, -⟩ :=
      hi.filled.arrived hfile
    exact ⟨name, content, hsame ▸ hname, Disk.readFile_ok.mpr ⟨key, hkey, hget⟩⟩
  brought _ hfile hown hrival := hi.brought hfile hown hrival
  last := hi.filled.last

end Steps

/-! ## 3. The whole import -/

/-- **An import into a folder that is accepted** has an entry for each file, and every imported file
is found in the folder.  It holds what the file held in the beginning, unless the file lay there
before or another one with its name was imported; and then the last one decides. -/
theorem imports_of_importBlocks {w : Workspace} {d : Disk} {p : OpenProject}
    {folder : Option String} {path : Option Path} (files : List Path) (hp : w.project = some p)
    (hfolder : importFolder folder = .ok path) :
    ∃ report items, (w.importBlocks d files folder).result = .ok report ∧
      ImportEntries report files items ∧
      Imports d (p.target path) (w.importBlocks d files folder).disk items := by
  obtain ⟨items, hfst, hall⟩ := (Importing.nil d (p.target path)).all folder files
  rw [List.map_nil, List.nil_append] at hfst
  simp only [importBlocks, hfolder, hp]
  exact ⟨_, items, rfl, ⟨hfst, hall.done, hall.errors, hall.named⟩, hall.imports⟩

/-- An import of a file into another folder, of no file, and of a file that is there already. -/
theorem imports_threeFiles :
    plantOpen.project = some ⟨"Plant", ⟨[""]⟩, ⟨["Plant"]⟩, false⟩ ∧
    importFolder (some " B ") = .ok (some ⟨["B"]⟩) ∧ ∃ report items,
      (plantOpen.importBlocks (plantWith "Motor.scl" "Pump.xml")
        [⟨["Plant", "A", "Motor.scl"]⟩, ⟨["Plant", "C"]⟩, ⟨["Plant", "B", "Pump.xml"]⟩]
        (some " B ")).result = .ok report ∧
      ImportEntries report
        [⟨["Plant", "A", "Motor.scl"]⟩, ⟨["Plant", "C"]⟩, ⟨["Plant", "B", "Pump.xml"]⟩] items ∧
      Imports (plantWith "Motor.scl" "Pump.xml") ⟨["Plant", "B"]⟩
        (plantOpen.importBlocks (plantWith "Motor.scl" "Pump.xml")
          [⟨["Plant", "A", "Motor.scl"]⟩, ⟨["Plant", "C"]⟩, ⟨["Plant", "B", "Pump.xml"]⟩]
          (some " B ")).disk items := by
  have hp : plantOpen.project = some ⟨"Plant", ⟨[""]⟩, ⟨["Plant"]⟩, false⟩ := rfl
  have hfolder : importFolder (some " B ") = .ok (some ⟨["B"]⟩) := by cbv
  exact ⟨hp, hfolder, imports_of_importBlocks _ hp hfolder⟩

/-- **A file that is imported from where it goes** is left empty, and reported as imported. -/
theorem not_brought_ownFile : ∃ report : ImportReport,
    (plantOpen.importBlocks (plantWith "Motor.scl" "Pump.xml") [⟨["Plant", "A", "Motor.scl"]⟩]
      (some "A")).result = .ok report ∧
    report.imported = [⟨"Plant/A/Motor.scl", "Motor", some "A"⟩] ∧
    (plantWith "Motor.scl" "Pump.xml").readFile ⟨["Plant", "A", "Motor.scl"]⟩ = .ok "FUNCTION" ∧
    ¬ Brought (plantWith "Motor.scl" "Pump.xml")
      (plantOpen.importBlocks (plantWith "Motor.scl" "Pump.xml") [⟨["Plant", "A", "Motor.scl"]⟩]
        (some "A")).disk ⟨["Plant", "A"]⟩ ⟨["Plant", "A", "Motor.scl"]⟩ := by
  refine ⟨⟨[⟨"Plant/A/Motor.scl", "Motor", some "A"⟩], [], ⟨1, 1, 0⟩⟩, rfl, rfl, rfl, ?_⟩
  rintro ⟨name, key, content, hname, hfind, hget, hread⟩
  cases hname
  cases hfind
  cases hget
  have hread : (.ok "" : Except FileFault String) = .ok "FUNCTION" := hread
  exact absurd (Except.ok.inj hread) (by decide)

end Workspace
end Workbench
