import Workbench.Proofs.Files.Descending
import Workbench.Proofs.Files.Parents
import Workbench.Proofs.Project.Blocks
import Workbench.Proofs.Project.Confinement
import Workbench.Proofs.Project.Stores
import Workbench.Proofs.Project.Unsaved

/-!
# Imported blocks in the listing

A file that was imported lies in the project, and a listing goes down to it by the names of the
folder: whatever else the caller wrote for the folder means nothing.  What a listing takes for a
block an import takes for one as well.  But a listing passes over names that begin with a dot, and
an import does not: such a block is reported as imported, and is not listed.

* `Disk.Descends.mem_found` finds a file on the way down;
* `Workspace.Arrives` is what an import leaves of a file, and `Workspace.arrives_importBlocks` says
  it of every block that is reported;
* `Workspace.listsImported_of_visits` is every import into a project that was opened before, and
  `Workspace.not_listed_hiddenFolder` an import into a folder that is passed over.
-/

namespace Workbench

/-! ## 1. What the scan finds on its way down -/

namespace Disk

variable {d : Disk} {dir : Path} {key : Key} {names : List String}

/-- **The scan finds a file on its way down**, if it has levels enough and no name is passed over.
By induction over the names. -/
theorem Descends.mem_found (h : d.Descends dir key names) {levels : Nat} {above : List String}
    {inside : FileTree} (hnode : d.tree.node? key = some (.directory inside))
    (hlevels : inside.depth < levels) {file : String}
    (hvisible : ∀ n ∈ names ++ [file], Block.isHidden n = false)
    (hpresent : d.tree.get? (key ++ names ++ [file]) ≠ none)
    (hfile : d.isDirectory ((names.foldl Path.child dir).child file) = false) {b : FoundBlock}
    (hb : FoundBlock.ofFile? (above ++ names) ((names.foldl Path.child dir).child file) = some b) :
    b ∈ d.found levels above dir := by
  induction names generalizing dir key inside above levels with
  | nil =>
    obtain ⟨levels, rfl⟩ := Nat.exists_eq_succ_of_ne_zero (Nat.ne_of_gt (Nat.zero_lt_of_lt hlevels))
    rw [List.append_nil] at hpresent hb
    have hno : d.isDirectory (dir.child file) = false := hfile
    rw [found, List.mem_flatMap]
    refine ⟨file, (mem_visible h.start.1 hnode).mpr ⟨hvisible file (by simp), hpresent⟩, ?_⟩
    rw [if_neg (by simp [hno])]
    exact Option.mem_toList.mpr hb
  | cons name names ih =>
    obtain ⟨levels, rfl⟩ := Nat.exists_eq_succ_of_ne_zero (Nat.ne_of_gt (Nat.zero_lt_of_lt hlevels))
    obtain ⟨hdir, -, hbelow⟩ := h
    obtain ⟨hfind, hget⟩ := hbelow.start
    obtain ⟨below, hchild⟩ := FileTree.get?_eq_directory.mp hget
    have hdepth : below.depth < inside.depth := by
      rw [FileTree.node?_concat, hnode] at hchild
      exact FileTree.depth_child hchild
    have hsub : d.isDirectory (dir.child name) = true := isDirectory_iff.mpr ⟨_, hfind, hget⟩
    rw [found, List.mem_flatMap]
    refine ⟨name, (mem_visible hdir hnode).mpr ⟨hvisible name (by simp), ?_⟩, ?_⟩
    · rw [hget]
      rintro ⟨⟩
    · rw [if_pos hsub]
      refine ih hbelow hchild (by omega) (fun n hn => hvisible n (List.mem_cons_of_mem name hn))
        ?_ hfile ?_
      · simpa using hpresent
      · simpa using hb

end Disk

namespace Workspace

variable {w : Workspace} {d d' : Disk} {dir : Path} {p : OpenProject}

/-! ## 2. What an import leaves of a file -/

/-- A block that was imported into a directory: there is a file with a name of this block. -/
def Arrives (dir : Path) (d : Disk) (e : ImportedBlock) : Prop :=
  ∃ name content, Path.IsEntryName name ∧ Block.IsNamed name e.blockName ∧
    d.readFile (dir.child name) = .ok content

/-- It stays there. -/
theorem Arrives.grows {e : ImportedBlock} (ha : Arrives dir d e) (h : d.Grows d') :
    Arrives dir d' e := by
  obtain ⟨name, content, hname, hnamed, hread⟩ := ha
  obtain ⟨key, hfind, hget⟩ := Disk.readFile_ok.mp hread
  obtain ⟨later, hlater⟩ := h.tree.file key content hget
  exact ⟨name, later, hname, hnamed, Disk.readFile_ok.mpr ⟨key, h.find hfind, hlater⟩⟩

/-- **One file more**: what is reported so far stays, and what is reported now has arrived. -/
theorem arrives_importOne (folder : Option String) (file : Path) {b : Batch ImportedBlock}
    (h : ∀ e ∈ b.done, Arrives dir b.disk e) :
    ∀ e ∈ (importOne dir folder b file).done,
      Arrives dir (importOne dir folder b file).disk e := by
  rcases importOne_cases dir folder b file with ⟨disk, reason, hextends, hone⟩ |
    ⟨made, disk, stem, name, hstem, hname, hmade, hcopy, hone⟩
  · rw [hone]
    exact fun e he => (h e he).grows hextends.grows
  · obtain ⟨dirKey, sourceKey, content, -, -, hgrows, hfind, hreplaced, -⟩ :=
      Disk.copyFile_child hname hcopy
    rw [hone]
    intro e he
    rcases List.mem_append.mp he with hbefore | hnew
    · exact (h e hbefore).grows (hmade.grows.trans hgrows)
    · rw [List.mem_singleton.mp hnew]
      refine ⟨name, content, Path.isEntryName_of_fileName? hname,
        (Block.stem?_eq_some hname).mp hstem, Disk.readFile_ok.mpr ⟨_, hfind, ?_⟩⟩
      rw [hreplaced.get?, if_pos rfl]

/-- **All files**, by induction over those that are still to come. -/
theorem arrives_foldl (folder : Option String) (files : List Path) {b : Batch ImportedBlock}
    (h : ∀ e ∈ b.done, Arrives dir b.disk e) :
    ∀ e ∈ (files.foldl (importOne dir folder) b).done,
      Arrives dir (files.foldl (importOne dir folder) b).disk e := by
  induction files generalizing b with
  | nil => exact h
  | cons file files ih => exact ih (arrives_importOne folder file h)

/-- **Every block that is reported has arrived** in the folder of the import. -/
theorem arrives_importBlocks {files : List Path} {folder : Option String} {report : ImportReport}
    (hp : w.project = some p) (h : (w.importBlocks d files folder).result = .ok report) :
    ∃ path, importFolder folder = .ok path ∧ ∀ e ∈ report.imported,
      Arrives (p.target path) (w.importBlocks d files folder).disk e := by
  generalize ho : w.importBlocks d files folder = o at h ⊢
  cases importBlocks_outcomes ho with
  | done hfolder hp' hb =>
    cases h
    cases hp.symm.trans hp'
    subst hb
    exact ⟨_, hfolder, arrives_foldl folder files (by simp)⟩
  | _ => cases h

/-! ## 3. The folder by its names -/

/-- The names of the folder into which a caller imports; none without a folder. -/
def folderNames : Option String → List String
  | none => []
  | some f => (Path.ofString (Text.trim f)).names

theorem folderNames_of_importFolder {folder : Option String} {path : Option Path}
    (h : importFolder folder = .ok path) :
    folderNames folder = (path.map Path.names).getD [] := by
  unfold importFolder at h
  split at h
  · rename_i hnone
    cases h
    cases folder with
    | none => rfl
    | some f =>
      have hblank : Text.allBlank f = true := by simpa using hnone
      have htrim : Text.trim f = "" := by
        rw [Text.trim, Text.trimList_eq_nil_iff.mpr (by simpa [Text.allBlank] using hblank)]
      rw [folderNames, htrim]
      rfl
  · rename_i f hsome
    obtain ⟨rfl, -⟩ := Option.filter_eq_some_iff.mp hsome
    dsimp only at h
    split at h <;> cases h
    rfl

/-- These are names that entries can have. -/
theorem isProper_of_mem_folderNames {folder : Option String} :
    ∀ n ∈ folderNames folder, Path.isProper n = true := by
  cases folder with
  | none => simp [folderNames]
  | some f =>
    intro n hn
    obtain ⟨c, hc, hname⟩ := List.mem_filterMap.mp hn
    cases c with
    | name s =>
      cases hname
      exact (Path.isCut_ofString _).isProper hc
    | _ => cases hname

/-- **What was imported is found by the names of the folder.** -/
theorem descends_target {folder : Option String} {path : Option Path} {file : String} {k : Key}
    (hfolder : importFolder folder = .ok path) (hdir : p.dir.isEmpty = false)
    (hfile : Path.IsEntryName file) (h : d.find ((p.target path).child file) = .ok k) :
    ∃ key, d.Descends p.dir key (folderNames folder) ∧ k = key ++ folderNames folder ++ [file] ∧
      d.find (((folderNames folder).foldl Path.child p.dir).child file) = .ok k := by
  rw [folderNames_of_importFolder hfolder]
  cases path with
  | none =>
    obtain ⟨key, hdescends, hkey⟩ := Disk.descends_child hdir hfile h
    exact ⟨key, hdescends, by simpa using hkey, h⟩
  | some f =>
    obtain ⟨habs, hne, hup⟩ := importFolder_ok hfolder
    exact Disk.descends_join hdir habs hne hup hfile h

/-! ## 4. The listing -/

/-- Nothing on the way to an imported block is passed over. -/
def Visible (folder : Option String) (e : ImportedBlock) : Prop :=
  ∀ n ∈ folderNames folder ++ [e.blockName], Block.isHidden n = false

/-- A listing has an entry for an imported block: with its name, in the folder of the import. -/
def HasEntry (infos : List BlockInfo) (folder : Option String) (e : ImportedBlock) : Prop :=
  ∃ info ∈ infos, info.name = e.blockName ∧
    info.path = String.intercalate "/" (folderNames folder)

/-- The name of a file is passed over if the name of its block is. -/
theorem isHidden_of_isNamed {file stem : String} (h : Block.IsNamed file stem) :
    Block.isHidden file = Block.isHidden stem := by
  obtain ⟨hstem, extension, rfl, -⟩ := h
  rw [Block.isHidden, Block.isHidden, String.append_assoc, Path.head?_append hstem]

/-- **A block that has arrived is listed**, unless something on the way to it is passed over. -/
theorem listed_of_arrives {folder : Option String} {path : Option Path} {e : ImportedBlock}
    (hfolder : importFolder folder = .ok path) (hdir : p.dir.isEmpty = false)
    (ha : Arrives (p.target path) d e) :
    ∃ bs, d.blocks p.dir = .ok bs ∧ (Visible folder e → HasEntry (bs.map (·.info)) folder e) := by
  obtain ⟨file, content, hfile, hnamed, hread⟩ := ha
  obtain ⟨k, hfind, hget⟩ := Disk.readFile_ok.mp hread
  obtain ⟨key, hdescends, rfl, hfound⟩ := descends_target hfolder hdir hfile hfind
  obtain ⟨htop, hdirectory⟩ := hdescends.start
  obtain ⟨inside, hnode⟩ := FileTree.get?_eq_directory.mp hdirectory
  have hdepth := FileTree.depth_node hnode
  refine ⟨_, Disk.blocks_eq_sort htop hdirectory, fun hvisible => ?_⟩
  have hof := FoundBlock.isFile_of_isNamed p.dir (folderNames folder) hnamed
  suffices hmem : _ ∈ Disk.found d (d.tree.depth + 1) [] p.dir from
    ⟨_, List.mem_map_of_mem (FoundBlock.mem_sort.mpr hmem), rfl, hof.folder⟩
  refine hdescends.mem_found hnode (by omega) ?_ (by rw [hget]; rintro ⟨⟩) ?_
    ((FoundBlock.ofFile?_eq_some hfile).mpr hof)
  · intro n hn
    rcases List.mem_append.mp hn with hn | hn
    · exact hvisible n (List.mem_append_left _ hn)
    · rw [List.mem_singleton.mp hn, isHidden_of_isNamed hnamed]
      exact hvisible e.blockName (by simp)
  · rw [Bool.eq_false_iff]
    intro hsub
    obtain ⟨k, hk, hkdir⟩ := Disk.isDirectory_iff.mp hsub
    rw [hfound] at hk
    cases hk
    rw [hget] at hkdir
    cases hkdir

/-- **What is passed over is not listed.**  The names of the folder can be told from the path of an
entry, and they are those by which the scan went. -/
theorem visible_of_hasEntry {folder : Option String} {e : ImportedBlock} {bs : List FoundBlock}
    (hs : d.tree.isSound = true) (hbs : d.blocks p.dir = .ok bs)
    (h : HasEntry (bs.map (·.info)) folder e) : Visible folder e := by
  obtain ⟨info, hinfo, hname, hpath⟩ := h
  obtain ⟨b, hb, rfl⟩ := List.mem_map.mp hinfo
  obtain ⟨key, hfind, hdirectory⟩ := Disk.isDirectory_iff.mp (Disk.blocks_eq_ok_iff.mp ⟨bs, hbs⟩)
  obtain ⟨names, file, htakes, hof⟩ := (Disk.mem_blocks hs hfind hdirectory hbs).mp hb
  have hproper : ∀ n ∈ names, Path.isProper n = true := by
    intro n hn
    have hstorable := FileTree.isStorable_of_get? hs htakes.present n (by simp [hn])
    simp only [Path.isStorable, Bool.and_eq_true] at hstorable
    exact hstorable.1.1
  rw [hof.folder] at hpath
  obtain rfl := Path.intercalate_inj hproper isProper_of_mem_folderNames hpath
  intro n hn
  rcases List.mem_append.mp hn with hn | hn
  · exact htakes.enters.visible n hn
  · rw [List.mem_singleton.mp hn, ← hname, ← isHidden_of_isNamed hof.named]
    exact htakes.visible

/-! ## 5. Projects that were opened -/

/-- The directory of the open project is not the empty path. -/
def HasDirectory (w : Workspace) : Prop := ∀ p, w.project = some p → p.dir.isEmpty = false

/-- **One request more.**  A project is opened where a directory is found, and no request moves an
open one. -/
theorem HasDirectory.step (h : HasDirectory w) (d : Disk) (now : Timestamp) (r : Request) :
    HasDirectory (w.respond d now r).workspace := by
  cases hr : (w.respond d now r).result with
  | error e =>
    rw [workspace_of_error hr]
    exact h
  | ok a =>
    intro p hp
    match r with
    | .release => cases (project_release hr).symm.trans hp
    | .operation (.openProject path name) =>
      obtain ⟨store, name, -, -, hdir, -, hopened⟩ := openProject_ok hr
      obtain rfl := Option.some.inj (hopened.symm.trans hp)
      obtain ⟨key, hfind, -⟩ := Disk.isDirectory_iff.mp hdir
      exact (Disk.pathFault?_eq_none.mp (Disk.find_eq_ok.mp hfind).1).2.1
    | .operation .saveProject =>
      rcases w.save_cases d now with ⟨q, hq, hsaved⟩ | ⟨e, he⟩
      · obtain rfl := Option.some.inj ((congrArg project hsaved.workspace).symm.trans hp)
        exact h q hq
      · cases (congrArg Outcome.result he).symm.trans hr
    | .operation (.closeProject saving) =>
      cases (congrArg project (project_closeProject hr)).symm.trans hp
    | .operation .projectInfo => exact h p hp
    | .operation .listBlocks => exact h p hp
    | .operation (.exportBlocks names output) =>
      exact h p ((congrArg project (workspace_exportBlocks names output)).symm.trans hp)
    | .operation (.importBlocks files folder) =>
      obtain ⟨q, hq, himported⟩ := project_importBlocks hr
      obtain rfl := Option.some.inj (himported.symm.trans hp)
      exact h q hq

/-- **All requests**, by induction over those that are still to come. -/
theorem HasDirectory.all (h : HasDirectory w) (visits : List Visit) :
    HasDirectory (w.after visits) := by
  induction visits generalizing w with
  | nil => exact h
  | cons v rest ih => exact ih (h.step v.disk v.now v.request)

/-! ## 6. Every import -/

/-- A workspace tells and counts the blocks of its project. -/
theorem told_of_blocks (hp : w.project = some p) {bs : List FoundBlock}
    (hbs : d.blocks p.dir = .ok bs) : w.listBlocks d = .ok (bs.map (·.info)) ∧
      ∃ told, w.info d = .ok told ∧ told.blockCount = (bs.map (·.info)).length := by
  simp [listBlocks, info, infoFor, projectBlocks, hp, hbs]

/-- **What becomes of the blocks of a report** in the listing that follows. -/
structure ListsImported (w : Workspace) (d : Disk) (folder : Option String)
    (report : ImportReport) : Prop where
  /-- As soon as a block is reported, the blocks can be listed, and they are counted. -/
  counted : report.imported ≠ [] → ∃ infos, w.listBlocks d = .ok infos ∧
    ∃ told, w.info d = .ok told ∧ told.blockCount = infos.length
  /-- A reported block is listed, in the folder that was asked for, unless a name on the way to it
  begins with a dot. -/
  listed : ∀ e ∈ report.imported, Visible folder e →
    ∃ infos, w.listBlocks d = .ok infos ∧ HasEntry infos folder e
  /-- If one does, it is not. -/
  passed : d.tree.isSound = true → ∀ e ∈ report.imported, ¬ Visible folder e →
    ∀ infos, w.listBlocks d = .ok infos → ¬ HasEntry infos folder e

/-- **Every import into a project that was opened**, whatever was asked of the workspace before and
whatever the disk held each time. -/
theorem listsImported_of_visits {visits : List Visit} {d : Disk} {files : List Path}
    {folder : Option String} {report : ImportReport}
    (h : ((empty.after visits).importBlocks d files folder).result = .ok report) :
    ListsImported ((empty.after visits).importBlocks d files folder).workspace
      ((empty.after visits).importBlocks d files folder).disk folder report := by
  have hall : HasDirectory (empty.after visits) := HasDirectory.all (by rintro p ⟨⟩) visits
  obtain ⟨p, hp, hafter⟩ := project_importBlocks h
  obtain ⟨path, hfolder, harrived⟩ := arrives_importBlocks hp h
  generalize (empty.after visits).importBlocks d files folder = o at h hafter harrived ⊢
  constructor
  case counted =>
    intro hne
    obtain ⟨e, he⟩ := List.exists_mem_of_ne_nil _ hne
    obtain ⟨bs, hbs, -⟩ := listed_of_arrives hfolder (hall p hp) (harrived e he)
    exact ⟨_, told_of_blocks hafter hbs⟩
  case listed =>
    intro e he hvisible
    obtain ⟨bs, hbs, hentry⟩ := listed_of_arrives hfolder (hall p hp) (harrived e he)
    exact ⟨_, (told_of_blocks hafter hbs).1, hentry hvisible⟩
  case passed =>
    intro hs e he hhidden infos hinfos hentry
    obtain ⟨bs, -, hbs, rfl⟩ := blocks_of_listBlocks hafter hinfos
    exact hhidden (visible_of_hasEntry hs hbs hentry)

/-- The project `Plant` is opened. -/
def plantVisit : Visit :=
  ⟨plantWith "Motor.scl" "Pump.xml", default, .operation (.openProject ⟨["Plant"]⟩ none)⟩

/-- A block is imported into a folder in a folder. -/
theorem listsImported_deepFolder :
    ((empty.after [plantVisit]).importBlocks (plantWith "Motor.scl" "Pump.xml")
      [⟨["Plant", "A", "Motor.scl"]⟩] (some "New//./Sub/")).result =
      .ok ⟨[⟨"Plant/A/Motor.scl", "Motor", some "New//./Sub/"⟩], [], ⟨1, 1, 0⟩⟩ ∧
    folderNames (some "New//./Sub/") = ["New", "Sub"] ∧
    Visible (some "New//./Sub/") ⟨"Plant/A/Motor.scl", "Motor", some "New//./Sub/"⟩ ∧
    ListsImported
      ((empty.after [plantVisit]).importBlocks (plantWith "Motor.scl" "Pump.xml")
        [⟨["Plant", "A", "Motor.scl"]⟩] (some "New//./Sub/")).workspace
      ((empty.after [plantVisit]).importBlocks (plantWith "Motor.scl" "Pump.xml")
        [⟨["Plant", "A", "Motor.scl"]⟩] (some "New//./Sub/")).disk (some "New//./Sub/")
      ⟨[⟨"Plant/A/Motor.scl", "Motor", some "New//./Sub/"⟩], [], ⟨1, 1, 0⟩⟩ := by
  have hnames : folderNames (some "New//./Sub/") = ["New", "Sub"] := rfl
  refine ⟨rfl, hnames, ?_, listsImported_of_visits rfl⟩
  rw [Visible, hnames]
  decide

/-- **A block that is imported into a folder with a dot in front** is reported, and is not
listed. -/
theorem not_listed_hiddenFolder :
    ((empty.after [plantVisit]).importBlocks (plantWith "Motor.scl" "Pump.xml")
      [⟨["Plant", "A", "Motor.scl"]⟩] (some ".staging")).result =
      .ok ⟨[⟨"Plant/A/Motor.scl", "Motor", some ".staging"⟩], [], ⟨1, 1, 0⟩⟩ ∧
    Workspace.listBlocks
      ((empty.after [plantVisit]).importBlocks (plantWith "Motor.scl" "Pump.xml")
        [⟨["Plant", "A", "Motor.scl"]⟩] (some ".staging")).workspace
      ((empty.after [plantVisit]).importBlocks (plantWith "Motor.scl" "Pump.xml")
        [⟨["Plant", "A", "Motor.scl"]⟩] (some ".staging")).disk =
      .ok [⟨"Motor", "SCL", "A"⟩, ⟨"Pump", "XML", "B"⟩] ∧
    ¬ HasEntry [⟨"Motor", "SCL", "A"⟩, ⟨"Pump", "XML", "B"⟩] (some ".staging")
      ⟨"Plant/A/Motor.scl", "Motor", some ".staging"⟩ := by
  have hnames : folderNames (some ".staging") = [".staging"] := rfl
  refine ⟨rfl, rfl, ?_⟩
  rw [HasEntry, hnames]
  decide

end Workspace
end Workbench
