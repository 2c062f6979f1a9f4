import Workbench.Proofs.Files.Making
import Workbench.Proofs.Project.Failing
import Workbench.Proofs.Project.Import
import Workbench.Proofs.Project.Locating

/-!
# Where requests write

No request takes anything away.  Most leave the disk alone, a save writes the one file of the
project, and an export or an import brings files with the names of blocks into one directory, which
it makes with all that are missing above it.  The directory of an import lies in the project,
whatever folder is asked for.

If the directory of the project itself is gone, an import makes it again, and what is missing above
it.

* `Disk.Adds` is what copying blocks into a directory may do, and holds of every step of a batch, so
  of the batch (`Workspace.adds_foldl`);
* `Workspace.inside_of_adds` says that an import stays in the project;
* `Workspace.confined_respond` is the statement about every request, and
  `Workspace.not_inside_withoutDirectory` a project whose directory is gone.
-/

namespace Workbench

/-! ## 1. Names that are spared -/

namespace Workspace

/-- The name is that of a project file, or of the file that saving writes. -/
def IsOwnFile (name : String) : Prop :=
  name = stateFile ∨ ∃ p : Path, p.fileName? = some name ∧ Project.isProjectFile p = true

/-- **Blocks have other names.** -/
theorem not_isOwnFile_of_isNamed {name stem : String} (h : Block.IsNamed name stem) :
    ¬ IsOwnFile name := by
  obtain ⟨hstem, e, hname, he⟩ := h
  have hsplit : Path.splitName name = (stem, some e) :=
    Path.splitName_eq_some.mpr ⟨hstem, hname, Block.dot_not_mem_of_extension he⟩
  rintro (rfl | ⟨p, hp, hproject⟩)
  · have hstate : Path.splitName stateFile = (".tia-mcp-state", some "json") := by decide
    rw [hstate] at hsplit
    cases hsplit
    exact absurd he (by decide)
  · have hother : ∀ x ∈ Block.extensions, ['a', 'p'].isPrefixOf x.toList = false := by decide
    have hextension : p.extension? = some e := by simp [Path.extension?, hp, hsplit]
    rw [Project.isProjectFile, hextension] at hproject
    exact absurd hproject (by simp only [hother _ he]; decide)

end Workspace

/-! ## 2. Blocks that are copied into a directory -/

namespace Disk

variable {d d' d'' : Disk} {dir : Path}

/-- What a key may lead to afterwards, when blocks are copied into a directory. -/
inductive Added (before after : Disk) (dir : Path) (k : Key) : Prop where
  /-- A directory that was missing: where the path leads, or what is above it. -/
  | directory (p : Path) (above : p ∈ dir.ancestors) (site : after.site p = .ok k)
      (missing : before.tree.get? k = none) (made : after.tree.get? k = some .directory)
  /-- A file with the name of a block, in the directory to which the path leads. -/
  | file (key : Key) (name stem content : String) (site : after.site dir = .ok key)
      (there : k = key ++ [name]) (named : Block.IsNamed name stem)
      (written : after.tree.get? k = some (.file content))

/-- **Blocks have been copied into a directory**, and nothing else has been done. -/
structure Adds (before after : Disk) (dir : Path) : Prop where
  grows : before.Grows after
  added : ∀ k, after.tree.get? k ≠ before.tree.get? k → Added before after dir k

namespace Adds

theorem refl (d : Disk) (dir : Path) : Adds d d dir := ⟨.refl d, fun _ h => absurd rfl h⟩

/-- What is added stays when more is added. -/
theorem trans (h : Adds d d' dir) (h' : Adds d' d'' dir) : Adds d d'' dir where
  grows := h.grows.trans h'.grows
  added k hk := by
    by_cases hlast : d''.tree.get? k = d'.tree.get? k
    · rw [hlast] at hk
      cases h.added k hk with
      | directory p above site missing made =>
        exact .directory p above (h'.grows.site site) missing (hlast.trans made)
      | file key name stem content site there named written =>
        exact .file key name stem content (h'.grows.site site) there named (hlast.trans written)
    · cases h'.added k hlast with
      | directory p above site missing made =>
        have hmissing : d.tree.get? k = none :=
          Decidable.byContradiction fun hsome => h.grows.tree.isSome hsome missing
        exact .directory p above site hmissing made
      | file key name stem content site there named written =>
        exact .file key name stem content site there named written

end Adds

theorem Makes.adds (h : Makes d d' dir.ancestors) : Adds d d' dir where
  grows := h.more.grows
  added k hk := by
    rcases h.more.get? k with hsame | ⟨hmissing, hmade⟩
    · exact absurd hsame hk
    · obtain ⟨p, hp, hsite⟩ := h.sites k hmissing (by rw [hmade]; rintro ⟨⟩)
      exact .directory p hp hsite hmissing hmade

theorem adds_copyFile {source : Path} {name stem : String} (hentry : Path.IsEntryName name)
    (hnamed : Block.IsNamed name stem) (h : d.copyFile source (dir.child name) = .ok d') :
    Adds d d' dir := by
  obtain ⟨key, -, content, hkey, -, hreplaced, -⟩ := copyFile_ok h
  obtain ⟨above, hsite, rfl, -, hfile, -⟩ := openForWriting_child hentry hkey
  have hgrows : d.Grows d' := hreplaced.grows hfile (by rintro ⟨⟩)
  refine ⟨hgrows, fun k hk => ?_⟩
  rw [hreplaced.get?] at hk
  split at hk
  · rename_i hsame
    exact .file above name stem content (hgrows.site hsite) hsame hnamed
      (by rw [hreplaced.get?, if_pos hsame])
  · exact absurd rfl hk

/-- **Files of the project itself are spared**, wherever they lie. -/
theorem Adds.file_iff (h : Adds d d' dir) {name : String} (hname : Workspace.IsOwnFile name)
    (key : Key) (content : String) :
    d'.tree.get? (key ++ [name]) = some (.file content) ↔
      d.tree.get? (key ++ [name]) = some (.file content) := by
  by_cases hk : d'.tree.get? (key ++ [name]) = d.tree.get? (key ++ [name])
  · rw [hk]
  · cases h.added _ hk with
    | directory p above site missing made => simp [missing, made]
    | file key' name' stem content' site there named written =>
      obtain ⟨-, hlast⟩ := List.append_inj' there rfl
      cases hlast
      exact absurd hname (Workspace.not_isOwnFile_of_isNamed named)

end Disk

namespace Workspace

variable {w : Workspace} {d d' : Disk} {now : Timestamp} {p : OpenProject} {dir : Path} {key : Key}

/-! ## 3. Batches -/

/-- **A batch adds what its steps add**, by induction over the items. -/
theorem adds_foldl {α β : Type} {step : Batch α → β → Batch α}
    (h : ∀ b x, Disk.Adds b.disk (step b x).disk dir) (items : List β) (b : Batch α) :
    Disk.Adds b.disk (items.foldl step b).disk dir := by
  induction items generalizing b with
  | nil => exact .refl _ _
  | cons x items ih => exact (h b x).trans (ih (step b x))

/-- One block that is exported. -/
theorem adds_exportOne {bs : List FoundBlock}
    (hbs : ∀ b ∈ bs, Block.stem? b.source = some b.info.name) (output : Path)
    (b : Batch ExportedBlock) (name : String) :
    Disk.Adds b.disk (exportOne bs output b name).disk output := by
  generalize hone : exportOne bs output b name = b'
  cases exportOne_outcomes hone with
  | unknown | unnamed | failed => exact .refl _ _
  | copied hlead hfile hcopy =>
    have hnamed := (Block.stem?_eq_some hfile).mp (hbs _ (List.mem_of_find?_eq_some hlead))
    exact Disk.adds_copyFile (Path.isEntryName_of_fileName? hfile) hnamed hcopy

theorem adds_exportBlocks (names : Option (List String)) (output : Path) :
    Disk.Adds d (w.exportBlocks d names output).disk output := by
  have hmakes := (Disk.makes_makeDirectories (d := d) output).adds
  generalize ho : w.exportBlocks d names output = o
  cases exportBlocks_outcomes ho with
  | closed | unlisted => exact .refl _ _
  | unmade _ _ hmade => rwa [hmade] at hmakes
  | @done p bs made b hp hbs hmade hb =>
    have hstems : ∀ c ∈ bs, Block.stem? c.source = some c.info.name := fun c hc =>
      (Disk.isOf_of_blocks hbs hc).stem
    rw [hmade] at hmakes
    subst hb
    exact hmakes.trans (adds_foldl (adds_exportOne hstems output) _ ⟨made, [], []⟩)

/-- One file that is copied into a directory, which is made first. -/
theorem adds_copyInto {source : Path} {name stem : String} (hentry : Path.IsEntryName name)
    (hnamed : Block.IsNamed name stem) : Disk.Adds d (copyInto d source dir name).1 dir := by
  have hmakes := (Disk.makes_makeDirectories (d := d) dir).adds
  unfold copyInto
  split
  · rename_i made f hmade
    rwa [hmade] at hmakes
  · rename_i made hmade
    rw [hmade] at hmakes
    split
    · rename_i copied hcopy
      exact hmakes.trans (Disk.adds_copyFile hentry hnamed hcopy)
    · exact hmakes

/-- One file that is imported. -/
theorem adds_importOne (dir : Path) (folder : Option String) (b : Batch ImportedBlock)
    (file : Path) : Disk.Adds b.disk (importOne dir folder b file).disk dir := by
  unfold importOne
  split
  · exact .refl _ _
  · split
    · rename_i stem name hstem hname
      have hadds : Disk.Adds b.disk (copyInto b.disk file dir name).1 dir :=
        adds_copyInto (Path.isEntryName_of_fileName? hname) ((Block.stem?_eq_some hname).mp hstem)
      split
      · rename_i disk hcopied
        rwa [hcopied] at hadds
      · rename_i disk f hcopied
        rwa [hcopied] at hadds
    · exact .refl _ _

theorem adds_importBlocks {folder : Option String} {path : Option Path} (files : List Path)
    (hp : w.project = some p) (hfolder : importFolder folder = .ok path) :
    Disk.Adds d (w.importBlocks d files folder).disk (p.target path) := by
  simp only [importBlocks, hfolder, hp]
  exact adds_foldl (adds_importOne _ folder) files ⟨d, [], []⟩

/-! ## 4. The folder of an import -/

/-- A path whose components are all names or dots is relative and does not lead upwards. -/
theorem ne_up_of_components {f : Path}
    (h : ∀ c ∈ f.components, c = .here ∨ ∃ name, c = .name name) :
    f.isAbsolute = false ∧ ∀ s ∈ f.segments, s ≠ ".." := by
  obtain ⟨segments⟩ := f
  cases segments with
  | nil => exact ⟨rfl, by simp⟩
  | cons s rest =>
    rw [Path.components_cons] at h
    rw [Path.isAbsolute_cons]
    have hbody : ∀ ss : List String,
        (∀ c ∈ Path.bodyComponents ss, c = .here ∨ ∃ name, c = .name name) →
        ∀ s ∈ ss, s ≠ ".." := by
      rintro ss hss s hs rfl
      have hup : Component.up ∈ Path.bodyComponents ss := List.mem_filterMap.mpr ⟨"..", hs, rfl⟩
      rcases hss _ hup with hc | ⟨name, hc⟩ <;> cases hc
    split at h
    · rcases h .root List.mem_cons_self with hc | ⟨name, hc⟩ <;> cases hc
    · rename_i hroot
      refine ⟨by simpa using hroot, ?_⟩
      split at h
      · rename_i hhere
        intro x hx
        rcases List.mem_cons.mp hx with rfl | hx
        · rw [beq_iff_eq.mp hhere]
          decide
        · exact hbody rest (fun c hc => h c (List.mem_cons_of_mem _ hc)) x hx
      · exact hbody _ h

theorem importFolder_ok {folder : Option String} {f : Path}
    (h : importFolder folder = .ok (some f)) :
    f.isAbsolute = false ∧ f.segments ≠ [] ∧ ∀ s ∈ f.segments, s ≠ ".." := by
  unfold importFolder at h
  split at h
  · cases h
  · dsimp only at h
    split at h
    · rename_i hinside
      simp only [Except.ok.injEq, Option.some.injEq] at h
      subst h
      have hcomponents := ne_up_of_components fun c hc => by
        have hc := List.all_eq_true.mp hinside c hc
        cases c with
        | here => exact Or.inl rfl
        | name s => exact Or.inr ⟨s, rfl⟩
        | root => cases hc
        | up => cases hc
      exact ⟨hcomponents.1, Path.segments_ofString_ne_nil _, hcomponents.2⟩
    · cases h

/-- The route into the folder of an import goes on from the directory of the project, and does not
lead upwards. -/
theorem route_target {folder : Option String} {path : Option Path}
    (hfolder : importFolder folder = .ok path) (hdir : d.find p.dir = .ok key) :
    ∃ base tail, d.route (p.target path) = base ++ tail ∧ (∀ s ∈ tail, s ≠ "..") ∧
      d.tree.walk [] base = .ok key := by
  have hsite : d.tree.walk [] (d.route p.dir) = .ok key := (Disk.find_eq_ok.mp hdir).2
  cases path with
  | none => exact ⟨d.route p.dir, [], by simp [OpenProject.target], by simp, hsite⟩
  | some f =>
    obtain ⟨habsolute, hne, hup⟩ := importFolder_ok hfolder
    obtain ⟨front, hroute, hfront⟩ := d.route_join p.dir habsolute hne
    refine ⟨front, f.segments, hroute, hup, ?_⟩
    rcases hfront with hfront | hfront
    · rwa [hfront] at hsite
    · rw [hfront] at hsite
      exact FileTree.walk_of_blanks (by simp) hsite

/-- **An import stays in the project**, as long as the directory of the project is there. -/
theorem inside_of_adds {folder : Option String} {path : Option Path}
    (hfolder : importFolder folder = .ok path) (hdir : d.find p.dir = .ok key)
    (hkey : d.tree.get? key = some .directory) (h : Disk.Adds d d' (p.target path)) {k : Key}
    (hk : d'.tree.get? k ≠ d.tree.get? k) : ∃ below, below ≠ [] ∧ k = key ++ below := by
  obtain ⟨base, tail, hroute, htail, hbase⟩ := route_target hfolder hdir
  rw [← h.grows.route] at hroute
  cases h.added k hk with
  | directory q above site missing made =>
    have halong := d'.along_of_mem_ancestors above
    rw [hroute] at halong
    rcases Disk.below_of_walk h.grows hbase hkey htail halong site with hold | ⟨below, rfl⟩
    · rw [missing] at hold
      cases hold
    · refine ⟨below, ?_, rfl⟩
      rintro rfl
      rw [List.append_nil, hkey] at missing
      cases missing
  | file target name stem content site there named written =>
    rw [Disk.site, hroute] at site
    obtain ⟨middle, hmiddle, hrest⟩ := FileTree.walk_append_ok site
    rw [h.grows.tree.walk hbase] at hmiddle
    cases hmiddle
    obtain ⟨below, rfl⟩ := FileTree.prefix_of_walk htail hrest
    exact ⟨below ++ [name], by simp, by rw [there, List.append_assoc]⟩

/-! ## 5. Opening, saving and closing -/

/-- **Only the file of the project has been written**, which lies directly in its directory. -/
structure WritesStateFile (before after : Disk) (p : OpenProject) : Prop where
  grows : before.Grows after
  only : ∀ k, after.tree.get? k ≠ before.tree.get? k → ∃ key content,
    before.site p.dir = .ok key ∧ k = key ++ [stateFile] ∧ after.tree.get? k = some (.file content)

theorem WritesStateFile.refl (d : Disk) (p : OpenProject) : WritesStateFile d d p :=
  ⟨.refl d, fun _ h => absurd rfl h⟩

theorem Saved.writesStateFile {o : Outcome ProjectInfo} (h : Saved d now p o) :
    WritesStateFile d o.disk p := by
  obtain ⟨bs, -, hwrite⟩ := h.written
  obtain ⟨key, hkey, hreplaced⟩ := Disk.replaced_of_writeFile hwrite
  obtain ⟨dir, hsite, rfl, -, hfile, -⟩ := Disk.openForWriting_child isEntryName_stateFile hkey
  refine ⟨hreplaced.grows hfile (by rintro ⟨⟩), fun k hk => ?_⟩
  rw [hreplaced.get?] at hk
  split at hk
  · rename_i hsame
    exact ⟨dir, _, hsite, hsame, by rw [hreplaced.get?, if_pos hsame]⟩
  · exact absurd rfl hk

theorem writesStateFile_save (hp : w.project = some p) :
    WritesStateFile d (w.save d now).disk p := by
  rcases w.save_cases d now with ⟨p', hp', hsaved⟩ | ⟨e, he⟩
  · rw [hp] at hp'
    cases hp'
    exact hsaved.writesStateFile
  · rw [he]
    exact .refl d p

theorem writesStateFile_closeProject (hp : w.project = some p) (saving : Bool) :
    WritesStateFile d (w.closeProject d now saving).disk p := by
  rcases w.closeProject_cases d now saving with ⟨p', disk, hp', hclosed, hdisk⟩ | ⟨e, hfailed⟩
  · rw [hp] at hp'
    cases hp'
    rw [hclosed]
    rcases hdisk with rfl | ⟨hsaved, rfl⟩
    · exact .refl disk p
    · exact hsaved.writesStateFile
  · rw [hfailed]
    exact .refl d p

theorem disk_openProject (path : Path) (name : Option String) :
    (w.openProject d path name).disk = d := by
  generalize ho : w.openProject d path name = o
  cases openProject_outcomes ho <;> rfl

/-! ## 6. All requests -/

/-- The open project has changes that are not saved. -/
def hasChanges (w : Workspace) : Bool := w.project.any (·.modified)

/-- The request only looks, or closes a project that is not to be saved. -/
def Request.looks (w : Workspace) : Request → Bool
  | operation (.openProject _ _) => true
  | operation .projectInfo => true
  | operation .listBlocks => true
  | operation (.closeProject saving) => !(saving && w.hasChanges)
  | release => !w.hasChanges
  | _ => false

/-- The request saves the project, perhaps to close it. -/
def Request.saves : Request → Bool
  | operation .saveProject => true
  | r => r.closesSaving

theorem disk_respond_of_looks {r : Request} (h : r.looks w = true) :
    (w.respond d now r).disk = d := by
  match r with
  | .operation (.openProject path name) => exact disk_openProject path name
  | .operation .projectInfo => rfl
  | .operation .listBlocks => rfl
  | .operation (.closeProject saving) =>
    have hno : (saving && w.hasChanges) = false := by
      simpa only [Request.looks, Bool.not_eq_true'] using h
    exact disk_closeProject_unsaved fun p hp => by
      simpa only [hasChanges, hp, Option.any_some] using hno
  | .release =>
    have hno : w.hasChanges = false := by simpa only [Request.looks, Bool.not_eq_true'] using h
    exact disk_release_unsaved fun p hp => by
      simpa only [hasChanges, hp, Option.any_some] using hno

theorem disk_respond_of_none {r : Request} (hp : w.project = none) :
    (w.respond d now r).disk = d := by
  match r with
  | .operation (.openProject path name) => exact disk_openProject path name
  | .operation .saveProject => simp [respond, perform, save, hp, still]
  | .operation (.closeProject saving) =>
    exact congrArg Outcome.disk (closeProject_of_none hp saving)
  | .operation .projectInfo => rfl
  | .operation .listBlocks => rfl
  | .operation (.exportBlocks names output) => simp [respond, perform, exportBlocks, hp, still]
  | .operation (.importBlocks files folder) =>
    simp only [respond, perform, importBlocks, hp]
    split <;> rfl
  | .release => exact congrArg Outcome.disk (release_of_none hp)

theorem writesStateFile_respond {r : Request} (hp : w.project = some p) (h : r.saves = true) :
    WritesStateFile d (w.respond d now r).disk p := by
  match r with
  | .operation .saveProject => exact writesStateFile_save hp
  | .operation (.closeProject saving) => exact writesStateFile_closeProject hp saving
  | .release =>
    show WritesStateFile d (w.release d now).disk p
    rw [release_eq hp]
    exact writesStateFile_closeProject hp true

/-- A folder that is not accepted keeps an import from doing anything. -/
theorem disk_importBlocks_of_error {files : List Path} {folder : Option String} {e : ToolError}
    (h : importFolder folder = .error e) : (w.importBlocks d files folder).disk = d := by
  rw [importBlocks, h]
  rfl

/-- **Nothing is taken away**, and files stay files. -/
theorem grows_respond (w : Workspace) (d : Disk) (now : Timestamp) (r : Request) :
    d.Grows (w.respond d now r).disk := by
  cases hp : w.project with
  | none =>
    rw [disk_respond_of_none hp]
    exact .refl d
  | some p =>
    have hsaves : r.saves = true → d.Grows (w.respond d now r).disk := fun h =>
      (writesStateFile_respond hp h).grows
    have hlooks : r.looks w = true → d.Grows (w.respond d now r).disk := fun h => by
      rw [disk_respond_of_looks h]
      exact .refl d
    match r with
    | .operation (.openProject path name) => exact hlooks rfl
    | .operation .saveProject => exact hsaves rfl
    | .operation (.closeProject saving) => exact (writesStateFile_closeProject hp saving).grows
    | .operation .projectInfo => exact hlooks rfl
    | .operation .listBlocks => exact hlooks rfl
    | .operation (.exportBlocks names output) => exact (adds_exportBlocks names output).grows
    | .operation (.importBlocks files folder) =>
      cases hfolder : importFolder folder with
      | error e =>
        show d.Grows (w.importBlocks d files folder).disk
        rw [disk_importBlocks_of_error hfolder]
        exact .refl d
      | ok path => exact (adds_importBlocks files hp hfolder).grows
    | .release => exact hsaves rfl

/-- **Where a request writes**, whether it succeeds or fails. -/
structure Confined (w : Workspace) (d : Disk) (now : Timestamp) (r : Request) : Prop where
  /-- No file and no directory is taken away. -/
  grows : d.Grows (w.respond d now r).disk
  /-- To look, to open, and to close without saving changes nothing; and without a project, nothing
  does. -/
  looks : r.looks w = true ∨ w.project = none → (w.respond d now r).disk = d
  /-- To save changes the file of the project only. -/
  saves : ∀ p, w.project = some p → r.saves = true →
    WritesStateFile d (w.respond d now r).disk p
  /-- An import into a folder that is not accepted changes nothing. -/
  rejects : ∀ files folder e, r = .operation (.importBlocks files folder) →
    importFolder folder = .error e → (w.respond d now r).disk = d
  /-- Any other import adds blocks to its folder. -/
  imports : ∀ files folder path p, r = .operation (.importBlocks files folder) →
    importFolder folder = .ok path → w.project = some p →
    d.Adds (w.respond d now r).disk (p.target path)
  /-- It spares the files of the project itself. -/
  spares : ∀ files folder, r = .operation (.importBlocks files folder) →
    ∀ name, IsOwnFile name → ∀ key content,
      (w.respond d now r).disk.tree.get? (key ++ [name]) = some (.file content) ↔
        d.tree.get? (key ++ [name]) = some (.file content)
  /-- All that it changes lies in the directory of the project, if that is there. -/
  inside : ∀ files folder p key, r = .operation (.importBlocks files folder) →
    w.project = some p → d.find p.dir = .ok key → d.tree.get? key = some .directory →
    ∀ k, (w.respond d now r).disk.tree.get? k ≠ d.tree.get? k →
      ∃ below, below ≠ [] ∧ k = key ++ below
  /-- An export adds blocks to its output. -/
  exports : ∀ names output, r = .operation (.exportBlocks names output) →
    d.Adds (w.respond d now r).disk output

/-- **Every request is confined**, whatever is asked, whatever the disk holds, and whatever the
workspace has gone through before. -/
theorem confined_respond (w : Workspace) (d : Disk) (now : Timestamp) (r : Request) :
    Confined w d now r := by
  constructor
  case grows => exact w.grows_respond d now r
  case looks =>
    rintro (hlooks | hp)
    · exact disk_respond_of_looks hlooks
    · exact disk_respond_of_none hp
  case saves => exact fun p hp h => writesStateFile_respond hp h
  case rejects =>
    rintro files folder e rfl hfolder
    exact disk_importBlocks_of_error hfolder
  case imports =>
    rintro files folder path p rfl hfolder hp
    exact adds_importBlocks files hp hfolder
  case spares =>
    rintro files folder rfl name hname key content
    show (w.importBlocks d files folder).disk.tree.get? (key ++ [name]) = _ ↔ _
    cases hfolder : importFolder folder with
    | error e => rw [disk_importBlocks_of_error hfolder]
    | ok path =>
      cases hp : w.project with
      | none =>
        have hsame : (w.respond d now (.operation (.importBlocks files folder))).disk = d :=
          disk_respond_of_none hp
        rw [show (w.importBlocks d files folder).disk = d from hsame]
      | some p => exact (adds_importBlocks files hp hfolder).file_iff hname key content
  case inside =>
    rintro files folder p key rfl hp hdir hkey k hk
    cases hfolder : importFolder folder with
    | error e => exact absurd (congrArg (fun disk => disk.tree.get? k)
        (disk_importBlocks_of_error hfolder)) hk
    | ok path => exact inside_of_adds hfolder hdir hkey (adds_importBlocks files hp hfolder) hk
  case exports =>
    rintro names output rfl
    exact adds_exportBlocks names output

/-- The disk with a file beside a directory `store`, or without the directory. -/
def beside (store : FileTree → FileTree) : Disk where
  tree := store (.file "Pump.xml" "<fb/>" .empty)
  cwd := []
  home := none

/-- **A project whose directory is gone**: it has been opened, and then somebody else has removed
the directory `store` with all that lay below.  An import makes `store` again, which does not lie in
the directory of the project. -/
theorem not_inside_withoutDirectory :
    Opens (beside (.directory "store" plantTree)) ⟨["store"]⟩ (some "Plant")
      ⟨"Plant", ⟨["store"]⟩, ⟨["store", "Plant"]⟩, false⟩ ∧
    (beside (.directory "store" plantTree)).find ⟨["store", "Plant"]⟩ = .ok ["store", "Plant"] ∧
    (beside (.directory "store" plantTree)).remove ⟨["store"]⟩ = .ok (beside id) ∧
    ¬ ∀ k, (importBlocks ⟨some ⟨"Plant", ⟨["store"]⟩, ⟨["store", "Plant"]⟩, false⟩⟩ (beside id)
        [⟨["Pump.xml"]⟩] none).disk.tree.get? k ≠ (beside id).tree.get? k →
      ∃ below, k = ["store", "Plant"] ++ below := by
  refine ⟨⟨_, rfl⟩, rfl, rfl, fun hinside => ?_⟩
  have hmade : (importBlocks ⟨some ⟨"Plant", ⟨["store"]⟩, ⟨["store", "Plant"]⟩, false⟩⟩ (beside id)
      [⟨["Pump.xml"]⟩] none).disk.tree.get? ["store"] = some .directory := rfl
  have hmissing : (beside id).tree.get? ["store"] = none := rfl
  obtain ⟨below, hbelow⟩ := hinside ["store"] (by rw [hmade, hmissing]; rintro ⟨⟩)
  cases hbelow

end Workspace
end Workbench
