import Workbench.Proofs.Files.Making
import Workbench.Proofs.Project.Listing
import Workbench.Proofs.Project.Outcomes

/-!
# Exporting all blocks

An export goes by names: for every name it copies the first block that bears it.  Where two blocks
share a name, the first of them is copied twice, and the other one never.

* `Workspace.Tells` is what an entry of the report says of a block;
* `Workspace.exportOne_outcomes` lists what becomes of one name;
* `Workspace.Exporting` holds after every block of an export that goes outside the project
  (`Exporting.step`), and `exportsAll_of_outside` is what it leaves behind in the end;
* `not_tellsEach_sharedName` is a project with two blocks of one name.
-/

namespace Workbench

/-- A path leads to no place below another one. -/
def Disk.LiesOutside (d : Disk) (output project : Path) : Prop :=
  ∀ outputKey projectKey, d.site output = .ok outputKey → d.site project = .ok projectKey →
    ¬ projectKey <+: outputKey

namespace Workspace

/-! ## 1. Entries of the report -/

/-- The error of an entry that tells of one. -/
def fault? {α : Type} : Except ItemError α → Option ItemError
  | .ok _ => none
  | .error e => some e

/-- What an entry of a report says of a block: the named file holds what the file of the block
holds, or the block could not be copied. -/
def Tells (output : Path) (disk : Disk) (b : FoundBlock) : Except ItemError ExportedBlock → Prop
  | .ok e => e.blockName = b.info.name ∧ ∃ file, b.source.fileName? = some file ∧
      e.filePath = (output.child file).text ∧ ∃ content, disk.readFile b.source = .ok content ∧
        disk.readFile (output.child file) = .ok content
  | .error e => e.item = b.info.name ∧ ∃ fault : FileFault, e.error = fault.message

/-- The first block that bears a name. -/
def lead? (bs : List FoundBlock) (name : String) : Option FoundBlock :=
  bs.find? fun b => b.info.name == name

/-- The first block with the name of a listed block. -/
theorem lead_of_mem {bs : List FoundBlock} {b : FoundBlock} (hb : b ∈ bs) :
    ∃ lead ∈ bs, lead? bs b.info.name = some lead ∧ lead.info.name = b.info.name := by
  have hsome : (lead? bs b.info.name).isSome = true :=
    List.find?_isSome.mpr ⟨b, hb, by simp⟩
  obtain ⟨lead, hlead⟩ := Option.isSome_iff_exists.mp hsome
  exact ⟨lead, List.mem_of_find?_eq_some hlead, hlead, by simpa using List.find?_some hlead⟩

/-- Two blocks with one file name bear one name. -/
theorem name_of_fileName {dir : Path} {b c : FoundBlock} {file : String} (hb : b.IsOf dir)
    (hc : c.IsOf dir) (hfb : b.source.fileName? = some file)
    (hfc : c.source.fileName? = some file) : b.info.name = c.info.name := by
  obtain ⟨file₁, h₁, hstem₁⟩ := Block.fileName_of_stem? hb.stem
  obtain ⟨file₂, h₂, hstem₂⟩ := Block.fileName_of_stem? hc.stem
  rw [hfb] at h₁
  rw [hfc] at h₂
  cases h₁
  cases h₂
  rw [← hstem₁, ← hstem₂]

/-! ## 2. One block after the other -/

/-- What becomes of one name. -/
inductive ExportOneOutcomes (bs : List FoundBlock) (output : Path) (b : Batch ExportedBlock)
    (name : String) : Batch ExportedBlock → Prop where
  | unknown (hlead : lead? bs name = none) :
      ExportOneOutcomes bs output b name
        { b with errors := b.errors ++ [⟨name, "Block not found"⟩] }
  | unnamed {lead : FoundBlock} (hlead : lead? bs name = some lead)
      (hfile : lead.source.fileName? = none) : ExportOneOutcomes bs output b name b
  | failed {lead : FoundBlock} {file : String} {f : FileFault} (hlead : lead? bs name = some lead)
      (hfile : lead.source.fileName? = some file)
      (hcopy : b.disk.copyFile lead.source (output.child file) = .error f) :
      ExportOneOutcomes bs output b name { b with errors := b.errors ++ [⟨name, f.message⟩] }
  | copied {lead : FoundBlock} {file : String} {d : Disk} (hlead : lead? bs name = some lead)
      (hfile : lead.source.fileName? = some file)
      (hcopy : b.disk.copyFile lead.source (output.child file) = .ok d) :
      ExportOneOutcomes bs output b name
        { b with disk := d, done := b.done ++ [⟨name, (output.child file).text⟩] }

theorem exportOne_outcomes {bs : List FoundBlock} {output : Path} {b b' : Batch ExportedBlock}
    {name : String} (h : exportOne bs output b name = b') :
    ExportOneOutcomes bs output b name b' := by
  subst h
  unfold exportOne
  split
  · exact .unknown ‹_›
  · split
    · exact .unnamed ‹_› ‹_›
    · dsimp only
      split
      · exact .copied ‹_› ‹_› ‹_›
      · exact .failed ‹_› ‹_› ‹_›

/-- Where an export begins: the directories are made, and the output lies outside of the project. -/
structure Outset (made : Disk) (dir : Path) (projectKey : Key) (bs : List FoundBlock)
    (output : Path) : Prop where
  blocks : ∀ b ∈ bs, b.IsOf dir
  site : made.site dir = .ok projectKey
  directory : made.tree.get? projectKey = some .directory
  outside : made.LiesOutside output dir

/-- A disk to which an export may have written. -/
structure Later (made : Disk) (output : Path) (disk : Disk) : Prop where
  grows : made.Grows disk
  /-- Only where the output leads somewhere anything is written. -/
  reached : disk = made ∨ ∃ key, made.site output = .ok key

/-- What an export has left untouched and has told, after some of the blocks. -/
structure Exporting (made : Disk) (projectKey : Key) (bs : List FoundBlock) (output : Path)
    (items : List (FoundBlock × Except ItemError ExportedBlock)) (b : Batch ExportedBlock) :
    Prop where
  later : Later made output b.disk
  /-- The project is as it was. -/
  kept : ∀ k, projectKey <+: k → b.disk.tree.get? k = made.tree.get? k
  done : b.done = items.filterMap fun item => item.2.toOption
  errors : b.errors = items.filterMap fun item => fault? item.2
  /-- Each entry tells of the first block with the name. -/
  told : ∀ item ∈ items, ∃ lead ∈ bs, lead? bs item.1.info.name = some lead ∧
    Tells output b.disk lead item.2

section Step

variable {made disk disk' : Disk} {dir output : Path} {projectKey : Key} {bs : List FoundBlock}

/-- The file of a block lies in the project. -/
theorem Outset.source (ho : Outset made dir projectKey bs output) (hg : made.Grows disk)
    {c : FoundBlock} (hc : c ∈ bs) {key : Key} (hkey : disk.find c.source = .ok key) :
    projectKey <+: key := by
  obtain ⟨above, habove, hprefix⟩ :=
    Disk.site_of_below (ho.blocks c hc).below (Disk.find_eq_ok.mp hkey).2
  rw [hg.site ho.site] at habove
  cases habove
  exact hprefix

/-- Where something is written into the output. -/
theorem Later.site (hl : Later made output disk) {outputKey : Key}
    (h : disk.site output = .ok outputKey) : made.site output = .ok outputKey := by
  rcases hl.reached with rfl | ⟨key, hkey⟩
  · exact h
  · rw [hl.grows.site hkey] at h
    rw [hkey, h]

/-- What is written into the output does not lie in the project. -/
theorem Outset.target (ho : Outset made dir projectKey bs output) (hl : Later made output disk)
    {file : String} (hfile : Path.IsEntryName file) {key : Key}
    (hkey : disk.openForWriting (output.child file) = .ok key) : ¬ projectKey <+: key := by
  intro hprefix
  obtain ⟨outputKey, hsite, rfl, -, hnot, -⟩ := Disk.openForWriting_child hfile hkey
  rcases List.prefix_concat_iff.mp hprefix with heq | hinside
  · exact hnot (heq ▸ hl.grows.tree.directory _ ho.directory)
  · exact ho.outside _ _ (hl.site hsite) ho.site hinside

/-- **A copy into the output** leaves the project alone, and the target holds what the source
holds. -/
theorem Outset.copied (ho : Outset made dir projectKey bs output) (hl : Later made output disk)
    {lead : FoundBlock} (hlead : lead ∈ bs) {file : String}
    (hfile : lead.source.fileName? = some file)
    (h : disk.copyFile lead.source (output.child file) = .ok disk') :
    ∃ key content, disk.openForWriting (output.child file) = .ok key ∧
      Disk.Replaced disk disk' key (.file content) ∧ Later made output disk' ∧
      disk.Grows disk' ∧ ¬ projectKey <+: key ∧ disk.readFile lead.source = .ok content := by
  have hname := Path.isEntryName_of_fileName? hfile
  obtain ⟨key, sourceKey, content, hkey, hsource, hreplaced, -, hcontent⟩ := Disk.copyFile_ok h
  have hout := ho.target hl hname hkey
  have hne : sourceKey ≠ key := by
    rintro rfl
    exact hout (ho.source hl.grows hlead hsource)
  obtain ⟨outputKey, hsite, -, -, hdir, -⟩ := Disk.openForWriting_child hname hkey
  have hgrows : disk.Grows disk' := hreplaced.grows hdir (by rintro ⟨⟩)
  exact ⟨key, content, hkey, hreplaced, ⟨hl.grows.trans hgrows, Or.inr ⟨_, hl.site hsite⟩⟩,
    hgrows, hout, Disk.readFile_ok.mpr ⟨sourceKey, hsource, hcontent hne⟩⟩

/-- What lies in the project reads as before after a write elsewhere. -/
theorem Outset.readFile_source (ho : Outset made dir projectKey bs output)
    (hg : made.Grows disk) (hgrows : disk.Grows disk') {key : Key} {entry : Entry}
    (hreplaced : Disk.Replaced disk disk' key entry) (hout : ¬ projectKey <+: key)
    {c : FoundBlock} (hc : c ∈ bs) {content : String} (h : disk.readFile c.source = .ok content) :
    disk'.readFile c.source = .ok content := by
  obtain ⟨sourceKey, hfind, hget⟩ := Disk.readFile_ok.mp h
  refine Disk.readFile_ok.mpr ⟨sourceKey, hgrows.find hfind, ?_⟩
  rw [hreplaced.get?, if_neg, hget]
  rintro rfl
  exact hout (ho.source hg hc hfind)

/-- A file that was written into the output is found at its own key. -/
theorem key_of_readFile_child {file : String} (hfile : Path.IsEntryName file) {content : String}
    (h : disk.readFile (output.child file) = .ok content) :
    ∃ outputKey, disk.site output = .ok outputKey ∧
      disk.find (output.child file) = .ok (outputKey ++ [file]) ∧
      disk.tree.get? (outputKey ++ [file]) = some (.file content) := by
  obtain ⟨key, hfind, hget⟩ := Disk.readFile_ok.mp h
  obtain ⟨outputKey, hsite, hstep⟩ := Disk.site_child_ok (Disk.find_eq_ok.mp hfind).2
  obtain ⟨rfl, -⟩ := FileTree.stepKey_of_real hfile hstep
  exact ⟨outputKey, hsite, hfind, hget⟩

/-- **What was told of a block stays true when another one is copied.**  The target of the other one
may be the same, but then it is the same block. -/
theorem Outset.tells (ho : Outset made dir projectKey bs output) (hl : Later made output disk)
    {lead : FoundBlock} {name : String} (hlead : lead ∈ bs) (hfirst : lead? bs name = some lead)
    (hlname : lead.info.name = name) {file : String}
    (hfile : lead.source.fileName? = some file)
    (h : disk.copyFile lead.source (output.child file) = .ok disk')
    {lead₀ : FoundBlock} {name₀ : String} (hlead₀ : lead₀ ∈ bs)
    (hfirst₀ : lead? bs name₀ = some lead₀) (hlname₀ : lead₀.info.name = name₀)
    {v : Except ItemError ExportedBlock}
    (hv : Tells output disk lead₀ v) : Tells output disk' lead₀ v := by
  obtain ⟨key, content, hkey, hreplaced, hl', hgrows, hout, hcontent⟩ := ho.copied hl hlead hfile h
  cases v with
  | error e => exact hv
  | ok e =>
    obtain ⟨hblock, file₀, hfile₀, hpath, content₀, hsource₀, htarget₀⟩ := hv
    refine ⟨hblock, file₀, hfile₀, hpath, content₀,
      ho.readFile_source hl.grows hgrows hreplaced hout hlead₀ hsource₀, ?_⟩
    obtain ⟨outputKey, hsite, hfind, hget⟩ :=
      key_of_readFile_child (Path.isEntryName_of_fileName? hfile₀) htarget₀
    refine Disk.readFile_ok.mpr ⟨_, hgrows.find hfind, ?_⟩
    rw [hreplaced.get?]
    split
    · rename_i hsame
      -- the same file, so the same name, so the same block
      obtain ⟨outputKey', hsite', rfl, -⟩ :=
        Disk.openForWriting_child (Path.isEntryName_of_fileName? hfile) hkey
      obtain ⟨-, hfiles⟩ := List.append_inj' hsame rfl
      cases hfiles
      have hnames : name₀ = name := by
        rw [← hlname, ← hlname₀]
        exact name_of_fileName (ho.blocks _ hlead₀) (ho.blocks _ hlead) hfile₀ hfile
      subst hnames
      rw [hfirst] at hfirst₀
      cases hfirst₀
      rw [hcontent] at hsource₀
      cases hsource₀
      rfl
    · exact hget

/-- What is told of the block that has just been copied. -/
theorem Outset.tells_copied (ho : Outset made dir projectKey bs output)
    (hl : Later made output disk) {lead : FoundBlock} (hlead : lead ∈ bs) {file : String}
    (hfile : lead.source.fileName? = some file)
    (h : disk.copyFile lead.source (output.child file) = .ok disk') :
    Tells output disk' lead (.ok ⟨lead.info.name, (output.child file).text⟩) := by
  have hname := Path.isEntryName_of_fileName? hfile
  obtain ⟨key, content, hkey, hreplaced, hl', hgrows, hout, hcontent⟩ := ho.copied hl hlead hfile h
  refine ⟨rfl, file, hfile, rfl, content,
    ho.readFile_source hl.grows hgrows hreplaced hout hlead hcontent, ?_⟩
  obtain ⟨outputKey, hsite, rfl, hdir, -, hfault, hlen⟩ := Disk.openForWriting_child hname hkey
  have hget : disk'.tree.get? (outputKey ++ [file]) = some (.file content) := by
    rw [hreplaced.get?, if_pos rfl]
  refine Disk.readFile_ok.mpr ⟨_, Disk.find_child hname (hgrows.site hsite)
    (hgrows.tree.directory _ hdir) (by rw [hget]; rintro ⟨⟩) hfault hlen, hget⟩

/-- **One block more.** -/
theorem Exporting.step (ho : Outset made dir projectKey bs output)
    {items : List (FoundBlock × Except ItemError ExportedBlock)} {b : Batch ExportedBlock}
    (he : Exporting made projectKey bs output items b) {c : FoundBlock} (hc : c ∈ bs) :
    ∃ v, Exporting made projectKey bs output (items ++ [(c, v)])
      (exportOne bs output b c.info.name) := by
  obtain ⟨lead, hlead, hfirst, hname⟩ := lead_of_mem hc
  obtain ⟨file, hfile, -⟩ := Block.fileName_of_stem? (ho.blocks lead hlead).stem
  have hfind : (bs.find? fun b => b.info.name == c.info.name) = some lead := hfirst
  unfold exportOne
  simp only [hfind, hfile]
  cases hcopy : b.disk.copyFile lead.source (output.child file) with
  | error f =>
    refine ⟨.error ⟨c.info.name, f.message⟩, he.later, he.kept, ?_, ?_, ?_⟩
    · simp [he.done, List.filterMap_append, Except.toOption]
    · simp [he.errors, List.filterMap_append, fault?]
    · intro item hitem
      rcases List.mem_append.mp hitem with hbefore | hnew
      · exact he.told item hbefore
      · obtain rfl := List.mem_singleton.mp hnew
        exact ⟨lead, hlead, hfirst, hname.symm, f, rfl⟩
  | ok disk' =>
    obtain ⟨key, content, -, hreplaced, hlater, -, hout, -⟩ :=
      ho.copied he.later hlead hfile hcopy
    refine ⟨.ok ⟨c.info.name, (output.child file).text⟩, hlater, fun k hk => ?_, ?_, ?_, ?_⟩
    · rw [hreplaced.get?, if_neg (by rintro rfl; exact hout hk), he.kept k hk]
    · simp [he.done, List.filterMap_append, Except.toOption]
    · simp [he.errors, List.filterMap_append, fault?]
    · intro item hitem
      rcases List.mem_append.mp hitem with hbefore | hnew
      · obtain ⟨lead₀, hlead₀, hfirst₀, hv⟩ := he.told item hbefore
        have hname₀ : lead₀.info.name = item.1.info.name := by simpa using List.find?_some hfirst₀
        exact ⟨lead₀, hlead₀, hfirst₀,
          ho.tells he.later hlead hfirst hname hfile hcopy hlead₀ hfirst₀ hname₀ hv⟩
      · obtain rfl := List.mem_singleton.mp hnew
        refine ⟨lead, hlead, hfirst, ?_⟩
        rw [← hname]
        exact ho.tells_copied he.later hlead hfile hcopy

/-- **All blocks**, by induction over those that are still to come. -/
theorem Exporting.all (ho : Outset made dir projectKey bs output)
    {items : List (FoundBlock × Except ItemError ExportedBlock)} {b : Batch ExportedBlock}
    (he : Exporting made projectKey bs output items b) {rest : List FoundBlock}
    (hrest : ∀ c ∈ rest, c ∈ bs) :
    ∃ items', items'.map Prod.fst = items.map Prod.fst ++ rest ∧
      Exporting made projectKey bs output items'
        ((rest.map (·.info.name)).foldl (exportOne bs output) b) := by
  induction rest generalizing items b with
  | nil => exact ⟨items, by simp, he⟩
  | cons c rest ih =>
    obtain ⟨v, hv⟩ := he.step ho (hrest c List.mem_cons_self)
    obtain ⟨items', hfst, hall⟩ := ih hv fun c' hc' => hrest c' (List.mem_cons_of_mem c hc')
    exact ⟨items', by simpa using hfst, hall⟩

end Step

/-! ## 3. The whole export -/

/-- The entries of a report belong to blocks, one to each. -/
structure Entries (report : ExportReport) (bs : List FoundBlock)
    (items : List (FoundBlock × Except ItemError ExportedBlock)) : Prop where
  blocks : items.map Prod.fst = bs
  exported : report.exported = items.filterMap fun item => item.2.toOption
  errors : report.errors = items.filterMap fun item => fault? item.2

/-- Each block has an entry that tells of it. -/
def TellsEach (bs : List FoundBlock) (output : Path) (after : Disk) (report : ExportReport) :
    Prop :=
  ∃ items, Entries report bs items ∧ ∀ item ∈ items, Tells output after item.1 item.2

/-- **What an export of all blocks tells and does**: `before` is the disk before it, and `after` the
one behind it. -/
structure ExportsAll (before : Disk) (bs : List FoundBlock) (output : Path) (after : Disk)
    (report : ExportReport) : Prop where
  /-- Each block has an entry, which tells of the first block with its name. -/
  leads : ∃ items, Entries report bs items ∧ ∀ item ∈ items,
    ∃ lead ∈ bs, lead? bs item.1.info.name = some lead ∧ Tells output after lead item.2
  /-- Where no name occurs twice, it tells of the block itself, and no file is named twice. -/
  each : (bs.map (·.info.name)).Nodup →
    TellsEach bs output after report ∧ (report.exported.map (·.filePath)).Nodup
  /-- The sources are as they were. -/
  sources : ∀ b ∈ bs, ∀ content, before.readFile b.source = .ok content →
    after.readFile b.source = .ok content

/-- Where no name occurs twice, a block is the first one with its name. -/
theorem lead?_of_nodup {bs : List FoundBlock} (hn : (bs.map (·.info.name)).Nodup) {b : FoundBlock}
    (hb : b ∈ bs) : lead? bs b.info.name = some b := by
  induction bs with
  | nil => cases hb
  | cons c rest ih =>
    rw [List.map_cons, List.nodup_cons] at hn
    unfold lead?
    rcases List.mem_cons.mp hb with rfl | hrest
    · simp
    · rw [List.find?_cons_of_neg]
      · exact ih hn.2 hrest
      · intro hsame
        exact hn.1 (List.mem_map.mpr ⟨b, hrest, (beq_iff_eq.mp hsame).symm⟩)

/-- Entries that tell of blocks with different names name different files. -/
theorem filePaths_nodup {output : Path} {after : Disk} {dir : Path}
    {items : List (FoundBlock × Except ItemError ExportedBlock)}
    (hof : ∀ item ∈ items, item.1.IsOf dir)
    (htold : ∀ item ∈ items, Tells output after item.1 item.2)
    (hn : (items.map (·.1.info.name)).Nodup) :
    ((items.filterMap fun item => item.2.toOption).map (·.filePath)).Nodup := by
  unfold List.Nodup at hn ⊢
  rw [List.pairwise_map, List.pairwise_filterMap]
  refine (List.pairwise_map.mp hn).imp_of_mem fun {x y} hx hy hne e he e' he' hsame => hne ?_
  have htx := htold x hx
  have hty := htold y hy
  have hvx : x.2 = .ok e := by
    cases hv : x.2 with
    | ok e₁ => simpa [hv, Except.toOption] using he
    | error _ => simp [hv, Except.toOption] at he
  have hvy : y.2 = .ok e' := by
    cases hv : y.2 with
    | ok e₁ => simpa [hv, Except.toOption] using he'
    | error _ => simp [hv, Except.toOption] at he'
  rw [hvx] at htx
  rw [hvy] at hty
  obtain ⟨-, file, hfile, hpath, -⟩ := htx
  obtain ⟨-, file', hfile', hpath', -⟩ := hty
  rw [hpath, hpath'] at hsame
  obtain rfl := output.child_text_inj hsame
  exact name_of_fileName (hof x hx) (hof y hy) hfile hfile'

/-- Without names an export goes through all blocks. -/
theorem exportBlocks_eq {w : Workspace} {d made : Disk} {p : OpenProject} {bs : List FoundBlock}
    {names : Option (List String)} {output : Path} (hp : w.project = some p)
    (hbs : projectBlocks d p = .ok bs) (hmade : d.makeDirectories output = (made, .ok ()))
    (hnames : names = none ∨ names = some []) {b : Batch ExportedBlock}
    (hb : (bs.map (·.info.name)).foldl (exportOne bs output) ⟨made, [], []⟩ = b) :
    w.exportBlocks d names output =
      ⟨b.disk, w, .ok ⟨output.text, b.done, b.errors,
        .ofCounts b.done.length b.errors.length⟩⟩ := by
  have hwanted : wantedNames names bs = bs.map (·.info.name) := by
    rcases hnames with rfl | rfl <;> rfl
  simp only [exportBlocks, hp, hbs, hmade, still, hwanted, hb]

/-- What is listed are the blocks of the directory of the project. -/
theorem blocks_of_listBlocks {w : Workspace} {d : Disk} {p : OpenProject} {infos : List BlockInfo}
    (hp : w.project = some p) (h : w.listBlocks d = .ok infos) :
    ∃ bs, projectBlocks d p = .ok bs ∧ d.blocks p.dir = .ok bs ∧ bs.map (·.info) = infos := by
  simp only [listBlocks, hp] at h
  split at h
  · rename_i bs hbs
    cases h
    exact ⟨bs, hbs, projectBlocks_eq_ok_iff.mp hbs, rfl⟩
  · cases h

/-- **Where an export begins**: only directories have been made, and none in the project. -/
theorem outset_of_makeDirectories {d made : Disk} {dir output : Path} {bs : List FoundBlock}
    (hblocks : d.blocks dir = .ok bs) (hmade : d.makeDirectories output = (made, .ok ()))
    (hout : made.LiesOutside output dir) :
    d.Extends made ∧ ∃ projectKey, Outset made dir projectKey bs output := by
  have hextends : d.Extends made := by
    have h := Disk.extends_makeDirectories (d := d) output
    rwa [hmade] at h
  obtain ⟨projectKey, hsite, hdir⟩ := Disk.site_of_blocks hblocks
  exact ⟨hextends, projectKey, fun b hb => Disk.isOf_of_blocks hblocks hb,
    hextends.grows.site hsite, hextends.get?_of_some hdir, hout⟩

theorem Exporting.nil (made : Disk) (projectKey : Key) (bs : List FoundBlock) (output : Path) :
    Exporting made projectKey bs output [] ⟨made, [], []⟩ where
  later := ⟨.refl made, Or.inl rfl⟩
  kept _ _ := rfl
  done := rfl
  errors := rfl
  told item hitem := by cases hitem

/-- **What an export of all blocks leaves behind**, by what holds after the last one. -/
theorem Exporting.exportsAll {d made : Disk} {dir output : Path} {projectKey : Key}
    {bs : List FoundBlock} {items : List (FoundBlock × Except ItemError ExportedBlock)}
    {b : Batch ExportedBlock} {report : ExportReport}
    (he : Exporting made projectKey bs output items b)
    (ho : Outset made dir projectKey bs output) (hextends : d.Extends made)
    (hentries : Entries report bs items) : ExportsAll d bs output b.disk report := by
  constructor
  case leads => exact ⟨items, hentries, he.told⟩
  case each =>
    intro hn
    have hmem : ∀ item ∈ items, item.1 ∈ bs := fun item hitem =>
      hentries.blocks ▸ List.mem_map_of_mem hitem
    have hown : ∀ item ∈ items, Tells output b.disk item.1 item.2 := by
      intro item hitem
      obtain ⟨lead, -, hfirst, htold⟩ := he.told item hitem
      rw [lead?_of_nodup hn (hmem item hitem)] at hfirst
      cases hfirst
      exact htold
    refine ⟨⟨items, hentries, hown⟩, ?_⟩
    rw [hentries.exported]
    refine filePaths_nodup (fun item hitem => ho.blocks _ (hmem item hitem)) hown ?_
    rw [← hentries.blocks, List.map_map] at hn
    exact hn
  case sources =>
    intro c hc content h
    obtain ⟨key, hfind, hget⟩ := Disk.readFile_ok.mp h
    have hmadefind := hextends.grows.find hfind
    refine Disk.readFile_ok.mpr ⟨key, he.later.grows.find hmadefind, ?_⟩
    rw [he.kept key (ho.source (.refl made) hc hmadefind)]
    exact hextends.get?_of_some hget

/-- **An export of all blocks to a place outside of the project** has an entry for each listed
block, and the exported file holds what the source of the first block with that name holds.  Where
all names differ, that is the source of the block itself, and no two entries name one file. -/
theorem exportsAll_of_outside {w : Workspace} {d made : Disk} {p : OpenProject}
    {infos : List BlockInfo} {names : Option (List String)} {output : Path}
    (hp : w.project = some p) (hlist : w.listBlocks d = .ok infos)
    (hnames : names = none ∨ names = some [])
    (hmade : d.makeDirectories output = (made, .ok ())) (hout : made.LiesOutside output p.dir) :
    ∃ bs report, bs.map (·.info) = infos ∧ (w.exportBlocks d names output).result = .ok report ∧
      ExportsAll d bs output (w.exportBlocks d names output).disk report := by
  obtain ⟨bs, hbs, hblocks, rfl⟩ := blocks_of_listBlocks hp hlist
  obtain ⟨hextends, projectKey, ho⟩ := outset_of_makeDirectories hblocks hmade hout
  obtain ⟨items, hfst, hall⟩ := (Exporting.nil made projectKey bs output).all ho fun _ hc => hc
  rw [List.map_nil, List.nil_append] at hfst
  generalize hb : (bs.map (·.info.name)).foldl (exportOne bs output) ⟨made, [], []⟩ = b at hall
  rw [exportBlocks_eq hp hbs hmade hnames hb]
  exact ⟨bs, _, rfl, rfl, hall.exportsAll ho hextends ⟨hfst, hall.done, hall.errors⟩⟩

/-- The project `Plant` with a block in each of two folders. -/
def plantWith (first second : String) : Disk where
  tree := .directory "Plant"
    (.file "Plant.ap18" ""
      (.directory "A" (.file first "FUNCTION" .empty)
        (.directory "B" (.file second "<fb/>" .empty) .empty))) .empty
  cwd := []
  home := none

/-- It is open. -/
def plantOpen : Workspace := ⟨some ⟨"Plant", ⟨[""]⟩, ⟨["Plant"]⟩, false⟩⟩

theorem exportsAll_twoNames : ∃ bs report,
    bs.map (·.info) = [⟨"Motor", "SCL", "A"⟩, ⟨"Pump", "XML", "B"⟩] ∧
    (plantOpen.exportBlocks (plantWith "Motor.scl" "Pump.xml") none ⟨["out"]⟩).result = .ok report ∧
    ExportsAll (plantWith "Motor.scl" "Pump.xml") bs ⟨["out"]⟩
      (plantOpen.exportBlocks (plantWith "Motor.scl" "Pump.xml") none ⟨["out"]⟩).disk report :=
  exportsAll_of_outside rfl rfl (Or.inl rfl) rfl fun outputKey projectKey ho hp => by
    cases ho
    cases hp
    decide

/-- **Where two blocks share a name**, the first is exported twice: no entry tells of the second. -/
theorem not_tellsEach_sharedName : ∃ (bs : List FoundBlock) (report : ExportReport),
    bs.map (·.info) = [⟨"Motor", "SCL", "A"⟩, ⟨"Motor", "XML", "B"⟩] ∧
    ((plantWith "Motor.scl" "Motor.xml").makeDirectories ⟨["out"]⟩).1.LiesOutside ⟨["out"]⟩
      ⟨["Plant"]⟩ ∧
    plantOpen.listBlocks (plantWith "Motor.scl" "Motor.xml") = .ok (bs.map (·.info)) ∧
    (plantOpen.exportBlocks (plantWith "Motor.scl" "Motor.xml") none ⟨["out"]⟩).result =
      .ok report ∧
    report.exported = [⟨"Motor", "out/Motor.scl"⟩, ⟨"Motor", "out/Motor.scl"⟩] ∧
    ¬ TellsEach bs ⟨["out"]⟩
      (plantOpen.exportBlocks (plantWith "Motor.scl" "Motor.xml") none ⟨["out"]⟩).disk report := by
  refine ⟨[⟨⟨"Motor", "SCL", "A"⟩, ⟨["Plant", "A", "Motor.scl"]⟩⟩,
    ⟨⟨"Motor", "XML", "B"⟩, ⟨["Plant", "B", "Motor.xml"]⟩⟩],
    ⟨"out", [⟨"Motor", "out/Motor.scl"⟩, ⟨"Motor", "out/Motor.scl"⟩], [], ⟨2, 2, 0⟩⟩,
    rfl, fun _ _ ho hp => by cases ho; cases hp; decide, rfl, rfl, rfl, ?_⟩
  rintro ⟨items, ⟨hblocks, hexported, herrors⟩, htold⟩
  match items, hblocks with
  | [(_, v), (_, .error e)], rfl => cases v <;> cases herrors
  | [(_, .error e), (_, .ok e')], rfl => cases herrors
  | [(_, .ok e), (b, .ok e')], hb =>
    cases hb
    cases hexported
    obtain ⟨-, file, hfile, hpath, -⟩ := htold _ (List.mem_cons_of_mem _ List.mem_cons_self)
    cases hfile
    exact absurd hpath (by decide)

end Workspace
end Workbench
