import Workbench.Proofs.Files.Copying
import Workbench.Proofs.Project.Export

/-!
# What an export leaves of the sources

An export may go anywhere, also into a directory of the project.  It changes no file but those that
it names as written; but one of these can be the source of a block.  The source of the first block
with a name is then copied onto itself and left empty, and that of another block with this name
holds what the first one held.

* `Workspace.Spares` says this of the disks before and behind an export;
* `Workspace.Exported` holds after every name (`Exported.step`), and `spares_of_exportBlocks` is the
  whole export;
* `not_keepsSources_ownFolder` is an export into a folder of the project.
-/

namespace Workbench
namespace Workspace

/-! ## 1. Statements -/

/-- The files that an export names as written. -/
def written (result : Except ToolError ExportReport) : List ExportedBlock :=
  match result with
  | .ok report => report.exported
  | .error _ => []

/-- One of the files that are named as written lies at the key. -/
def Wrote (output : Path) (after : Disk) (exported : List ExportedBlock) (key : Key) : Prop :=
  ∃ e ∈ exported, ∃ file, e.filePath = (output.child file).text ∧
    after.find (output.child file) = .ok key

/-- Every source holds what it held. -/
def KeepsSources (before : Disk) (bs : List FoundBlock) (after : Disk) : Prop :=
  ∀ b ∈ bs, ∀ content, before.readFile b.source = .ok content →
    after.readFile b.source = .ok content

/-- **What an export does to files**: `before` is the disk before it, and `after` the one behind
it. -/
structure Spares (before : Disk) (bs : List FoundBlock) (output : Path) (after : Disk)
    (exported : List ExportedBlock) : Prop where
  /-- No file is changed but those that are named as written. -/
  files : ∀ key content, before.tree.get? key = some (.file content) →
    ¬ Wrote output after exported key → after.tree.get? key = some (.file content)
  /-- Where none of these is the source of a block, every source holds what it held. -/
  sources : (∀ b ∈ bs, ∀ key, before.find b.source = .ok key → ¬ Wrote output after exported key) →
    KeepsSources before bs after
  /-- Where one of them is, it is empty if it belongs to the first block with its name; otherwise it
  holds what the source of that block held. -/
  overwritten : ∀ b ∈ bs, ∀ key, before.find b.source = .ok key →
    Wrote output after exported key → ∃ lead ∈ bs, lead? bs b.info.name = some lead ∧
      ∃ leadKey content, after.find lead.source = .ok leadKey ∧
        after.tree.get? key = some (.file content) ∧ (leadKey = key → content = "") ∧
        (leadKey ≠ key → before.tree.get? leadKey = some (.file content))

/-! ## 2. One name after the other -/

/-- What an export has done after some of the names; `copied` are the files that it copied. -/
structure Exported (before : Disk) (bs : List FoundBlock) (output : Path) (copied : List Path)
    (b : Batch ExportedBlock) : Prop where
  filled : before.Filled output copied b.disk
  /-- It copies files of first blocks only. -/
  leads : ∀ p ∈ copied, ∃ lead ∈ bs, lead.source = p ∧ lead? bs lead.info.name = some lead
  /-- It names what it writes. -/
  named : b.done.map (·.filePath) =
    copied.filterMap fun p => p.fileName?.map fun file => (output.child file).text

section Steps

variable {before : Disk} {bs : List FoundBlock} {output : Path} {copied : List Path}
  {b : Batch ExportedBlock}

/-- Nothing has been copied yet, but directories may have been made. -/
theorem Exported.start {made : Disk} (h : before.Extends made) :
    Exported before bs output [] ⟨made, [], []⟩ where
  filled := (Disk.Filled.nil before output).directories h
  leads p hp := by cases hp
  named := rfl

/-- **One name more.** -/
theorem Exported.step (he : Exported before bs output copied b) (name : String) :
    ∃ copied, Exported before bs output copied (exportOne bs output b name) := by
  generalize hone : exportOne bs output b name = b'
  cases exportOne_outcomes hone with
  | unknown | failed => exact ⟨copied, he.filled, he.leads, he.named⟩
  | unnamed => exact ⟨copied, he⟩
  | @copied lead file disk hlead hfile hcopy =>
    have hname : lead.info.name = name := by simpa using List.find?_some hlead
    refine ⟨copied ++ [lead.source], he.filled.copy hfile hcopy, fun p hp => ?_, ?_⟩
    · rcases List.mem_append.mp hp with hp | hp
      · exact he.leads p hp
      · obtain rfl := List.mem_singleton.mp hp
        exact ⟨lead, List.mem_of_find?_eq_some hlead, rfl, hname ▸ hlead⟩
    · simp [he.named, hfile]

/-- **All names**, by induction over those that are still to come. -/
theorem Exported.all (he : Exported before bs output copied b) (names : List String) :
    ∃ copied, Exported before bs output copied (names.foldl (exportOne bs output) b) := by
  induction names generalizing copied b with
  | nil => exact ⟨copied, he⟩
  | cons name names ih =>
    obtain ⟨copied, hnext⟩ := he.step name
    exact ih hnext

/-- What is named as written are the targets of the copies. -/
theorem Exported.wrote_iff (he : Exported before bs output copied b) (key : Key) :
    Wrote output b.disk b.done key ↔ b.disk.IsTarget output copied key := by
  constructor
  · rintro ⟨e, hmem, file, hpath, hfind⟩
    have htext : e.filePath ∈ b.done.map (·.filePath) := List.mem_map_of_mem hmem
    rw [he.named] at htext
    obtain ⟨p, hp, hname⟩ := List.mem_filterMap.mp htext
    obtain ⟨name, hpname, hsame⟩ := Option.map_eq_some_iff.mp hname
    rw [hpath] at hsame
    obtain rfl := output.child_text_inj hsame
    exact ⟨p, hp, name, hpname, hfind⟩
  · rintro ⟨p, hp, file, hfile, hfind⟩
    have htext : (output.child file).text ∈ b.done.map (·.filePath) := by
      rw [he.named]
      exact List.mem_filterMap.mpr ⟨p, hp, by rw [hfile]; rfl⟩
    obtain ⟨e, hmem, hpath⟩ := List.mem_map.mp htext
    exact ⟨e, hmem, file, hpath, hfind⟩

/-- A source at a target bears the name of what was copied there, so the first block with its name
is the one whose file was copied. -/
theorem Exported.lead_of_target {dir : Path} (he : Exported before bs output copied b)
    (hof : ∀ c ∈ bs, c.IsOf dir) {c : FoundBlock} (hc : c ∈ bs) {key : Key}
    (hkey : b.disk.find c.source = .ok key) {p : Path} (hp : p ∈ copied) {name : String}
    (hname : p.fileName? = some name) (hfind : b.disk.find (output.child name) = .ok key) :
    ∃ lead ∈ bs, lead.source = p ∧ lead? bs c.info.name = some lead := by
  obtain ⟨lead, hlead, rfl, hfirst⟩ := he.leads p hp
  obtain ⟨file, hfile, -⟩ := Block.fileName_of_stem? (hof c hc).stem
  obtain ⟨above, habove⟩ := Disk.key_of_fileName? hfile hkey
  obtain ⟨outputKey, -, hsame, -⟩ := Disk.find_child_ok (Path.isEntryName_of_fileName? hname) hfind
  rw [habove] at hsame
  obtain ⟨-, hlast⟩ := List.append_inj' hsame rfl
  cases hlast
  refine ⟨lead, hlead, rfl, ?_⟩
  rw [name_of_fileName (hof c hc) (hof lead hlead) hfile hname]
  exact hfirst

/-- **What an export does to files**, by what holds after the last name. -/
theorem Exported.spares {dir : Path} (he : Exported before bs output copied b)
    (hof : ∀ c ∈ bs, c.IsOf dir) : Spares before bs output b.disk b.done := by
  have hfiles : ∀ key content, before.tree.get? key = some (.file content) →
      ¬ Wrote output b.disk b.done key → b.disk.tree.get? key = some (.file content) := by
    intro key content hget hkey
    rcases he.filled.away key (mt (he.wrote_iff key).mpr hkey) with hsame | ⟨hnone, -⟩
    · rw [hsame, hget]
    · rw [hget] at hnone
      cases hnone
  constructor
  case files => exact hfiles
  case sources =>
    intro hapart c hc content hread
    obtain ⟨key, hfind, hget⟩ := Disk.readFile_ok.mp hread
    exact Disk.readFile_ok.mpr
      ⟨key, he.filled.grows.find hfind, hfiles key content hget (hapart c hc key hfind)⟩
  case overwritten =>
    intro c hc key hkey hwrote
    have hkey := he.filled.grows.find hkey
    obtain ⟨p, hp, name, hname, hfind⟩ := (he.wrote_iff key).mp hwrote
    obtain ⟨q, hq, hsame, qname, target, leadKey, content, hqname, htarget, hsource, hget, hown,
      hother⟩ := he.filled.arrived hp
    rw [hname, hqname] at hsame
    cases hsame
    rw [hfind] at htarget
    cases htarget
    obtain ⟨lead, hlead, rfl, hfirst⟩ := he.lead_of_target hof hc hkey hq hqname hfind
    exact ⟨lead, hlead, hfirst, leadKey, content, hsource, hget, hown, hother⟩

end Steps

/-! ## 3. The whole export -/

/-- **Whatever is exported, and wherever to**: no file is changed but those that the report names as
written, so the sources are kept unless one of them is named.  Where the blocks cannot be listed,
nothing is changed at all. -/
theorem spares_of_exportBlocks {w : Workspace} {d : Disk} {p : OpenProject}
    (names : Option (List String)) (output : Path) (hp : w.project = some p) :
    (∀ f, d.blocks p.dir = .error f → (w.exportBlocks d names output).disk = d) ∧
    ∀ bs, d.blocks p.dir = .ok bs →
      Spares d bs output (w.exportBlocks d names output).disk
        (written (w.exportBlocks d names output).result) := by
  constructor
  · intro f hf
    simp only [exportBlocks, hp, projectBlocks, hf]
    rfl
  · intro bs hbs
    have hof : ∀ c ∈ bs, c.IsOf p.dir := fun c hc => Disk.isOf_of_blocks hbs hc
    have hextends := Disk.extends_makeDirectories (d := d) output
    simp only [exportBlocks, hp, projectBlocks, hbs]
    cases hmade : d.makeDirectories output with
    | mk made outcome =>
      rw [hmade] at hextends
      have hstart : Exported d bs output [] ⟨made, [], []⟩ := .start hextends
      cases outcome with
      | error f => exact hstart.spares hof
      | ok done =>
        obtain ⟨copied, hall⟩ := hstart.all (wantedNames names bs)
        exact hall.spares hof

/-- An export into the folder of one of the blocks: its source is written over, and the source of
the other block is kept. -/
theorem spares_ownFolder :
    plantOpen.project = some ⟨"Plant", ⟨[""]⟩, ⟨["Plant"]⟩, false⟩ ∧
    Spares (plantWith "Motor.scl" "Pump.xml")
      [⟨⟨"Motor", "SCL", "A"⟩, ⟨["Plant", "A", "Motor.scl"]⟩⟩,
        ⟨⟨"Pump", "XML", "B"⟩, ⟨["Plant", "B", "Pump.xml"]⟩⟩] ⟨["Plant", "A"]⟩
      (plantOpen.exportBlocks (plantWith "Motor.scl" "Pump.xml") none ⟨["Plant", "A"]⟩).disk
      [⟨"Motor", "Plant/A/Motor.scl"⟩, ⟨"Pump", "Plant/A/Pump.xml"⟩] :=
  ⟨rfl, (spares_of_exportBlocks none ⟨["Plant", "A"]⟩ rfl).2 _ rfl⟩

/-- **An export into a folder of the project** empties the source of a block there, and reports that
it was exported. -/
theorem not_keepsSources_ownFolder : ∃ (bs : List FoundBlock) (report : ExportReport),
    (plantWith "Motor.scl" "Pump.xml").blocks ⟨["Plant"]⟩ = .ok bs ∧
    (plantOpen.exportBlocks (plantWith "Motor.scl" "Pump.xml") none ⟨["Plant", "A"]⟩).result =
      .ok report ∧
    report.exported = [⟨"Motor", "Plant/A/Motor.scl"⟩, ⟨"Pump", "Plant/A/Pump.xml"⟩] ∧
    ¬ KeepsSources (plantWith "Motor.scl" "Pump.xml") bs
      (plantOpen.exportBlocks (plantWith "Motor.scl" "Pump.xml") none ⟨["Plant", "A"]⟩).disk := by
  refine ⟨[⟨⟨"Motor", "SCL", "A"⟩, ⟨["Plant", "A", "Motor.scl"]⟩⟩,
    ⟨⟨"Pump", "XML", "B"⟩, ⟨["Plant", "B", "Pump.xml"]⟩⟩],
    ⟨"Plant/A", [⟨"Motor", "Plant/A/Motor.scl"⟩, ⟨"Pump", "Plant/A/Pump.xml"⟩], [], ⟨2, 2, 0⟩⟩,
    rfl, rfl, rfl, fun hkeeps => ?_⟩
  have hread : (.ok "" : Except FileFault String) = .ok "FUNCTION" :=
    hkeeps _ List.mem_cons_self "FUNCTION" rfl
  exact absurd (Except.ok.inj hread) (by decide)

end Workspace
end Workbench
