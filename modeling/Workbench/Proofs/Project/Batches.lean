import Workbench.Proofs.Project.Import

/-!
# One entry for each item

An export goes through names and an import through files, and what becomes of each is written at the
end of one of two lists.  Nothing is left out and nothing is told twice, however often a name is
given and whichever of the items fail.

There is one way through the loop of an export that writes nothing, for a block whose path ends in
no name.  No block that is collected has such a path.

* `Workspace.Batch.Appends` is what one item does to a batch; `Workspace.exportOne_appends` and
  `Workspace.importOne_appends` say that both loops do it with every item;
* `Workspace.Splits` is the report of a whole batch, and `Workspace.splits_of_open` says it of every
  report of an export or an import.
-/

namespace Workbench
namespace Workspace

/-! ## 1. One item -/

section Appending

variable {ι α : Type}

/-- An item has been dealt with: its entry stands at the end of its list, and the other list is as
it was. -/
structure Batch.Appends (b b' : Batch α) (v : Except ItemError α) : Prop where
  done : b'.done = b.done ++ v.toOption.toList
  errors : b'.errors = b.errors ++ (fault? v).toList

theorem Batch.appends_ok (b : Batch α) (d : Disk) (a : α) :
    b.Appends { b with disk := d, done := b.done ++ [a] } (.ok a) where
  done := rfl
  errors := (List.append_nil _).symm

theorem Batch.appends_error (b : Batch α) (d : Disk) (e : ItemError) :
    b.Appends { b with disk := d, errors := b.errors ++ [e] } (.error e) where
  done := (List.append_nil _).symm
  errors := rfl

/-- **The items of a batch and their entries**: there is one entry for each item, in the order of
the items. -/
structure Lists (tells : ι → Except ItemError α → Prop) (items : List (ι × Except ItemError α))
    (requested : List ι) (done : List α) (errors : List ItemError) : Prop where
  requested : items.map Prod.fst = requested
  tells : ∀ item ∈ items, tells item.1 item.2
  done : done = items.filterMap fun item => item.2.toOption
  errors : errors = items.filterMap fun item => fault? item.2

/-- One item more at the end. -/
theorem Lists.concat {tells : ι → Except ItemError α → Prop}
    {items : List (ι × Except ItemError α)} {front : List ι} {b b' : Batch α}
    (h : Lists tells items front b.done b.errors) {i : ι} {v : Except ItemError α}
    (hv : tells i v) (happends : b.Appends b' v) :
    Lists tells (items ++ [(i, v)]) (front ++ [i]) b'.done b'.errors where
  requested := by rw [List.map_append, h.requested]; rfl
  tells := by
    intro item hitem
    rcases List.mem_append.mp hitem with hbefore | hnew
    · exact h.tells item hbefore
    · obtain rfl := List.mem_singleton.mp hnew
      exact hv
  done := by
    rw [happends.done, h.done, List.filterMap_append]
    cases v <;> rfl
  errors := by
    rw [happends.errors, h.errors, List.filterMap_append]
    cases v <;> rfl

/-- **A loop whose every step appends one entry** has an entry for each item, by induction over the
items still to come. -/
theorem Lists.foldl {tells : ι → Except ItemError α → Prop} {step : Batch α → ι → Batch α}
    (hstep : ∀ (b : Batch α) (i : ι), ∃ v, b.Appends (step b i) v ∧ tells i v) {front : List ι}
    {items : List (ι × Except ItemError α)} {b : Batch α}
    (h : Lists tells items front b.done b.errors) (rest : List ι) :
    ∃ items', Lists tells items' (front ++ rest) (rest.foldl step b).done
      (rest.foldl step b).errors := by
  induction rest generalizing front items b with
  | nil => exact ⟨items, by rwa [List.append_nil]⟩
  | cons i rest ih =>
    obtain ⟨v, happends, hv⟩ := hstep b i
    obtain ⟨items', hall⟩ := ih (h.concat hv happends)
    rw [List.append_assoc] at hall
    exact ⟨items', hall⟩

theorem Lists.nil (tells : ι → Except ItemError α → Prop) : Lists tells [] [] [] [] where
  requested := rfl
  tells item hitem := by cases hitem
  done := rfl
  errors := rfl

/-- No entry is lost: the two lists are as long as the list of the items. -/
theorem Lists.length_eq {tells : ι → Except ItemError α → Prop}
    {items : List (ι × Except ItemError α)} {requested : List ι} {done : List α}
    {errors : List ItemError} (h : Lists tells items requested done errors) :
    done.length + errors.length = requested.length := by
  have hsplit : ∀ items : List (ι × Except ItemError α),
      (items.filterMap fun item => item.2.toOption).length +
        (items.filterMap fun item => fault? item.2).length = items.length := by
    intro items
    induction items with
    | nil => rfl
    | cons item items ih =>
      obtain ⟨i, v⟩ := item
      simp only [Except.toOption, fault?] at ih
      cases v <;>
        simp only [List.filterMap_cons, Except.toOption, fault?, List.length_cons] <;> omega
  rw [h.done, h.errors, hsplit, ← h.requested, List.length_map]

/-- **A report splits what was asked for**: each item has one entry, which stands in one of two
lists, each list has the order of the items, and the summary counts both and all. -/
def Splits (tells : ι → Except ItemError α → Prop) (requested : List ι) (done : List α)
    (errors : List ItemError) (summary : BatchSummary) : Prop :=
  (∃ items, Lists tells items requested done errors) ∧
    summary = ⟨requested.length, done.length, errors.length⟩

/-- A loop from the beginning makes such a report. -/
theorem splits_foldl {tells : ι → Except ItemError α → Prop} {step : Batch α → ι → Batch α}
    (hstep : ∀ (b : Batch α) (i : ι), ∃ v, b.Appends (step b i) v ∧ tells i v) (d : Disk)
    (requested : List ι) :
    Splits tells requested (requested.foldl step ⟨d, [], []⟩).done
      (requested.foldl step ⟨d, [], []⟩).errors
      (.ofCounts (requested.foldl step ⟨d, [], []⟩).done.length
        (requested.foldl step ⟨d, [], []⟩).errors.length) := by
  obtain ⟨items, hall⟩ := Lists.foldl hstep (b := ⟨d, [], []⟩) (Lists.nil tells) requested
  rw [List.nil_append] at hall
  exact ⟨⟨items, hall⟩, by rw [BatchSummary.ofCounts, hall.length_eq]⟩

end Appending

/-! ## 2. Exporting -/

/-- What an entry tells of a name: the block of this name was exported into a file of its own file's
name, or it was not; and that a block is missing is told if there is no block of this name. -/
def OfName (bs : List FoundBlock) (output : Path) (name : String) :
    Except ItemError ExportedBlock → Prop
  | .ok e => e.blockName = name ∧ ∃ b file, lead? bs name = some b ∧
      b.source.fileName? = some file ∧ e.filePath = (output.child file).text
  | .error e => e.item = name ∧ (lead? bs name = none → e.error = "Block not found")

/-- **One name more.**  The path of a block that was collected ends in a name, so there is an entry
in every case. -/
theorem exportOne_appends {dir output : Path} {bs : List FoundBlock}
    (hbs : ∀ found ∈ bs, found.IsOf dir) (b : Batch ExportedBlock) (name : String) :
    ∃ v, b.Appends (exportOne bs output b name) v ∧ OfName bs output name v := by
  generalize hone : exportOne bs output b name = b'
  cases exportOne_outcomes hone with
  | unknown => exact ⟨_, b.appends_error b.disk _, rfl, fun _ => rfl⟩
  | unnamed hlead hfile =>
    have hof := hbs _ (List.mem_of_find?_eq_some hlead)
    obtain ⟨file, hsome, -⟩ := Block.fileName_of_stem? hof.stem
    cases hfile.symm.trans hsome
  | failed hlead =>
    refine ⟨_, b.appends_error b.disk _, rfl, fun hnone => ?_⟩
    cases hnone.symm.trans hlead
  | copied hlead hfile => exact ⟨_, b.appends_ok _ _, rfl, _, _, hlead, hfile, rfl⟩

/-- The names that an export goes through: those that are given, or those of all blocks that were
collected. -/
structure Asks (names : Option (List String)) (bs : List FoundBlock) (requested : List String) :
    Prop where
  given : ∀ ns, names = some ns → ns ≠ [] → requested = ns
  all : names = none ∨ names = some [] → requested = bs.map (·.info.name)

theorem asks_wantedNames (names : Option (List String)) (bs : List FoundBlock) :
    Asks names bs (wantedNames names bs) where
  given := by
    rintro ns rfl hne
    obtain ⟨n, r, rfl⟩ := List.exists_cons_of_ne_nil hne
    rfl
  all := by rintro (rfl | rfl) <;> rfl

/-- A report of an export comes of the loop over the names. -/
theorem splits_of_export {w : Workspace} {d : Disk} {p : OpenProject}
    {names : Option (List String)} {output : Path} {report : ExportReport}
    (hp : w.project = some p) (h : (w.exportBlocks d names output).result = .ok report) :
    ∃ bs requested, d.blocks p.dir = .ok bs ∧ Asks names bs requested ∧
      Splits (OfName bs output) requested report.exported report.errors report.summary := by
  generalize ho : w.exportBlocks d names output = o at h
  cases exportBlocks_outcomes ho with
  | @done p' bs made b hp' hbs _ hb =>
    cases h
    cases hp.symm.trans hp'
    subst hb
    exact ⟨bs, _, hbs, asks_wantedNames names bs,
      splits_foldl (exportOne_appends fun _ hc => Disk.isOf_of_blocks hbs hc) made _⟩
  | _ => cases h

/-! ## 3. Importing -/

/-- What an entry tells of a file: it was imported as the block of its stem, or it was not. -/
def OfFile (folder : Option String) (file : Path) : Except ItemError ImportedBlock → Prop
  | .ok e => e.path = file.text ∧ Block.stem? file = some e.blockName ∧ e.folder = folder
  | .error e => e.item = file.text

/-- **One file more.** -/
theorem importOne_appends (dir : Path) (folder : Option String) (b : Batch ImportedBlock)
    (file : Path) : ∃ v, b.Appends (importOne dir folder b file) v ∧ OfFile folder file v := by
  rcases importOne_cases dir folder b file with ⟨disk, reason, -, hone⟩ |
    ⟨made, disk, stem, name, hstem, -, -, -, hone⟩
  · rw [hone]
    exact ⟨_, b.appends_error _ _, rfl⟩
  · rw [hone]
    exact ⟨_, b.appends_ok _ _, rfl, hstem, rfl⟩

/-- A report of an import comes of the loop over the files. -/
theorem splits_of_import {w : Workspace} {d : Disk} {files : List Path} {folder : Option String}
    {report : ImportReport} (h : (w.importBlocks d files folder).result = .ok report) :
    Splits (OfFile folder) files report.imported report.errors report.summary := by
  generalize ho : w.importBlocks d files folder = o at h
  cases importBlocks_outcomes ho with
  | done _ _ hb =>
    cases h
    subst hb
    exact splits_foldl (importOne_appends _ folder) d files
  | _ => cases h

/-! ## 4. Every report -/

/-- **Each report of an export or an import splits what was asked for**, whatever is asked for and
whatever fails. -/
theorem splits_of_open {w : Workspace} {d : Disk} {p : OpenProject} (hp : w.project = some p) :
    (∀ names output report, (w.exportBlocks d names output).result = .ok report →
      ∃ bs requested, d.blocks p.dir = .ok bs ∧ Asks names bs requested ∧
        Splits (OfName bs output) requested report.exported report.errors report.summary) ∧
    ∀ files folder report, (w.importBlocks d files folder).result = .ok report →
      Splits (OfFile folder) files report.imported report.errors report.summary :=
  ⟨fun _ _ _ h => splits_of_export hp h, fun _ _ _ h => splits_of_import h⟩

/-- A name is asked for twice with an unknown one in between, and a file with a missing one. -/
theorem splits_repeatedItems :
    plantOpen.project = some ⟨"Plant", ⟨[""]⟩, ⟨["Plant"]⟩, false⟩ ∧
    (plantOpen.exportBlocks (plantWith "Motor.scl" "Pump.xml") (some ["Pump", "Ghost", "Pump"])
      ⟨["out"]⟩).result = .ok ⟨"out", [⟨"Pump", "out/Pump.xml"⟩, ⟨"Pump", "out/Pump.xml"⟩],
        [⟨"Ghost", "Block not found"⟩], ⟨3, 2, 1⟩⟩ ∧
    (∃ bs requested, (plantWith "Motor.scl" "Pump.xml").blocks ⟨["Plant"]⟩ = .ok bs ∧
      Asks (some ["Pump", "Ghost", "Pump"]) bs requested ∧
      Splits (OfName bs ⟨["out"]⟩) requested [⟨"Pump", "out/Pump.xml"⟩, ⟨"Pump", "out/Pump.xml"⟩]
        [⟨"Ghost", "Block not found"⟩] ⟨3, 2, 1⟩) ∧
    (plantOpen.importBlocks (plantWith "Motor.scl" "Pump.xml")
      [⟨["C.xml"]⟩, ⟨["Plant", "A", "Motor.scl"]⟩] none).result =
      .ok ⟨[⟨"Plant/A/Motor.scl", "Motor", none⟩], [⟨"C.xml", "File not found"⟩], ⟨2, 1, 1⟩⟩ ∧
    Splits (OfFile none) [⟨["C.xml"]⟩, ⟨["Plant", "A", "Motor.scl"]⟩]
      [⟨"Plant/A/Motor.scl", "Motor", none⟩] [⟨"C.xml", "File not found"⟩] ⟨2, 1, 1⟩ := by
  have hp : plantOpen.project = some ⟨"Plant", ⟨[""]⟩, ⟨["Plant"]⟩, false⟩ := rfl
  obtain ⟨hexport, himport⟩ := splits_of_open (d := plantWith "Motor.scl" "Pump.xml") hp
  refine ⟨hp, rfl, hexport _ _ ⟨"out", _, _, _⟩ rfl, rfl, himport _ _ ⟨_, _, _⟩ rfl⟩

end Workspace
end Workbench
