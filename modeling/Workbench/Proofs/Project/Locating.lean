import Workbench.Proofs.Files.Names
import Workbench.Proofs.Project.Listing
import Workbench.Proofs.Project.Outcomes

/-!
# Locating a project

A project is meant by its project file, or by a directory: then the first project file below that
directory decides.  Both ways name the same project only if the file lies in the directory, or one
directory further down: what is named by a directory is looked for in that directory.

* `Project.FoundBelow` is what the search finds;
* `Workspace.opens_iff` says when a project opens;
* `agrees_of_file` compares the two ways, and `not_sameProject_nested` is a project file two
  directories further down.
-/

namespace Workbench

/-! ## 1. The search -/

namespace Project

/-- A project file below a directory, by the names that lead there. -/
structure FoundBelow (d : Disk) (dir file : Path) (front : List String) (name : String) : Prop where
  path : file = (front.foldl Path.child dir).child name
  proper : ∀ n ∈ front ++ [name], Path.isProper n = true
  isFile : d.isFile file = true
  isProject : isProjectFile file = true

theorem mem_insertName {m n : String} {ns : List String} :
    m ∈ insertName n ns ↔ m = n ∨ m ∈ ns := by
  induction ns with
  | nil => simp [insertName]
  | cons a r ih =>
    simp only [insertName]
    split
    · simp
    · simp only [List.mem_cons, ih]
      exact or_left_comm

theorem mem_sortNames {m : String} {ns : List String} : m ∈ sortNames ns ↔ m ∈ ns :=
  mem_foldr_insert mem_insertName

/-- The first result is the result for one of the list. -/
theorem of_firstM {α β ε : Type} {f : α → Except ε (Option β)} {l : List α} {b : β}
    (h : firstM f l = .ok (some b)) : ∃ a ∈ l, f a = .ok (some b) := by
  induction l with
  | nil => cases h
  | cons a r ih =>
    simp only [firstM] at h
    split at h
    · cases h
    · rename_i hf
      cases h
      exact ⟨a, List.mem_cons_self, hf⟩
    · obtain ⟨c, hc, hfc⟩ := ih h
      exact ⟨c, List.mem_cons_of_mem a hc, hfc⟩

/-- **What the search finds** is a project file, and proper names lead there. -/
theorem foundBelow_of_findFrom {d : Disk} {levels : Nat} {dir file : Path}
    (hproper : d.tree.isProper = true) (h : findFrom d levels dir = .ok (some file)) :
    ∃ front name, FoundBelow d dir file front name := by
  induction levels generalizing dir with
  | zero => cases h
  | succ levels ih =>
    simp only [findFrom] at h
    split at h
    · cases h
    · rename_i names hnames
      have hentry : ∀ {p}, p ∈ (sortNames names).map dir.child →
          ∃ n, Path.isProper n = true ∧ p = dir.child n := by
        intro p hp
        obtain ⟨n, hn, rfl⟩ := List.mem_map.mp hp
        exact ⟨n, d.isProper_of_readDirectory hproper hnames (mem_sortNames.mp hn), rfl⟩
      split at h
      · rename_i found hfound
        cases h
        obtain ⟨n, hn, rfl⟩ := hentry (List.mem_of_find?_eq_some hfound)
        obtain ⟨hfile, hproject⟩ : d.isFile (dir.child n) = true ∧
            isProjectFile (dir.child n) = true := by simpa using List.find?_some hfound
        exact ⟨[], n, rfl, by simpa using hn, hfile, hproject⟩
      · obtain ⟨sub, hsub, hfound⟩ := of_firstM h
        obtain ⟨n, hn, rfl⟩ := hentry (List.mem_filter.mp hsub).1
        obtain ⟨front, name, hbelow⟩ := ih hfound
        refine ⟨n :: front, name, hbelow.path, fun m hm => ?_, hbelow.isFile, hbelow.isProject⟩
        rcases List.mem_cons.mp hm with rfl | hm
        · exact hn
        · exact hbelow.proper m hm

/-! ## 2. The two ways -/

section Locate

variable {d : Disk} {p q file : Path} {name : String}

theorem pathExists_of_isFile (h : d.isFile p = true) : d.pathExists p = true := by
  unfold Disk.isFile at h
  unfold Disk.pathExists
  split at h
  · rename_i content hentry
    simp [hentry]
  · cases h

/-- A path below which something is found is that of a directory. -/
theorem isDirectory_of_findFile {found : Option Path} (h : findFile d p = .ok found) :
    d.pathExists p = true ∧ d.isFile p = false := by
  obtain ⟨names, hnames⟩ : ∃ names, d.readDirectory p = .ok names := by
    simp only [findFile, findFrom] at h
    split at h
    · cases h
    · exact ⟨_, by assumption⟩
  have hentry : d.entry? p = some .directory := by
    simpa [Disk.isDirectory] using Disk.isDirectory_of_readDirectory hnames
  exact ⟨by simp [Disk.pathExists, hentry], by simp [Disk.isFile, hentry]⟩

/-- What ends alike has the same last name. -/
theorem fileName?_trimmed (q : Path) : q.trimmed.fileName? = q.fileName? := by
  unfold Path.fileName?
  rw [Path.components_trimmed]

/-- The directory of a file decides its project. -/
theorem storeAndName_trimmed (q shown : Path) {m : String} {above : Path}
    (hm : q.fileName? = some m) (ha : q.parent? = some above) :
    storeAndName q.trimmed shown = .ok (above, m) := by
  simp [storeAndName, fileName?_trimmed, Path.parent?_trimmed, hm, ha]

/-- **By its file**, a project is named by the directory of the file, and held by what is above. -/
theorem locate_of_file (hn : Path.IsEntryName name) (hfile : d.isFile (q.child name) = true)
    (hproject : isProjectFile (q.child name) = true) :
    locate d (q.child name) none = storeAndName q.trimmed (q.child name) := by
  simp [locate, pathExists_of_isFile hfile, hfile, hproject, q.parent?_child hn]

/-- **By a directory**, it is named by the directory of the file that is found, and held by the
directory that was named, unless the two are the same. -/
theorem locate_of_directory {given : Option String} (hn : Path.IsEntryName name)
    (hblank : given.filter (fun n => !Text.allBlank n) = none)
    (hfind : findFile d p = .ok (some (q.child name))) :
    locate d p given =
      if q.trimmed.sameAs p then storeAndName p p
      else
        match q.fileName? with
        | some m => .ok (p, m)
        | none => .error (named q.trimmed) := by
  obtain ⟨hexists, hfile⟩ := isDirectory_of_findFile hfind
  cases hm : q.fileName? <;>
    simp [locate, hexists, hfile, hblank, hfind, q.parent?_child hn, fileName?_trimmed, hm]

end Locate

end Project

/-! ## 3. Opening -/

namespace Workspace

/-- A workspace without a project opens one by a path and perhaps a name. -/
def Opens (d : Disk) (path : Path) (name : Option String) (p : OpenProject) : Prop :=
  ∃ info, empty.openProject d path name = ⟨d, ⟨some p⟩, .ok info⟩

/-- **When a project opens**: it is located, and its blocks can be listed. -/
theorem opens_iff {d : Disk} {path : Path} {name : Option String} {p : OpenProject} :
    Opens d path name p ↔ ∃ store m, Project.locate d path name = .ok (store, m) ∧
      p = ⟨m, store, store.join (.ofString m), false⟩ ∧ d.isDirectory p.dir = true ∧
      ∃ bs, d.blocks p.dir = .ok bs := by
  constructor
  · rintro ⟨info, h⟩
    cases openProject_outcomes h with
    | opened _ hlocate hdir hbs => exact ⟨_, _, hlocate, rfl, hdir, _, hbs⟩
  · rintro ⟨store, m, hlocate, rfl, hdir, bs, hbs⟩
    refine ⟨⟨m, store.text, (store.join (.ofString m)).text, false, bs.length⟩, ?_⟩
    simp only at hdir hbs
    simp [openProject, empty, hlocate, hdir, infoFor, projectBlocks, hbs]

/-- The two are one project: one name and one directory, compared by components. -/
structure SameProject (p p' : OpenProject) : Prop where
  name : p.name = p'.name
  dir : p.dir.components = p'.dir.components

/-- The file lies in the directory, or in one that lies in it. -/
def LiesClose (p file : Path) : Prop := file.components.length ≤ p.components.length + 2

instance (p file : Path) : Decidable (LiesClose p file) := inferInstanceAs (Decidable (_ ≤ _))

/-- **How a directory and the project file that is found below it compare**: `opened` is the project
that the file opens. -/
structure Agrees (d : Disk) (p file : Path) (given : Option String) (opened : OpenProject) :
    Prop where
  /-- A file that lies close names the same project. -/
  located : LiesClose p file → ∃ store, Project.locate d p given = .ok (store, opened.name) ∧
    (store.join (.ofString opened.name)).components = opened.dir.components
  /-- It opens as well; more slashes than one behind the directory can make a path too long. -/
  opens : LiesClose p file → p.IsTidy → ∃ p', Opens d p given p' ∧ SameProject p' opened
  /-- A file that lies further down never does. -/
  close : (∃ p', Opens d p given p' ∧ SameProject p' opened) → LiesClose p file

theorem components_foldl_child {front : List String} (h : ∀ n ∈ front, Path.IsEntryName n)
    (p : Path) : (front.foldl Path.child p).components = p.components ++ front.map .name := by
  induction front generalizing p with
  | nil => simp
  | cons n front ih =>
    rw [List.foldl_cons, ih (fun m hm => h m (List.mem_cons_of_mem n hm)),
      Path.components_child p (h n List.mem_cons_self)]
    simp

/-- The search has found the file in the directory itself: the two ways are one. -/
theorem agrees_of_direct {d : Disk} {p : Path} {name : String} {given : Option String}
    {opened : OpenProject} (hfound : Project.FoundBelow d p (p.child name) [] name)
    (hblank : given.filter (fun n => !Text.allBlank n) = none)
    (hfind : Project.findFile d p = .ok (some (p.child name)))
    (hopen : Opens d (p.child name) none opened) : Agrees d p (p.child name) given opened := by
  have hn : Path.IsEntryName name := Path.isEntryName_of_isProper (hfound.proper name (by simp))
  obtain ⟨store, m, hlocate, rfl, hdir, hblocks⟩ := opens_iff.mp hopen
  rw [Project.locate_of_file hn hfound.isFile hfound.isProject] at hlocate
  have hsame : Project.locate d p given = .ok (store, m) := by
    rw [Project.locate_of_directory hn hblank hfind,
      if_pos (by simp [Path.sameAs, Path.components_trimmed])]
    cases hm : p.fileName? with
    | none =>
      simp [Project.storeAndName, Project.fileName?_trimmed, hm] at hlocate
    | some last =>
      obtain ⟨above, ha⟩ := Path.parent?_of_fileName? hm
      rw [Project.storeAndName_trimmed p _ hm ha] at hlocate
      simpa [Project.storeAndName, hm, ha] using hlocate
  refine ⟨fun _ => ⟨store, hsame, rfl⟩, fun _ _ => ?_, fun _ => ?_⟩
  · exact ⟨_, opens_iff.mpr ⟨store, m, hsame, rfl, hdir, hblocks⟩, rfl, rfl⟩
  · simp [LiesClose, Path.components_child p hn]

/-- A file opens the project of its directory. -/
theorem opened_of_file {d : Disk} {q : Path} {last name : String} {opened : OpenProject}
    (hlast : Path.isProper last = true) (hn : Path.IsEntryName name)
    (hfile : d.isFile ((q.child last).child name) = true)
    (hproject : Project.isProjectFile ((q.child last).child name) = true)
    (hopen : Opens d ((q.child last).child name) none opened) :
    opened = ⟨last, q.trimmed, q.trimmed.child last, false⟩ ∧
      d.isDirectory (q.trimmed.child last) = true ∧
      ∃ bs, d.blocks (q.trimmed.child last) = .ok bs := by
  have hl : Path.IsEntryName last := Path.isEntryName_of_isProper hlast
  obtain ⟨store, m, hlocate, rfl, hdir, hblocks⟩ := opens_iff.mp hopen
  rw [Project.locate_of_file hn hfile hproject,
    Project.storeAndName_trimmed _ _ (q.fileName?_child hl) (q.parent?_child hl)] at hlocate
  cases hlocate
  simp only [Path.join_ofString hlast] at hdir hblocks ⊢
  exact ⟨trivial, hdir, hblocks⟩

/-- The search has found the file further down: the directory that was named is taken for the one
that holds the project. -/
theorem agrees_of_nested {d : Disk} {p file : Path} {front : List String} {last name : String}
    {given : Option String} {opened : OpenProject}
    (hfound : Project.FoundBelow d p file (front ++ [last]) name)
    (hblank : given.filter (fun n => !Text.allBlank n) = none)
    (hfind : Project.findFile d p = .ok (some file))
    (hopen : Opens d file none opened) : Agrees d p file given opened := by
  have hn : Path.IsEntryName name := Path.isEntryName_of_isProper (hfound.proper name (by simp))
  have hlast := hfound.proper last (by simp)
  have hl : Path.IsEntryName last := Path.isEntryName_of_isProper hlast
  have hfront : ∀ n ∈ front, Path.IsEntryName n := fun n hn =>
    Path.isEntryName_of_isProper (hfound.proper n (by simp [hn]))
  -- `q` holds the directory of the file, so it is `p` itself only if nothing is in front
  obtain ⟨q, hq⟩ : ∃ q, front.foldl Path.child p = q := ⟨_, rfl⟩
  have hcomponents := components_foldl_child hfront p
  rw [hq] at hcomponents
  obtain rfl : file = (q.child last).child name := by
    simpa [hq] using hfound.path
  obtain ⟨rfl, hdir, hblocks⟩ :=
    opened_of_file hlast hn hfound.isFile hfound.isProject hopen
  have hlocate : Project.locate d p given = .ok (p, last) := by
    have hfurther : (q.child last).trimmed.sameAs p = false := by
      rw [Path.sameAs, Path.components_trimmed, Path.components_child q hl, hcomponents]
      simp
    rw [Project.locate_of_directory hn hblank hfind, if_neg (by simp [hfurther]),
      q.fileName?_child hl]
  have hsame : (p.child last).components = (q.trimmed.child last).components ↔ front = [] := by
    rw [Path.components_child p hl, Path.components_child _ hl, Path.components_trimmed,
      hcomponents]
    simp
  have hclose : LiesClose p ((q.child last).child name) ↔ front = [] := by
    rw [LiesClose, Path.components_child _ hn, Path.components_child q hl, hcomponents]
    simp
  constructor
  case located =>
    intro hc
    exact ⟨p, hlocate, by simpa [Path.join_ofString hlast] using hsame.mpr (hclose.mp hc)⟩
  case opens =>
    intro hc htidy
    obtain rfl := hclose.mp hc
    obtain rfl : p = q := hq
    rw [htidy.child_trimmed, ← Path.join_ofString hlast] at hdir hblocks
    refine ⟨_, opens_iff.mpr ⟨p, last, hlocate, rfl, hdir, hblocks⟩, rfl, ?_⟩
    simpa [Path.join_ofString hlast] using hsame.mpr rfl
  case close =>
    rintro ⟨p', hopens, hproject⟩
    obtain ⟨store, m, hlocate', rfl, -, -⟩ := opens_iff.mp hopens
    rw [hlocate] at hlocate'
    cases hlocate'
    exact hclose.mpr (hsame.mp (by simpa [Path.join_ofString hlast] using hproject.dir))

/-- **A directory and its project file** agree as long as the file lies close. -/
theorem agrees_of_file {d : Disk} {p file : Path} {given : Option String} {opened : OpenProject}
    (hproper : d.tree.isProper = true)
    (hblank : given.filter (fun n => !Text.allBlank n) = none)
    (hfind : Project.findFile d p = .ok (some file)) (hopen : Opens d file none opened) :
    Agrees d p file given opened := by
  obtain ⟨front, name, hfound⟩ := Project.foundBelow_of_findFrom hproper hfind
  rcases List.eq_nil_or_concat front with rfl | ⟨front, last, rfl⟩
  · obtain rfl : file = p.child name := hfound.path
    exact agrees_of_direct hfound hblank hfind hopen
  · rw [List.concat_eq_append] at hfound
    exact agrees_of_nested hfound hblank hfind hopen

/-- A directory `store`, and what it holds. -/
def storeOf (inside : FileTree) : Disk where
  tree := .directory "store" inside .empty
  cwd := []
  home := none

/-- The project `Plant` with one block. -/
def plantTree : FileTree :=
  .directory "Plant" (.file "Plant.ap18" "" (.file "Main.xml" "<ob/>" .empty)) .empty

theorem agrees_plantInStore :
    Opens (storeOf plantTree) ⟨["store", "Plant", "Plant.ap18"]⟩ none
      ⟨"Plant", ⟨["store"]⟩, ⟨["store", "Plant"]⟩, false⟩ ∧
    Agrees (storeOf plantTree) ⟨["store"]⟩ ⟨["store", "Plant", "Plant.ap18"]⟩ (some " ")
      ⟨"Plant", ⟨["store"]⟩, ⟨["store", "Plant"]⟩, false⟩ ∧
    LiesClose ⟨["store"]⟩ ⟨["store", "Plant", "Plant.ap18"]⟩ :=
  ⟨⟨_, rfl⟩, agrees_of_file rfl rfl rfl ⟨_, rfl⟩, by decide⟩

/-- **A project file two directories further down** is found, and its project opens by the file; by
the directory `store`, the project is looked for in `store` itself. -/
theorem not_sameProject_nested :
    (storeOf (.directory "hall" plantTree .empty)).tree.isProper = true ∧
    Project.findFile (storeOf (.directory "hall" plantTree .empty)) ⟨["store"]⟩ =
      .ok (some ⟨["store", "hall", "Plant", "Plant.ap18"]⟩) ∧
    Opens (storeOf (.directory "hall" plantTree .empty))
      ⟨["store", "hall", "Plant", "Plant.ap18"]⟩ none
      ⟨"Plant", ⟨["store", "hall"]⟩, ⟨["store", "hall", "Plant"]⟩, false⟩ ∧
    (empty.openProject (storeOf (.directory "hall" plantTree .empty)) ⟨["store"]⟩ none).result =
      .error (.projectNotFound "store/Plant") ∧
    ¬ ∃ p, Opens (storeOf (.directory "hall" plantTree .empty)) ⟨["store"]⟩ none p := by
  refine ⟨rfl, rfl, ⟨_, rfl⟩, rfl, ?_⟩
  rintro ⟨p, info, h⟩
  cases congrArg Outcome.result h

end Workspace
end Workbench
