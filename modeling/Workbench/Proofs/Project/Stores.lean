import Workbench.Proofs.Files.Parents
import Workbench.Proofs.Project.Locating

/-!
# The directory that holds a project

An open project is told by its path, by its name, and by the directory that holds it.  The three
belong together where the code takes the name from a path: the directory is above the path, and the
name is the last one of the path.  A name that the caller gives is taken as it stands, and may be
several names, two dots, or a path from the root.

* `ProjectInfo.InStore` says that the three belong together;
* `Project.cut_of_storeAndName` is a name that is taken from a path, and `Project.NamedBy` a name
  that is given;
* `Workspace.storesBy_of_openProject` says for every project that opens when the three belong
  together, and `Workspace.not_inStore_sibling` opens the neighbour of a directory by a name.
-/

namespace Workbench

/-- **A project lies in its store**: the store is the directory above the path of the project, and
the name of the project is the last one of its path, all compared by components. -/
def ProjectInfo.InStore (info : ProjectInfo) : Prop :=
  ∃ above last, (Path.ofString info.path).parent? = some above ∧
    above.components = (Path.ofString info.storePath).components ∧
    (Path.ofString info.path).components.getLast? = some (.name last) ∧
    (Path.ofString info.name).components = [.name last]

/-! ## 1. A name behind a directory -/

namespace Path

/-- The text is a single name, but for dots and slashes behind it that mean nothing. -/
def IsSingle (name : String) : Prop := ∃ last, (Path.ofString name).components = [.name last]

theorem isSingle_of_isProper {name : String} (h : isProper name = true) : IsSingle name := by
  obtain ⟨h₁, h₂, h₃⟩ := isEntryName_of_isProper h
  rw [IsSingle, ofString_of_isProper h]
  exact ⟨name, by rw [components_plain [] ⟨h₁, h₂⟩, bodyComponents_name ⟨h₁, h₂, h₃⟩]⟩

/-- A path of a single name is relative, and its segments hold that name and nothing else that
counts. -/
theorem relative_of_components {q : Path} {last : String} (h : q.components = [.name last]) :
    q.isAbsolute = false ∧ bodyComponents q.segments = [.name last] := by
  obtain ⟨segments⟩ := q
  cases segments with
  | nil => cases h
  | cons s rest =>
    rw [components_cons] at h
    split at h
    · cases h
    · rename_i hroot
      split at h
      · cases h
      · exact ⟨by rw [isAbsolute_cons]; simpa using hroot, h⟩

/-- **A single name behind a directory** is its last component, and the directory is above it. -/
theorem components_join_single {p q : Path} {last : String} (hne : q.segments ≠ [])
    (h : q.components = [.name last]) : (p.join q).components = p.components ++ [.name last] := by
  obtain ⟨habs, hbody⟩ := relative_of_components h
  cases hempty : p.isEmpty with
  | true =>
    rw [join, hempty, Bool.or_true, if_pos rfl, components_of_isEmpty hempty, h]
    rfl
  | false => rw [components_join hempty habs hne, hbody]

end Path

/-- **A project with a single name lies in its store.** -/
theorem ProjectInfo.inStore_of_isSingle {store : Path} {name : String} (hs : store.IsCut)
    (h : Path.IsSingle name) {info : ProjectInfo} (hname : info.name = name)
    (hstore : info.storePath = store.text)
    (hpath : info.path = (store.join (.ofString name)).text) : info.InStore := by
  obtain ⟨last, hlast⟩ := h
  have hcut := hs.join (Path.isCut_ofString name)
  have hcomponents :=
    Path.components_join_single (p := store) (Path.isCut_ofString name).nonempty hlast
  have hend : (store.join (.ofString name)).components.getLast? = some (.name last) := by
    rw [hcomponents, List.getLast?_concat]
  obtain ⟨above, habove⟩ := Path.parent?_of_fileName? (Path.fileName?_eq_some.mpr hend)
  refine ⟨above, last, ?_, ?_, ?_, by rw [hname, hlast]⟩
  · rw [hpath, Path.ofString_text hcut, habove]
  · rw [hstore, Path.ofString_text hs, Path.components_of_parent? habove, hcomponents,
      List.dropLast_concat]
  · rw [hpath, Path.ofString_text hcut, hend]

/-! ## 2. Where the two come from -/

namespace Project

/-- The caller gives a directory and a name in it, which is not all blank. -/
structure NamedBy (d : Disk) (path : Path) (given : Option String) (name : String) : Prop where
  directory : d.isFile path = false
  given : given = some name
  told : Text.allBlank name = false

/-- A directory that is taken apart gives a directory and a name in it. -/
theorem cut_of_storeAndName {dir shown store : Path} {name : String} (hdir : dir.IsCut)
    (h : storeAndName dir shown = .ok (store, name)) : store.IsCut ∧ Path.isProper name = true := by
  unfold storeAndName at h
  split at h
  · rename_i last hlast
    cases h
    refine ⟨?_, hdir.isProper_fileName hlast⟩
    obtain ⟨above, habove⟩ := Path.parent?_of_fileName? hlast
    rw [habove]
    exact hdir.parent? habove
  · cases h

/-- Names of entries behind a path leave it cut. -/
theorem isCut_foldl_child {front : List String} (hfront : ∀ n ∈ front, Path.isProper n = true)
    {p : Path} (hp : p.IsCut) : (front.foldl Path.child p).IsCut := by
  induction front generalizing p with
  | nil => exact hp
  | cons n front ih =>
    obtain ⟨hn, hfront⟩ := List.forall_mem_cons.mp hfront
    exact ih hfront (hp.child hn)

/-- The project file that is found has a path that is cut. -/
theorem isCut_of_findFile {d : Disk} {path file : Path} (hproper : d.tree.isProper = true)
    (hpath : path.IsCut) (h : findFile d path = .ok (some file)) : file.IsCut := by
  obtain ⟨front, name, hfound⟩ := foundBelow_of_findFrom hproper h
  rw [hfound.path]
  have hfront : ∀ n ∈ front, Path.isProper n = true := fun n hn => hfound.proper n (by simp [hn])
  exact (isCut_foldl_child hfront hpath).child (hfound.proper name (by simp))

/-- **What is located**: the directory that was given, with the name that was given; or a directory
and a name in it that come from a path. -/
theorem located {d : Disk} {path store : Path} {given : Option String} {name : String}
    (hproper : d.tree.isProper = true) (hpath : path.IsCut)
    (h : locate d path given = .ok (store, name)) :
    (NamedBy d path given name ∧ store = path) ∨
      (∀ n, ¬ NamedBy d path given n) ∧ store.IsCut ∧ Path.isProper name = true := by
  unfold locate at h
  split at h
  · cases h
  · split at h
    · rename_i hfile
      refine Or.inr ⟨fun n hn => absurd hfile (by rw [hn.directory]; decide), ?_⟩
      split at h
      · cases h
      · split at h
        · cases h
        · rename_i dir hdir
          exact cut_of_storeAndName (hpath.parent? hdir) h
    · rename_i hfile
      split at h
      · rename_i n hn
        cases h
        obtain ⟨hgiven, htold⟩ := Option.filter_eq_some_iff.mp hn
        exact Or.inl ⟨⟨by simpa using hfile, hgiven, by simpa using htold⟩, rfl⟩
      · rename_i hnone
        have hunnamed : ∀ n, ¬ NamedBy d path given n := by
          intro n hn
          rw [hn.given, Option.filter_some, hn.told] at hnone
          cases hnone
        refine Or.inr ⟨hunnamed, ?_⟩
        split at h
        · cases h
        · cases h
        · rename_i file hfound
          have hcut := isCut_of_findFile hproper hpath hfound
          have hdir : (file.parent?.getD path).IsCut := by
            cases habove : file.parent? with
            | none => exact hpath
            | some above => exact hcut.parent? habove
          dsimp only at h
          split at h
          · exact cut_of_storeAndName hpath h
          · split at h
            · rename_i last hlast
              cases h
              exact ⟨hpath, hdir.isProper_fileName hlast⟩
            · cases h

end Project

/-! ## 3. Opening -/

namespace Workspace

/-- **What opening does**: the project is located, its directory is there, and it is told with the
number of its blocks. -/
theorem openProject_ok {w : Workspace} {d : Disk} {path : Path} {given : Option String}
    {info : ProjectInfo} (h : (w.openProject d path given).result = .ok info) :
    ∃ store name count, Project.locate d path given = .ok (store, name) ∧
      d.isDirectory (store.join (.ofString name)) = true ∧
      info = ⟨name, store.text, (store.join (.ofString name)).text, false, count⟩ ∧
      (w.openProject d path given).workspace.project =
        some ⟨name, store, store.join (.ofString name), false⟩ := by
  generalize ho : w.openProject d path given = o at h ⊢
  cases openProject_outcomes ho with
  | opened _ hlocate hdir _ =>
    cases h
    exact ⟨_, _, _, hlocate, hdir, rfl, rfl⟩
  | _ => cases h

/-- An open project is told by the directory and the name by which it was located. -/
theorem located_of_openProject {w : Workspace} {d : Disk} {path : Path} {given : Option String}
    {info : ProjectInfo} (h : (w.openProject d path given).result = .ok info) :
    ∃ store name, Project.locate d path given = .ok (store, name) ∧ info.name = name ∧
      info.storePath = store.text ∧ info.path = (store.join (.ofString name)).text := by
  obtain ⟨store, name, count, hlocate, -, rfl, -⟩ := openProject_ok h
  exact ⟨store, name, hlocate, rfl, rfl, rfl⟩

/-- **How an open project is told**: `path` and perhaps a name were given. -/
structure StoresBy (d : Disk) (path : Path) (given : Option String) (info : ProjectInfo) :
    Prop where
  /-- Without a name to go by, it lies in its store. -/
  located : (∀ name, ¬ Project.NamedBy d path given name) → info.InStore
  /-- A name is put behind the directory that was given, and so it lies in its store exactly if that
  is a single name. -/
  named : ∀ name, Project.NamedBy d path given name →
    info.name = name ∧ info.storePath = path.text ∧
      info.path = (path.join (.ofString name)).text ∧ (info.InStore ↔ Path.IsSingle name)

/-- **Every project that opens** lies in its store, unless it was named by the caller with something
that is not a single name. -/
theorem storesBy_of_openProject {w : Workspace} {d : Disk} {path : Path} {given : Option String}
    {info : ProjectInfo} (hproper : d.tree.isProper = true) (hpath : path.IsCut)
    (h : (w.openProject d path given).result = .ok info) : StoresBy d path given info := by
  obtain ⟨store, name, hlocate, hname, hstore, hjoined⟩ := located_of_openProject h
  rcases Project.located hproper hpath hlocate with ⟨hnamed, rfl⟩ | ⟨hunnamed, hcut, hlast⟩
  · refine ⟨fun hnone => absurd hnamed (hnone name), fun n hn => ?_⟩
    obtain rfl : n = name := Option.some.inj (hn.given.symm.trans hnamed.given)
    refine ⟨hname, hstore, hjoined, ?_, fun hsingle =>
      ProjectInfo.inStore_of_isSingle hpath hsingle hname hstore hjoined⟩
    rintro ⟨-, last, -, -, -, hsingle⟩
    exact ⟨last, hname ▸ hsingle⟩
  · exact ⟨fun _ => ProjectInfo.inStore_of_isSingle hcut (Path.isSingle_of_isProper hlast) hname
      hstore hjoined, fun n hn => absurd hn (hunnamed n)⟩

/-- A directory `store` with the project `Plant` and an empty directory beside it. -/
def twoHalls : Disk :=
  storeOf (.directory "Plant" (.file "Plant.ap18" "" .empty) (.directory "Hall" .empty .empty))

/-- The project `Plant` by its file, and by its name in `store`. -/
theorem storesBy_plant :
    twoHalls.tree.isProper = true ∧ Path.IsCut ⟨["store"]⟩ ∧
    (empty.openProject twoHalls ⟨["store", "Plant", "Plant.ap18"]⟩ none).result =
      .ok ⟨"Plant", "store", "store/Plant", false, 0⟩ ∧
    StoresBy twoHalls ⟨["store", "Plant", "Plant.ap18"]⟩ none
      ⟨"Plant", "store", "store/Plant", false, 0⟩ ∧
    (empty.openProject twoHalls ⟨["store"]⟩ (some "Plant/")).result =
      .ok ⟨"Plant/", "store", "store/Plant/", false, 0⟩ ∧
    StoresBy twoHalls ⟨["store"]⟩ (some "Plant/") ⟨"Plant/", "store", "store/Plant/", false, 0⟩ ∧
    Project.NamedBy twoHalls ⟨["store"]⟩ (some "Plant/") "Plant/" ∧ Path.IsSingle "Plant/" := by
  have hstore : Path.IsCut ⟨["store"]⟩ := ⟨by decide, by decide⟩
  have hfile : Path.IsCut ⟨["store", "Plant", "Plant.ap18"]⟩ := ⟨by decide, by decide⟩
  exact ⟨rfl, hstore, rfl, storesBy_of_openProject (w := empty) rfl hfile rfl, rfl,
    storesBy_of_openProject (w := empty) rfl hstore rfl, ⟨rfl, rfl, rfl⟩, "Plant", rfl⟩

/-- **A name may lead to the neighbour of the directory that was given**: the store that is told
does not hold the project. -/
theorem not_inStore_sibling :
    (empty.openProject twoHalls ⟨["store", "Plant"]⟩ (some "../Hall")).result =
      .ok ⟨"../Hall", "store/Plant", "store/Plant/../Hall", false, 0⟩ ∧
    (Path.ofString "store/Plant/../Hall").parent? = some ⟨["store", "Plant", ".."]⟩ ∧
    ¬ ProjectInfo.InStore ⟨"../Hall", "store/Plant", "store/Plant/../Hall", false, 0⟩ := by
  have hparent : (Path.ofString "store/Plant/../Hall").parent? = some ⟨["store", "Plant", ".."]⟩ :=
    rfl
  refine ⟨rfl, hparent, ?_⟩
  rintro ⟨above, last, habove, hsame, -, -⟩
  rw [hparent] at habove
  cases habove
  exact absurd hsame (by decide)

end Workspace
end Workbench
