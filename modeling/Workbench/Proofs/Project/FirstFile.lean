import Mathlib.Data.List.Sort
import Mathlib.Data.String.Basic
import Workbench.Proofs.Files.Home
import Workbench.Proofs.Project.Blocks
import Workbench.Proofs.Text.Words

/-!
# The first project file

A directory stands for the project whose file is found first below it.  The search looks at the
files of a directory in the order of their names and then goes through its directories in the order
of theirs, each with all that lies below it.  So the names that lead to the files decide which of
them is the first, and the order in which directories list their entries does not matter.

There is one gap.  The system does not tell that a path leads to a file if that path is too long.
So a project file with such a path is passed over without an error, though the directory that holds
it has been read.

* `Project.Precedes` is the order in which project files count, and `Project.IsFirst` the first of
  them;
* `Project.gives_searchIn` is the search in one directory, `Project.gives_findFile` that at all
  levels;
* `Project.findsFirst_of_find` is the whole statement for a directory in a sound tree;
* `Project.not_findsFirst_longName` is a project file whose path is too long.
-/

namespace Workbench

namespace Project

/-! ## 1. Names of project files -/

/-- The name of a project file: a stem, a dot, and an extension that begins with `ap` in any
case. -/
def IsFileName (file : String) : Prop :=
  ∃ stem extension, stem ≠ "" ∧ file = stem ++ "." ++ extension ∧ '.' ∉ extension.toList ∧
    ∃ a p rest, extension.toList = a :: p :: rest ∧ (a = 'a' ∨ a = 'A') ∧ (p = 'p' ∨ p = 'P')

/-- A character with a given letter as its lower case is that letter or its capital. -/
theorem toLower_eq_iff {c small capital : Char} (hsmall : small.toLower = small)
    (hcapital : capital.toLower = small) (hcase : capital.toNat + 32 = small.toNat) :
    c.toLower = small ↔ c = small ∨ c = capital := by
  constructor
  · intro h
    rcases Text.toNat_toLower c with hsame | ⟨-, -, hlower⟩
    · exact Or.inl (hsame.symm.trans h)
    · rw [h] at hlower
      exact Or.inr (Char.toNat_inj.mp (by omega))
  · rintro (rfl | rfl)
    · exact hsmall
    · exact hcapital

theorem begins_iff {extension : String} :
    ['a', 'p'].isPrefixOf (Text.asciiLower extension).toList = true ↔
      ∃ a p rest, extension.toList = a :: p :: rest ∧ (a = 'a' ∨ a = 'A') ∧
        (p = 'p' ∨ p = 'P') := by
  have hfirst : ∀ c : Char, c.toLower = 'a' ↔ c = 'a' ∨ c = 'A' := fun c =>
    toLower_eq_iff rfl rfl rfl
  have hsecond : ∀ c : Char, c.toLower = 'p' ↔ c = 'p' ∨ c = 'P' := fun c =>
    toLower_eq_iff rfl rfl rfl
  rw [Text.asciiLower, String.toList_ofList]
  constructor
  · intro h
    obtain ⟨rest, hrest⟩ := List.isPrefixOf_iff_prefix.mp h
    obtain ⟨a, behind, hchars, ha, hbehind⟩ := List.map_eq_cons_iff.mp hrest.symm
    obtain ⟨p, others, rfl, hp, -⟩ := List.map_eq_cons_iff.mp hbehind
    exact ⟨a, p, others, hchars, (hfirst a).mp ha, (hsecond p).mp hp⟩
  · rintro ⟨a, p, rest, hchars, ha, hp⟩
    rw [hchars, List.map_cons, List.map_cons, (hfirst a).mpr ha, (hsecond p).mpr hp]
    rfl

/-- **Which files are project files**, by their names. -/
theorem isProjectFile_iff {p : Path} {file : String} (h : p.fileName? = some file) :
    isProjectFile p = true ↔ IsFileName file := by
  unfold isProjectFile Path.extension?
  rw [h, Option.bind_some]
  constructor
  · intro hp
    split at hp
    · rename_i extension he
      obtain ⟨hstem, hfile, hdot⟩ := Path.splitName_eq_some.mp (Prod.ext rfl he)
      exact ⟨_, extension, hstem, hfile, hdot, begins_iff.mp hp⟩
    · cases hp
  · rintro ⟨stem, extension, hstem, hfile, hdot, hbegins⟩
    rw [Path.splitName_eq_some.mpr ⟨hstem, hfile, hdot⟩]
    exact begins_iff.mpr hbegins

/-! ## 2. The order -/

/-- The order in which files below a directory count, by the names that lead to them. -/
inductive Precedes : Key → Key → Prop where
  /-- Of two files of one directory, the one with the smaller name. -/
  | file {m n : String} (h : m < n) : Precedes [m] [n]
  /-- A file of a directory, in front of all that lies in directories there. -/
  | own (m n : String) {s : Key} (hs : s ≠ []) : Precedes [m] (n :: s)
  /-- What lies in the directory with the smaller name. -/
  | folder {m n : String} {r s : Key} (h : m < n) (hr : r ≠ []) (hs : s ≠ []) :
      Precedes (m :: r) (n :: s)
  /-- In one directory, the order is the one below it. -/
  | inside (n : String) {r s : Key} (h : Precedes r s) : Precedes (n :: r) (n :: s)

namespace Precedes

theorem ne_nil {r s : Key} (h : Precedes r s) : r ≠ [] ∧ s ≠ [] := by
  cases h <;> exact ⟨List.cons_ne_nil _ _, List.cons_ne_nil _ _⟩

/-- No two files count before each other. -/
theorem asymm {r s : Key} (h : Precedes r s) : ¬ Precedes s r := by
  induction h with
  | file h =>
    rintro (h' | ⟨_, _, hs⟩ | ⟨-, hr, -⟩ | ⟨_, h'⟩)
    · exact lt_asymm h h'
    · exact hs rfl
    · exact hr rfl
    · exact h'.ne_nil.1 rfl
  | own m n hs =>
    rintro (h' | ⟨_, _, hs'⟩ | ⟨-, -, hr⟩ | ⟨_, h'⟩)
    · exact hs rfl
    · exact hs' rfl
    · exact hr rfl
    · exact h'.ne_nil.2 rfl
  | folder h hr hs =>
    rintro (h' | ⟨_, _, -⟩ | ⟨h', -, -⟩ | ⟨_, -⟩)
    · exact hr rfl
    · exact hs rfl
    · exact lt_asymm h h'
    · exact lt_irrefl _ h
  | inside n h ih =>
    rintro (h' | ⟨_, _, -⟩ | ⟨h', -, -⟩ | ⟨_, h'⟩)
    · exact h.ne_nil.1 rfl
    · exact h.ne_nil.2 rfl
    · exact lt_irrefl _ h'
    · exact ih h'

end Precedes

/-- The first of the keys with a property: it has it, and it precedes all others. -/
structure IsFirst (P : Key → Prop) (names : Key) : Prop where
  mem : P names
  first : ∀ other, P other → other = names ∨ Precedes names other

theorem IsFirst.unique {P : Key → Prop} {names names' : Key} (h : IsFirst P names)
    (h' : IsFirst P names') : names = names' := by
  rcases h.first names' h'.mem with heq | hbefore
  · exact heq.symm
  · rcases h'.first names h.mem with heq | hbehind
    · exact heq
    · exact absurd hbehind hbefore.asymm

/-- **What a search gives** below a directory: nothing exactly if no key has the property, and
otherwise the path of the first that has it. -/
structure Gives (P : Key → Prop) (dir : Path) (found : Option Path) : Prop where
  none_iff : found = none ↔ ∀ names, ¬ P names
  first : ∀ file, found = some file →
    ∃ names, IsFirst P names ∧ file = names.foldl Path.child dir

namespace Gives

variable {P : Key → Prop} {dir : Path}

theorem nothing (h : ∀ names, ¬ P names) : Gives P dir none :=
  ⟨⟨fun _ => h, fun _ => rfl⟩, by rintro file ⟨⟩⟩

theorem found {names : Key} (h : IsFirst P names) :
    Gives P dir (some (names.foldl Path.child dir)) := by
  refine ⟨⟨?_, fun hnone => absurd h.mem (hnone names)⟩, ?_⟩
  · rintro ⟨⟩
  · rintro file ⟨⟩
    exact ⟨names, h, rfl⟩

/-- A search gives one thing only. -/
theorem unique {found found' : Option Path} (h : Gives P dir found) (h' : Gives P dir found') :
    found = found' := by
  match found, found' with
  | none, _ => exact (h'.none_iff.mpr (h.none_iff.mp rfl)).symm
  | some file, none => exact h.none_iff.mpr (h'.none_iff.mp rfl)
  | some file, some file' =>
    obtain ⟨names, hfirst, rfl⟩ := h.first file rfl
    obtain ⟨names', hfirst', rfl⟩ := h'.first file' rfl
    rw [hfirst.unique hfirst']

theorem congr {Q : Key → Prop} {found : Option Path} (h : Gives P dir found)
    (heq : ∀ names, P names ↔ Q names) : Gives Q dir found := by
  obtain rfl : P = Q := funext fun names => propext (heq names)
  exact h

end Gives

end Project

/-! ## 3. Files that are seen -/

namespace Disk

variable {d : Disk} {dir : Path} {key : Key}

/-- A project file lies below the directory of a key, where some names lead. -/
structure HasProjectFile (d : Disk) (key names : Key) : Prop where
  isFile : ∃ content, d.tree.get? (key ++ names) = some (.file content)
  named : ∃ file ∈ names.getLast?, Project.IsFileName file

/-- The search sees a project file: its path, by way of the directory, is not too long. -/
structure Sees (d : Disk) (dir : Path) (key names : Key) : Prop where
  file : d.HasProjectFile key names
  short : ¬ IsTooLong (names.foldl Path.child dir)

/-- A path is no longer than the path of a name behind it. -/
theorem IsTooLong.child {p : Path} (hp : p.isEmpty = false) (h : IsTooLong p) (name : String) :
    IsTooLong (p.child name) := by
  unfold IsTooLong at h ⊢
  rw [Path.child, Path.text_join hp (by simp [Path.isAbsolute_cons]) (List.cons_ne_nil name []),
    String.utf8ByteSize_append, String.utf8ByteSize_append]
  omega

theorem IsTooLong.foldl {p : Path} {names : Key} (hnames : ∀ n ∈ names, n ≠ "")
    (hp : p.isEmpty = false) (h : IsTooLong p) : IsTooLong (names.foldl Path.child p) := by
  induction names generalizing p with
  | nil => exact h
  | cons n names ih =>
    obtain ⟨hn, hnames⟩ := List.forall_mem_cons.mp hnames
    exact ih hnames (p.isEmpty_child hn) (h.child hp n)

/-- **What the path of an entry leads to**: to the entry, unless it is too long. -/
theorem entry?_child {name : String} (hdir : d.find dir = .ok key)
    (hget : d.tree.get? key = some .directory) (hpresent : d.tree.get? (key ++ [name]) ≠ none)
    (hname : Path.isStorable name = true) :
    d.entry? (dir.child name) =
      if IsTooLong (dir.child name) then none else d.tree.get? (key ++ [name]) := by
  obtain ⟨hfault, hsite⟩ := find_eq_ok.mp hdir
  have hchild := pathFault?_child hfault hname
  unfold entry?
  split
  · rename_i found hfind
    rw [if_neg (hchild.mp (find_eq_ok.mp hfind).1)]
    have hkey := find_child (Path.isEntryName_of_isStorable hname) hsite hget hpresent
      (find_eq_ok.mp hfind).1 (Path.size_of_isStorable hname)
    rw [Except.ok.inj (hfind.symm.trans hkey)]
  · rename_i f hfind
    rw [if_pos]
    refine Decidable.not_not.mp fun hshort => ?_
    have hkey := find_child (Path.isEntryName_of_isStorable hname) hsite hget hpresent
      (hchild.mpr hshort) (Path.size_of_isStorable hname)
    cases hfind.symm.trans hkey

theorem Sees.ne_nil {names : Key} (h : d.Sees dir key names) : names ≠ [] := by
  obtain ⟨-, file, hlast, -⟩ := h.file
  rintro rfl
  cases hlast

theorem Sees.present {name : String} {names : Key} (h : d.Sees dir key (name :: names)) :
    d.tree.get? (key ++ [name]) ≠ none := by
  obtain ⟨content, hfile⟩ := h.file.isFile
  intro hnone
  by_cases hnames : names = []
  · rw [hnames, hnone] at hfile
    cases hfile
  · rw [List.append_cons] at hfile
    have hdirectory := FileTree.isDirectory_of_append hnames (by rw [hfile]; rintro ⟨⟩)
    rw [hnone] at hdirectory
    cases hdirectory

theorem isStorable_of_present {name : String} (hs : d.tree.isSound = true)
    (hpresent : d.tree.get? (key ++ [name]) ≠ none) : Path.isStorable name = true :=
  FileTree.isStorable_of_get? hs hpresent name (by simp)

/-- The files of a directory that the search sees. -/
theorem sees_own {name : String} (hs : d.tree.isSound = true) (hdir : d.find dir = .ok key)
    (hget : d.tree.get? key = some .directory) (hpresent : d.tree.get? (key ++ [name]) ≠ none) :
    d.Sees dir key [name] ↔
      (d.isFile (dir.child name) && Project.isProjectFile (dir.child name)) = true := by
  have hname := isStorable_of_present hs hpresent
  have hnamed := Project.isProjectFile_iff
    (Path.fileName?_child dir (Path.isEntryName_of_isStorable hname))
  have hfile : d.isFile (dir.child name) = true ↔
      (∃ content, d.tree.get? (key ++ [name]) = some (.file content)) ∧
        ¬ IsTooLong (dir.child name) := by
    rw [isFile, entry?_child hdir hget hpresent hname]
    by_cases hlong : IsTooLong (dir.child name)
    · simp [hlong]
    · rw [if_neg hlong]
      cases d.tree.get? (key ++ [name]) with
      | none => simp [hlong]
      | some entry => cases entry <;> simp [hlong]
  rw [Bool.and_eq_true, hfile, hnamed]
  constructor
  · rintro ⟨⟨hisFile, file, hlast, hfileName⟩, hshort⟩
    cases hlast
    exact ⟨⟨hisFile, hshort⟩, hfileName⟩
  · rintro ⟨⟨hisFile, hshort⟩, hfileName⟩
    exact ⟨⟨hisFile, name, rfl, hfileName⟩, hshort⟩

/-- What it sees further down is behind a directory that it sees. -/
theorem sees_below {name : String} {names : Key} (hs : d.tree.isSound = true)
    (hdir : d.find dir = .ok key) (hget : d.tree.get? key = some .directory)
    (hpresent : d.tree.get? (key ++ [name]) ≠ none) (hne : names ≠ []) :
    d.Sees dir key (name :: names) ↔
      d.isDirectory (dir.child name) = true ∧ d.Sees (dir.child name) (key ++ [name]) names := by
  have hname := isStorable_of_present hs hpresent
  have hkey : key ++ name :: names = key ++ [name] ++ names := List.append_cons key name names
  have hlast : (name :: names).getLast? = names.getLast? := List.getLast?_cons_of_ne_nil hne
  rw [isDirectory_child hdir hget hname]
  constructor
  · rintro ⟨⟨⟨content, hfile⟩, hnamed⟩, hshort⟩
    rw [hlast] at hnamed
    have hreal : ∀ n ∈ names, n ≠ "" := by
      intro n hn
      refine (Path.isEntryName_of_isStorable
        (FileTree.isStorable_of_get? hs (by rw [hfile]; rintro ⟨⟩) n ?_)).1
      exact List.mem_append_right key (List.mem_cons_of_mem name hn)
    rw [hkey] at hfile
    refine ⟨⟨FileTree.isDirectory_of_append hne (by rw [hfile]; rintro ⟨⟩), fun hlong => ?_⟩,
      ⟨⟨content, hfile⟩, hnamed⟩, hshort⟩
    have hbehind : IsTooLong (names.foldl Path.child (dir.child name)) :=
      hlong.foldl hreal (dir.isEmpty_child (Path.isEntryName_of_isStorable hname).1)
    exact hshort hbehind
  · rintro ⟨-, ⟨⟨content, hfile⟩, hnamed⟩, hshort⟩
    rw [← hkey] at hfile
    rw [← hlast] at hnamed
    exact ⟨⟨⟨content, hfile⟩, hnamed⟩, hshort⟩

end Disk

namespace Project

/-! ## 4. The search -/

variable {d : Disk} {dir : Path} {key : Key}

/-- Nothing is found in a list exactly if nothing is found for any of its items. -/
theorem firstM_eq_none_iff {α β ε : Type} {f : α → Except ε (Option β)} {l : List α} :
    firstM f l = .ok none ↔ ∀ a ∈ l, f a = .ok none := by
  induction l with
  | nil => simp [firstM]
  | cons a r ih =>
    rw [firstM, List.forall_mem_cons, ← ih]
    cases f a with
    | error e => simp
    | ok b => cases b <;> simp

/-- What is found in a list is found for an item with nothing in front of it. -/
theorem firstM_eq_some_iff {α β ε : Type} {f : α → Except ε (Option β)} {l : List α} {b : β} :
    firstM f l = .ok (some b) ↔ ∃ before a after, l = before ++ a :: after ∧
      (∀ x ∈ before, f x = .ok none) ∧ f a = .ok (some b) := by
  induction l with
  | nil => simp [firstM]
  | cons a r ih =>
    constructor
    · intro h
      simp only [firstM] at h
      split at h
      · cases h
      · rename_i hfound
        cases h
        exact ⟨[], a, r, rfl, by simp, hfound⟩
      · rename_i hnone
        obtain ⟨before, x, after, rfl, hbefore, hx⟩ := ih.mp h
        exact ⟨a :: before, x, after, rfl, List.forall_mem_cons.mpr ⟨hnone, hbefore⟩, hx⟩
    · rintro ⟨before, x, after, hl, hbefore, hx⟩
      rcases List.cons_eq_append_iff.mp hl with ⟨rfl, hcons⟩ | ⟨before, rfl, rfl⟩
      · obtain ⟨rfl, -⟩ := List.cons.inj hcons
        simp only [firstM, hx]
      · obtain ⟨hnone, hbefore⟩ := List.forall_mem_cons.mp hbefore
        simp only [firstM, hnone]
        exact ih.mpr ⟨before, x, after, rfl, hbefore, hx⟩

/-- If the search fails for no item, it does not fail for the list. -/
theorem exists_firstM {α β ε : Type} {f : α → Except ε (Option β)} {l : List α}
    (h : ∀ a ∈ l, ∃ found, f a = .ok found) : ∃ found, firstM f l = .ok found := by
  induction l with
  | nil => exact ⟨none, rfl⟩
  | cons a r ih =>
    obtain ⟨⟨found, hfound⟩, hr⟩ := List.forall_mem_cons.mp h
    rw [firstM, hfound]
    cases found with
    | none => exact ih hr
    | some b => exact ⟨some b, rfl⟩

theorem firstM_map {α β γ ε : Type} (f : β → Except ε (Option γ)) (g : α → β) (l : List α) :
    firstM f (l.map g) = firstM (fun a => f (g a)) l := by
  induction l with
  | nil => rfl
  | cons a r ih =>
    rw [List.map_cons, firstM, firstM, ih]

theorem firstM_congr {α β ε : Type} {f g : α → Except ε (Option β)} {l : List α}
    (h : ∀ a ∈ l, f a = g a) : firstM f l = firstM g l := by
  induction l with
  | nil => rfl
  | cons a r ih =>
    obtain ⟨ha, hr⟩ := List.forall_mem_cons.mp h
    rw [firstM, firstM, ha, ih hr]

theorem sortNames_eq_insertionSort (ns : List String) :
    sortNames ns = ns.insertionSort (· ≤ ·) := by
  have hinsert : ∀ n, insertName n = List.orderedInsert (· ≤ ·) n := by
    intro n
    funext ns
    induction ns with
    | nil => rfl
    | cons m r ih => simp only [insertName, List.orderedInsert_cons, ih]
  unfold sortNames List.insertionSort
  simp only [funext hinsert]

/-- Different names are sorted strictly. -/
theorem pairwise_sortNames {ns : List String} (h : ns.Nodup) :
    (sortNames ns).Pairwise (· < ·) := by
  rw [sortNames_eq_insertionSort]
  have hsorted := List.pairwise_insertionSort (· ≤ ·) ns
  have hnodup := (List.perm_insertionSort (· ≤ ·) ns).nodup_iff.mpr h
  exact hsorted.imp₂ (fun _ _ hle hne => lt_of_le_of_ne hle hne) hnodup

/-- What is in a sorted list and not in front of an item is the item, or greater. -/
theorem cases_of_mem_sorted {before after : List String} {m n : String}
    (h : (before ++ n :: after).Pairwise (· < ·)) (hm : m ∈ before ++ n :: after) :
    m ∈ before ∨ m = n ∨ n < m := by
  rcases List.mem_append.mp hm with hm | hm
  · exact Or.inl hm
  · rcases List.mem_cons.mp hm with rfl | hm
    · exact Or.inr (Or.inl rfl)
    · exact Or.inr (Or.inr ((List.pairwise_cons.mp (List.pairwise_append.mp h).2.1).1 m hm))

/-- The search in one directory, with a search for those below it. -/
def searchIn (d : Disk) (search : Path → Except FileFault (Option Path)) (dir : Path) :
    Except FileFault (Option Path) :=
  match d.readDirectory dir with
  | .error f => .error f
  | .ok names =>
    let entries := (sortNames names).map dir.child
    match entries.find? fun p => d.isFile p && isProjectFile p with
    | some p => .ok (some p)
    | none => firstM search (entries.filter d.isDirectory)

theorem findFrom_succ (d : Disk) (levels : Nat) (dir : Path) :
    findFrom d (levels + 1) dir = searchIn d (findFrom d levels) dir := rfl

/-- The search in a directory, name by name. -/
theorem searchIn_eq {search : Path → Except FileFault (Option Path)}
    (h : d.isDirectory dir = true) :
    searchIn d search dir =
      match (sortNames (d.namesIn dir)).find? fun n =>
        d.isFile (dir.child n) && isProjectFile (dir.child n) with
      | some n => .ok (some (dir.child n))
      | none => firstM (fun n => search (dir.child n))
          ((sortNames (d.namesIn dir)).filter fun n => d.isDirectory (dir.child n)) := by
  rw [searchIn, Disk.readDirectory_of_isDirectory h]
  simp only [List.find?_map, List.filter_map, firstM_map, Function.comp_def]
  cases (sortNames (d.namesIn dir)).find? fun n =>
    d.isFile (dir.child n) && isProjectFile (dir.child n) <;> rfl

section Directory

-- a directory of a sound tree, with what it holds
variable {inside : FileTree} (hs : d.tree.isSound = true) (hdir : d.find dir = .ok key)
  (hnode : d.tree.node? key = some (.directory inside))
include hdir hnode

/-- The search goes through the names in the directory. -/
theorem mem_sortNames_namesIn {name : String} :
    name ∈ sortNames (d.namesIn dir) ↔ d.tree.get? (key ++ [name]) ≠ none := by
  rw [mem_sortNames, Disk.namesIn_of_find hdir hnode, FileTree.mem_listing_iff hnode]

/-- It goes on in those of the directories. -/
theorem mem_filter_isDirectory {name : String} :
    name ∈ (sortNames (d.namesIn dir)).filter (fun n => d.isDirectory (dir.child n)) ↔
      d.tree.get? (key ++ [name]) ≠ none ∧ d.isDirectory (dir.child name) = true := by
  rw [List.mem_filter, mem_sortNames_namesIn hdir hnode]

include hs

/-- These names are in strict order. -/
theorem pairwise_namesIn : (sortNames (d.namesIn dir)).Pairwise (· < ·) := by
  rw [Disk.namesIn_of_find hdir hnode]
  exact pairwise_sortNames (FileTree.nodup_listing (FileTree.isSound_node hs hnode))

/-- **A file of the directory** is the first one that is seen if none in front of it is. -/
theorem isFirst_own {before after : List String} {name : String}
    (hnames : sortNames (d.namesIn dir) = before ++ name :: after)
    (hsees : d.Sees dir key [name]) (hbefore : ∀ m ∈ before, ¬ d.Sees dir key [m]) :
    IsFirst (d.Sees dir key) [name] := by
  refine ⟨hsees, fun other hother => ?_⟩
  match other with
  | [] => exact absurd rfl hother.ne_nil
  | [m] =>
    have hm := (mem_sortNames_namesIn hdir hnode).mpr hother.present
    have hsorted := pairwise_namesIn hs hdir hnode
    rw [hnames] at hm hsorted
    rcases cases_of_mem_sorted hsorted hm with hm | rfl | hlt
    · exact absurd hother (hbefore m hm)
    · exact Or.inl rfl
    · exact Or.inr (.file hlt)
  | m :: n :: below => exact Or.inr (.own name m (List.cons_ne_nil n below))

/-- **A file further down** is the first one if the directory itself has none, none lies behind the
directories in front, and it is the first one behind its own. -/
theorem isFirst_inside {before after : List String} {name : String} {names : Key}
    (hnames : (sortNames (d.namesIn dir)).filter (fun n => d.isDirectory (dir.child n)) =
      before ++ name :: after)
    (hown : ∀ m, ¬ d.Sees dir key [m])
    (hbefore : ∀ m ∈ before, ∀ below, ¬ d.Sees (dir.child m) (key ++ [m]) below)
    (hfirst : IsFirst (d.Sees (dir.child name) (key ++ [name])) names) :
    IsFirst (d.Sees dir key) (name :: names) := by
  have hget := FileTree.get?_eq_directory.mpr ⟨inside, hnode⟩
  have hmem : ∀ {m}, m ∈ before ++ name :: after ↔
      d.tree.get? (key ++ [m]) ≠ none ∧ d.isDirectory (dir.child m) = true := by
    intro m
    rw [← hnames, mem_filter_isDirectory hdir hnode]
  have hsorted := (pairwise_namesIn hs hdir hnode).filter fun n => d.isDirectory (dir.child n)
  rw [hnames] at hsorted
  obtain ⟨hpresent, hdirectory⟩ := hmem.mp (List.mem_append_right before List.mem_cons_self)
  refine ⟨(Disk.sees_below hs hdir hget hpresent hfirst.mem.ne_nil).mpr ⟨hdirectory, hfirst.mem⟩,
    fun other hother => ?_⟩
  match other with
  | [] => exact absurd rfl hother.ne_nil
  | [m] => exact absurd hother (hown m)
  | m :: n :: below =>
    obtain ⟨hsub, hsees⟩ := (Disk.sees_below hs hdir hget hother.present
      (List.cons_ne_nil n below)).mp hother
    rcases cases_of_mem_sorted hsorted (hmem.mpr ⟨hother.present, hsub⟩) with hm | rfl | hlt
    · exact absurd hsees (hbefore m hm _)
    · rcases hfirst.first _ hsees with heq | hbehind
      · exact Or.inl (congrArg (m :: ·) heq)
      · exact Or.inr (hbehind.inside m)
    · exact Or.inr (.folder hlt hfirst.mem.ne_nil (List.cons_ne_nil n below))

/-- **The search in the directories** of a directory that has no project file itself gives the first
file that is seen, if the searches in them do. -/
theorem gives_firstM {search : Path → Except FileFault (Option Path)}
    (hsearch : ∀ name, d.tree.get? (key ++ [name]) ≠ none → d.isDirectory (dir.child name) = true →
      ∃ found, search (dir.child name) = .ok found ∧
        Gives (d.Sees (dir.child name) (key ++ [name])) (dir.child name) found)
    (hown : ∀ m, ¬ d.Sees dir key [m]) :
    ∃ found, firstM (fun n => search (dir.child n))
        ((sortNames (d.namesIn dir)).filter fun n => d.isDirectory (dir.child n)) = .ok found ∧
      Gives (d.Sees dir key) dir found := by
  have hget := FileTree.get?_eq_directory.mpr ⟨inside, hnode⟩
  have hgives : ∀ {m found}, d.tree.get? (key ++ [m]) ≠ none ∧ d.isDirectory (dir.child m) = true →
      search (dir.child m) = .ok found →
      Gives (d.Sees (dir.child m) (key ++ [m])) (dir.child m) found := by
    rintro m found ⟨hpresent, hsub⟩ hfound
    obtain ⟨found', hfound', hgives⟩ := hsearch m hpresent hsub
    cases hfound.symm.trans hfound'
    exact hgives
  obtain ⟨found, hfirst⟩ : ∃ found, firstM (fun n => search (dir.child n))
      ((sortNames (d.namesIn dir)).filter fun n => d.isDirectory (dir.child n)) = .ok found := by
    refine exists_firstM fun m hm => ?_
    obtain ⟨hpresent, hsub⟩ := (mem_filter_isDirectory hdir hnode).mp hm
    exact (hsearch m hpresent hsub).imp fun _ h => h.1
  refine ⟨found, hfirst, ?_⟩
  cases found with
  | none =>
    refine .nothing fun names hseen => ?_
    match names with
    | [] => exact hseen.ne_nil rfl
    | [m] => exact hown m hseen
    | m :: n :: below =>
      obtain ⟨hsub, hsees⟩ := (Disk.sees_below hs hdir hget hseen.present
        (List.cons_ne_nil n below)).mp hseen
      have hnone := firstM_eq_none_iff.mp hfirst m
        ((mem_filter_isDirectory hdir hnode).mpr ⟨hseen.present, hsub⟩)
      exact (hgives ⟨hseen.present, hsub⟩ hnone).none_iff.mp rfl _ hsees
  | some file =>
    obtain ⟨before, name, after, hnames, hbefore, hname⟩ := firstM_eq_some_iff.mp hfirst
    have hlisted : ∀ {m}, m ∈ before ++ name :: after →
        d.tree.get? (key ++ [m]) ≠ none ∧ d.isDirectory (dir.child m) = true :=
      fun hm => (mem_filter_isDirectory hdir hnode).mp (hnames ▸ hm)
    obtain ⟨names, hbelow, rfl⟩ := (hgives (hlisted (by simp)) hname).first file rfl
    have hfront : ∀ m ∈ before, ∀ names, ¬ d.Sees (dir.child m) (key ++ [m]) names := fun m hm =>
      (hgives (hlisted (List.mem_append_left _ hm)) (hbefore m hm)).none_iff.mp rfl
    exact .found (isFirst_inside hs hdir hnode hnames hown hfront hbelow)

/-- **The search in one directory** gives the first file that is seen, if the searches in the
directories there do. -/
theorem gives_searchIn {search : Path → Except FileFault (Option Path)}
    (hsearch : ∀ name, d.tree.get? (key ++ [name]) ≠ none → d.isDirectory (dir.child name) = true →
      ∃ found, search (dir.child name) = .ok found ∧
        Gives (d.Sees (dir.child name) (key ++ [name])) (dir.child name) found) :
    ∃ found, searchIn d search dir = .ok found ∧ Gives (d.Sees dir key) dir found := by
  have hget := FileTree.get?_eq_directory.mpr ⟨inside, hnode⟩
  rw [searchIn_eq (Disk.isDirectory_iff.mpr ⟨key, hdir, hget⟩)]
  cases hfind : (sortNames (d.namesIn dir)).find? fun n =>
      d.isFile (dir.child n) && isProjectFile (dir.child n) with
  | some name =>
    obtain ⟨hname, before, after, hnames, hbefore⟩ := List.find?_eq_some_iff_append.mp hfind
    have hpresent : ∀ {m}, m ∈ before ++ name :: after → d.tree.get? (key ++ [m]) ≠ none :=
      fun hm => (mem_sortNames_namesIn hdir hnode).mp (hnames ▸ hm)
    have hsees := (Disk.sees_own hs hdir hget (hpresent (by simp))).mpr hname
    refine ⟨_, rfl, .found (isFirst_own hs hdir hnode hnames hsees fun m hm hseen => ?_)⟩
    have hp := hpresent (List.mem_append_left _ hm)
    simpa [(Disk.sees_own hs hdir hget hp).mp hseen] using hbefore m hm
  | none =>
    refine gives_firstM hs hdir hnode hsearch fun m hseen => ?_
    have hp := hseen.present
    exact absurd ((Disk.sees_own hs hdir hget hp).mp hseen)
      (List.find?_eq_none.mp hfind m ((mem_sortNames_namesIn hdir hnode).mpr hp))

end Directory

/-- **The search at all levels**, by induction over them: there are more of them than the directory
is deep. -/
theorem gives_findFrom (hs : d.tree.isSound = true) {levels : Nat} (hdir : d.find dir = .ok key)
    {inside : FileTree} (hnode : d.tree.node? key = some (.directory inside))
    (hlevels : inside.depth < levels) :
    ∃ found, findFrom d levels dir = .ok found ∧ Gives (d.Sees dir key) dir found := by
  induction levels generalizing dir key inside with
  | zero => exact absurd hlevels (Nat.not_lt_zero _)
  | succ levels ih =>
    rw [findFrom_succ]
    refine gives_searchIn hs hdir hnode fun name hpresent hsub => ?_
    obtain ⟨below, hfind, hchild, hdepth⟩ := Disk.enter_child hs hdir hnode hpresent hsub
    exact ih hfind hchild (by omega)

/-- **The search** gives the first file that is seen. -/
theorem gives_findFile (hs : d.tree.isSound = true) (hdir : d.find dir = .ok key)
    (hget : d.tree.get? key = some .directory) :
    ∃ found, findFile d dir = .ok found ∧ Gives (d.Sees dir key) dir found := by
  obtain ⟨inside, hnode⟩ := FileTree.get?_eq_directory.mp hget
  have hdepth := FileTree.depth_node hnode
  rw [findFile]
  exact gives_findFrom hs hdir hnode (by omega)

/-- More levels than the directory is deep find nothing else. -/
theorem findFrom_eq (hs : d.tree.isSound = true) {levels : Nat} (hdir : d.find dir = .ok key)
    {inside : FileTree} (hnode : d.tree.node? key = some (.directory inside))
    (hlevels : inside.depth < levels) : findFrom d levels dir = findFile d dir := by
  obtain ⟨found, hfound, hgives⟩ := gives_findFrom hs hdir hnode hlevels
  obtain ⟨found', hfound', hgives'⟩ :=
    gives_findFile hs hdir (FileTree.get?_eq_directory.mpr ⟨inside, hnode⟩)
  rw [hfound, hfound', hgives.unique hgives']

/-! ## 5. The first project file -/

/-- **What the search for a project file comes to**, in a directory to which a key leads. -/
structure FindsFirst (d : Disk) (dir : Path) (key : Key) (found : Option Path) : Prop where
  /-- It gives the first of the project files whose path is not too long. -/
  seen : Gives (d.Sees dir key) dir found
  /-- This is the first of all project files, as long as none of them has too long a path. -/
  precise : (∀ names, d.HasProjectFile key names →
    ¬ Disk.IsTooLong (names.foldl Path.child dir)) → Gives (d.HasProjectFile key) dir found
  /-- It comes to an end: the search in the directory goes on with the search itself, on any number
  of levels. -/
  recursion : findFile d dir = searchIn d (findFile d) dir
  /-- The order in which directories list their entries does not matter. -/
  relisted : ∀ d', d.Relisted d' → findFile d' dir = .ok found

theorem findFile_eq_searchIn (hs : d.tree.isSound = true) (hdir : d.find dir = .ok key)
    (hget : d.tree.get? key = some .directory) :
    findFile d dir = searchIn d (findFile d) dir := by
  obtain ⟨inside, hnode⟩ := FileTree.get?_eq_directory.mp hget
  have hdepth := FileTree.depth_node hnode
  have hread := Disk.isDirectory_iff.mpr ⟨key, hdir, hget⟩
  rw [findFile, findFrom_succ, searchIn_eq hread, searchIn_eq hread]
  split
  · rfl
  · refine firstM_congr fun name hname => ?_
    obtain ⟨hpresent, hsub⟩ := (mem_filter_isDirectory hdir hnode).mp hname
    obtain ⟨below, hfind, hchild, hless⟩ := Disk.enter_child hs hdir hnode hpresent hsub
    exact findFrom_eq hs hfind hchild (by omega)

theorem relisted_sees {d' : Disk} (h : d.Relisted d') (names : Key) :
    d'.Sees dir key names ↔ d.Sees dir key names := by
  constructor
  · rintro ⟨⟨hfile, hnamed⟩, hshort⟩
    rw [h.get?] at hfile
    exact ⟨⟨hfile, hnamed⟩, hshort⟩
  · rintro ⟨⟨hfile, hnamed⟩, hshort⟩
    rw [← h.get?] at hfile
    exact ⟨⟨hfile, hnamed⟩, hshort⟩

/-- **The first project file below a directory** is found, and it decides by its names alone. -/
theorem findsFirst_of_find (hs : d.tree.isSound = true) (hdir : d.find dir = .ok key)
    (hget : d.tree.get? key = some .directory) :
    ∃ found, findFile d dir = .ok found ∧ FindsFirst d dir key found := by
  obtain ⟨found, hfound, hgives⟩ := gives_findFile hs hdir hget
  refine ⟨found, hfound, ?_⟩
  constructor
  case seen => exact hgives
  case precise =>
    exact fun hshort => hgives.congr fun names =>
      ⟨fun hsees => hsees.file, fun hfile => ⟨hfile, hshort names hfile⟩⟩
  case recursion => exact findFile_eq_searchIn hs hdir hget
  case relisted =>
    intro d' h
    obtain ⟨found', hfound', hgives'⟩ :=
      gives_findFile h.sound (h.grows.find hdir) ((h.get? key).trans hget)
    rw [hfound', (hgives'.congr (relisted_sees h)).unique hgives]

/-- A directory `store` that lists the project `Plant` in front of `Hall`, and in `Hall` a directory
with an old project in front of its own files. -/
def halls : Disk where
  tree := .directory "store"
    (.directory "Plant" (.file "Plant.ap18" "" .empty)
      (.directory "Hall"
        (.directory "A" (.file "Old.ap17" "" .empty) (.file "Hall.AP18" "" (.file ".ap" "" .empty)))
        .empty)) .empty
  cwd := []
  home := none

theorem findsFirst_halls :
    halls.tree.isSound = true ∧ halls.find ⟨["store"]⟩ = .ok ["store"] ∧
    halls.tree.get? ["store"] = some .directory ∧
    findFile halls ⟨["store"]⟩ = .ok (some ⟨["store", "Hall", "Hall.AP18"]⟩) ∧
    FindsFirst halls ⟨["store"]⟩ ["store"] (some ⟨["store", "Hall", "Hall.AP18"]⟩) := by
  have hs : halls.tree.isSound = true := by decide
  have hfound : findFile halls ⟨["store"]⟩ = .ok (some ⟨["store", "Hall", "Hall.AP18"]⟩) := rfl
  have hdir : halls.find ⟨["store"]⟩ = .ok ["store"] := rfl
  obtain ⟨found, hfind, hfirst⟩ := findsFirst_of_find hs hdir rfl
  cases hfound.symm.trans hfind
  exact ⟨hs, rfl, rfl, hfound, hfirst⟩

/-! ## 6. A path that is too long -/

/-- A directory `Plant` with nothing but a project file. -/
def bare : Disk where
  tree := .directory "Plant" (.file "Plant.ap18" "" .empty) .empty
  cwd := []
  home := none

/-- There is no directory in `Plant`. -/
theorem folder_bare {folder : Key} (h : bare.tree.get? (["Plant"] ++ folder) = some .directory) :
    folder = [] := by
  match folder with
  | [] => rfl
  | name :: below =>
    simp only [bare, List.cons_append, List.nil_append, FileTree.get?_cons] at h
    grind [FileTree.get?_cons, FileTree.child?]

/-- There is one file. -/
theorem file_bare {names : Key} {content : String}
    (h : bare.tree.get? (["Plant"] ++ names) = some (.file content)) : names = ["Plant.ap18"] := by
  match names with
  | [] => cases h
  | name :: below =>
    simp only [bare, List.cons_append, List.nil_append, FileTree.get?_cons] at h
    grind [FileTree.get?_cons, FileTree.child?]

/-- If its path is too long, no project file is found. -/
theorem findFile_bare {dir : Path} (hfind : bare.find dir = .ok ["Plant"])
    (hlong : Disk.IsTooLong (dir.child "Plant.ap18")) : findFile bare dir = .ok none := by
  have hs : bare.tree.isSound = true := by decide
  have hget : bare.tree.get? ["Plant"] = some .directory := rfl
  obtain ⟨found, hfound, hgives⟩ := gives_findFile hs hfind hget
  obtain rfl : found = none := by
    refine hgives.none_iff.mpr fun names hsees => ?_
    obtain ⟨content, hcontent⟩ := hsees.file.isFile
    obtain rfl := file_bare hcontent
    exact hsees.short hlong
  exact hfound

/-- **A project file whose path is too long** is passed over: `Plant` is asked for by a path of 4095
bytes, which can be read, and the path of the file in it is longer.  There is no other directory, so
all can be read, and yet no project file is found. -/
theorem not_findsFirst_longName :
    bare.tree.isSound = true ∧ bare.find (Disk.dotted 2045 ["Plant"]) = .ok ["Plant"] ∧
    bare.tree.get? ["Plant"] = some .directory ∧
    (∀ folder, bare.tree.get? (["Plant"] ++ folder) = some .directory →
      ∃ names, bare.readDirectory (folder.foldl Path.child (Disk.dotted 2045 ["Plant"])) =
        .ok names) ∧
    bare.HasProjectFile ["Plant"] ["Plant.ap18"] ∧
    findFile bare (Disk.dotted 2045 ["Plant"]) = .ok none ∧
    ¬ ∃ found, findFile bare (Disk.dotted 2045 ["Plant"]) = .ok found ∧
      Gives (bare.HasProjectFile ["Plant"]) (Disk.dotted 2045 ["Plant"]) found := by
  have hs : bare.tree.isSound = true := by decide
  have hget : bare.tree.get? ["Plant"] = some .directory := rfl
  have hsize := Disk.utf8ByteSize_dotted 2045 "Plant"
  have hfind : bare.find (Disk.dotted 2045 ["Plant"]) = .ok ["Plant"] := by
    refine Disk.find_dots rfl (by decide) rfl 2045 ?_
    rw [Disk.IsTooLong, hsize]
    decide
  have hlong : Disk.IsTooLong ((Disk.dotted 2045 ["Plant"]).child "Plant.ap18") := by
    rw [Disk.child_dotted _ (by decide), Disk.IsTooLong, hsize]
    decide
  have hfile : bare.HasProjectFile ["Plant"] ["Plant.ap18"] :=
    ⟨⟨"", rfl⟩, "Plant.ap18", rfl, "Plant", "ap18", by decide, by decide, by decide,
      'a', 'p', ['1', '8'], rfl, Or.inl rfl, Or.inl rfl⟩
  have hnone := findFile_bare hfind hlong
  refine ⟨hs, hfind, hget, fun folder hfolder => ?_, hfile, hnone, ?_⟩
  · obtain rfl := folder_bare hfolder
    exact ⟨_, Disk.readDirectory_of_isDirectory (Disk.isDirectory_iff.mpr ⟨_, hfind, hget⟩)⟩
  · rintro ⟨found, hfound, hgives⟩
    rw [hnone] at hfound
    cases hfound
    exact hgives.none_iff.mp rfl _ hfile

end Project
end Workbench
