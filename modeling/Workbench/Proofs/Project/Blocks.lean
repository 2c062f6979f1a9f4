import Mathlib.Data.List.Sort
import Mathlib.Data.Prod.Lex
import Mathlib.Data.String.Basic
import Workbench.Proofs.Files.Entries
import Workbench.Proofs.Project.Locating
import Workbench.Proofs.Project.Scanning

/-!
# The list of blocks

A listing of a project has each file below its directory that bears the name of a block, and none
that is passed over.  It has it once, in the order of folders and names, and no order in which the
directories list their entries can change more than the order of blocks that are equal in both.

There is one gap.  The scan takes an entry for a file when the system does not tell that it is a
directory, and the system tells nothing of a path that is too long.  So a directory with such a path
is left out without an error, with all that lies below it.

* `Disk.TakesForFile` are the entries that the scan takes for files, and `Disk.mem_found` says that
  it finds the blocks among them;
* `Disk.listsBlocks_of_find` is the whole statement for a directory in a sound tree;
* `Disk.not_precise_longWay` is a directory whose path is too long.
-/

namespace Workbench

/-! ## 1. Files that are blocks -/

namespace FoundBlock

/-- **The block is a file below a directory**: by the names that lead to the folder of the file, and
the name of the file. -/
structure IsFile (dir : Path) (folder : List String) (file : String) (b : FoundBlock) : Prop where
  source : b.source = (folder.foldl Path.child dir).child file
  folder : b.info.path = String.intercalate "/" folder
  named : Block.IsNamed file b.info.name
  kind : b.info.blockType = Block.kind b.info.name b.source

/-- A name of a block makes a file that block. -/
theorem isFile_of_isNamed (dir : Path) (folder : List String) {file stem : String}
    (h : Block.IsNamed file stem) :
    IsFile dir folder file ⟨⟨stem, Block.kind stem ((folder.foldl Path.child dir).child file),
      String.intercalate "/" folder⟩, (folder.foldl Path.child dir).child file⟩ := by
  constructor
  case named => exact h
  all_goals dsimp only

theorem ofFile?_eq_some {dir : Path} {folder : List String} {file : String} {b : FoundBlock}
    (h : Path.IsEntryName file) :
    ofFile? folder ((folder.foldl Path.child dir).child file) = some b ↔
      b.IsFile dir folder file := by
  unfold ofFile?
  rw [Option.map_eq_some_iff]
  constructor
  · rintro ⟨stem, hstem, rfl⟩
    exact isFile_of_isNamed dir folder ((Block.stem?_eq_some (Path.fileName?_child _ h)).mp hstem)
  · rintro ⟨hsource, hfolder, hnamed, hkind⟩
    obtain ⟨⟨name, kind, folder'⟩, source⟩ := b
    simp only at hsource hfolder hnamed hkind
    subst hsource hfolder hkind
    exact ⟨name, (Block.stem?_eq_some (Path.fileName?_child _ h)).mpr hnamed, rfl⟩

end FoundBlock

namespace Disk

variable {d d' : Disk} {dir : Path} {key : Key}

/-! ## 2. What the scan takes for files -/

/-- The scan goes down from a directory: no name on the way is passed over, each is that of a
directory, and no path is too long. -/
def Enters (d : Disk) : Path → Key → List String → Prop
  | _, _, [] => True
  | dir, key, name :: names =>
    Block.isHidden name = false ∧ d.tree.get? (key ++ [name]) = some .directory ∧
      ¬ IsTooLong (dir.child name) ∧ d.Enters (dir.child name) (key ++ [name]) names

/-- **The scan takes an entry for a file**: it is one, or a directory whose path is too long. -/
structure TakesForFile (d : Disk) (dir : Path) (key : Key) (folder : List String) (file : String) :
    Prop where
  enters : d.Enters dir key folder
  visible : Block.isHidden file = false
  present : d.tree.get? (key ++ folder ++ [file]) ≠ none
  directory : d.tree.get? (key ++ folder ++ [file]) = some .directory →
    IsTooLong ((folder.foldl Path.child dir).child file)

theorem takesForFile_cons {name : String} {folder : List String} {file : String} :
    d.TakesForFile dir key (name :: folder) file ↔
      Block.isHidden name = false ∧ d.tree.get? (key ++ [name]) = some .directory ∧
        ¬ IsTooLong (dir.child name) ∧
        d.TakesForFile (dir.child name) (key ++ [name]) folder file := by
  have hkey : key ++ name :: folder ++ [file] = key ++ [name] ++ folder ++ [file] := by simp
  constructor
  · rintro ⟨⟨hvisible, hget, hshort, henters⟩, hfile, hpresent, hdirectory⟩
    rw [hkey] at hpresent hdirectory
    exact ⟨hvisible, hget, hshort, henters, hfile, hpresent, hdirectory⟩
  · rintro ⟨hvisible, hget, hshort, henters, hfile, hpresent, hdirectory⟩
    rw [← hkey] at hpresent hdirectory
    exact ⟨⟨hvisible, hget, hshort, henters⟩, hfile, hpresent, hdirectory⟩

theorem TakesForFile.isEntryName (hs : d.tree.isSound = true) {folder : List String} {file : String}
    (h : d.TakesForFile dir key folder file) :
    ∀ name ∈ folder ++ [file], Path.IsEntryName name := by
  intro name hname
  refine Path.isEntryName_of_isStorable (FileTree.isStorable_of_get? hs h.present name ?_)
  rw [List.append_assoc]
  exact List.mem_append_right key hname

/-- The names that the scan goes through. -/
theorem mem_visible (hdir : d.find dir = .ok key) {inside : FileTree}
    (hnode : d.tree.node? key = some (.directory inside)) {name : String} :
    name ∈ d.visible dir ↔
      Block.isHidden name = false ∧ d.tree.get? (key ++ [name]) ≠ none := by
  rw [visible, namesIn_of_find hdir hnode, List.mem_filter, FileTree.mem_listing_iff hnode]
  simp [and_comm]

/-- What stands behind a name is a directory that the scan enters, if it is seen as one. -/
theorem enter_child (hs : d.tree.isSound = true) (hdir : d.find dir = .ok key) {inside : FileTree}
    (hnode : d.tree.node? key = some (.directory inside)) {name : String}
    (hpresent : d.tree.get? (key ++ [name]) ≠ none) (hsub : d.isDirectory (dir.child name) = true) :
    ∃ below, d.find (dir.child name) = .ok (key ++ [name]) ∧
      d.tree.node? (key ++ [name]) = some (.directory below) ∧ below.depth < inside.depth := by
  have hname := FileTree.isStorable_of_get? hs hpresent name (by simp)
  have hget := FileTree.get?_eq_directory.mpr ⟨inside, hnode⟩
  obtain ⟨below, hchild⟩ := FileTree.get?_eq_directory.mp
    ((isDirectory_child hdir hget hname).mp hsub).1
  refine ⟨below, find_of_isDirectory_child hdir hname hsub, hchild, ?_⟩
  rw [FileTree.node?_concat, hnode] at hchild
  exact FileTree.depth_child hchild

/-- **What the scan finds** are the blocks among the entries that it takes for files, if it has
levels enough.  By induction over the levels; in each directory, the entries are those that it
enters and those that it takes for files. -/
theorem mem_found (hs : d.tree.isSound = true) {levels : Nat} {above : List String}
    (hdir : d.find dir = .ok key) {inside : FileTree}
    (hnode : d.tree.node? key = some (.directory inside)) (hlevels : inside.depth < levels)
    {b : FoundBlock} :
    b ∈ d.found levels above dir ↔ ∃ folder file, d.TakesForFile dir key folder file ∧
      FoundBlock.ofFile? (above ++ folder) ((folder.foldl Path.child dir).child file) = some b := by
  induction levels generalizing above dir key inside with
  | zero => exact absurd hlevels (Nat.not_lt_zero _)
  | succ levels ih =>
    have hget := FileTree.get?_eq_directory.mpr ⟨inside, hnode⟩
    have hseen : ∀ {name}, d.tree.get? (key ++ [name]) ≠ none →
        (d.isDirectory (dir.child name) = true ↔
          d.tree.get? (key ++ [name]) = some .directory ∧ ¬ IsTooLong (dir.child name)) :=
      fun hpresent => isDirectory_child hdir hget
        (FileTree.isStorable_of_get? hs hpresent _ (by simp))
    have hbelow : ∀ {name}, d.tree.get? (key ++ [name]) ≠ none →
        d.isDirectory (dir.child name) = true →
        (b ∈ d.found levels (above ++ [name]) (dir.child name) ↔ ∃ folder file,
          d.TakesForFile (dir.child name) (key ++ [name]) folder file ∧
          FoundBlock.ofFile? (above ++ name :: folder)
            ((folder.foldl Path.child (dir.child name)).child file) = some b) := by
      intro name hpresent hsub
      obtain ⟨below, hfind, hchild, hdepth⟩ := enter_child hs hdir hnode hpresent hsub
      rw [ih hfind hchild (by omega)]
      simp only [List.append_assoc, List.singleton_append]
    simp only [found, List.mem_flatMap, mem_visible hdir hnode]
    constructor
    · rintro ⟨name, ⟨hvisible, hpresent⟩, hb⟩
      split at hb
      · rename_i hsub
        obtain ⟨hentry, hshort⟩ := (hseen hpresent).mp hsub
        obtain ⟨folder, file, htakes, hof⟩ := (hbelow hpresent hsub).mp hb
        exact ⟨name :: folder, file,
          takesForFile_cons.mpr ⟨hvisible, hentry, hshort, htakes⟩, hof⟩
      · rename_i hno
        refine ⟨[], name, ⟨trivial, hvisible, by simpa using hpresent, fun hentry => ?_⟩,
          by simpa using hb⟩
        refine Decidable.not_not.mp fun hshort => hno ?_
        exact (hseen hpresent).mpr ⟨by simpa using hentry, hshort⟩
    · rintro ⟨folder, file, htakes, hof⟩
      cases folder with
      | nil =>
        obtain ⟨-, hvisible, hpresent, hdirectory⟩ := htakes
        rw [List.append_nil] at hpresent hdirectory hof
        have hno : d.isDirectory (dir.child file) ≠ true := by
          intro hsub
          obtain ⟨hentry, hshort⟩ := (hseen hpresent).mp hsub
          exact hshort (hdirectory hentry)
        refine ⟨file, ⟨hvisible, hpresent⟩, ?_⟩
        rw [if_neg hno]
        simpa using hof
      | cons name folder =>
        obtain ⟨hvisible, hentry, hshort, htakes⟩ := takesForFile_cons.mp htakes
        have hpresent : d.tree.get? (key ++ [name]) ≠ none := by rw [hentry]; rintro ⟨⟩
        have hsub := (hseen hpresent).mpr ⟨hentry, hshort⟩
        refine ⟨name, ⟨hvisible, hpresent⟩, ?_⟩
        rw [if_pos hsub]
        exact (hbelow hpresent hsub).mpr ⟨folder, file, htakes, hof⟩

/-! ## 3. No file twice -/

/-- The components of the path of a file tell by which names it was found. -/
theorem components_of_takesForFile (hs : d.tree.isSound = true) {folder : List String}
    {file : String} (h : d.TakesForFile dir key folder file) :
    ((folder.foldl Path.child dir).child file).components =
      dir.components ++ (folder ++ [file]).map .name := by
  have hnames := h.isEntryName hs
  rw [Path.components_child _ (hnames file (by simp)),
    Workspace.components_foldl_child fun name hname => hnames name (by simp [hname])]
  simp

/-- What the scan finds behind a name of a directory has that name next in its path. -/
theorem components_behind (hs : d.tree.isSound = true) {levels : Nat} {above : List String}
    (hdir : d.find dir = .ok key) {inside : FileTree}
    (hnode : d.tree.node? key = some (.directory inside)) (hlevels : inside.depth < levels + 1)
    {name : String} (hvisible : name ∈ d.visible dir) {b : FoundBlock}
    (hb : b ∈ if d.isDirectory (dir.child name) then
        d.found levels (above ++ [name]) (dir.child name)
      else (FoundBlock.ofFile? above (dir.child name)).toList) :
    ∃ rest, b.source.components = dir.components ++ .name name :: rest := by
  obtain ⟨-, hpresent⟩ := (mem_visible hdir hnode).mp hvisible
  have hentry := Path.isEntryName_of_isStorable
    (FileTree.isStorable_of_get? hs hpresent name (by simp))
  split at hb
  · rename_i hsub
    obtain ⟨below, hfind, hchild, hdepth⟩ := enter_child hs hdir hnode hpresent hsub
    obtain ⟨folder, file, htakes, hof⟩ := (mem_found hs hfind hchild (by omega)).mp hb
    refine ⟨(folder ++ [file]).map .name, ?_⟩
    rw [(FoundBlock.of_ofFile? hof).1, components_of_takesForFile hs htakes,
      Path.components_child dir hentry]
    simp
  · rw [(FoundBlock.of_ofFile? (Option.mem_toList.mp hb)).1, Path.components_child dir hentry]
    exact ⟨[], rfl⟩

/-- **The scan finds no file twice**: what it finds behind one name of a directory and behind
another differs in that name. -/
theorem nodup_found (hs : d.tree.isSound = true) {levels : Nat} {above : List String}
    (hdir : d.find dir = .ok key) {inside : FileTree}
    (hnode : d.tree.node? key = some (.directory inside)) (hlevels : inside.depth < levels) :
    ((d.found levels above dir).map (·.source)).Nodup := by
  induction levels generalizing above dir key inside with
  | zero => exact absurd hlevels (Nat.not_lt_zero _)
  | succ levels ih =>
    have hnodup : (d.visible dir).Nodup := by
      rw [visible, namesIn_of_find hdir hnode]
      exact (FileTree.nodup_listing (FileTree.isSound_node hs hnode)).filter _
    rw [found, List.map_flatMap, List.nodup_flatMap]
    refine ⟨fun name hvisible => ?_, hnodup.imp_of_mem fun {m n} hm hn hne source hsm hsn => ?_⟩
    · split
      · rename_i hsub
        obtain ⟨below, hfind, hchild, hdepth⟩ :=
          enter_child hs hdir hnode ((mem_visible hdir hnode).mp hvisible).2 hsub
        exact ih hfind hchild (by omega)
      · cases FoundBlock.ofFile? above (dir.child name) <;> simp
    · obtain ⟨b, hb, rfl⟩ := List.mem_map.mp hsm
      obtain ⟨c, hc, hsame⟩ := List.mem_map.mp hsn
      obtain ⟨rest, hrest⟩ := components_behind hs hdir hnode hlevels hm hb
      obtain ⟨rest', hrest'⟩ := components_behind hs hdir hnode hlevels hn hc
      rw [hsame, hrest] at hrest'
      cases List.append_cancel_left hrest'
      exact hne rfl

end Disk

/-! ## 4. The order -/

namespace FoundBlock

/-- What listings are sorted by: the folder, then the name. -/
def rank (b : FoundBlock) : String ×ₗ String := toLex (b.info.path, b.info.name)

theorem le_iff {a b : FoundBlock} : a.le b = true ↔ a.rank ≤ b.rank := by
  simp [le, rank, Prod.Lex.toLex_le_toLex]

theorem sort_eq_insertionSort (bs : List FoundBlock) :
    sort bs = bs.insertionSort fun a b => a.rank ≤ b.rank := by
  have hinsert : ∀ b, insertSorted b = List.orderedInsert (fun a b => a.rank ≤ b.rank) b := by
    intro b
    funext bs
    induction bs with
    | nil => rfl
    | cons c r ih => simp only [insertSorted, List.orderedInsert_cons, le_iff, ih]
  unfold sort List.insertionSort
  simp only [funext hinsert]

theorem perm_sort (bs : List FoundBlock) : (sort bs).Perm bs := by
  rw [sort_eq_insertionSort]
  exact List.perm_insertionSort _ bs

theorem pairwise_sort (bs : List FoundBlock) :
    (sort bs).Pairwise fun a b => a.rank ≤ b.rank := by
  rw [sort_eq_insertionSort]
  have : IsTrans FoundBlock fun a b => a.rank ≤ b.rank := ⟨fun _ _ _ => le_trans⟩
  have : Std.Total fun a b : FoundBlock => a.rank ≤ b.rank := ⟨fun _ _ => le_total _ _⟩
  exact List.pairwise_insertionSort _ bs

/-- Two lists that are sorted and have the same blocks have the same folders and names in the same
order. -/
theorem map_rank_eq_of_perm {bs bs' : List FoundBlock} (h : bs'.Perm bs)
    (hs : bs.Pairwise fun a b => a.rank ≤ b.rank) (hs' : bs'.Pairwise fun a b => a.rank ≤ b.rank) :
    bs'.map rank = bs.map rank :=
  (h.map rank).eq_of_pairwise (fun _ _ _ _ => le_antisymm) (List.pairwise_map.mpr hs')
    (List.pairwise_map.mpr hs)

end FoundBlock

namespace Disk

variable {d d' : Disk} {dir : Path} {key : Key}

/-! ## 5. The listing -/

/-- The block is a file of the project in a directory: it lies below the directory, no name on the
way begins with a dot, and its own name is that of a block. -/
def HasBlock (d : Disk) (dir : Path) (key : Key) (b : FoundBlock) : Prop :=
  ∃ folder file content, (∀ name ∈ folder ++ [file], Block.isHidden name = false) ∧
    d.tree.get? (key ++ folder ++ [file]) = some (.file content) ∧ b.IsFile dir folder file

/-- No directory below this one has a path that is too long, but for those that are passed over. -/
def InReach (d : Disk) (dir : Path) (key : Key) : Prop :=
  ∀ folder, (∀ name ∈ folder, Block.isHidden name = false) →
    d.tree.get? (key ++ folder) = some .directory → ¬ IsTooLong (folder.foldl Path.child dir)

/-- The same entries, in whatever order the directories list them. -/
structure Relisted (d d' : Disk) : Prop where
  sound : d'.tree.isSound = true
  get? : ∀ k, d'.tree.get? k = d.tree.get? k
  cwd : d'.cwd = d.cwd

/-- **The list of the blocks of a project**, in a directory to which a key leads. -/
structure ListsBlocks (d : Disk) (dir : Path) (key : Key) (bs : List FoundBlock) : Prop where
  /-- It has the blocks among the entries that the scan takes for files. -/
  entries : ∀ b, b ∈ bs ↔
    ∃ folder file, d.TakesForFile dir key folder file ∧ b.IsFile dir folder file
  /-- These are the blocks of the project, as long as no directory has too long a path. -/
  precise : d.InReach dir key → ∀ b, b ∈ bs ↔ d.HasBlock dir key b
  /-- No file is in it twice. -/
  once : (bs.map (·.source)).Nodup
  /-- It is sorted by folder and name. -/
  ordered : bs.Pairwise fun a b => a.rank ≤ b.rank
  /-- If directories list their entries in another order, blocks with one folder and one name may
  change places, and nothing else does. -/
  relisted : ∀ d', d.Relisted d' → ∃ bs', d'.blocks dir = .ok bs' ∧ bs'.Perm bs ∧
    bs'.map FoundBlock.rank = bs.map FoundBlock.rank
  /-- A workspace with the project tells these blocks. -/
  told : ∀ p : OpenProject, p.dir = dir →
    Workspace.listBlocks ⟨some p⟩ d = .ok (bs.map (·.info))
  /-- It counts as many. -/
  counted : ∀ p : OpenProject, p.dir = dir →
    ∃ info, Workspace.info ⟨some p⟩ d = .ok info ∧ info.blockCount = bs.length

/-- The blocks that are listed, as they were found. -/
theorem blocks_eq_sort (hdir : d.find dir = .ok key) (hget : d.tree.get? key = some .directory) :
    d.blocks dir = .ok (FoundBlock.sort (d.found (d.tree.depth + 1) [] dir)) :=
  blocks_of_isDirectory (isDirectory_iff.mpr ⟨key, hdir, hget⟩)

theorem mem_blocks (hs : d.tree.isSound = true) (hdir : d.find dir = .ok key)
    (hget : d.tree.get? key = some .directory) {bs : List FoundBlock}
    (h : d.blocks dir = .ok bs) {b : FoundBlock} :
    b ∈ bs ↔ ∃ folder file, d.TakesForFile dir key folder file ∧ b.IsFile dir folder file := by
  obtain ⟨inside, hnode⟩ := FileTree.get?_eq_directory.mp hget
  have hdepth := FileTree.depth_node hnode
  rw [blocks_eq_sort hdir hget] at h
  cases h
  rw [(FoundBlock.perm_sort _).mem_iff, mem_found hs hdir hnode (by omega)]
  refine exists_congr fun folder => exists_congr fun file => and_congr_right fun htakes => ?_
  exact FoundBlock.ofFile?_eq_some (htakes.isEntryName hs file (by simp))

theorem nodup_blocks (hs : d.tree.isSound = true) (hdir : d.find dir = .ok key)
    (hget : d.tree.get? key = some .directory) {bs : List FoundBlock}
    (h : d.blocks dir = .ok bs) : (bs.map (·.source)).Nodup := by
  obtain ⟨inside, hnode⟩ := FileTree.get?_eq_directory.mp hget
  have hdepth := FileTree.depth_node hnode
  rw [blocks_eq_sort hdir hget] at h
  cases h
  exact ((FoundBlock.perm_sort _).map _).nodup_iff.mpr (nodup_found hs hdir hnode (by omega))

theorem pairwise_blocks (hdir : d.find dir = .ok key) (hget : d.tree.get? key = some .directory)
    {bs : List FoundBlock} (h : d.blocks dir = .ok bs) :
    bs.Pairwise fun a b => a.rank ≤ b.rank := by
  rw [blocks_eq_sort hdir hget] at h
  cases h
  exact FoundBlock.pairwise_sort _

theorem Enters.visible {folder : List String} (h : d.Enters dir key folder) :
    ∀ name ∈ folder, Block.isHidden name = false := by
  induction folder generalizing dir key with
  | nil => simp
  | cons n folder ih =>
    obtain ⟨hvisible, -, -, henters⟩ := h
    intro name hname
    rcases List.mem_cons.mp hname with rfl | hname
    · exact hvisible
    · exact ih henters name hname

/-- The scan goes down to every directory in reach. -/
theorem InReach.enters (h : d.InReach dir key) {folder : List String}
    (hvisible : ∀ name ∈ folder, Block.isHidden name = false)
    (hget : d.tree.get? (key ++ folder) = some .directory) : d.Enters dir key folder := by
  induction folder generalizing dir key with
  | nil => trivial
  | cons name folder ih =>
    have hchild : d.tree.get? (key ++ [name]) = some .directory := by
      rw [List.append_cons] at hget
      cases folder with
      | nil => simpa using hget
      | cons next folder =>
        exact FileTree.isDirectory_of_append (List.cons_ne_nil next folder)
          (by rw [hget]; rintro ⟨⟩)
    have hbelow : d.InReach (dir.child name) (key ++ [name]) := by
      intro below hbelow hdirectory
      refine h (name :: below) (fun n hn => ?_) (by simpa using hdirectory)
      rcases List.mem_cons.mp hn with rfl | hn
      · exact hvisible n (by simp)
      · exact hbelow n hn
    refine ⟨hvisible name (by simp), hchild, hbelow [] (by simp) (by simpa using hchild), ?_⟩
    exact ih hbelow (fun n hn => hvisible n (by simp [hn])) (by simpa using hget)

/-- **What the scan takes for files are files**, where all is in reach. -/
theorem InReach.takesForFile_iff (h : d.InReach dir key) {folder : List String} {file : String} :
    d.TakesForFile dir key folder file ↔
      (∀ name ∈ folder ++ [file], Block.isHidden name = false) ∧
        ∃ content, d.tree.get? (key ++ folder ++ [file]) = some (.file content) := by
  constructor
  · rintro ⟨henters, hvisible, hpresent, hdirectory⟩
    have hall : ∀ name ∈ folder ++ [file], Block.isHidden name = false := by
      intro name hname
      rcases List.mem_append.mp hname with hname | hname
      · exact henters.visible name hname
      · rwa [List.mem_singleton.mp hname]
    refine ⟨hall, ?_⟩
    cases hentry : d.tree.get? (key ++ folder ++ [file]) with
    | none => exact absurd hentry hpresent
    | some entry =>
      cases entry with
      | file content => exact ⟨content, rfl⟩
      | directory =>
        have hlong := hdirectory hentry
        rw [List.append_assoc] at hentry
        exact absurd (by simpa using hlong) (h (folder ++ [file]) hall hentry)
  · rintro ⟨hall, content, hfile⟩
    have hpresent : d.tree.get? (key ++ folder ++ [file]) ≠ none := by rw [hfile]; rintro ⟨⟩
    refine ⟨h.enters (fun name hname => hall name (by simp [hname]))
      (FileTree.isDirectory_of_concat hpresent), hall file (by simp), hpresent,
      fun hdirectory => ?_⟩
    rw [hfile] at hdirectory
    cases hdirectory

namespace Relisted

variable (h : d.Relisted d')
include h

theorem grows : d.Grows d' where
  cwd := h.cwd
  tree := ⟨fun k hk => (h.get? k).trans hk, fun k content hk => ⟨content, (h.get? k).trans hk⟩⟩

theorem enters {folder : List String} : d'.Enters dir key folder ↔ d.Enters dir key folder := by
  induction folder generalizing dir key with
  | nil => rfl
  | cons name folder ih => simp only [Enters, h.get?, ih]

theorem takesForFile {folder : List String} {file : String} :
    d'.TakesForFile dir key folder file ↔ d.TakesForFile dir key folder file := by
  constructor
  · rintro ⟨henters, hvisible, hpresent, hdirectory⟩
    rw [h.get?] at hpresent hdirectory
    exact ⟨h.enters.mp henters, hvisible, hpresent, hdirectory⟩
  · rintro ⟨henters, hvisible, hpresent, hdirectory⟩
    rw [← h.get?] at hpresent hdirectory
    exact ⟨h.enters.mpr henters, hvisible, hpresent, hdirectory⟩

/-- **The order of the entries means little**: the listing of a tree has the same blocks, in the
same order of folders and names. -/
theorem blocks (hs : d.tree.isSound = true) (hdir : d.find dir = .ok key)
    (hget : d.tree.get? key = some .directory) {bs : List FoundBlock}
    (hbs : d.blocks dir = .ok bs) :
    ∃ bs', d'.blocks dir = .ok bs' ∧ bs'.Perm bs ∧
      bs'.map FoundBlock.rank = bs.map FoundBlock.rank := by
  have hdir' := h.grows.find hdir
  have hget' := (h.get? key).trans hget
  obtain ⟨bs', hbs'⟩ : ∃ bs', d'.blocks dir = .ok bs' := ⟨_, blocks_eq_sort hdir' hget'⟩
  have hperm : bs'.Perm bs := by
    refine (List.perm_ext_iff_of_nodup (nodup_blocks h.sound hdir' hget' hbs').of_map
      (nodup_blocks hs hdir hget hbs).of_map).mpr fun b => ?_
    rw [mem_blocks h.sound hdir' hget' hbs', mem_blocks hs hdir hget hbs]
    simp only [h.takesForFile]
  exact ⟨bs', hbs', hperm, FoundBlock.map_rank_eq_of_perm hperm (pairwise_blocks hdir hget hbs)
    (pairwise_blocks hdir' hget' hbs')⟩

end Relisted

/-- **A listing has the blocks of the project**: each of them once, in order, and no other file. -/
theorem listsBlocks_of_find (hs : d.tree.isSound = true) (hdir : d.find dir = .ok key)
    (hget : d.tree.get? key = some .directory) :
    ∃ bs, d.blocks dir = .ok bs ∧ ListsBlocks d dir key bs := by
  obtain ⟨bs, hbs⟩ : ∃ bs, d.blocks dir = .ok bs := ⟨_, blocks_eq_sort hdir hget⟩
  refine ⟨bs, hbs, ?_⟩
  constructor
  case entries => exact fun b => mem_blocks hs hdir hget hbs
  case precise =>
    intro hreach b
    rw [mem_blocks hs hdir hget hbs]
    simp only [hreach.takesForFile_iff, HasBlock, and_assoc, exists_and_left, exists_and_right]
  case once => exact nodup_blocks hs hdir hget hbs
  case ordered => exact pairwise_blocks hdir hget hbs
  case relisted => exact fun d' h => h.blocks hs hdir hget hbs
  case told =>
    rintro p rfl
    simp [Workspace.listBlocks, Workspace.projectBlocks, hbs]
  case counted =>
    rintro p rfl
    simp [Workspace.info, Workspace.infoFor, Workspace.projectBlocks, hbs]

/-- A directory `Plant` with a block in a folder. -/
def hall : Disk where
  tree := .directory "Plant"
    (.file "Plant.ap18" "" (.directory "A" (.file "Main.xml" "<ob/>" .empty) .empty)) .empty
  cwd := []
  home := none

/-- The only directory in `Plant` is `A`, and there is none in `A`. -/
theorem folders_hall {folder : List String}
    (h : hall.tree.get? (["Plant"] ++ folder) = some .directory) :
    folder = [] ∨ folder = ["A"] := by
  rcases folder with _ | ⟨name, _ | ⟨next, below⟩⟩
  · exact Or.inl rfl
  all_goals
    simp only [hall, List.cons_append, List.nil_append, FileTree.get?_cons] at h
    grind [FileTree.get?_cons, FileTree.child?]

theorem listsBlocks_hall :
    hall.tree.isSound = true ∧ hall.find ⟨["Plant"]⟩ = .ok ["Plant"] ∧
    hall.tree.get? ["Plant"] = some .directory ∧ hall.InReach ⟨["Plant"]⟩ ["Plant"] ∧
    ∃ bs, hall.blocks ⟨["Plant"]⟩ = .ok bs ∧ ListsBlocks hall ⟨["Plant"]⟩ ["Plant"] bs := by
  have hs : hall.tree.isSound = true := by decide
  refine ⟨hs, rfl, rfl, fun folder _ hget => ?_, listsBlocks_of_find hs rfl rfl⟩
  rcases folders_hall hget with rfl | rfl <;> decide

/-! ## 6. A path that is too long -/

/-- Names behind so many dots. -/
def dotted (n : Nat) (names : List String) : Path := ⟨List.replicate n "." ++ names⟩

theorem utf8ByteSize_dotted (n : Nat) (name : String) (names : List String) :
    (dotted n (name :: names)).text.utf8ByteSize =
      2 * n + (dotted 0 (name :: names)).text.utf8ByteSize := by
  induction n with
  | zero => simp
  | succ n ih =>
    have hdot : (dotted (n + 1) (name :: names)).text =
        "./" ++ (dotted n (name :: names)).text := by
      unfold dotted Path.text
      rw [List.replicate_succ, List.cons_append]
      cases hrest : List.replicate n "." ++ name :: names with
      | nil => simp at hrest
      | cons s rest => rw [String.intercalate_cons_cons]; rfl
    rw [hdot, String.utf8ByteSize_append, ih, show "./".utf8ByteSize = 2 from rfl]
    omega

theorem child_dotted (n : Nat) {name next : String} (hname : name ≠ "") :
    (dotted n [name]).child next = dotted n [name, next] := by
  have hlast : (dotted n [name]).segments.getLast? = some name := by simp [dotted]
  have hempty : (dotted n [name]).isEmpty = false := by
    cases n <;> simp [dotted, Path.isEmpty, hname, List.replicate_succ]
  rw [Path.child_segments, hempty, hlast]
  simp [dotted, hname]

/-- Dots in front change nothing as long as they leave the path short enough. -/
theorem find_dots {name : String} {found : Key} (hcwd : d.cwd = []) (hname : name ≠ "")
    (hfind : d.find (dotted 0 [name]) = .ok found) (n : Nat)
    (hshort : ¬ IsTooLong (dotted n [name])) : d.find (dotted n [name]) = .ok found := by
  obtain ⟨hplain, hsite⟩ := find_eq_ok.mp hfind
  have hfault : pathFault? (dotted n [name]) = none := by
    have hnul : (dotted n [name]).hasNul = (dotted 0 [name]).hasNul := by
      simp [dotted, Path.hasNul]
    have hempty : (dotted n [name]).isEmpty = false := by
      cases n <;> simp [dotted, Path.isEmpty, List.replicate_succ, hname]
    unfold pathFault? at hplain ⊢
    rw [hnul, hempty]
    split at hplain
    · cases hplain
    · rename_i hnul
      rw [if_neg hnul, if_neg (by simp)]
      exact if_neg hshort
  have hroute : d.route (dotted n [name]) = List.replicate n "." ++ [name] := by
    cases n <;> simp [dotted, route_cons, List.replicate_succ, hcwd]
  have hdots : ∀ ss, d.tree.walk [] (List.replicate n "." ++ ss) = d.tree.walk [] ss := by
    intro ss
    clear hshort hfault hroute
    induction n with
    | zero => rfl
    | succ n ih =>
      rw [List.replicate_succ, List.cons_append, FileTree.walk]
      simpa [FileTree.stepKey] using ih
  have hsegment : d.route (dotted 0 [name]) = [name] := by
    simp [dotted, route_cons, hcwd]
  refine find_eq_ok.mpr ⟨hfault, ?_⟩
  rw [site, hroute, hdots, ← hsegment]
  exact hsite

/-- In front of `Plant`, that is up to 2045 of them. -/
theorem find_dotted (n : Nat) (hshort : n < 2046) :
    hall.find (dotted n ["Plant"]) = .ok ["Plant"] := by
  refine find_dots rfl (by decide) rfl n ?_
  have hsize := utf8ByteSize_dotted n "Plant" []
  rw [show (dotted 0 ["Plant"]).text.utf8ByteSize = 5 from rfl] at hsize
  rw [IsTooLong, hsize, maxPath]
  omega

/-- If the path of `A` is too long, no block is found in `Plant`. -/
theorem blocks_hall {dir : Path} (hfind : hall.find dir = .ok ["Plant"])
    (hlong : IsTooLong (dir.child "A")) : hall.blocks dir = .ok [] := by
  have hs : hall.tree.isSound = true := by decide
  obtain ⟨bs, hbs⟩ : ∃ bs, hall.blocks dir = .ok bs := ⟨_, blocks_eq_sort hfind rfl⟩
  rw [hbs, Except.ok.injEq, List.eq_nil_iff_forall_not_mem]
  intro b hb
  obtain ⟨folder, file, htakes, hfile⟩ := (mem_blocks hs hfind rfl hbs).mp hb
  rcases folders_hall (FileTree.isDirectory_of_concat htakes.present) with rfl | rfl
  · -- the two entries of `Plant` do not bear the names of blocks
    have hname : file = "Plant.ap18" ∨ file = "A" := by
      have hpresent := htakes.present
      grind [hall, FileTree.get?_cons, FileTree.child?]
    have hstem := (Block.stem?_eq_some (Path.fileName?_child Path.empty
      (htakes.isEntryName hs file (by simp)))).mpr hfile.named
    rcases hname with rfl | rfl
    · cases (show Block.stem? (Path.empty.child "Plant.ap18") = none from rfl).symm.trans hstem
    · cases (show Block.stem? (Path.empty.child "A") = none from rfl).symm.trans hstem
  · obtain ⟨-, -, hshort, -⟩ := htakes.enters
    exact hshort hlong

/-- The block in `A` is one of the project all the same. -/
theorem exists_hasBlock_hall (dir : Path) : ∃ b, hall.HasBlock dir ["Plant"] b := by
  have hnamed : Block.IsNamed "Main.xml" "Main" := ⟨by decide, "xml", rfl, by decide⟩
  exact ⟨_, ["A"], "Main.xml", "<ob/>", by decide, rfl,
    FoundBlock.isFile_of_isNamed dir ["A"] hnamed⟩

/-- **A directory whose path is too long is left out**: `Plant` is asked for by a path of 4095
bytes, so the path of the directory in it has two more.  The listing is empty, and no error tells of
the block that is there. -/
theorem not_precise_longWay :
    hall.tree.isSound = true ∧ hall.find (dotted 2045 ["Plant"]) = .ok ["Plant"] ∧
    hall.tree.get? ["Plant"] = some .directory ∧
    hall.blocks (dotted 2045 ["Plant"]) = .ok [] ∧
    ¬ ∃ bs, hall.blocks (dotted 2045 ["Plant"]) = .ok bs ∧
      ∀ b, b ∈ bs ↔ hall.HasBlock (dotted 2045 ["Plant"]) ["Plant"] b := by
  have hs : hall.tree.isSound = true := by decide
  have hget : hall.tree.get? ["Plant"] = some .directory := rfl
  have hfind := find_dotted 2045 (by omega)
  have hlong : IsTooLong ((dotted 2045 ["Plant"]).child "A") := by
    rw [child_dotted _ (by decide), IsTooLong, utf8ByteSize_dotted]
    decide
  have hnone := blocks_hall hfind hlong
  refine ⟨hs, hfind, hget, hnone, ?_⟩
  rintro ⟨bs, hbs, hexact⟩
  rw [hnone] at hbs
  cases hbs
  obtain ⟨b, hb⟩ := exists_hasBlock_hall (dotted 2045 ["Plant"])
  exact List.not_mem_nil ((hexact b).mpr hb)

end Disk
end Workbench
