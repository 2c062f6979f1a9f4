import Workbench.Proofs.Files.Names
import Workbench.Proofs.Files.Writing

/-!
# Entries of directories

A tree is sound if it is one that a file system can hold: no directory has two entries of one name,
and no name is too long or holds a NUL.  The paths of its entries then fail for one reason only,
their length.

* `FileTree.isSound` says this of a tree, and `FileTree.isSound_node` of all directories in it;
* `Disk.isDirectory_child` tells which entries of a directory are seen as directories: those whose
  path is not too long.
-/

namespace Workbench

/-- A name that a file system can store. -/
def Path.isStorable (name : String) : Bool :=
  isProper name && !name.toList.contains '\x00' && decide (name.utf8ByteSize ≤ Disk.maxName)

namespace FileTree

/-! ## 1. Sound trees -/

/-- No directory has two entries of one name, and all names can be stored. -/
def isSound : FileTree → Bool
  | empty => true
  | file name _ rest => Path.isStorable name && !rest.listing.contains name && rest.isSound
  | directory name inside rest =>
    Path.isStorable name && !rest.listing.contains name && inside.isSound && rest.isSound

theorem mem_listing {t : FileTree} {name : String} : name ∈ t.listing ↔ t.child? name ≠ none := by
  induction t with
  | empty => simp [listing, child?]
  | file n content rest ih =>
    by_cases h : n = name
    · simp [listing, child?, h]
    · simp [listing, child?, h, Ne.symm h, ih]
  | directory n inside rest _ ih =>
    by_cases h : n = name
    · simp [listing, child?, h]
    · simp [listing, child?, h, Ne.symm h, ih]

theorem nodup_listing {t : FileTree} (h : t.isSound = true) : t.listing.Nodup := by
  induction t with
  | empty => exact List.nodup_nil
  | file name content rest ih =>
    simp only [isSound, Bool.and_eq_true, Bool.not_eq_true', List.contains_eq_mem,
      decide_eq_false_iff_not] at h
    exact List.nodup_cons.mpr ⟨h.1.2, ih h.2⟩
  | directory name inside rest _ ih =>
    simp only [isSound, Bool.and_eq_true, Bool.not_eq_true', List.contains_eq_mem,
      decide_eq_false_iff_not] at h
    exact List.nodup_cons.mpr ⟨h.1.1.2, ih h.2⟩

/-- What stands under a name of a sound directory: the name can be stored, and a directory is sound
again. -/
theorem isSound_child {t : FileTree} (h : t.isSound = true) {name : String} {node : Node}
    (hc : t.child? name = some node) :
    Path.isStorable name = true ∧ ∀ inside, node = .directory inside → inside.isSound = true := by
  induction t with
  | empty => cases hc
  | file n content rest ih =>
    simp only [isSound, Bool.and_eq_true] at h
    simp only [child?] at hc
    split at hc
    · rename_i hn
      cases hc
      exact ⟨beq_iff_eq.mp hn ▸ h.1.1, by rintro inside ⟨⟩⟩
    · exact ih h.2 hc
  | directory n below rest _ ih =>
    simp only [isSound, Bool.and_eq_true] at h
    simp only [child?] at hc
    split at hc
    · rename_i hn
      cases hc
      refine ⟨beq_iff_eq.mp hn ▸ h.1.1.1, ?_⟩
      rintro inside ⟨⟩
      exact h.1.2
    · exact ih h.2 hc

/-- **Every directory in a sound tree is sound.** -/
theorem isSound_node {t inside : FileTree} {key : Key} (h : t.isSound = true)
    (hn : t.node? key = some (.directory inside)) : inside.isSound = true := by
  induction key generalizing t with
  | nil =>
    cases hn
    exact h
  | cons name below ih =>
    simp only [node?] at hn
    split at hn
    · cases hn
    · split at hn <;> cases hn
    · rename_i next hnext
      exact ih ((isSound_child h hnext).2 next rfl) hn

/-! ## 2. Directories in directories -/

theorem get?_eq_directory {t : FileTree} {key : Key} :
    t.get? key = some .directory ↔ ∃ inside, t.node? key = some (.directory inside) := by
  unfold get?
  cases t.node? key with
  | none => simp
  | some node => cases node <;> simp [Node.entry]

/-- **All names that lead to an entry of a sound tree can be stored.** -/
theorem isStorable_of_get? {t : FileTree} {key : Key} (h : t.isSound = true)
    (hk : t.get? key ≠ none) : ∀ name ∈ key, Path.isStorable name = true := by
  induction key generalizing t with
  | nil => simp
  | cons n below ih =>
    rw [get?_cons] at hk
    cases hc : t.child? n with
    | none => simp [hc] at hk
    | some node =>
      obtain ⟨hname, hinside⟩ := isSound_child h hc
      intro name hmem
      rcases List.mem_cons.mp hmem with rfl | hbelow
      · exact hname
      · cases node with
        | file content =>
          simp only [hc] at hk
          split at hk
          · rename_i hnil
            rw [List.isEmpty_iff.mp hnil] at hbelow
            cases hbelow
          · exact absurd rfl hk
        | directory inside =>
          rw [hc] at hk
          exact ih (hinside inside rfl) hk name hbelow

/-- The names in a directory are those behind its key. -/
theorem mem_listing_iff {t inside : FileTree} {key : Key} {name : String}
    (hn : t.node? key = some (.directory inside)) :
    name ∈ inside.listing ↔ t.get? (key ++ [name]) ≠ none := by
  rw [mem_listing, get?_concat, hn]
  simp

/-- A directory in another one is less deep. -/
theorem depth_child {t inside : FileTree} {name : String}
    (hc : t.child? name = some (.directory inside)) : inside.depth < t.depth := by
  induction t with
  | empty => cases hc
  | file n content rest ih =>
    simp only [child?] at hc
    split at hc
    · cases hc
    · exact Nat.lt_of_lt_of_le (ih hc) (Nat.le_max_right _ _)
  | directory n below rest _ ih =>
    simp only [child?] at hc
    split at hc
    · cases hc
      exact Nat.le_max_left _ _
    · exact Nat.lt_of_lt_of_le (ih hc) (Nat.le_max_right _ _)

theorem depth_node {t inside : FileTree} {key : Key}
    (hn : t.node? key = some (.directory inside)) : inside.depth ≤ t.depth := by
  induction key generalizing t with
  | nil =>
    cases hn
    exact Nat.le_refl _
  | cons name below ih =>
    simp only [node?] at hn
    split at hn
    · cases hn
    · split at hn <;> cases hn
    · rename_i next hnext
      exact Nat.le_trans (ih hn) (Nat.le_of_lt (depth_child hnext))

end FileTree

/-! ## 3. The path of an entry -/

namespace Path

theorem isEntryName_of_isStorable {name : String} (h : isStorable name = true) :
    IsEntryName name := by
  simp only [isStorable, Bool.and_eq_true] at h
  exact isEntryName_of_isProper h.1.1

theorem size_of_isStorable {name : String} (h : isStorable name = true) :
    name.utf8ByteSize ≤ Disk.maxName := by
  simp only [isStorable, Bool.and_eq_true, decide_eq_true_eq] at h
  exact h.2

/-- A name behind a path brings a NUL in only if it has one. -/
theorem hasNul_child {p : Path} {name : String} (hp : p.hasNul = false)
    (hname : isStorable name = true) : (p.child name).hasNul = false := by
  have hnul : name.toList.contains '\x00' = false := by
    simp only [isStorable, Bool.and_eq_true, Bool.not_eq_true'] at hname
    exact hname.1.2
  have hfront : ∀ front : List String, (∀ s ∈ front, s ∈ p.segments) →
      (mk (front ++ [name])).hasNul = false := by
    intro front hsub
    simp only [hasNul, List.any_eq_false, List.any_append, List.any_cons, List.any_nil, hnul,
      Bool.or_false] at hp ⊢
    exact fun s hs => hp s (hsub s hs)
  rw [child_segments]
  split
  · exact hfront [] (by simp)
  · split
    · exact hfront _ fun s hs => List.dropLast_subset _ hs
    · exact hfront _ fun s hs => hs

theorem isEmpty_child (p : Path) {name : String} (h : name ≠ "") :
    (p.child name).isEmpty = false := by
  rcases p.child_eq with ⟨-, hchild⟩ | ⟨s, rest, hchild, -⟩
  · simp [hchild, isEmpty, h]
  · simp [hchild, isEmpty]

end Path

namespace Disk

variable {d : Disk}

/-- The path is longer than the system takes. -/
def IsTooLong (p : Path) : Prop := maxPath ≤ p.text.utf8ByteSize

instance (p : Path) : Decidable (IsTooLong p) := inferInstanceAs (Decidable (_ ≤ _))

/-- **Nothing but its length stands against the path of an entry.** -/
theorem pathFault?_child {p : Path} {name : String} (hp : pathFault? p = none)
    (hname : Path.isStorable name = true) :
    pathFault? (p.child name) = none ↔ ¬ IsTooLong (p.child name) := by
  have hnul : p.hasNul = false := by
    unfold pathFault? at hp
    split at hp
    · cases hp
    · rename_i h
      simpa using h
  have hempty := p.isEmpty_child (Path.isEntryName_of_isStorable hname).1
  unfold pathFault? IsTooLong
  rw [Path.hasNul_child hnul hname, hempty]
  simp

/-- **The entries of a directory that are seen as directories.** -/
theorem isDirectory_child {dir : Path} {key : Key} {name : String} (hdir : d.find dir = .ok key)
    (hget : d.tree.get? key = some .directory) (hname : Path.isStorable name = true) :
    d.isDirectory (dir.child name) = true ↔
      d.tree.get? (key ++ [name]) = some .directory ∧ ¬ IsTooLong (dir.child name) := by
  obtain ⟨hfault, hsite⟩ := find_eq_ok.mp hdir
  have hentry := Path.isEntryName_of_isStorable hname
  rw [isDirectory_iff, ← pathFault?_child hfault hname]
  constructor
  · rintro ⟨found, hfind, hfound⟩
    obtain ⟨hnone, hsiteChild⟩ := find_eq_ok.mp hfind
    obtain ⟨above, habove, hstep⟩ := site_child_ok hsiteChild
    rw [hsite] at habove
    cases habove
    obtain ⟨rfl, -⟩ := FileTree.stepKey_of_real hentry hstep
    exact ⟨hfound, hnone⟩
  · rintro ⟨hfound, hnone⟩
    exact ⟨key ++ [name], find_child hentry hsite hget (by rw [hfound]; rintro ⟨⟩) hnone
      (Path.size_of_isStorable hname), hfound⟩

/-- The path of a directory in a directory leads there. -/
theorem find_of_isDirectory_child {dir : Path} {key : Key} {name : String}
    (hdir : d.find dir = .ok key) (hname : Path.isStorable name = true)
    (h : d.isDirectory (dir.child name) = true) :
    d.find (dir.child name) = .ok (key ++ [name]) := by
  obtain ⟨found, hfind, -⟩ := isDirectory_iff.mp h
  obtain ⟨above, habove, hstep⟩ := site_child_ok (find_eq_ok.mp hfind).2
  rw [(find_eq_ok.mp hdir).2] at habove
  cases habove
  obtain ⟨rfl, -⟩ := FileTree.stepKey_of_real (Path.isEntryName_of_isStorable hname) hstep
  exact hfind

theorem namesIn_of_find {dir : Path} {key : Key} {inside : FileTree} (hdir : d.find dir = .ok key)
    (hnode : d.tree.node? key = some (.directory inside)) : d.namesIn dir = inside.listing := by
  simp [namesIn, hdir, FileTree.names, hnode]

end Disk
end Workbench
