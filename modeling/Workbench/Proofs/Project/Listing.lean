import Workbench.Proofs.Files.Names
import Workbench.Proofs.Project.Scanning

/-!
# Blocks that are listed

Every block that a listing finds is a file below the directory of the project, and bears the stem of
that file.

* `Block.IsNamed` are the names of files that are blocks, and `Block.stem?_eq_some` says that these
  are the ones that are taken for blocks;
* `Disk.isOf_of_blocks` says it of the blocks that are listed.
-/

namespace Workbench

/-- The block is what the file below a directory is. -/
structure FoundBlock.IsOf (dir : Path) (b : FoundBlock) : Prop where
  below : dir.Below b.source
  stem : Block.stem? b.source = some b.info.name

/-- The stem of a block is that of the name of its file. -/
theorem Block.fileName_of_stem? {p : Path} {stem : String} (h : Block.stem? p = some stem) :
    ∃ file, p.fileName? = some file ∧ (Path.splitName file).1 = stem := by
  unfold stem? at h
  split at h
  · cases h
  · split at h
    · unfold Path.fileStem? at h
      exact Option.map_eq_some_iff.mp h
    · cases h

namespace Block

/-- The name of a file is that of a block: a stem, a dot, and an extension of blocks in any case. -/
def IsNamed (file stem : String) : Prop :=
  stem ≠ "" ∧ ∃ extension, file = stem ++ "." ++ extension ∧ Text.asciiLower extension ∈ extensions

theorem dot_not_mem_of_extension {e : String} (h : Text.asciiLower e ∈ extensions) :
    '.' ∉ e.toList := by
  intro hdot
  have hlower : '.' ∈ (Text.asciiLower e).toList := by
    rw [Text.asciiLower, String.toList_ofList]
    exact List.mem_map.mpr ⟨'.', hdot, rfl⟩
  have hnone : ∀ x ∈ extensions, '.' ∉ x.toList := by decide
  exact hnone _ h hlower

/-- **The block that a file is**, by the name of the file. -/
theorem stem?_eq_some {p : Path} {file stem : String} (h : p.fileName? = some file) :
    stem? p = some stem ↔ IsNamed file stem := by
  unfold stem? Path.extension? Path.fileStem?
  rw [h]
  simp only [Option.bind_some, Option.map_some]
  constructor
  · intro hs
    split at hs
    · cases hs
    · rename_i e he
      split at hs <;> cases hs
      rename_i hmem
      obtain ⟨hstem, hfile, -⟩ := Path.splitName_eq_some.mp (Prod.ext rfl he)
      exact ⟨hstem, e, hfile, by simpa using hmem⟩
  · rintro ⟨hstem, e, hfile, hmem⟩
    rw [Path.splitName_eq_some.mpr ⟨hstem, hfile, dot_not_mem_of_extension hmem⟩]
    simp [hmem]

end Block

theorem FoundBlock.of_ofFile? {folder : List String} {p : Path} {b : FoundBlock}
    (h : ofFile? folder p = some b) : b.source = p ∧ Block.stem? p = some b.info.name := by
  obtain ⟨stem, hstem, rfl⟩ := Option.map_eq_some_iff.mp h
  exact ⟨rfl, hstem⟩

/-- A name that is not passed over does not lead upwards. -/
theorem Block.ne_up_of_visible {name : String} (h : isHidden name = false) : name ≠ ".." := by
  rintro rfl
  cases h

/-- What is sorted by insertion loses nothing, and brings nothing in. -/
theorem mem_foldr_insert {α : Type} {insert : α → List α → List α}
    (h : ∀ {a b l}, b ∈ insert a l ↔ b = a ∨ b ∈ l) {b : α} {l : List α} :
    b ∈ l.foldr insert [] ↔ b ∈ l := by
  induction l with
  | nil => rfl
  | cons a r ih => rw [List.foldr_cons, h, ih, List.mem_cons]

namespace FoundBlock

theorem mem_insertSorted {b c : FoundBlock} {bs : List FoundBlock} :
    c ∈ insertSorted b bs ↔ c = b ∨ c ∈ bs := by
  induction bs with
  | nil => simp [insertSorted]
  | cons a r ih =>
    simp only [insertSorted]
    split
    · simp
    · simp only [List.mem_cons, ih]
      exact or_left_comm

theorem mem_sort {c : FoundBlock} {bs : List FoundBlock} : c ∈ sort bs ↔ c ∈ bs :=
  mem_foldr_insert mem_insertSorted

end FoundBlock

namespace Disk

variable {d : Disk}

/-- **What the scan finds lies below where it begins**, by induction over its levels. -/
theorem isOf_of_found {top dir : Path} {levels : Nat} {folder : List String} (hdir : top.Below dir)
    {b : FoundBlock} (hb : b ∈ d.found levels folder dir) : b.IsOf top := by
  induction levels generalizing folder dir with
  | zero => cases hb
  | succ levels ih =>
    obtain ⟨name, hname, hb⟩ := List.mem_flatMap.mp hb
    have hvisible : Block.isHidden name = false := by simpa using (List.mem_filter.mp hname).2
    have hchild : top.Below (dir.child name) :=
      hdir.child name (Block.ne_up_of_visible hvisible)
    split at hb
    · exact ih hchild hb
    · obtain ⟨hsource, hstem⟩ := FoundBlock.of_ofFile? (Option.mem_toList.mp hb)
      exact ⟨hsource ▸ hchild, hsource ▸ hstem⟩

theorem isOf_of_blocks {dir : Path} {bs : List FoundBlock} (h : d.blocks dir = .ok bs)
    {b : FoundBlock} (hb : b ∈ bs) : b.IsOf dir := by
  rw [blocks_of_isDirectory (blocks_eq_ok_iff.mp ⟨bs, h⟩)] at h
  cases h
  exact isOf_of_found .here (FoundBlock.mem_sort.mp hb)

/-- Blocks are listed in a directory only. -/
theorem site_of_blocks {dir : Path} {bs : List FoundBlock} (h : d.blocks dir = .ok bs) :
    ∃ key, d.site dir = .ok key ∧ d.tree.get? key = some .directory := by
  obtain ⟨key, hfind, hget⟩ := isDirectory_iff.mp (blocks_eq_ok_iff.mp ⟨bs, h⟩)
  exact ⟨key, (find_eq_ok.mp hfind).2, hget⟩

end Disk
end Workbench
