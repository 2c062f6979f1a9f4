import Workbench.Proofs.Files.Walking
import Workbench.Project.Block

/-!
# The scan for blocks

The scan for blocks enters directories only.  So it fails where it begins, or not at all: it can be
written as a function that always gives a list.

* `Disk.found` is that function, and `Disk.blocksBelow_eq_found` says that the scan of a directory
  finds what it gives;
* `Disk.blocks_eq_ok_iff`: blocks can be listed exactly where there is a directory.
-/

namespace Workbench

/-- An action that never fails on the items of a list does not fail on the list. -/
theorem mapM_eq_ok {α β ε : Type} {f : α → Except ε β} {g : α → β} {items : List α}
    (h : ∀ a ∈ items, f a = .ok (g a)) : items.mapM f = .ok (items.map g) := by
  induction items with
  | nil => rfl
  | cons a rest ih =>
    rw [List.mapM_cons, h a List.mem_cons_self, ih fun b hb => h b (List.mem_cons_of_mem a hb)]
    rfl

namespace Disk

variable {d : Disk}

/-- The names in a directory that are not passed over. -/
def visible (d : Disk) (p : Path) : List String :=
  (d.namesIn p).filter fun name => !Block.isHidden name

/-- What the scan finds below a directory that lies in a folder of the project. -/
def found (d : Disk) : Nat → List String → Path → List FoundBlock
  | 0, _, _ => []
  | levels + 1, folder, dir =>
    (d.visible dir).flatMap fun name =>
      if d.isDirectory (dir.child name) then
        d.found levels (folder ++ [name]) (dir.child name)
      else (FoundBlock.ofFile? folder (dir.child name)).toList

/-- **The scan of a directory never fails**, by induction over its levels: it goes on only where it
has seen another directory. -/
theorem blocksBelow_eq_found {dir : Path} (h : d.isDirectory dir = true) (levels : Nat)
    (folder : List String) : d.blocksBelow levels folder dir = .ok (d.found levels folder dir) := by
  induction levels generalizing folder dir with
  | zero => rfl
  | succ levels ih =>
    have hitem : ∀ name ∈ d.visible dir,
        (if d.isDirectory (dir.child name) then
          d.blocksBelow levels (folder ++ [name]) (dir.child name)
        else .ok (FoundBlock.ofFile? folder (dir.child name)).toList) =
        .ok (if d.isDirectory (dir.child name) then
          d.found levels (folder ++ [name]) (dir.child name)
        else (FoundBlock.ofFile? folder (dir.child name)).toList) := by
      intro name _
      split
      · rename_i hchild
        exact ih hchild _
      · rfl
    simp only [blocksBelow, readDirectory_of_isDirectory h]
    rw [show (d.namesIn dir).filter (fun n => !Block.isHidden n) = d.visible dir from rfl,
      mapM_eq_ok hitem]
    rfl

theorem blocks_of_isDirectory {dir : Path} (h : d.isDirectory dir = true) :
    d.blocks dir = .ok (FoundBlock.sort (d.found (d.tree.depth + 1) [] dir)) := by
  rw [blocks, blocksBelow_eq_found h]

/-- **Blocks can be listed exactly where there is a directory.** -/
theorem blocks_eq_ok_iff {dir : Path} :
    (∃ bs, d.blocks dir = .ok bs) ↔ d.isDirectory dir = true := by
  constructor
  · rintro ⟨bs, h⟩
    unfold blocks blocksBelow at h
    cases hread : d.readDirectory dir with
    | error f =>
      rw [hread] at h
      cases h
    | ok names => exact isDirectory_of_readDirectory hread
  · exact fun h => ⟨_, blocks_of_isDirectory h⟩

end Disk
end Workbench
