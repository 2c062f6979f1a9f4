import Workbench.Files.Disk
import Workbench.Json.Basic

/-!
# Snapshots

The operations work on a disk as a value.  A program that serves a real file system takes a snapshot
of the places that a request names, and stores what has changed afterwards.
-/

namespace Workbench

/-- All texts in a JSON value, those of members included. -/
def Json.innerTexts : Json → List String
  | .str s => [s]
  | .arr items => items.attach.flatMap fun ⟨j, _⟩ => j.innerTexts
  | .obj members => members.attach.flatMap fun ⟨(_, j), _⟩ => j.innerTexts
  | _ => []
termination_by j => sizeOf j
decreasing_by
  all_goals simp_wf
  · rename_i h
    have := List.sizeOf_lt_of_mem h
    omega
  · rename_i h
    have := List.sizeOf_lt_of_mem h
    simp only [Prod.mk.sizeOf_spec] at this
    omega

namespace Disk

/-- The key that a path has if no directory is missing on the way. -/
def plainKey (d : Disk) (p : Path) : Key :=
  (d.route p).foldl (fun key segment =>
    if segment == "" || segment == "." then key
    else if segment == ".." then key.dropLast
    else key ++ [segment]) []

/-- The places that texts name as paths. -/
def namedPlaces (d : Disk) (texts : List String) : List Key :=
  texts.map fun s => d.plainKey (d.expandHome s)

/-- The disk with the entries at and below a key taken anew, each directory in front of what it
holds. -/
def renew (d : Disk) (key : Key) (entries : List (Key × Entry)) : Disk :=
  { d with tree := entries.foldl (fun t (key, entry) => t.put key entry) (d.tree.remove key) }

/-- The entries that another disk has, and that this one has not. -/
def changes (before after : Disk) : List (Key × Entry) :=
  after.tree.entries.filter fun (key, entry) => before.tree.get? key != some entry

end Disk
end Workbench
