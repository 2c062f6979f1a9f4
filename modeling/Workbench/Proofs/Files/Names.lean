import Workbench.Proofs.Files.Paths
import Workbench.Proofs.Files.Walking

/-!
# Names of entries

The names in a directory are neither empty nor dots, and hold no slash.  A tree could be built with
others, but no file system has them.

* `FileTree.isProper` says this of all names in a tree, and `Disk.isProper_of_readDirectory` of
  those that a directory lists;
* `Path.ofString_of_isProper` reads such a name as a path;
* `Path.splitName_eq_some` says which names have an extension.
-/

namespace Workbench

/-- A name that an entry can have. -/
def Path.isProper (name : String) : Bool :=
  name != "" && name != "." && name != ".." && !name.toList.contains '/'

namespace Path

theorem isEntryName_of_isProper {name : String} (h : isProper name = true) : IsEntryName name := by
  simp only [isProper, Bool.and_eq_true, bne_iff_ne] at h
  exact ⟨h.1.1.1, h.1.1.2, h.1.2⟩

theorem splitChars_of_no_slash {l : List Char} (h : '/' ∉ l) : splitChars l = [l] := by
  induction l with
  | nil => rfl
  | cons c r ih =>
    obtain ⟨hc, hr⟩ := not_or.mp (fun hor => h (List.mem_cons.mpr hor))
    have hne : (c == '/') = false := by simpa using fun heq : c = '/' => hc heq.symm
    simp [splitChars, hne, ih hr]

theorem splitChars_ne_nil (l : List Char) : splitChars l ≠ [] := by
  cases l with
  | nil => simp [splitChars]
  | cons c r =>
    simp only [splitChars]
    split
    · simp
    · split <;> simp

/-- A path that is read from a text has a segment at least. -/
theorem segments_ofString_ne_nil (s : String) : (ofString s).segments ≠ [] := by
  simpa [ofString] using splitChars_ne_nil s.toList

/-- Such a name is a path of one segment. -/
theorem ofString_of_isProper {name : String} (h : isProper name = true) :
    ofString name = ⟨[name]⟩ := by
  simp only [isProper, Bool.and_eq_true, Bool.not_eq_true', List.contains_eq_mem,
    decide_eq_false_iff_not] at h
  simp [ofString, splitChars_of_no_slash h.2]

/-- To join it to a path is to put it behind the path. -/
theorem join_ofString {name : String} (h : isProper name = true) (p : Path) :
    p.join (.ofString name) = p.child name := by
  rw [ofString_of_isProper h]
  rfl

theorem splitLastDot_eq_none {l : List Char} : splitLastDot l = none ↔ '.' ∉ l := by
  induction l with
  | nil => simp [splitLastDot]
  | cons c r ih =>
    simp only [splitLastDot, List.mem_cons, not_or]
    cases hr : splitLastDot r with
    | none =>
      by_cases hc : c = '.'
      · simp [hc]
      · simp [hc, Ne.symm hc, ih.mp hr]
    | some parts =>
      have hdot : '.' ∈ r := Classical.byContradiction fun h => by
        rw [ih.mpr h] at hr
        cases hr
      simp [hdot]

/-- What is cut at a dot without another one behind it. -/
theorem splitLastDot_append {before after : List Char} (h : '.' ∉ after) :
    splitLastDot (before ++ '.' :: after) = some (before, after) := by
  induction before with
  | nil => simp [splitLastDot, splitLastDot_eq_none.mpr h]
  | cons c r ih => simp [splitLastDot, ih]

theorem splitLastDot_eq_some {l before after : List Char} :
    splitLastDot l = some (before, after) ↔ l = before ++ '.' :: after ∧ '.' ∉ after := by
  constructor
  · intro h
    induction l generalizing before with
    | nil => cases h
    | cons c r ih =>
      simp only [splitLastDot] at h
      split at h
      · rename_i b a hr
        cases h
        obtain ⟨rfl, hafter⟩ := ih hr
        exact ⟨rfl, hafter⟩
      · rename_i hr
        split at h <;> cases h
        rename_i hc
        exact ⟨by rw [beq_iff_eq.mp hc]; rfl, splitLastDot_eq_none.mp hr⟩
  · rintro ⟨rfl, hafter⟩
    exact splitLastDot_append hafter

/-- **The extension of a name** is what stands behind its last dot, if something stands before. -/
theorem splitName_eq_some {name stem extension : String} :
    splitName name = (stem, some extension) ↔
      stem ≠ "" ∧ name = stem ++ "." ++ extension ∧ '.' ∉ extension.toList := by
  have hname : name = stem ++ "." ++ extension ↔
      name.toList = stem.toList ++ '.' :: extension.toList := by
    rw [← String.toList_inj]
    simp
  rw [hname, ← splitLastDot_eq_some]
  unfold splitName
  constructor
  · intro h
    split at h
    · rename_i c before after hsplit
      simp only [Prod.mk.injEq, Option.some.injEq] at h
      obtain ⟨rfl, rfl⟩ := h
      refine ⟨fun hempty => ?_, by simpa using hsplit⟩
      simpa using congrArg String.toList hempty
    · cases h
  · rintro ⟨hstem, hsplit⟩
    rw [hsplit]
    cases hchars : stem.toList with
    | nil => exact absurd (String.toList_inj.mp (by simpa using hchars)) hstem
    | cons c before =>
      simp only [Prod.mk.injEq, Option.some.injEq]
      exact ⟨by rw [← hchars, String.ofList_toList], String.ofList_toList⟩

end Path

namespace FileTree

/-- All names in the tree are those of entries. -/
def isProper : FileTree → Bool
  | empty => true
  | file name _ rest => Path.isProper name && rest.isProper
  | directory name inside rest => Path.isProper name && inside.isProper && rest.isProper

theorem isProper_child {t inside : FileTree} {name : String} (h : t.isProper = true)
    (hc : t.child? name = some (.directory inside)) : inside.isProper = true := by
  induction t with
  | empty => cases hc
  | file n content rest ih =>
    simp only [isProper, Bool.and_eq_true] at h
    simp only [child?] at hc
    split at hc
    · cases hc
    · exact ih h.2 hc
  | directory n below rest ihb ih =>
    simp only [isProper, Bool.and_eq_true] at h
    simp only [child?] at hc
    split at hc
    · cases hc
      exact h.1.2
    · exact ih h.2 hc

theorem isProper_node {t inside : FileTree} {key : Key} (h : t.isProper = true)
    (hn : t.node? key = some (.directory inside)) : inside.isProper = true := by
  induction key generalizing t with
  | nil =>
    cases hn
    exact h
  | cons name below ih =>
    simp only [node?] at hn
    split at hn
    · cases hn
    · split at hn <;> cases hn
    · rename_i next hnext
      exact ih (isProper_child h hnext) hn

theorem isProper_of_mem_listing {t : FileTree} (h : t.isProper = true) {name : String}
    (hm : name ∈ t.listing) : Path.isProper name = true := by
  induction t with
  | empty => cases hm
  | file n content rest ih =>
    simp only [isProper, Bool.and_eq_true] at h
    rcases List.mem_cons.mp hm with rfl | hm
    · exact h.1
    · exact ih h.2 hm
  | directory n below rest ihb ih =>
    simp only [isProper, Bool.and_eq_true] at h
    rcases List.mem_cons.mp hm with rfl | hm
    · exact h.1.1
    · exact ih h.2 hm

end FileTree

/-- **What a directory lists are names of entries.** -/
theorem Disk.isProper_of_readDirectory {d : Disk} {p : Path} {names : List String}
    (h : d.tree.isProper = true) (hr : d.readDirectory p = .ok names) {name : String}
    (hm : name ∈ names) : Path.isProper name = true := by
  unfold readDirectory at hr
  split at hr
  · cases hr
  · split at hr <;> cases hr
    unfold FileTree.names at hm
    split at hm
    · rename_i inside hnode
      exact FileTree.isProper_of_mem_listing (FileTree.isProper_node h hnode) hm
    · cases hm

end Workbench
