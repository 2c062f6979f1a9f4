import Workbench.Proofs.Files.Home
import Workbench.Proofs.Files.Making
import Workbench.Proofs.Files.Names

/-!
# Above a path

What is above a path has the components of the path but the last one.  So a directory and a name in
it can be told from the path of the two together, as long as the name is a single component.

* `Path.components_of_parent?` is what is above a path;
* `Path.IsCut.parent?` and `Path.IsCut.isProper`: if the path was cut at all its slashes, so is what
  is above it, and its names hold no slash.
-/

namespace Workbench
namespace Path

/-! ## 1. Components -/

theorem bodyComponents_dropLastComponent (ss : List String) :
    bodyComponents (dropLastComponent ss) = (bodyComponents ss).dropLast := by
  rw [dropLastComponent, bodyComponents_dropIdle, ← bodyComponents_dropIdle ss]
  rcases List.eq_nil_or_concat (dropIdle ss) with hnil | ⟨front, s, hconcat⟩
  · rw [hnil]
    rfl
  · rw [List.concat_eq_append] at hconcat
    obtain ⟨c, hc⟩ := component?_of_not_idle (not_idle_of_dropIdle hconcat)
    have hlast : bodyComponents [s] = [c] := by simp [bodyComponents, hc]
    rw [hconcat, List.dropLast_concat, bodyComponents_append, hlast, List.dropLast_concat]

/-- What is left of the segments begins as they do. -/
theorem dropLastComponent_cons (s : String) (rest : List String) :
    dropLastComponent (s :: rest) = [] ∨ ∃ others, dropLastComponent (s :: rest) = s :: others := by
  cases hcut : dropLastComponent (s :: rest) with
  | nil => exact Or.inl rfl
  | cons first others =>
    have hprefix := dropLastComponent_isPrefix (s :: rest)
    rw [hcut] at hprefix
    exact Or.inr ⟨others, by rw [(List.cons_prefix_cons.mp hprefix).1]⟩

/-- **What is above a path** has all components but the last.  The cases are those of the beginning
of the path. -/
theorem components_of_parent? {p q : Path} (h : p.parent? = some q) :
    q.components = p.components.dropLast := by
  obtain ⟨segments⟩ := p
  cases segments with
  | nil => cases h
  | cons s rest =>
    have hbody := bodyComponents_dropLastComponent rest
    by_cases hroot : s = ""
    · subst hroot
      by_cases hrest : rest = []
      · subst hrest
        cases h
      · rw [parent?_root hrest] at h
        rw [components_root hrest]
        split at h
        · cases h
        · rename_i hsome
          rw [List.dropLast_cons_of_ne_nil hsome, ← hbody]
          split at h <;> cases h
          · rename_i hnil
            rw [hnil]
            rfl
          · rename_i hnil
            exact components_root hnil
    · by_cases hhere : s = "."
      · subst hhere
        rw [parent?_here] at h
        rw [components_here]
        split at h <;> cases h
        · rename_i hnil
          rw [hnil]
          rfl
        · rename_i hsome
          rw [components_here, List.dropLast_cons_of_ne_nil hsome, ← hbody]
      · have hs : s ≠ "" ∧ s ≠ "." := ⟨hroot, hhere⟩
        rw [parent?_name rest hs] at h
        rw [components_plain rest hs, ← bodyComponents_dropLastComponent]
        rcases dropLastComponent_cons s rest with hnil | ⟨others, hcut⟩
        · rw [if_pos hnil] at h
          cases h
          rw [hnil]
          rfl
        · rw [hcut, if_neg (List.cons_ne_nil s others)] at h
          cases h
          rw [hcut]
          exact components_plain others hs

/-! ## 2. Paths that are cut at all their slashes -/

/-- The segments of what is above a path are among those of the path, but for empty ones. -/
theorem mem_segments_of_parent? {p q : Path} (h : p.parent? = some q) :
    q.segments ≠ [] ∧ ∀ s ∈ q.segments, s = "" ∨ s ∈ p.segments := by
  have hkept : ∀ {ss : List String} {s : String}, s ∈ dropLastComponent ss → s ∈ ss :=
    fun hs => (dropLastComponent_isPrefix _).subset hs
  obtain ⟨segments⟩ := p
  cases segments with
  | nil => cases h
  | cons first rest =>
    by_cases hroot : first = ""
    · subst hroot
      by_cases hrest : rest = []
      · subst hrest
        cases h
      · rw [parent?_root hrest] at h
        split at h
        · cases h
        · split at h <;> cases h
          · simp
          · refine ⟨List.cons_ne_nil _ _, fun s hs => ?_⟩
            rcases List.mem_cons.mp hs with rfl | hs
            · exact Or.inl rfl
            · exact Or.inr (List.mem_cons_of_mem _ (hkept hs))
    · by_cases hhere : first = "."
      · subst hhere
        rw [parent?_here] at h
        split at h <;> cases h
        · simp [empty]
        · refine ⟨List.cons_ne_nil _ _, fun s hs => Or.inr ?_⟩
          rcases List.mem_cons.mp hs with rfl | hs
          · exact List.mem_cons_self
          · exact List.mem_cons_of_mem _ (hkept hs)
      · rw [parent?_name rest ⟨hroot, hhere⟩] at h
        split at h <;> cases h
        · simp [empty]
        · rename_i hnil
          exact ⟨hnil, fun s hs => Or.inr (hkept hs)⟩

theorem IsCut.parent? {p q : Path} (hp : p.IsCut) (h : p.parent? = some q) : q.IsCut := by
  obtain ⟨hne, hmem⟩ := mem_segments_of_parent? h
  refine ⟨hne, fun s hs => ?_⟩
  rcases hmem s hs with rfl | hs
  · exact List.not_mem_nil
  · exact hp.slashless s hs

/-- The names of a path that is cut are those of entries. -/
theorem IsCut.isProper {p : Path} (hp : p.IsCut) {name : String} (h : .name name ∈ p.components) :
    Path.isProper name = true := by
  obtain ⟨hmem, h₁, h₂, h₃⟩ := mem_segments_of_mem h
  simp [Path.isProper, h₁, h₂, h₃, hp.slashless name hmem]

/-- So is the last one. -/
theorem IsCut.isProper_fileName {p : Path} (hp : p.IsCut) {name : String}
    (h : p.fileName? = some name) : Path.isProper name = true :=
  hp.isProper (List.mem_of_getLast? (fileName?_eq_some.mp h))

/-- A name of an entry behind a path leaves it cut. -/
theorem IsCut.child {p : Path} (hp : p.IsCut) {name : String} (h : Path.isProper name = true) :
    (p.child name).IsCut := by
  rw [← join_ofString h]
  exact hp.join (isCut_ofString name)

/-- Names of entries with slashes between them are a path that is cut. -/
theorem isCut_of_isProper {names : List String} (hne : names ≠ [])
    (h : ∀ n ∈ names, Path.isProper n = true) : IsCut ⟨names⟩ where
  nonempty := hne
  slashless n hn := by
    have hproper := h n hn
    simp only [Path.isProper, Bool.and_eq_true, Bool.not_eq_true', List.contains_eq_mem,
      decide_eq_false_iff_not] at hproper
    exact hproper.2

/-- **Names of entries can be told from their text** with slashes between them. -/
theorem intercalate_inj {names names' : List String} (h : ∀ n ∈ names, Path.isProper n = true)
    (h' : ∀ n ∈ names', Path.isProper n = true)
    (hsame : String.intercalate "/" names = String.intercalate "/" names') : names = names' := by
  have hblank : ∀ {l : List String}, (∀ n ∈ l, Path.isProper n = true) →
      String.intercalate "/" l = "" → l = [] := by
    intro l hl hempty
    refine Classical.byContradiction fun hne => ?_
    have hcut := ofString_text (isCut_of_isProper hne hl)
    rw [text, hempty] at hcut
    have hsegments : l = [""] := (congrArg segments hcut).symm
    exact absurd (hl "" (by simp [hsegments])) (by decide)
  by_cases hne : names = []
  · subst hne
    exact (hblank h' hsame.symm).symm
  · by_cases hne' : names' = []
    · subst hne'
      exact hblank h hsame
    · have hcut := ofString_text (isCut_of_isProper hne h)
      have hcut' := ofString_text (isCut_of_isProper hne' h')
      rw [text] at hcut hcut'
      rw [hsame, hcut'] at hcut
      exact (congrArg segments hcut).symm

end Path
end Workbench
