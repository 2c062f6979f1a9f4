import Workbench.Files.Path

/-!
# Names behind paths

How a path changes when a name is put behind it.

* `Path.child_eq` is the path, segment by segment, and `Path.child_text_inj` says that the texts of
  two such paths differ when the names do;
* `Path.components_child` and `Path.fileName?_child` are its components and its last one;
* `Path.Below` are the paths that lead down from another one.
-/

namespace Workbench

namespace Path

/-! ## 1. Segments and texts -/

/-- A path is absolute if a slash follows an empty segment. -/
theorem isAbsolute_cons (s : String) (rest : List String) :
    (mk (s :: rest)).isAbsolute = (s == "" && !rest.isEmpty) := by
  by_cases hs : s = ""
  · subst hs
    cases rest <;> rfl
  · unfold isAbsolute
    split
    · rename_i heq
      cases heq
      exact absurd rfl hs
    · simp [hs]

/-- A name behind a path, by the last segment of the path. -/
theorem child_segments (p : Path) (name : String) :
    p.child name =
      if p.isEmpty then ⟨[name]⟩
      else if p.segments.getLast? == some "" then ⟨p.segments.dropLast ++ [name]⟩
      else ⟨p.segments ++ [name]⟩ := by
  unfold child join
  rw [isAbsolute_cons, show ((name == "") && !([] : List String).isEmpty) = false by simp]
  rfl

/-- A name takes the place of an empty segment at the end. -/
theorem child_blank (s : String) (rest : List String) (name : String) :
    (mk (s :: (rest ++ [""]))).child name = ⟨s :: (rest ++ [name])⟩ := by
  rw [child_segments, if_neg (by simp [isEmpty]), ← List.cons_append, List.getLast?_concat,
    List.dropLast_concat, if_pos (beq_self_eq_true _)]
  rfl

/-- What stands in front of a name behind a path: the segments of the path, but for an empty one at
its end. -/
theorem child_eq (p : Path) :
    (p.isEmpty = true ∧ ∀ name, p.child name = ⟨[name]⟩) ∨
      ∃ s rest, (∀ name, p.child name = ⟨s :: (rest ++ [name])⟩) ∧
        ((p = ⟨s :: rest⟩ ∧ (s == "" && rest.isEmpty) = false) ∨ p = ⟨s :: (rest ++ [""])⟩) := by
  cases hempty : p.isEmpty with
  | true => exact Or.inl ⟨rfl, fun name => by rw [child_segments, if_pos hempty]⟩
  | false =>
    have hchild := p.child_segments
    obtain ⟨segments⟩ := p
    simp only [hempty, Bool.false_eq_true, if_false] at hchild
    simp only [isEmpty, Bool.or_eq_false_iff, beq_eq_false_iff_ne] at hempty
    refine Or.inr ?_
    split at hchild
    · rename_i hlast
      obtain ⟨front, rfl⟩ := List.getLast?_eq_some_iff.mp (beq_iff_eq.mp hlast)
      rw [List.dropLast_concat] at hchild
      cases front with
      | nil => exact absurd rfl hempty.2
      | cons s rest => exact ⟨s, rest, hchild, Or.inr rfl⟩
    · cases segments with
      | nil => exact absurd rfl hempty.1
      | cons s rest =>
        refine ⟨s, rest, hchild, Or.inl ⟨rfl, ?_⟩⟩
        cases rest with
        | nil => simpa using hempty.2
        | cons a r => simp

/-- A relative path behind another one: its first segment as a name, and then the others. -/
theorem join_cons (p : Path) {first : String} {others : List String}
    (h : (first == "" && !others.isEmpty) = false) :
    p.join ⟨first :: others⟩ = ⟨(p.child first).segments ++ others⟩ := by
  rw [child_segments, join, isAbsolute_cons, h, Bool.false_or]
  split
  · rfl
  · split <;> simp

/-- The text of a path with a last segment. -/
theorem intercalate_concat (front : List String) (name : String) :
    String.intercalate "/" (front ++ [name]) = String.intercalate "/" (front ++ [""]) ++ name := by
  induction front with
  | nil => simp
  | cons s rest ih =>
    cases rest with
    | nil => simp [String.intercalate_cons_cons]
    | cons a r =>
      simp only [List.cons_append, String.intercalate_cons_cons] at ih ⊢
      rw [ih]
      simp only [String.append_assoc]

/-- The texts of different names behind a path differ. -/
theorem child_text_inj (p : Path) {m n : String} (h : (p.child m).text = (p.child n).text) :
    m = n := by
  have hcut : ∃ front, ∀ name, p.child name = ⟨front ++ [name]⟩ := by
    rcases p.child_eq with ⟨-, hchild⟩ | ⟨s, rest, hchild, -⟩
    · exact ⟨[], hchild⟩
    · exact ⟨s :: rest, hchild⟩
  obtain ⟨front, hchild⟩ := hcut
  rw [hchild, hchild] at h
  simp only [text] at h
  rw [intercalate_concat front m, intercalate_concat front n] at h
  exact (String.append_right_inj _).mp h

/-! ## 2. Components -/

/-- A name that is really one: neither empty nor dots. -/
def IsEntryName (name : String) : Prop := name ≠ "" ∧ name ≠ "." ∧ name ≠ ".."

theorem component?_of_isEntryName {name : String} (h : IsEntryName name) :
    component? name = some (.name name) := by
  obtain ⟨h₁, h₂, h₃⟩ := h
  simp [component?, h₁, h₂, h₃]

theorem isEntryName_of_component? {s name : String} (h : component? s = some (.name name)) :
    s = name ∧ IsEntryName name := by
  unfold component? at h
  split at h
  · cases h
  · rename_i hidle
    split at h
    · cases h
    · rename_i hup
      cases h
      simp only [Bool.or_eq_true, beq_iff_eq, not_or] at hidle
      exact ⟨rfl, hidle.1, hidle.2, by simpa using hup⟩

/-- The components of a path by its first segment. -/
theorem components_cons (s : String) (rest : List String) :
    (mk (s :: rest)).components =
      if s == "" && !rest.isEmpty then .root :: bodyComponents rest
      else if s == "." then .here :: bodyComponents rest else bodyComponents (s :: rest) := by
  by_cases hs : s = ""
  · subst hs
    cases rest <;> rfl
  · unfold components
    split
    · rename_i heq
      cases heq
    · rename_i heq
      cases heq
      exact absurd rfl hs
    · rename_i heq
      cases heq
      simp [hs]

/-- A component that is a name is a segment of the path, and really a name. -/
theorem mem_segments_of_mem {p : Path} {name : String} (h : .name name ∈ p.components) :
    name ∈ p.segments ∧ IsEntryName name := by
  have hbody : ∀ {ss : List String}, .name name ∈ bodyComponents ss →
      name ∈ ss ∧ IsEntryName name := by
    intro ss hmem
    obtain ⟨s, hs, hcomponent⟩ := List.mem_filterMap.mp hmem
    obtain ⟨rfl, hname⟩ := isEntryName_of_component? hcomponent
    exact ⟨hs, hname⟩
  obtain ⟨segments⟩ := p
  cases segments with
  | nil => cases h
  | cons s rest =>
    rw [components_cons] at h
    split at h
    · obtain ⟨hmem, hname⟩ := hbody ((List.mem_cons.mp h).resolve_left (by rintro ⟨⟩))
      exact ⟨List.mem_cons_of_mem s hmem, hname⟩
    · split at h
      · obtain ⟨hmem, hname⟩ := hbody ((List.mem_cons.mp h).resolve_left (by rintro ⟨⟩))
        exact ⟨List.mem_cons_of_mem s hmem, hname⟩
      · exact hbody h

/-- The file name is the last component, if that is a name. -/
theorem fileName?_eq_some {p : Path} {name : String} :
    p.fileName? = some name ↔ p.components.getLast? = some (.name name) := by
  unfold fileName?
  constructor
  · intro h
    split at h <;> cases h
    assumption
  · intro h
    rw [h]

theorem isEntryName_of_fileName? {p : Path} {name : String} (h : p.fileName? = some name) :
    IsEntryName name :=
  (mem_segments_of_mem (List.mem_of_getLast? (fileName?_eq_some.mp h))).2

theorem bodyComponents_append (ss rest : List String) :
    bodyComponents (ss ++ rest) = bodyComponents ss ++ bodyComponents rest :=
  List.filterMap_append

theorem bodyComponents_name {name : String} (h : IsEntryName name) :
    bodyComponents [name] = [.name name] := by
  simp [bodyComponents, component?_of_isEntryName h]

/-- An empty segment at the end means nothing. -/
theorem components_blank (s : String) (rest : List String) :
    (mk (s :: (rest ++ [""]))).components =
      if s == "" then .root :: bodyComponents rest
      else if s == "." then .here :: bodyComponents rest else bodyComponents (s :: rest) := by
  have hblank : bodyComponents [""] = [] := rfl
  rw [components_cons, show (rest ++ [""]).isEmpty = false by simp, Bool.not_false, Bool.and_true,
    ← List.cons_append, bodyComponents_append, bodyComponents_append, hblank, List.append_nil,
    List.append_nil]

/-- The components of an absolute path. -/
theorem components_root {rest : List String} (h : rest ≠ []) :
    (mk ("" :: rest)).components = .root :: bodyComponents rest := by
  rw [components_cons, List.isEmpty_eq_false_iff.mpr h]
  rfl

/-- Those of a path that begins with a dot. -/
theorem components_here (rest : List String) :
    (mk ("." :: rest)).components = .here :: bodyComponents rest := by
  rw [components_cons, if_neg (by simp), if_pos (beq_self_eq_true _)]

/-- Those of a path that begins with a name or with two dots. -/
theorem components_plain {s : String} (rest : List String) (h : s ≠ "" ∧ s ≠ ".") :
    (mk (s :: rest)).components = bodyComponents (s :: rest) := by
  rw [components_cons, if_neg (by simp [h.1]), if_neg (by simp [h.2])]

theorem components_of_isEmpty {p : Path} (h : p.isEmpty = true) : p.components = [] := by
  obtain ⟨segments⟩ := p
  simp only [isEmpty, Bool.or_eq_true, beq_iff_eq] at h
  rcases h with rfl | rfl <;> rfl

/-- **A relative path behind another one** goes on with its own components; a dot at its beginning
means nothing there. -/
theorem components_join {p q : Path} (hp : p.isEmpty = false) (hq : q.isAbsolute = false)
    (hne : q.segments ≠ []) :
    (p.join q).components = p.components ++ bodyComponents q.segments := by
  obtain ⟨segments⟩ := q
  obtain ⟨first, others, rfl⟩ := List.exists_cons_of_ne_nil hne
  rw [isAbsolute_cons] at hq
  rcases p.child_eq with ⟨hempty, -⟩ | ⟨s, rest, hchild, hcut⟩
  · rw [hp] at hempty
    cases hempty
  · rw [join_cons p hq, hchild]
    simp only [List.cons_append, List.append_assoc, List.nil_append]
    rw [components_cons, show (rest ++ first :: others).isEmpty = false by simp, Bool.not_false,
      Bool.and_true, ← List.cons_append, bodyComponents_append, bodyComponents_append]
    rcases hcut with ⟨rfl, hrest⟩ | rfl
    · rw [components_cons]
      cases hs : s == "" with
      | true =>
        rw [hs, Bool.true_and] at hrest
        simp [hrest]
      | false => by_cases hdot : s = "." <;> simp [hdot]
    · rw [components_blank]
      cases hs : s == "" with
      | true => simp
      | false => by_cases hdot : s = "." <;> simp [hdot]

/-- **A name behind a path is its last component.** -/
theorem components_child (p : Path) {name : String} (h : IsEntryName name) :
    (p.child name).components = p.components ++ [.name name] := by
  have habs : (mk [name]).isAbsolute = false := by simp [isAbsolute_cons]
  rw [← bodyComponents_name h]
  cases hempty : p.isEmpty with
  | true =>
    rw [components_of_isEmpty hempty, List.nil_append, child, join, hempty, Bool.or_true]
    exact components_plain [] ⟨h.1, h.2.1⟩
  | false => exact components_join hempty habs (List.cons_ne_nil name [])

theorem fileName?_child (p : Path) {name : String} (h : IsEntryName name) :
    (p.child name).fileName? = some name := by
  unfold fileName?
  rw [components_child p h, List.getLast?_concat]

/-! ## 3. The path without its last component -/

/-- Segments end in a name or in two dots when the idle ones behind it are dropped. -/
theorem dropIdle_concat (ss : List String) {name : String} (h : IsEntryName name) :
    dropIdle (ss ++ [name]) = ss ++ [name] := by
  induction ss with
  | nil => simp [dropIdle, h.1, h.2.1]
  | cons s ss ih =>
    simp only [List.cons_append, dropIdle, ih]
    cases ss <;> rfl

/-- What is not idle stays in front. -/
theorem dropIdle_cons {s : String} (ss : List String) (h : s ≠ "" ∧ s ≠ ".") :
    dropIdle (s :: ss) = s :: dropIdle ss := by
  simp only [dropIdle]
  cases dropIdle ss <;> simp [h.1, h.2]

/-- No segment that means nothing is left at the end. -/
theorem not_idle_of_dropIdle {ss front : List String} {s : String}
    (h : dropIdle ss = front ++ [s]) : s ≠ "" ∧ s ≠ "." := by
  induction ss generalizing front with
  | nil => simp [dropIdle] at h
  | cons first ss ih =>
    simp only [dropIdle] at h
    split at h
    · split at h
      · simp at h
      · rename_i hidle
        have hsplit : [] ++ [first] = front ++ [s] := h
        obtain ⟨-, hlast⟩ := List.append_inj' hsplit rfl
        cases hlast
        simpa using hidle
    · rename_i hss
      cases front with
      | nil => exact absurd (List.cons.inj h).2 hss
      | cons a f => exact ih (List.cons.inj h).2

/-- What is dropped at the end means nothing. -/
theorem bodyComponents_dropIdle (ss : List String) :
    bodyComponents (dropIdle ss) = bodyComponents ss := by
  induction ss with
  | nil => rfl
  | cons s ss ih =>
    have hcons : ∀ rest,
        bodyComponents (s :: rest) = (component? s).toList ++ bodyComponents rest := by
      intro rest
      unfold bodyComponents
      rw [List.filterMap_cons]
      cases component? s <;> rfl
    rw [hcons, ← ih]
    simp only [dropIdle]
    split
    · rename_i hrest
      rw [hrest]
      split
      · rename_i hidle
        simp [bodyComponents, component?, hidle]
      · exact hcons []
    · exact hcons _

theorem dropIdle_idem (ss : List String) : dropIdle (dropIdle ss) = dropIdle ss := by
  induction ss with
  | nil => rfl
  | cons s ss ih =>
    simp only [dropIdle]
    split
    · rename_i hrest
      split
      · rfl
      · rename_i hidle
        simp [dropIdle, hidle]
    · simp only [dropIdle, ih]

/-- The path without what means nothing at its end. -/
def trimmed (p : Path) : Path :=
  match p.segments with
  | [] => empty
  | s :: rest =>
    match dropIdle rest with
    | [] => if s == "" && !rest.isEmpty then ⟨["", ""]⟩ else ⟨[s]⟩
    | t => ⟨s :: t⟩

/-- A path that ends in a name or in two dots, or in one slash behind that. -/
def IsTidy (p : Path) : Prop :=
  p.segments.tail = dropIdle p.segments.tail ∨ p.segments.tail = dropIdle p.segments.tail ++ [""]

theorem trimmed_cons (s : String) (rest : List String) :
    (mk (s :: rest)).trimmed =
      if dropIdle rest = [] then (if s == "" && !rest.isEmpty then ⟨["", ""]⟩ else ⟨[s]⟩)
      else ⟨s :: dropIdle rest⟩ := by
  simp only [trimmed]
  split
  · rename_i h
    rw [if_pos h]
  · rename_i h
    rw [if_neg h]

/-- A segment that is neither empty nor a dot is a component. -/
theorem component?_of_not_idle {s : String} (h : s ≠ "" ∧ s ≠ ".") :
    ∃ c, component? s = some c := by
  obtain ⟨h₁, h₂⟩ := h
  by_cases hup : s = ".." <;> simp [component?, h₁, h₂, hup]

/-- Above an absolute path. -/
theorem parent?_root {rest : List String} (h : rest ≠ []) :
    (mk ("" :: rest)).parent? =
      if bodyComponents rest = [] then none
      else if dropLastComponent rest = [] then some ⟨["", ""]⟩
      else some ⟨"" :: dropLastComponent rest⟩ := by
  cases rest with
  | nil => exact absurd rfl h
  | cons a r =>
    simp only [parent?, List.isEmpty_iff]
    split
    · rfl
    · split
      · rename_i hnil
        rw [if_pos hnil]
      · rename_i hnil
        rw [if_neg hnil]

/-- Above a path that begins with a dot. -/
theorem parent?_here (rest : List String) :
    (mk ("." :: rest)).parent? =
      if bodyComponents rest = [] then some empty
      else some ⟨"." :: dropLastComponent rest⟩ := by
  simp only [parent?, List.isEmpty_iff]
  rfl

/-- Above a path that begins with a name or with two dots. -/
theorem parent?_name {s : String} (rest : List String) (h : s ≠ "" ∧ s ≠ ".") :
    (mk (s :: rest)).parent? =
      if dropLastComponent (s :: rest) = [] then some empty
      else some ⟨dropLastComponent (s :: rest)⟩ := by
  obtain ⟨c, hc⟩ := component?_of_not_idle h
  have hbody : (bodyComponents (s :: rest)).isEmpty = false := by
    simp [bodyComponents, hc]
  obtain ⟨h₁, h₂⟩ := h
  have hif : (s == ".") = false := by simpa using h₂
  unfold parent?
  split
  · rename_i heq
    cases heq
  · rename_i heq
    cases heq
    exact absurd rfl h₁
  · rename_i heq
    cases heq
    rw [hif, hbody]
    simp only [Bool.false_eq_true, if_false]
    split
    · rename_i hnil
      rw [if_pos hnil]
    · rename_i hnil
      rw [if_neg hnil]

/-- An empty segment at the end is dropped. -/
theorem dropIdle_blank (ss : List String) : dropIdle (ss ++ [""]) = dropIdle ss := by
  induction ss with
  | nil => rfl
  | cons s ss ih => simp only [List.cons_append, dropIdle, ih]

/-- A path without what means nothing at its end, by what stands in front of a name behind it. -/
theorem trimmed_eq {p : Path} {s : String} {rest : List String}
    (hp : (p = ⟨s :: rest⟩ ∧ (s == "" && rest.isEmpty) = false) ∨ p = ⟨s :: (rest ++ [""])⟩) :
    p.trimmed =
      if dropIdle rest = [] then (if s = "" then ⟨["", ""]⟩ else ⟨[s]⟩)
      else ⟨s :: dropIdle rest⟩ := by
  rcases hp with ⟨rfl, hrest⟩ | rfl
  · rw [trimmed_cons]
    by_cases hs : s = ""
    · subst hs
      rw [beq_self_eq_true, Bool.true_and] at hrest
      simp [hrest]
    · simp [hs]
  · rw [trimmed_cons, dropIdle_blank]
    by_cases hs : s = "" <;> simp [hs]

theorem trimmed_of_isEmpty {p : Path} (h : p.isEmpty = true) : p.trimmed = empty := by
  obtain ⟨segments⟩ := p
  simp only [isEmpty, Bool.or_eq_true, beq_iff_eq] at h
  rcases h with rfl | rfl <;> rfl

/-- **Above a name behind a path is the path**, without what means nothing at its end. -/
theorem parent?_child (p : Path) {name : String} (h : IsEntryName name) :
    (p.child name).parent? = some p.trimmed := by
  have hdrop : ∀ ss, dropLastComponent (ss ++ [name]) = dropIdle ss := by
    intro ss
    rw [dropLastComponent, dropIdle_concat ss h, List.dropLast_concat]
  have hbody : ∀ ss, bodyComponents (ss ++ [name]) ≠ [] := by
    intro ss
    simp [bodyComponents_append, bodyComponents_name h]
  rcases p.child_eq with ⟨hempty, hchild⟩ | ⟨s, rest, hchild, hp⟩
  · rw [hchild, trimmed_of_isEmpty hempty, parent?_name [] ⟨h.1, h.2.1⟩, ← List.nil_append [name],
      hdrop []]
    rfl
  · rw [hchild, trimmed_eq hp]
    by_cases hroot : s = ""
    · subst hroot
      rw [parent?_root (by simp), if_neg (hbody rest), hdrop]
      split <;> simp
    · by_cases hhere : s = "."
      · subst hhere
        rw [parent?_here, if_neg (hbody rest), hdrop]
        split
        · rename_i hnil
          simp [hnil]
        · rfl
      · rw [parent?_name _ ⟨hroot, hhere⟩, ← List.cons_append, hdrop]
        rw [dropIdle_cons rest ⟨hroot, hhere⟩]
        split
        · rename_i hnil
          cases hnil
        · by_cases hnil : dropIdle rest = [] <;> simp [hnil]

/-- What means nothing at the end of a path is no component. -/
theorem components_trimmed (p : Path) : p.trimmed.components = p.components := by
  obtain ⟨segments⟩ := p
  cases segments with
  | nil => rfl
  | cons s rest =>
    have hbody := bodyComponents_dropIdle rest
    have hcons : ∀ t, bodyComponents (s :: t) = bodyComponents [s] ++ bodyComponents t :=
      fun t => bodyComponents_append [s] t
    rw [trimmed_cons]
    by_cases hnil : dropIdle rest = []
    · rw [if_pos hnil]
      rw [hnil] at hbody
      by_cases hroot : s = ""
      · subst hroot
        cases hrest : rest.isEmpty with
        | true => simp [List.isEmpty_iff.mp hrest]
        | false =>
          rw [if_pos (by simp), components_cons, components_cons, hrest, ← hbody]
          rfl
      · rw [if_neg (by simp [hroot]), components_cons, components_cons]
        simp only [beq_eq_false_iff_ne.mpr hroot, Bool.false_and, Bool.false_eq_true, if_false]
        rw [hcons rest, ← hbody, show bodyComponents [] = [] from rfl, List.append_nil]
    · have hrest : rest ≠ [] := by
        rintro rfl
        exact hnil rfl
      rw [if_neg hnil, components_cons, components_cons, hcons, hcons rest, hbody]
      simp [hnil, hrest]

theorem dropLastComponent_dropIdle (ss : List String) :
    dropLastComponent (dropIdle ss) = dropLastComponent ss := by
  rw [dropLastComponent, dropLastComponent, dropIdle_idem]

/-- Nor does it matter to what is above the path. -/
theorem parent?_trimmed (p : Path) : p.trimmed.parent? = p.parent? := by
  obtain ⟨segments⟩ := p
  cases segments with
  | nil => rfl
  | cons s rest =>
    have hbody := bodyComponents_dropIdle rest
    have hempty : dropIdle rest = [] → bodyComponents rest = [] := by
      intro hnil
      rw [← hbody, hnil]
      rfl
    rw [trimmed_cons]
    by_cases hroot : s = ""
    · subst hroot
      by_cases hrest : rest = []
      · subst hrest
        rfl
      · rw [parent?_root hrest]
        by_cases hnil : dropIdle rest = []
        · rw [if_pos hnil, if_pos (by simpa using hrest), if_pos (hempty hnil)]
          rfl
        · rw [if_neg hnil, parent?_root hnil, hbody, dropLastComponent_dropIdle]
    · by_cases hhere : s = "."
      · subst hhere
        rw [parent?_here]
        by_cases hnil : dropIdle rest = []
        · rw [if_pos hnil, if_neg (by simp), parent?_here, if_pos (hempty hnil)]
          rfl
        · rw [if_neg hnil, parent?_here, hbody, dropLastComponent_dropIdle]
      · have hlast : ∀ ss, dropLastComponent (s :: dropIdle ss) = dropLastComponent (s :: ss) := by
          intro ss
          rw [← dropIdle_cons ss ⟨hroot, hhere⟩, dropLastComponent_dropIdle]
        rw [parent?_name rest ⟨hroot, hhere⟩, ← hlast rest]
        by_cases hnil : dropIdle rest = []
        · rw [if_pos hnil, if_neg (by simp [hroot]), parent?_name [] ⟨hroot, hhere⟩, hnil]
        · rw [if_neg hnil, parent?_name _ ⟨hroot, hhere⟩]

/-- A tidy path and its trimmed form take names alike. -/
theorem IsTidy.child_trimmed {p : Path} (h : p.IsTidy) (name : String) :
    p.trimmed.child name = p.child name := by
  obtain ⟨segments⟩ := p
  cases segments with
  | nil => rfl
  | cons s rest =>
    simp only [IsTidy, List.tail_cons] at h
    rw [trimmed_cons]
    by_cases hnil : dropIdle rest = []
    · rw [hnil] at h
      rcases h with rfl | rfl
      · simp [dropIdle]
      · by_cases hroot : s = "" <;> simp [hroot, dropIdle, child_segments, isEmpty]
    · rw [if_neg hnil]
      rcases h with hrest | hrest
      · rw [← hrest]
      · have hlast : (s :: dropIdle rest).getLast? ≠ some "" := by
          rw [List.getLast?_cons_of_ne_nil hnil]
          intro heq
          obtain ⟨front, hfront⟩ := List.getLast?_eq_some_iff.mp heq
          exact (not_idle_of_dropIdle hfront).1 rfl
        generalize dropIdle rest = kept at hnil hrest hlast ⊢
        subst hrest
        rw [child_blank, child_segments, if_neg (by simp [isEmpty, hnil]),
          if_neg (by simpa using hlast)]
        rfl

/-- A path that ends in a name has something above it. -/
theorem parent?_of_fileName? {p : Path} {name : String} (h : p.fileName? = some name) :
    ∃ above, p.parent? = some above := by
  obtain ⟨segments⟩ := p
  cases segments with
  | nil => cases h
  | cons s rest =>
    by_cases hroot : s = ""
    · subst hroot
      by_cases hrest : rest = []
      · subst hrest
        cases h
      · rw [parent?_root hrest]
        have hbody : bodyComponents rest ≠ [] := by
          intro hnil
          rw [fileName?, components_cons, hnil] at h
          simp [hrest] at h
        rw [if_neg hbody]
        split <;> exact ⟨_, rfl⟩
    · by_cases hhere : s = "."
      · subst hhere
        rw [parent?_here]
        split <;> exact ⟨_, rfl⟩
      · rw [parent?_name rest ⟨hroot, hhere⟩]
        split <;> exact ⟨_, rfl⟩

end Path

/-- The path leads down from another one. -/
inductive Path.Below (dir : Path) : Path → Prop where
  | here : Below dir dir
  | child {p : Path} (name : String) (h : Below dir p) (hname : name ≠ "..") :
      Below dir (p.child name)

end Workbench
