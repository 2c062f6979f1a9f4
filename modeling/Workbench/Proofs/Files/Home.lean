import Workbench.Files.Path

/-!
# The home directory

A path is a text cut at its slashes.  Cutting and printing are inverse to each other, and what is
joined prints as one text behind the other.

* `Path.text_ofString` and `Path.ofString_text`: a text and its path can be told from each other;
* `Path.text_join`: the text of a path behind another one;
* `Path.expandHome_text`: **a path in which the home directory stands for `~/` is not changed by
  another replacement**, if the home directory is not empty and does not begin with a tilde itself.
-/

namespace Workbench

namespace Path

/-! ## 1. Texts and their paths -/

theorem splitChars_eq_splitOn (cs : List Char) : splitChars cs = cs.splitOn '/' := by
  induction cs with
  | nil => exact (List.splitOn_nil '/').symm
  | cons c cs ih =>
    rw [List.splitOn_cons_eq_if_modifyHead, splitChars, ih]
    by_cases hc : (c == '/') = true
    · rw [if_pos hc, if_pos hc]
    · rw [if_neg hc, if_neg hc]
      cases hsplit : cs.splitOn '/' with
      | nil => exact absurd hsplit (List.splitOn_ne_nil '/' cs)
      | cons s ss => rfl

theorem slash_notMem_of_mem_splitChars {cs l : List Char} (h : l ∈ splitChars cs) : '/' ∉ l := by
  induction cs generalizing l with
  | nil =>
    rw [List.mem_singleton.mp h]
    exact List.not_mem_nil
  | cons c cs ih =>
    rw [splitChars] at h
    split at h
    · rcases List.mem_cons.mp h with rfl | h
      · exact List.not_mem_nil
      · exact ih h
    · rename_i hc
      have hne : '/' ≠ c := fun heq => hc (beq_iff_eq.mpr heq.symm)
      split at h
      · rw [List.mem_singleton.mp h, List.mem_singleton]
        exact hne
      · rename_i s ss hsplit
        rw [hsplit] at ih
        rcases List.mem_cons.mp h with rfl | h
        · rw [List.mem_cons]
          exact not_or.mpr ⟨hne, ih List.mem_cons_self⟩
        · exact ih (List.mem_cons_of_mem _ h)

/-- The path is cut at all its slashes. -/
structure IsCut (p : Path) : Prop where
  nonempty : p.segments ≠ []
  slashless : ∀ s ∈ p.segments, '/' ∉ s.toList

theorem isCut_ofString (s : String) : (ofString s).IsCut where
  nonempty := by
    rw [ofString, splitChars_eq_splitOn]
    exact fun h => List.splitOn_ne_nil '/' s.toList (List.map_eq_nil_iff.mp h)
  slashless := by
    intro segment h
    obtain ⟨l, hl, rfl⟩ := List.mem_map.mp h
    rw [String.toList_ofList]
    exact slash_notMem_of_mem_splitChars hl

theorem toList_text (p : Path) :
    p.text.toList = ['/'].intercalate (p.segments.map String.toList) := by
  rw [text, String.toList_intercalate]
  rfl

/-- **The path of a text has this text.** -/
theorem text_ofString (s : String) : (ofString s).text = s := by
  refine String.toList_injective ?_
  have hmap : ((splitChars s.toList).map String.ofList).map String.toList =
      splitChars s.toList := by
    rw [List.map_map]
    exact List.map_id'' (fun l => String.toList_ofList) _
  rw [toList_text, ofString, hmap, splitChars_eq_splitOn, List.intercalate_splitOn]

/-- **The text of a path has this path.** -/
theorem ofString_text {p : Path} (h : p.IsCut) : ofString p.text = p := by
  have hsplit : splitChars p.text.toList = p.segments.map String.toList := by
    rw [splitChars_eq_splitOn, toList_text]
    refine List.splitOn_intercalate '/' ?_ (fun hnil => h.nonempty (List.map_eq_nil_iff.mp hnil))
    intro l hl
    obtain ⟨s, hs, rfl⟩ := List.mem_map.mp hl
    exact h.slashless s hs
  have hmap : (p.segments.map String.toList).map String.ofList = p.segments := by
    rw [List.map_map]
    exact List.map_id'' (fun s => String.ofList_toList) _
  rw [ofString, hsplit, hmap]

theorem isEmpty_ofString {s : String} (h : s ≠ "") : (ofString s).isEmpty = false := by
  refine Bool.eq_false_iff.mpr fun hempty => ?_
  simp only [isEmpty, Bool.or_eq_true, beq_iff_eq] at hempty
  rcases hempty with hnil | hblank
  · exact (isCut_ofString s).nonempty hnil
  · refine h ((text_ofString s).symm.trans ?_)
    rw [text, hblank, String.intercalate_singleton]

/-! ## 2. Joining -/

/-- What stands in front when something is put behind the path: its segments, but for an empty one
at the end. -/
def front (p : Path) : List String :=
  if p.segments.getLast? == some "" then p.segments.dropLast else p.segments

theorem join_eq {p q : Path} (hp : p.isEmpty = false) (hq : q.isAbsolute = false)
    (hne : q.segments ≠ []) : p.join q = ⟨p.front ++ q.segments⟩ := by
  have hsegments : q.segments.isEmpty = false := by simpa using hne
  simp only [join, hq, hp, Bool.or_self, Bool.false_eq_true, if_false, front, hsegments]
  split <;> rfl

theorem front_ne_nil {p : Path} (hp : p.isEmpty = false) : p.front ≠ [] := by
  obtain ⟨segments⟩ := p
  simp only [isEmpty, Bool.or_eq_false_iff, beq_eq_false_iff_ne] at hp
  simp only [front]
  split
  · rename_i hlast
    obtain ⟨before, rfl⟩ := List.getLast?_eq_some_iff.mp (beq_iff_eq.mp hlast)
    rw [List.dropLast_concat]
    rintro rfl
    exact hp.2 rfl
  · exact hp.1

theorem mem_segments_of_mem_front {p : Path} {s : String} (h : s ∈ p.front) : s ∈ p.segments := by
  unfold front at h
  split at h
  · exact List.dropLast_subset _ h
  · exact h

/-- What was cut and is joined is cut. -/
theorem IsCut.join {p q : Path} (hp : p.IsCut) (hq : q.IsCut) : (p.join q).IsCut := by
  cases hskip : q.isAbsolute || p.isEmpty with
  | true =>
    rw [Path.join, if_pos hskip]
    exact hq
  | false =>
    obtain ⟨habs, hempty⟩ := Bool.or_eq_false_iff.mp hskip
    rw [join_eq hempty habs hq.nonempty]
    refine ⟨List.append_ne_nil_of_right_ne_nil _ hq.nonempty, fun s hs => ?_⟩
    rcases List.mem_append.mp hs with hs | hs
    · exact hp.slashless s (mem_segments_of_mem_front hs)
    · exact hq.slashless s hs

/-- **The text of a path behind another one**: one text behind the other, with one slash between
them. -/
theorem text_join {p q : Path} (hp : p.isEmpty = false) (hq : q.isAbsolute = false)
    (hne : q.segments ≠ []) :
    (p.join q).text =
      p.text ++ (if p.segments.getLast? == some "" then "" else "/") ++ q.text := by
  rw [join_eq hp hq hne, text, String.intercalate_append_of_ne_nil (front_ne_nil hp) hne]
  have hfront := front_ne_nil hp
  obtain ⟨segments⟩ := p
  unfold front at hfront ⊢
  split
  · rename_i hlast
    rw [if_pos hlast] at hfront
    obtain ⟨before, rfl⟩ := List.getLast?_eq_some_iff.mp (beq_iff_eq.mp hlast)
    rw [List.dropLast_concat] at hfront ⊢
    rw [text, text, String.intercalate_append_of_ne_nil hfront (List.cons_ne_nil _ _),
      String.intercalate_singleton, String.append_empty, String.append_empty]
  · rfl

/-! ## 3. The home directory -/

/-- A text that does not begin with a tilde is left alone. -/
theorem expandHome_of_head {home : Option String} {s : String} (h : s.toList.head? ≠ some '~') :
    expandHome home s = ofString s := by
  unfold expandHome
  split
  · rename_i hs
    rw [hs] at h
    exact absurd rfl h
  · rfl

theorem head?_text_of_isAbsolute {p : Path} (h : p.isAbsolute = true) :
    p.text.toList.head? = some '/' := by
  unfold isAbsolute at h
  split at h
  · rename_i hsegments
    rw [text, hsegments, String.intercalate_cons_cons, String.empty_append, String.toList_append]
    rfl
  · cases h

theorem head?_append {s t : String} (h : s ≠ "") : (s ++ t).toList.head? = s.toList.head? := by
  rw [String.toList_append]
  cases hs : s.toList with
  | nil => exact absurd (String.toList_injective hs) h
  | cons c cs => rfl

/-- The home directory can stand for `~/`: it is not empty and does not begin with a tilde. -/
def IsHome (h : String) : Prop := h ≠ "" ∧ h.toList.head? ≠ some '~'

instance (h : String) : Decidable (IsHome h) :=
  inferInstanceAs (Decidable (h ≠ "" ∧ h.toList.head? ≠ some '~'))

/-- What comes of the home directory and something behind it. -/
theorem head?_join_home {h : String} (hh : IsHome h) (s : String) :
    ((ofString h).join (ofString s)).text.toList.head? ≠ some '~' := by
  cases habs : (ofString s).isAbsolute with
  | true =>
    rw [join, habs, Bool.true_or, if_pos rfl, head?_text_of_isAbsolute habs]
    decide
  | false =>
    rw [text_join (isEmpty_ofString hh.1) habs (isCut_ofString s).nonempty, text_ofString,
      String.append_assoc, head?_append hh.1]
    exact hh.2

theorem expandHome_cases (home : Option String) (s : String) :
    (∃ h ∈ home, ∃ rest, expandHome home s = (ofString h).join (ofString rest)) ∨
      expandHome home s = ofString s := by
  cases home with
  | none =>
    refine Or.inr ?_
    unfold expandHome
    split
    · rename_i h
      cases h
    · rfl
  | some h =>
    unfold expandHome
    split
    · rename_i rest h' _ heq
      cases heq
      exact Or.inl ⟨h, rfl, String.ofList rest, rfl⟩
    · exact Or.inr rfl

/-- **Another replacement changes nothing.** -/
theorem expandHome_text {home : Option String} (hhome : ∀ h ∈ home, IsHome h) (s : String) :
    expandHome home (expandHome home s).text = expandHome home s := by
  rcases expandHome_cases home s with ⟨h, hh, rest, heq⟩ | heq
  · have hcut := (isCut_ofString h).join (isCut_ofString rest)
    rw [heq, expandHome_of_head (head?_join_home (hhome h hh) rest), ofString_text hcut]
  · rw [heq, text_ofString, heq]

end Path
end Workbench
