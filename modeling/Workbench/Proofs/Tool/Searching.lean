import Workbench.Proofs.Text.Words
import Workbench.Tool.Search

/-!
# Finding tools by words

A query asks for tools by its words alone.  A word speaks of a tool if it occurs in what the tool
says of itself, or if it and a keyword of the tool are part of one another; a tool has points
exactly if some word speaks of it.  The points are sums over the words, so they do not depend on
the order of the words, and the list of the tools depends on nothing but the points.

* `Tool.SpeaksOf` is the relation of a word to a tool, and `Tool.points_pos_iff` ties the points to
  it; all that a tool says of itself is in ASCII, so `Tool.speaksOf_recasts` leaves open what stands
  in a word outside ASCII;
* `Tool.points_perm`: the order of the words does not matter to the points;
* `Tool.findsByWords`: the limit cuts one list, the tools of this list are those that some word
  speaks of, and queries of the same words have the same list.
-/

namespace Workbench
namespace Tool

open Text

/-! ## 1. Words that speak of a tool -/

/-- A word occurs in the name of a tool, in its summary in lower case or in the name of its
category, or it occurs in a keyword or has a keyword in it. -/
def SpeaksOf (word : List Char) (t : ToolInfo) : Prop :=
  word <:+: t.name.toList ∨ word <:+: (lower t.summary).toList ∨
    word <:+: t.category.name.toList ∨
    ∃ keyword ∈ t.keywords, word <:+: keyword.toList ∨ keyword.toList <:+: word

/-- The texts that words are compared with. -/
def told (t : ToolInfo) : List String := t.name :: lower t.summary :: t.category.name :: t.keywords

/-- All of them are in ASCII. -/
theorem isAscii_of_told {t : ToolInfo} (ht : t ∈ all) {s : String} (hs : s ∈ told t) :
    IsAscii s.toList := by
  have hall : (all.all fun t => (told t).all fun s => s.toList.all fun c => !isForeign c) =
      true := by decide +kernel
  simp only [List.all_eq_true, Bool.not_eq_true'] at hall
  exact hall t ht s hs

/-- **What stands in a word outside ASCII does not matter**, as long as something does. -/
theorem speaksOf_recasts {t : ToolInfo} (ht : t ∈ all) {w v : List Char} (h : Recasts w v) :
    SpeaksOf w t ↔ SpeaksOf v t := by
  have hin : ∀ {s}, s ∈ told t → (w <:+: s.toList ↔ v <:+: s.toList) := fun hs =>
    h.infix_iff_of_isAscii (isAscii_of_told ht hs)
  refine or_congr (hin (by simp [told])) (or_congr (hin (by simp [told]))
    (or_congr (hin (by simp [told])) (exists_congr fun keyword => and_congr_right fun hmem => ?_)))
  have hkeyword : keyword ∈ told t := by simp [told, hmem]
  exact or_congr (hin hkeyword) (h.infix_iff (isAscii_of_told ht hkeyword))

theorem contains_iff {s part : String} :
    contains s part = true ↔ part.toList <:+: s.toList := by
  rw [contains, occursIn_iff]
  exact exists_congr fun _ => exists_congr fun _ => eq_comm

/-- A word gives points if it occurs in the name, the summary or the category. -/
theorem wordPoints_pos_iff {t : ToolInfo} {word : String} : 0 < wordPoints t word ↔
    contains t.name word = true ∨ contains (lower t.summary) word = true ∨
      contains t.category.name word = true := by
  simp only [wordPoints, Nat.add_pos_iff_pos_or_pos, or_assoc]
  refine or_congr ?_ (or_congr ?_ ?_) <;> split <;> simp_all

theorem hits_iff {words : List String} {keyword : String} : hits words keyword = true ↔
    ∃ w ∈ words, contains keyword w = true ∨ contains w keyword = true := by
  simp only [hits, List.any_eq_true, Bool.or_eq_true]

/-! ## 2. Points are sums -/

/-- **The order of the words does not matter** to the points. -/
theorem points_perm {words words' : List String} (h : words.Perm words') :
    points words = points words' := by
  have hhits : hits words = hits words' := funext fun _ => h.any_eq
  funext t
  rw [points, points, hhits, h.foldl_eq' fun word _ word' _ n => Nat.add_right_comm n _ _]

/-- Points are added up word by word, by induction over the words. -/
theorem foldl_wordPoints_pos_iff {t : ToolInfo} {words : List String} {n : Nat} :
    0 < words.foldl (fun n word => n + wordPoints t word) n ↔
      0 < n ∨ ∃ word ∈ words, 0 < wordPoints t word := by
  induction words generalizing n with
  | nil => simp
  | cons word words ih =>
    rw [List.foldl_cons, ih, Nat.add_pos_iff_pos_or_pos]
    simp [or_assoc]

/-- **A tool has points exactly if a word speaks of it.** -/
theorem points_pos_iff {words : List String} {t : ToolInfo} :
    0 < points words t ↔ ∃ word ∈ words, SpeaksOf word.toList t := by
  have hkeys : 0 < 3 * t.keywords.countP (hits words) ↔
      ∃ word ∈ words, ∃ keyword ∈ t.keywords,
        contains keyword word = true ∨ contains word keyword = true := by
    rw [Nat.mul_pos_iff_of_pos_left (by omega), List.countP_pos_iff]
    constructor
    · rintro ⟨keyword, hkeyword, h⟩
      obtain ⟨word, hword, h⟩ := hits_iff.mp h
      exact ⟨word, hword, keyword, hkeyword, h⟩
    · rintro ⟨word, hword, keyword, hkeyword, h⟩
      exact ⟨keyword, hkeyword, hits_iff.mpr ⟨word, hword, h⟩⟩
  have hsum : 0 < words.foldl (fun n word => n + wordPoints t word) 0 ↔
      ∃ word ∈ words, 0 < wordPoints t word := by
    simp [foldl_wordPoints_pos_iff]
  rw [points, Nat.add_pos_iff_pos_or_pos, hsum, hkeys, ← exists_or]
  refine exists_congr fun word => ?_
  rw [← and_or_left, wordPoints_pos_iff, SpeaksOf]
  simp only [contains_iff, or_assoc]

/-! ## 3. The list of the tools -/

theorem perm_insertFalling {α : Type} (measure : α → Nat) (x : α) (xs : List α) :
    (insertFalling measure x xs).Perm (x :: xs) := by
  induction xs with
  | nil => exact .refl _
  | cons y r ih =>
    rw [insertFalling]
    split
    · exact .refl _
    · exact (ih.cons y).trans (.swap x y r)

/-- Sorting loses no element and repeats none. -/
theorem perm_sortFalling {α : Type} (measure : α → Nat) (xs : List α) :
    (sortFalling measure xs).Perm xs := by
  induction xs with
  | nil => exact .refl _
  | cons x r ih => exact (perm_insertFalling measure x _).trans (ih.cons x)

theorem mem_ranked {words : List String} {t : ToolInfo} :
    t ∈ ranked words ↔ t ∈ all ∧ ∃ word ∈ words, SpeaksOf word.toList t := by
  rw [ranked, (perm_sortFalling _ _).mem_iff, List.mem_filter, decide_eq_true_eq, points_pos_iff]

theorem length_ranked_le (words : List String) : (ranked words).length ≤ all.length := by
  rw [ranked, (perm_sortFalling _ _).length_eq]
  exact List.length_filter_le _ _

/-- The list of the tools depends on the points alone. -/
theorem ranked_perm {words words' : List String} (h : words.Perm words') :
    ranked words = ranked words' := by
  rw [ranked, ranked, points_perm h]

/-! ## 4. The words of a query -/

/-- **Queries of the same words**: each word as often, in any order, with any blanks between them,
and each ASCII letter in either case. -/
def SameWords (query query' : String) : Prop :=
  ∃ ws ws', Spells query.toList ws ∧ Spells query'.toList ws' ∧
    (ws.map (List.map Char.toLower)).Perm (ws'.map (List.map Char.toLower))

/-- The words of a query are those that it spells in lower case. -/
theorem queryWords_eq {query : String} {ws : List (List Char)}
    (h : Spells (lower query).toList ws) : queryWords query = ws.map String.ofList := by
  rw [queryWords, words, spells_iff.mp h]

/-- They can be taken from the query as it stands: each word goes to lower case, in which the case
of its ASCII letters is lost. -/
theorem queryWords_of_spells {query : String} {ws : List (List Char)}
    (h : Spells query.toList ws) : queryWords query =
      ((ws.map (List.map Char.toLower)).map lowerList).map String.ofList := by
  have hlower : Spells (lower query).toList (ws.map lowerList) := by
    rw [lower, String.toList_ofList]
    exact h.lower
  rw [queryWords_eq hlower, List.map_map, List.map_map, List.map_map]
  exact List.map_congr_left fun w _ => congrArg String.ofList (lowerList_map_toLower w).symm

theorem queryWords_perm {query query' : String} (h : SameWords query query') :
    (queryWords query).Perm (queryWords query') := by
  obtain ⟨ws, ws', hws, hws', hsame⟩ := h
  rw [queryWords_of_spells hws, queryWords_of_spells hws']
  exact (hsame.map lowerList).map String.ofList

/-! ## 5. Searching -/

theorem map_fst_search (query : String) (limit : Nat) :
    (search query limit).map Prod.fst = (ranked (queryWords query)).take limit := by
  simp only [search, List.map_map]
  exact List.map_id _

/-- **A query finds tools by its words.** -/
structure FindsByWords (query : String) : Prop where
  /-- A smaller limit cuts the list. -/
  take : ∀ {m n}, m ≤ n → search query m = (search query n).take m
  /-- Without a limit that tells, the tools are those that some word of the query in lower case
  speaks of, in whichever form its characters outside ASCII take. -/
  finds : ∀ {limit}, all.length ≤ limit → ∀ {text}, LowerForm query text → ∀ t,
    t ∈ (search query limit).map Prod.fst ↔
      t ∈ all ∧ ∃ ws, Spells text ws ∧ ∃ word ∈ ws, SpeaksOf word t
  /-- The same words find the same tools in the same order. -/
  sameWords : ∀ {query'}, SameWords query query' → ∀ limit,
    (search query' limit).map Prod.fst = (search query limit).map Prod.fst

/-- **Every query finds tools by its words.** -/
theorem findsByWords (query : String) : FindsByWords query where
  take := fun h => by
    simp only [search]
    rw [← List.map_take, List.take_take, Nat.min_eq_left h]
  finds := by
    intro limit hlimit text htext t
    have hspells := spells_wordsList (lower query).toList
    obtain ⟨vs, hvs, hforth, hback⟩ := htext.spells hspells
    rw [map_fst_search, List.take_of_length_le (Nat.le_trans (length_ranked_le _) hlimit),
      mem_ranked, queryWords_eq hspells]
    refine and_congr_right fun ht => ?_
    constructor
    · rintro ⟨word, hword, hspeaks⟩
      obtain ⟨cs, hcs, rfl⟩ := List.mem_map.mp hword
      rw [String.toList_ofList] at hspeaks
      obtain ⟨v, hv, hrecast⟩ := hforth cs hcs
      exact ⟨vs, hvs, v, hv, (speaksOf_recasts ht hrecast).mp hspeaks⟩
    · rintro ⟨ws, hws, v, hv, hspeaks⟩
      obtain rfl := (spells_iff.mp hvs).symm.trans (spells_iff.mp hws)
      obtain ⟨cs, hcs, hrecast⟩ := hback v hv
      refine ⟨_, List.mem_map_of_mem hcs, ?_⟩
      rw [String.toList_ofList]
      exact (speaksOf_recasts ht hrecast).mpr hspeaks
  sameWords := fun h limit => by
    rw [map_fst_search, map_fst_search, ranked_perm (queryWords_perm h)]

end Tool
end Workbench
