import Workbench.Proofs.Json.Members
import Workbench.Proofs.Json.Words

/-!
# The texts of a value

A value has many texts, which differ in the blanks between their parts.  The printers write two of
them.

* `Json.Spells` says of characters that they are a text of a value: its strings and integers are
  written as the printers write them, and any blanks may stand before items, keys, values and ends;
* `head_of_spells`: how a text begins;
* `spells_compact` and `spells_pretty`: **both printers write a text of the value**, if all its
  numbers are integers of 64 bits (`Whole`).
-/

namespace Workbench
namespace Json

/-! ## 1. Texts -/

/-- What stands before an item or a member that is not the first. -/
def lead (first : Bool) : List Char := if first then [] else [',']

mutual

/-- The characters are a text of the value. -/
def Spells : Json → List Char → Prop
  | .null, cs => cs = "null".toList
  | .bool b, cs => cs = (if b then "true" else "false").toList
  | .num (.int i), cs => IsWhole i ∧ cs = (Number.int i).text.toList
  | .num (.double _), _ => False
  | .str s, cs => cs = stringChars s
  | .arr items, cs =>
    ∃ inside gap, SpellsItems items inside ∧ Blank gap ∧ cs = '[' :: (inside ++ (gap ++ [']']))
  | .obj members, cs =>
    ∃ inside gap, SpellsMembers members inside ∧ Blank gap ∧
      cs = '\x7b' :: (inside ++ (gap ++ ['\x7d']))

/-- The characters are a text of the items, with commas between them. -/
def SpellsItems : List Json → List Char → Prop
  | [], cs => cs = []
  | j :: items, cs =>
    ∃ gap value more, Blank gap ∧ Spells j value ∧ SpellsItems items more ∧
      cs = gap ++ (value ++ (lead items.isEmpty ++ more))

/-- The characters are a text of the members, with commas between them. -/
def SpellsMembers : List (String × Json) → List Char → Prop
  | [], cs => cs = []
  | (key, j) :: members, cs =>
    ∃ gap gap' value more, Blank gap ∧ Blank gap' ∧ Spells j value ∧ SpellsMembers members more ∧
      cs = gap ++ (stringChars key ++ ':' :: (gap' ++ (value ++ (lead members.isEmpty ++ more))))

end

theorem digit_is_no_mark {c : Char} (h : c.isDigit = true) : isSpace c = false ∧ c ≠ ']' := by
  have hspace : isSpace c = false := by
    simp only [isSpace, Bool.or_eq_false_iff, beq_eq_false_iff_ne]
    refine ⟨⟨⟨?_, ?_⟩, ?_⟩, ?_⟩ <;> (rintro rfl; exact absurd h (by decide))
  exact ⟨hspace, by rintro rfl; exact absurd h (by decide)⟩

/-- A text begins neither with a blank nor with the end of a list, and with an `n` only if the value
is null. -/
theorem head_of_spells {j : Json} {cs : List Char} (h : j.Spells cs) :
    ∃ c more, cs = c :: more ∧ isSpace c = false ∧ c ≠ ']' ∧ (c = 'n' → j = .null) := by
  match j with
  | .null =>
    cases h
    exact ⟨_, _, rfl, by decide, by decide, fun _ => rfl⟩
  | .bool true =>
    cases h
    exact ⟨_, _, rfl, by decide, by decide, fun hn => absurd hn (by decide)⟩
  | .bool false =>
    cases h
    exact ⟨_, _, rfl, by decide, by decide, fun hn => absurd hn (by decide)⟩
  | .str s =>
    cases h
    exact ⟨_, _, rfl, by decide, by decide, fun hn => absurd hn (by decide)⟩
  | .arr items =>
    obtain ⟨inside, gap, -, -, rfl⟩ := h
    exact ⟨_, _, rfl, by decide, by decide, fun hn => absurd hn (by decide)⟩
  | .obj members =>
    obtain ⟨inside, gap, -, -, rfl⟩ := h
    exact ⟨_, _, rfl, by decide, by decide, fun hn => absurd hn (by decide)⟩
  | .num (.double _) => exact h.elim
  | .num (.int i) =>
    obtain ⟨-, rfl⟩ := h
    obtain ⟨c, more, htext, hc⟩ := head_number i
    refine ⟨c, more, htext, ?_⟩
    rcases hc with hdigit | rfl
    · obtain ⟨hspace, hend⟩ := digit_is_no_mark hdigit
      exact ⟨hspace, hend, fun hn => absurd hn (digit_ne hdigit).1⟩
    · exact ⟨by decide, by decide, fun hn => absurd hn (by decide)⟩

/-- No blank stands in front of a text. -/
theorem skipSpace_spells {j : Json} {cs : List Char} (h : j.Spells cs) (rest : List Char) :
    skipSpace (cs ++ rest) = cs ++ rest := by
  obtain ⟨c, more, rfl, hspace, -⟩ := head_of_spells h
  rw [List.cons_append, skipSpace_cons hspace]

/-! ## 2. What stands behind a text -/

theorem ends_comma (rest : List Char) : Ends (',' :: rest) :=
  ⟨by decide, by decide, by decide, by decide⟩

theorem ends_blank {gap rest : List Char} (h : Blank gap) (hrest : Ends rest) :
    Ends (gap ++ rest) := by
  cases gap with
  | nil => exact hrest
  | cons c gap =>
    have hc : isSpace c = true := h c List.mem_cons_self
    simp only [isSpace, Bool.or_eq_true, beq_iff_eq] at hc
    rcases hc with ((rfl | rfl) | rfl) | rfl <;> exact ⟨by decide, by decide, by decide, by decide⟩

/-- A number is over behind an item or a member. -/
theorem ends_behind {α : Type} {items : List α} {more gap : List Char} {c : Char}
    {rest : List Char} (hmore : items = [] → more = []) (hgap : Blank gap) (hc : Ends (c :: rest)) :
    Ends (lead items.isEmpty ++ (more ++ (gap ++ c :: rest))) := by
  cases items with
  | nil =>
    rw [hmore rfl]
    show Ends (gap ++ c :: rest)
    exact ends_blank hgap hc
  | cons _ _ => exact ends_comma _

theorem ends_bracket (rest : List Char) : Ends (']' :: rest) :=
  ⟨by decide, by decide, by decide, by decide⟩

theorem ends_brace (rest : List Char) : Ends ('\x7d' :: rest) :=
  ⟨by decide, by decide, by decide, by decide⟩

/-- Each item takes a character at least. -/
theorem length_le_of_spellsItems {items : List Json} : {cs : List Char} → SpellsItems items cs →
    items.length ≤ cs.length := by
  induction items with
  | nil => exact fun _ => Nat.zero_le _
  | cons j items ih =>
    rintro _ ⟨gap, value, more, -, hvalue, hmore, rfl⟩
    obtain ⟨c, r, rfl, -⟩ := head_of_spells hvalue
    have := ih hmore
    simp only [List.length_append, List.length_cons]
    omega

/-- So does each member. -/
theorem length_le_of_spellsMembers {members : List (String × Json)} : {cs : List Char} →
    SpellsMembers members cs → members.length ≤ cs.length := by
  induction members with
  | nil => exact fun _ => Nat.zero_le _
  | cons m members ih =>
    rintro _ ⟨gap, gap', value, more, -, -, -, hmore, rfl⟩
    have := ih hmore
    simp only [List.length_append, List.length_cons]
    omega

/-! ## 3. The printers -/

mutual

/-- All numbers in a value are integers of 64 bits. -/
def Whole : Json → Prop
  | .num (.int i) => IsWhole i
  | .num (.double _) => False
  | .arr items => WholeItems items
  | .obj members => WholeMembers members
  | _ => True

/-- So are all numbers in the values of a list. -/
def WholeItems : List Json → Prop
  | [] => True
  | j :: rest => Whole j ∧ WholeItems rest

/-- So are all numbers in the values of members. -/
def WholeMembers : List (String × Json) → Prop
  | [] => True
  | (_, j) :: rest => Whole j ∧ WholeMembers rest

end

theorem wholeMembers_of_forall {members : List (String × Json)} (h : ∀ m ∈ members, m.2.Whole) :
    WholeMembers members := by
  induction members with
  | nil => trivial
  | cons m rest ih =>
    exact ⟨h m List.mem_cons_self, ih fun m' hm' => h m' (List.mem_cons_of_mem _ hm')⟩

/-- The items, or members, that follow one that was written. -/
theorem prettyItems_cons (k : Nat) (j : Json) (items : List Json) :
    prettyItems k (j :: items) = lineStart k ++ (prettyChars k j ++
      if items.isEmpty then [] else lead false ++ prettyItems k items) := by
  cases items with
  | nil => simp only [prettyItems, List.isEmpty_nil, if_true, List.append_nil]
  | cons _ _ =>
    simp only [prettyItems, List.isEmpty_cons, Bool.false_eq_true, if_false, lead,
      List.append_assoc, List.cons_append, List.nil_append]

theorem prettyMembers_cons (k : Nat) (key : String) (j : Json) (members : List (String × Json)) :
    prettyMembers k ((key, j) :: members) = lineStart k ++ (stringChars key ++
      ':' :: ' ' :: (prettyChars k j ++
        if members.isEmpty then [] else lead false ++ prettyMembers k members)) := by
  cases members with
  | nil =>
    simp only [prettyMembers, List.isEmpty_nil, if_true, List.append_nil, List.append_assoc]
  | cons _ _ =>
    simp only [prettyMembers, List.isEmpty_cons, Bool.false_eq_true, if_false, lead,
      List.append_assoc, List.cons_append, List.nil_append]

theorem lead_isEmpty_append {α : Type} (items : List α) (cs : List Char)
    (h : items = [] → cs = []) :
    (if items.isEmpty then [] else lead false ++ cs) = lead items.isEmpty ++ cs := by
  cases items with
  | nil =>
    rw [h rfl]
    rfl
  | cons _ _ => rfl

mutual

/-- **The printer of lines writes a text of the value.** -/
theorem spells_pretty : (j : Json) → (k : Nat) → j.Whole → j.Spells (prettyChars k j)
  | .null, _, _ => rfl
  | .bool _, _, _ => rfl
  | .num (.int _), _, h => ⟨h, rfl⟩
  | .str _, _, _ => rfl
  | .arr [], _, _ => ⟨[], [], rfl, blank_nil, rfl⟩
  | .arr (j :: items), k, h => by
    refine ⟨_, _, spellsItems_pretty (j :: items) (k + 1) h, blank_lineStart k, ?_⟩
    simp only [prettyChars, List.append_assoc]
  | .obj [], _, _ => ⟨[], [], rfl, blank_nil, rfl⟩
  | .obj (m :: members), k, h => by
    refine ⟨_, _, spellsMembers_pretty (m :: members) (k + 1) h, blank_lineStart k, ?_⟩
    simp only [prettyChars, List.append_assoc]

theorem spellsItems_pretty : (items : List Json) → (k : Nat) → WholeItems items →
    SpellsItems items (prettyItems k items)
  | [], _, _ => rfl
  | j :: items, k, ⟨hj, hitems⟩ => by
    refine ⟨lineStart k, _, _, blank_lineStart k, spells_pretty j k hj,
      spellsItems_pretty items k hitems, ?_⟩
    rw [prettyItems_cons, lead_isEmpty_append items _ (by rintro rfl; rfl)]

theorem spellsMembers_pretty : (members : List (String × Json)) → (k : Nat) →
    WholeMembers members → SpellsMembers members (prettyMembers k members)
  | [], _, _ => rfl
  | (key, j) :: members, k, ⟨hj, hmembers⟩ => by
    have hblank : Blank [' '] := fun c hc => by rw [List.mem_singleton.mp hc]; rfl
    refine ⟨lineStart k, [' '], _, _, blank_lineStart k, hblank, spells_pretty j k hj,
      spellsMembers_pretty members k hmembers, ?_⟩
    rw [prettyMembers_cons, lead_isEmpty_append members _ (by rintro rfl; rfl)]
    rfl

end

mutual

/-- **So does the printer without blanks.** -/
theorem spells_compact : (j : Json) → j.Whole → j.Spells j.compactChars
  | .null, _ => rfl
  | .bool _, _ => rfl
  | .num (.int _), h => ⟨h, rfl⟩
  | .str _, _ => rfl
  | .arr items, h => ⟨_, [], spellsItems_compact items h, blank_nil, rfl⟩
  | .obj members, h => ⟨_, [], spellsMembers_compact members h, blank_nil, rfl⟩

theorem spellsItems_compact : (items : List Json) → WholeItems items →
    SpellsItems items (compactItems items)
  | [], _ => rfl
  | [j], ⟨hj, _⟩ =>
    ⟨[], _, [], blank_nil, spells_compact j hj, rfl, (List.append_nil j.compactChars).symm⟩
  | j :: i :: items, ⟨hj, hitems⟩ =>
    ⟨[], _, _, blank_nil, spells_compact j hj, spellsItems_compact (i :: items) hitems, rfl⟩

theorem spellsMembers_compact : (members : List (String × Json)) → WholeMembers members →
    SpellsMembers members (compactMembers members)
  | [], _ => rfl
  | [(key, j)], ⟨hj, _⟩ => by
    refine ⟨[], [], _, [], blank_nil, blank_nil, spells_compact j hj, rfl, ?_⟩
    simp only [compactMembers, List.isEmpty_nil, lead, if_true, List.append_nil, List.nil_append]
  | (key, j) :: m :: members, ⟨hj, hmembers⟩ =>
    ⟨[], [], _, _, blank_nil, blank_nil, spells_compact j hj,
      spellsMembers_compact (m :: members) hmembers, rfl⟩

end

end Json
end Workbench
