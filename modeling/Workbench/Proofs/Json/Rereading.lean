import Workbench.Proofs.Json.Spelling

/-!
# Values that are read as they were written

A text of a value is read as the value, if the value has

* its objects in order (`Sorted`), as every value that was read has,
* no numbers but integers of 64 bits, or it would have no text here, and
* no more containers around one another than can be read (`depth`).

The readers are driven by a count of steps, so each statement says how many steps suffice: twice the
number of characters.  `readValueFrom_spells` goes by the value, with any text behind it that lets a
number end; `parse_of_spells` is the statement about whole texts, and `parse_printed` about those
that the printers write.
-/

namespace Workbench
namespace Json

/-! ## 1. Values -/

mutual

/-- How many containers there are around one another. -/
def depth : Json → Nat
  | .arr items => depthItems items + 1
  | .obj members => depthMembers members + 1
  | _ => 0

/-- How many there are at most in the values of a list. -/
def depthItems : List Json → Nat
  | [] => 0
  | j :: rest => max (depth j) (depthItems rest)

/-- How many there are at most in the values of members. -/
def depthMembers : List (String × Json) → Nat
  | [] => 0
  | (_, j) :: rest => max (depth j) (depthMembers rest)

end

theorem depthMembers_le_of_forall {members : List (String × Json)} {n : Nat}
    (h : ∀ m ∈ members, m.2.depth ≤ n) : depthMembers members ≤ n := by
  induction members with
  | nil => exact Nat.zero_le n
  | cons m rest ih =>
    exact Nat.max_le.mpr
      ⟨h m List.mem_cons_self, ih fun m' hm' => h m' (List.mem_cons_of_mem _ hm')⟩

/-! ## 2. Steps of the readers -/

theorem nextItem_item (first : Bool) {gap : List Char} (hgap : Blank gap) {c : Char}
    {rest : List Char} (hspace : isSpace c = false) (hend : c ≠ ']') :
    nextItem first (lead first ++ (gap ++ c :: rest)) = .ok (true, c :: rest) := by
  have hskip : skipSpace (gap ++ c :: rest) = c :: rest := by
    rw [skipSpace_blank hgap, skipSpace_cons hspace]
  have hbracket : (c == ']') = false := beq_eq_false_iff_ne.mpr hend
  cases first with
  | true =>
    simp only [lead, if_true, List.nil_append, nextItem, hskip, hbracket, Bool.false_eq_true,
      if_false]
  | false =>
    have hcomma : skipSpace (',' :: (gap ++ c :: rest)) = ',' :: (gap ++ c :: rest) :=
      skipSpace_cons (by decide) _
    have hlist : (',' == ']') = false := by decide
    simp only [lead, Bool.false_eq_true, if_false, List.cons_append, List.nil_append, nextItem,
      hcomma, hlist, beq_self_eq_true, if_true, hskip, hbracket]

theorem nextItem_end (first : Bool) {cs rest : List Char} (h : skipSpace cs = ']' :: rest) :
    nextItem first cs = .ok (false, ']' :: rest) := by
  simp only [nextItem, h, beq_self_eq_true, if_true]

theorem endList_bracket (rest : List Char) : endList (']' :: rest) = .ok ((), rest) := rfl

theorem nextKey_key (first : Bool) {gap : List Char} (hgap : Blank gap) (key : String)
    (rest : List Char) :
    nextKey first (lead first ++ (gap ++ (stringChars key ++ rest))) = .ok (some key, rest) := by
  have hskip : skipSpace (gap ++ (stringChars key ++ rest)) =
      '"' :: (key.toList.flatMap escapeChar ++ '"' :: rest) := by
    rw [skipSpace_blank hgap, stringChars_append, skipSpace_cons (by decide)]
  have hkey :
      nextKey.key (key.toList.flatMap escapeChar ++ '"' :: rest) = .ok (some key, rest) := by
    simp only [nextKey.key, readString_stringChars]
  have hbrace : ('"' == '\x7d') = false := by decide
  cases first with
  | true =>
    simp only [lead, if_true, List.nil_append, nextKey, hskip, hbrace, Bool.false_eq_true, if_false,
      beq_self_eq_true, hkey]
  | false =>
    have hcomma : skipSpace (',' :: (gap ++ (stringChars key ++ rest))) =
        ',' :: (gap ++ (stringChars key ++ rest)) := skipSpace_cons (by decide) _
    have hobject : (',' == '\x7d') = false := by decide
    simp only [lead, Bool.false_eq_true, if_false, List.cons_append, List.nil_append, nextKey,
      hcomma, hobject, beq_self_eq_true, if_true, hskip, hkey]

theorem nextKey_end (first : Bool) {cs rest : List Char} (h : skipSpace cs = '\x7d' :: rest) :
    nextKey first cs = .ok (none, '\x7d' :: rest) := by
  simp only [nextKey, h, beq_self_eq_true, if_true]

theorem endObject_brace (rest : List Char) : endObject ('\x7d' :: rest) = .ok ((), rest) := rfl

theorem readColon_colon (rest : List Char) : readColon (':' :: rest) = .ok ((), rest) := rfl

section Steps

variable {n depth : Nat} {first : Bool} {cs rest rest' : List Char} {j : Json}

theorem readValueFrom_scalar {c : Char} (hcs : skipSpace cs = c :: rest) (hlist : c ≠ '[')
    (hobject : c ≠ '\x7b') : readValueFrom (n + 1) depth cs = readScalar c rest := by
  simp only [readValueFrom, hcs, beq_eq_false_iff_ne.mpr hlist, beq_eq_false_iff_ne.mpr hobject,
    Bool.false_eq_true, if_false]

theorem readValueFrom_list {items : List Json} (hcs : skipSpace cs = '[' :: rest)
    (hitems : readItemsFrom n depth true [] rest = .ok (items, ']' :: rest')) :
    readValueFrom (n + 1) (depth + 1) cs = .ok (.arr items, rest') := by
  simp only [readValueFrom, hcs, beq_self_eq_true, if_true, hitems, endList_bracket]

theorem readValueFrom_object {members : List (String × Json)} (hcs : skipSpace cs = '\x7b' :: rest)
    (hmembers : readMembersFrom n depth true [] rest = .ok (members, '\x7d' :: rest')) :
    readValueFrom (n + 1) (depth + 1) cs = .ok (.obj members, rest') := by
  have hlist : ('\x7b' == '[') = false := by decide
  simp only [readValueFrom, hcs, hlist, Bool.false_eq_true, if_false, beq_self_eq_true, if_true,
    hmembers, endObject_brace]

theorem readItemsFrom_next {acc : List Json} (hnext : nextItem first cs = .ok (true, rest))
    (hvalue : readValueFrom n depth rest = .ok (j, rest')) :
    readItemsFrom (n + 1) depth first acc cs = readItemsFrom n depth false (j :: acc) rest' := by
  simp only [readItemsFrom, hnext, hvalue]

theorem readItemsFrom_end {acc : List Json} (hnext : nextItem first cs = .ok (false, rest)) :
    readItemsFrom (n + 1) depth first acc cs = .ok (acc.reverse, rest) := by
  simp only [readItemsFrom, hnext]

theorem readMembersFrom_next {acc : List (String × Json)} {key : String}
    (hnext : nextKey first cs = .ok (some key, ':' :: rest))
    (hvalue : readValueFrom n depth rest = .ok (j, rest')) :
    readMembersFrom (n + 1) depth first acc cs =
      readMembersFrom n depth false (insertMember key j acc) rest' := by
  simp only [readMembersFrom, hnext, readColon_colon, hvalue]

theorem readMembersFrom_end {acc : List (String × Json)}
    (hnext : nextKey first cs = .ok (none, rest)) :
    readMembersFrom (n + 1) depth first acc cs = .ok (acc, rest) := by
  simp only [readMembersFrom, hnext]

end Steps

/-! ## 3. Values -/

theorem exists_step {cs : List Char} {n : Nat} (hcs : cs ≠ []) (h : 2 * cs.length ≤ n) :
    ∃ m, n = m + 1 := by
  have hpos : 0 < cs.length := List.length_pos_of_ne_nil hcs
  exact ⟨n - 1, by omega⟩

/-- A container needs one level of depth. -/
theorem exists_level {inner depth : Nat} (h : inner + 1 ≤ depth) :
    ∃ outer, depth = outer + 1 ∧ inner ≤ outer := ⟨depth - 1, by omega, by omega⟩

section Scalars

variable {n depth : Nat} {rest cs : List Char}

theorem readValueFrom_null (hcs : skipSpace cs = "null".toList ++ rest) :
    readValueFrom (n + 1) depth cs = .ok (.null, rest) := by
  have hcs : skipSpace cs = 'n' :: ("ull".toList ++ rest) := hcs
  rw [readValueFrom_scalar hcs (by decide) (by decide)]
  exact readScalar_null rest

theorem readValueFrom_bool {b : Bool}
    (hcs : skipSpace cs = (if b then "true" else "false").toList ++ rest) :
    readValueFrom (n + 1) depth cs = .ok (.bool b, rest) := by
  cases b with
  | true =>
    have hcs : skipSpace cs = 't' :: ("rue".toList ++ rest) := hcs
    rw [readValueFrom_scalar hcs (by decide) (by decide)]
    exact readScalar_true rest
  | false =>
    have hcs : skipSpace cs = 'f' :: ("alse".toList ++ rest) := hcs
    rw [readValueFrom_scalar hcs (by decide) (by decide)]
    exact readScalar_false rest

theorem readValueFrom_number {i : Int} (hi : IsWhole i) (hends : Ends rest)
    (hcs : skipSpace cs = (Number.int i).text.toList ++ rest) :
    readValueFrom (n + 1) depth cs = .ok (.num (.int i), rest) := by
  obtain ⟨c, more, htext, hc⟩ := head_number i
  have hlist : c ≠ '[' := by
    rcases hc with hc | rfl
    · rintro rfl
      exact absurd hc (by decide)
    · decide
  have hobject : c ≠ '\x7b' := by
    rcases hc with hc | rfl
    · rintro rfl
      exact absurd hc (by decide)
    · decide
  have hcs' : skipSpace cs = c :: (more ++ rest) := by
    rw [hcs, htext, List.cons_append]
  rw [readValueFrom_scalar hcs' hlist hobject]
  exact readScalar_number hi hends (by rw [htext, List.cons_append])

theorem readValueFrom_string {s : String} (hcs : skipSpace cs = stringChars s ++ rest) :
    readValueFrom (n + 1) depth cs = .ok (.str s, rest) := by
  rw [stringChars_append] at hcs
  rw [readValueFrom_scalar hcs (by decide) (by decide)]
  exact readScalar_string s rest

end Scalars

mutual

/-- **A value is read from each of its texts**, if there are steps enough. -/
theorem readValueFrom_spells : (j : Json) → {depth n : Nat} → {cs rest text : List Char} →
    j.Sorted → j.Spells cs → j.depth ≤ depth → 2 * cs.length ≤ n → Ends rest →
    skipSpace text = cs ++ rest → readValueFrom n depth text = .ok (j, rest)
  | .null, depth, n, cs, rest, text, _, hcs, _, hn, _, htext => by
    cases hcs
    obtain ⟨n, rfl⟩ := exists_step (List.cons_ne_nil _ _) hn
    exact readValueFrom_null htext
  | .bool b, depth, n, cs, rest, text, _, hcs, _, hn, _, htext => by
    cases hcs
    obtain ⟨n, rfl⟩ := exists_step (by cases b <;> exact List.cons_ne_nil _ _) hn
    exact readValueFrom_bool htext
  | .num (.int i), depth, n, cs, rest, text, _, ⟨hi, hcs⟩, _, hn, hends, htext => by
    obtain ⟨c, more, hhead, -⟩ := head_number i
    obtain ⟨n, rfl⟩ := exists_step (by rw [hcs, hhead]; exact List.cons_ne_nil c more) hn
    exact readValueFrom_number hi hends (hcs ▸ htext)
  | .str s, depth, n, cs, rest, text, _, hcs, _, hn, _, htext => by
    cases hcs
    obtain ⟨n, rfl⟩ := exists_step (List.cons_ne_nil _ _) hn
    exact readValueFrom_string htext
  | .arr items, depth, n, cs, rest, text, hsorted, hcs, hdepth, hn, _, htext => by
    obtain ⟨inside, gap, hinside, hgap, rfl⟩ := hcs
    obtain ⟨depth, rfl, hinner⟩ := exists_level hdepth
    obtain ⟨n, rfl⟩ := exists_step (List.cons_ne_nil _ _) hn
    have hsteps : 2 * inside.length + 1 ≤ n := by
      simp only [List.length_cons, List.length_append] at hn
      omega
    have htext : skipSpace text = '[' :: (inside ++ (gap ++ ']' :: rest)) := by
      rw [htext]
      simp only [List.cons_append, List.append_assoc, List.nil_append]
    exact readValueFrom_list htext
      (readItemsFrom_spells items hsorted hinside hinner hgap hsteps)
  | .obj members, depth, n, cs, rest, text, hsorted, hcs, hdepth, hn, _, htext => by
    obtain ⟨inside, gap, hinside, hgap, rfl⟩ := hcs
    obtain ⟨depth, rfl, hinner⟩ := exists_level hdepth
    obtain ⟨n, rfl⟩ := exists_step (List.cons_ne_nil _ _) hn
    have hsteps : 2 * inside.length + 1 ≤ n := by
      simp only [List.length_cons, List.length_append] at hn
      omega
    have htext : skipSpace text = '\x7b' :: (inside ++ (gap ++ '\x7d' :: rest)) := by
      rw [htext]
      simp only [List.cons_append, List.append_assoc, List.nil_append]
    have hread := readValueFrom_object htext
      (readMembersFrom_spells members hsorted.2 hinside hinner hgap hsteps)
    have hkept : members.foldl (fun acc m => insertMember m.1 m.2 acc) [] = members :=
      sortMembers_of_keysIncrease hsorted.1
    rw [hread, hkept]

/-- The items of a list are read from each of their texts. -/
theorem readItemsFrom_spells : (items : List Json) → {depth n : Nat} → {first : Bool} →
    {acc : List Json} → {cs gap rest : List Char} → SortedItems items → SpellsItems items cs →
    depthItems items ≤ depth → Blank gap → 2 * cs.length + 1 ≤ n →
    readItemsFrom n depth first acc
        (lead (first || items.isEmpty) ++ (cs ++ (gap ++ ']' :: rest))) =
      .ok (acc.reverse ++ items, ']' :: rest)
  | [], depth, n + 1, first, acc, cs, gap, rest, _, hcs, _, hgap, _ => by
    obtain rfl : cs = [] := hcs
    have hend : nextItem first (gap ++ ']' :: rest) = .ok (false, ']' :: rest) :=
      nextItem_end first (by rw [skipSpace_blank hgap, skipSpace_cons (by decide)])
    rw [List.isEmpty_nil, Bool.or_true, List.append_nil]
    exact readItemsFrom_end hend
  | j :: items, depth, n + 1, first, acc, cs, gap, rest, hsorted, hcs, hdepth, hgap, hn => by
    obtain ⟨before, value, more, hbefore, hvalue, hmore, rfl⟩ := hcs
    obtain ⟨hfirst, hothers⟩ := Nat.max_le.mp hdepth
    obtain ⟨c, r, hhead, hspace, hmark, -⟩ := head_of_spells hvalue
    have hlength : 0 < value.length := by
      rw [hhead]
      exact Nat.succ_pos _
    simp only [List.length_append] at hn
    -- what stands behind the first item
    let behind := lead items.isEmpty ++ (more ++ (gap ++ ']' :: rest))
    have hends : Ends behind := ends_behind (by rintro rfl; exact hmore) hgap (ends_bracket rest)
    have hread : readValueFrom n depth (value ++ behind) = .ok (j, behind) :=
      readValueFrom_spells j hsorted.1 hvalue hfirst (by omega) hends
        (skipSpace_spells hvalue behind)
    have hnext : nextItem first (lead first ++ (before ++ (value ++ behind))) =
        .ok (true, value ++ behind) := by
      rw [hhead]
      exact nextItem_item first hbefore hspace hmark
    have htext : lead (first || (j :: items).isEmpty) ++
        (before ++ (value ++ (lead items.isEmpty ++ more)) ++ (gap ++ ']' :: rest)) =
        lead first ++ (before ++ (value ++ behind)) := by
      simp only [List.isEmpty_cons, Bool.or_false, behind, List.append_assoc]
    have hrest : readItemsFrom n depth false (j :: acc) behind =
        .ok ((j :: acc).reverse ++ items, ']' :: rest) :=
      readItemsFrom_spells items hsorted.2 hmore hothers hgap (by omega)
    rw [htext, readItemsFrom_next hnext hread, hrest, List.reverse_cons, List.append_assoc]
    rfl

/-- The members of an object are read from each of their texts, and put where they belong. -/
theorem readMembersFrom_spells : (members : List (String × Json)) → {depth n : Nat} →
    {first : Bool} → {acc : List (String × Json)} → {cs gap rest : List Char} →
    SortedMembers members → SpellsMembers members cs → depthMembers members ≤ depth → Blank gap →
    2 * cs.length + 1 ≤ n →
    readMembersFrom n depth first acc
        (lead (first || members.isEmpty) ++ (cs ++ (gap ++ '\x7d' :: rest))) =
      .ok (members.foldl (fun acc m => insertMember m.1 m.2 acc) acc, '\x7d' :: rest)
  | [], depth, n + 1, first, acc, cs, gap, rest, _, hcs, _, hgap, _ => by
    obtain rfl : cs = [] := hcs
    have hend : nextKey first (gap ++ '\x7d' :: rest) = .ok (none, '\x7d' :: rest) :=
      nextKey_end first (by rw [skipSpace_blank hgap, skipSpace_cons (by decide)])
    rw [List.isEmpty_nil, Bool.or_true]
    exact readMembersFrom_end hend
  | (key, j) :: members, depth, n + 1, first, acc, cs, gap, rest, hsorted, hcs, hdepth, hgap,
      hn => by
    obtain ⟨before, before', value, more, hbefore, hbefore', hvalue, hmore, rfl⟩ := hcs
    obtain ⟨hfirst, hothers⟩ := Nat.max_le.mp hdepth
    simp only [List.length_append, List.length_cons] at hn
    -- what stands behind the first member
    let behind := lead members.isEmpty ++ (more ++ (gap ++ '\x7d' :: rest))
    have hends : Ends behind := ends_behind (by rintro rfl; exact hmore) hgap (ends_brace rest)
    have hnext : nextKey first (lead first ++ (before ++ (stringChars key ++
        ':' :: (before' ++ (value ++ behind))))) =
        .ok (some key, ':' :: (before' ++ (value ++ behind))) :=
      nextKey_key first hbefore key _
    have hread : readValueFrom n depth (before' ++ (value ++ behind)) = .ok (j, behind) :=
      readValueFrom_spells j hsorted.1 hvalue hfirst (by omega) hends
        (by rw [skipSpace_blank hbefore', skipSpace_spells hvalue])
    have htext : lead (first || ((key, j) :: members).isEmpty) ++
        (before ++ (stringChars key ++ ':' :: (before' ++ (value ++
          (lead members.isEmpty ++ more)))) ++ (gap ++ '\x7d' :: rest)) =
        lead first ++ (before ++ (stringChars key ++ ':' :: (before' ++ (value ++ behind)))) := by
      simp only [List.isEmpty_cons, Bool.or_false, behind, List.append_assoc, List.cons_append]
    rw [htext, readMembersFrom_next hnext hread, List.foldl_cons]
    exact readMembersFrom_spells members hsorted.2 hmore hothers hgap (by omega)

end

/-! ## 4. Whole texts -/

theorem parse_of_readValue {text : String} {j : Json}
    (h : readValueFrom (2 * text.toList.length + 2) maxDepth text.toList = .ok (j, [])) :
    parse text = .ok j := by
  have hread : readValue maxDepth text.toList = .ok (j, []) := h
  simp only [parse, hread]
  rfl

/-- **A value is read from each of its texts.** -/
theorem parse_of_spells {j : Json} (hsorted : j.Sorted) (hdepth : j.depth ≤ maxDepth)
    {text : String} (htext : j.Spells text.toList) : parse text = .ok j := by
  have hskip : skipSpace text.toList = text.toList ++ [] := by
    have h := skipSpace_spells htext []
    rwa [List.append_nil] at h ⊢
  exact parse_of_readValue
    (readValueFrom_spells j hsorted htext hdepth (by omega) trivial hskip)

/-- **An object whose members stand in any order is read with its members in order.** -/
theorem parse_of_spells_obj {members : List (String × Json)} (hsorted : SortedMembers members)
    (hdepth : depthMembers members < maxDepth) {text : String}
    (htext : (Json.obj members).Spells text.toList) : parse text = .ok (object members) := by
  refine parse_of_readValue ?_
  obtain ⟨inside, gap, hinside, hgap, hchars⟩ := htext
  have hsteps : 2 * inside.length + 1 ≤ 2 * text.toList.length + 1 := by
    rw [hchars, List.length_cons, List.length_append]
    omega
  have hskip : skipSpace text.toList = '\x7b' :: (inside ++ (gap ++ ['\x7d'])) := by
    rw [hchars, skipSpace_cons (by decide)]
  have hlevel : depthMembers members ≤ maxDepth - 1 := by omega
  exact readValueFrom_object hskip
    (readMembersFrom_spells members hsorted hinside hlevel hgap hsteps)

/-- **A value is read as it was written**, by either printer. -/
theorem parse_printed {j : Json} (hsorted : j.Sorted) (hwhole : j.Whole)
    (hdepth : j.depth ≤ maxDepth) : parse j.compact = .ok j ∧ parse j.pretty = .ok j := by
  refine ⟨parse_of_spells hsorted hdepth ?_, parse_of_spells hsorted hdepth ?_⟩
  · rw [compact, String.toList_ofList]
    exact spells_compact j hwhole
  · rw [pretty, String.toList_ofList]
    exact spells_pretty j 0 hwhole

theorem parse_pretty_obj {members : List (String × Json)} (hsorted : SortedMembers members)
    (hwhole : WholeMembers members) (hdepth : depthMembers members < maxDepth) :
    parse (Json.obj members).pretty = .ok (object members) := by
  refine parse_of_spells_obj hsorted hdepth ?_
  rw [pretty, String.toList_ofList]
  exact spells_pretty (.obj members) 0 hwhole

/-! ## 5. Objects -/

theorem sortedMembers_of_forall {members : List (String × Json)} (h : ∀ m ∈ members, m.2.Sorted) :
    SortedMembers members := by
  induction members with
  | nil => trivial
  | cons m rest ih =>
    exact ⟨h m List.mem_cons_self, ih fun m' hm' => h m' (List.mem_cons_of_mem _ hm')⟩

/-- A value that can stand in a record and still be read as it was written. -/
structure Readable (j : Json) : Prop where
  sorted : j.Sorted
  whole : j.Whole
  depth : j.depth < maxDepth

theorem readable_null : Readable .null := ⟨trivial, trivial, by decide⟩

theorem readable_bool (b : Bool) : Readable (.bool b) := ⟨trivial, trivial, Nat.succ_pos 126⟩

theorem readable_str (s : String) : Readable (.str s) := ⟨trivial, trivial, Nat.succ_pos 126⟩

/-- **An object of such values is read as it was written**, if its keys are different. -/
theorem parse_pretty_object {members : List (String × Json)} (hkeys : (keys members).Nodup)
    (h : ∀ m ∈ members, m.2.Readable) : parse (object members).pretty = .ok (object members) := by
  have hmem : ∀ m ∈ sortMembers members, m.2.Readable := fun m hm =>
    h m ((sortMembers_perm hkeys).mem_iff.mp hm)
  refine (parse_printed (object_sorted (sortedMembers_of_forall fun m hm => (h m hm).sorted))
    (wholeMembers_of_forall fun m hm => (hmem m hm).whole) ?_).2
  exact Nat.succ_le_succ (depthMembers_le_of_forall fun m hm => Nat.le_of_lt_succ (hmem m hm).depth)

end Json
end Workbench
