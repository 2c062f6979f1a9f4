import Workbench.Text.Blank
import Workbench.Text.Letters

/-!
# Words of a text

A text is cut at its blanks.  What the words are can be said without the cutting: the text is these
words in their order, with blanks between any two and perhaps around all of them.

* `Text.Spells` says this, and `Text.spells_iff` that the words which a text is cut into are the
  only ones that it spells;
* `Text.Spells.lower`: in lower case, a text spells its words in lower case;
* `Text.lowerList_map_toLower`: the case of ASCII letters does not matter to what is put in lower
  case;
* `Text.Recasts` leaves open what becomes of characters outside ASCII.  `Text.Recasts.spells` and
  `Text.Recasts.infix_iff` say that neither the cutting into words nor a comparison with an ASCII
  text can tell.
-/

namespace Workbench
namespace Text

/-! ## 1. Cutting at blanks -/

/-- Nothing but blanks. -/
def IsGap (cs : List Char) : Prop := ∀ c ∈ cs, isBlank c = true

/-- Some characters, none of them blank. -/
def IsWord (cs : List Char) : Prop := cs ≠ [] ∧ ∀ c ∈ cs, isBlank c = false

/-- Nothing, or something that begins with a blank. -/
def Ends (cs : List Char) : Prop := ∀ c r, cs = c :: r → isBlank c = true

/-- **The characters spell words**: these words in this order, with blanks between any two, and
perhaps in front and behind. -/
inductive Spells : List Char → List (List Char) → Prop where
  | gap {cs : List Char} (h : IsGap cs) : Spells cs []
  | word {g w rest : List Char} {ws : List (List Char)} (hgap : IsGap g) (hw : IsWord w)
      (hends : Ends rest) (hrest : Spells rest ws) : Spells (g ++ w ++ rest) (w :: ws)

/-- Blanks in front change nothing. -/
theorem Spells.blank {c : Char} {cs : List Char} {ws : List (List Char)} (hc : isBlank c = true)
    (h : Spells cs ws) : Spells (c :: cs) ws := by
  cases h with
  | gap h => exact .gap (List.forall_mem_cons.mpr ⟨hc, h⟩)
  | @word gap w rest ws hgap hw hends hrest =>
    exact .word (g := c :: gap) (List.forall_mem_cons.mpr ⟨hc, hgap⟩) hw hends hrest

/-- A character that is not blank makes the first word longer, or is a word of its own. -/
theorem Spells.letter {c d : Char} {cs w : List Char} {ws : List (List Char)}
    (hc : isBlank c = false) (hd : isBlank d = false) (h : Spells (d :: cs) (w :: ws)) :
    Spells (c :: d :: cs) ((c :: w) :: ws) := by
  generalize htext : d :: cs = text at h
  cases h with
  | @word gap w rest ws hgap hw hends hrest =>
    cases gap with
    | nil =>
      exact .word (g := []) (w := c :: w) (by simp [IsGap])
        ⟨List.cons_ne_nil c w, List.forall_mem_cons.mpr ⟨hc, hw.2⟩⟩ hends hrest
    | cons b gap =>
      obtain ⟨rfl, -⟩ := List.cons.inj htext
      rw [hgap d List.mem_cons_self] at hd
      cases hd

theorem Spells.single {c : Char} {cs : List Char} {ws : List (List Char)} (hc : isBlank c = false)
    (hends : Ends cs) (h : Spells cs ws) : Spells (c :: cs) ([c] :: ws) :=
  .word (g := []) (w := [c]) (by simp [IsGap])
    ⟨List.cons_ne_nil c [], by simpa using hc⟩ hends h

/-- Without a word, all is blank. -/
theorem Spells.isGap {cs : List Char} (h : Spells cs []) : IsGap cs := by
  cases h with
  | gap h => exact h

/-- A text spells the words that it is cut into, by induction over its characters. -/
theorem spells_wordsList (cs : List Char) : Spells cs (wordsList cs) := by
  induction cs with
  | nil => exact .gap (by simp [IsGap])
  | cons c r ih =>
    simp only [wordsList]
    split
    · rename_i hc
      exact ih.blank hc
    · rename_i hc
      have hc : isBlank c = false := by simpa using hc
      split
      · rename_i d w ws hd hwords
        obtain ⟨rest, rfl⟩ : ∃ rest, r = d :: rest := List.head?_eq_some_iff.mp hd
        rw [hwords] at ih
        split
        · rename_i hblank
          exact ih.single hc fun _ _ hcons => (List.cons.inj hcons).1 ▸ hblank
        · rename_i hblank
          exact ih.letter hc (by simpa using hblank)
      · rename_i hother
        refine ih.single hc fun d rest hr => ?_
        subst hr
        cases hwords : wordsList (d :: rest) with
        | nil =>
          rw [hwords] at ih
          exact ih.isGap d List.mem_cons_self
        | cons w ws => exact absurd hwords (hother d w ws rfl)

theorem wordsList_gap {gap : List Char} (h : IsGap gap) (rest : List Char) :
    wordsList (gap ++ rest) = wordsList rest := by
  induction gap with
  | nil => rfl
  | cons c r ih =>
    obtain ⟨hc, hr⟩ := List.forall_mem_cons.mp h
    simp [wordsList, hc, ih hr]

theorem wordsList_word {w rest : List Char} (hw : IsWord w) (hends : Ends rest) :
    wordsList (w ++ rest) = w :: wordsList rest := by
  obtain ⟨hne, hletters⟩ := hw
  induction w with
  | nil => exact absurd rfl hne
  | cons c r ih =>
    obtain ⟨hc, hr⟩ := List.forall_mem_cons.mp hletters
    cases r with
    | nil =>
      cases rest with
      | nil => simp [wordsList, hc]
      | cons b rest =>
        have hb := hends b rest rfl
        simp only [List.cons_append, List.nil_append]
        rw [wordsList, hc]
        cases wordsList (b :: rest) <;> simp [hb]
    | cons d r =>
      have hd := hr d List.mem_cons_self
      have hmore := ih (List.cons_ne_nil d r) hr
      rw [List.cons_append] at hmore
      simp only [List.cons_append]
      rw [wordsList, hc, hmore]
      simp [hd]

/-- **The words of a text** are those that it spells, and no others. -/
theorem spells_iff {cs : List Char} {ws : List (List Char)} :
    Spells cs ws ↔ wordsList cs = ws := by
  constructor
  · intro h
    induction h with
    | gap h => simpa [wordsList] using wordsList_gap h []
    | word hgap hw hends hrest ih =>
      rw [List.append_assoc, wordsList_gap hgap, wordsList_word hw hends, ih]
  · rintro rfl
    exact spells_wordsList cs

/-! ## 2. Lower case -/

theorem toLower_toLower (c : Char) : c.toLower.toLower = c.toLower := by
  unfold Char.toLower
  split
  · rename_i hupper
    rw [dif_neg]
    simp only [ge_iff_le, UInt32.le_iff_toNat_le, UInt32.toNat_add] at hupper ⊢
    have hA : 'A'.val.toNat = 65 := rfl
    have hZ : 'Z'.val.toNat = 90 := rfl
    have hgap : ('a'.val - 'A'.val).toNat = 32 := rfl
    omega
  · rfl

theorem asciiLower_asciiLower (s : String) : asciiLower (asciiLower s) = asciiLower s := by
  simp only [asciiLower, String.toList_ofList, List.map_map]
  exact congrArg String.ofList (List.map_congr_left fun c _ => toLower_toLower c)

/-- The numbers of a letter and of its lower-case form. -/
theorem toNat_toLower (c : Char) :
    c.toLower = c ∨ 65 ≤ c.toNat ∧ c.toNat ≤ 90 ∧ c.toLower.toNat = c.toNat + 32 := by
  unfold Char.toLower
  split
  · rename_i hupper
    obtain ⟨hA, hZ⟩ := hupper
    have hA : 65 ≤ c.val.toNat := UInt32.le_iff_toNat_le.mp hA
    have hZ : c.val.toNat ≤ 90 := UInt32.le_iff_toNat_le.mp hZ
    refine Or.inr ⟨hA, hZ, ?_⟩
    show (c.val + ('a'.val - 'A'.val)).toNat = c.val.toNat + 32
    have hgap : ('a'.val - 'A'.val).toNat = 32 := rfl
    rw [UInt32.toNat_add, hgap]
    omega
  · exact Or.inl rfl

/-- The lower-case form of an ASCII letter in whatever case is the same. -/
theorem lowerChar_toLower (c : Char) : lowerChar c.toLower = lowerChar c := by
  rcases toNat_toLower c with hsame | ⟨hA, hZ, hlower⟩
  · rw [hsame]
  · have hfar : ∀ {n : Nat}, 122 < n → (c.toNat == n) = false ∧ (c.toLower.toNat == n) = false :=
      fun hn => ⟨beq_eq_false_iff_ne.mpr (by omega), beq_eq_false_iff_ne.mpr (by omega)⟩
    unfold lowerChar
    rw [(hfar (n := 0x212A) (by omega)).1, (hfar (n := 0x212A) (by omega)).2,
      (hfar (n := 0x130) (by omega)).1, (hfar (n := 0x130) (by omega)).2, toLower_toLower]

/-- **The case of ASCII letters does not matter in lower case.** -/
theorem lowerList_map_toLower (cs : List Char) :
    lowerList (cs.map Char.toLower) = lowerList cs := by
  simp only [lowerList, List.flatMap_map, lowerChar_toLower]

theorem isBlank_toLower (c : Char) : isBlank c.toLower = isBlank c := by
  rcases toNat_toLower c with hsame | ⟨hA, hZ, hlower⟩
  · rw [hsame]
  · have hletter : ∀ {d : Char}, 65 ≤ d.toNat → d.toNat ≤ 122 → isBlank d = false := by
      intro d h65 h122
      simp only [isBlank, Bool.or_eq_false_iff, Bool.and_eq_false_iff, decide_eq_false_iff_not,
        beq_eq_false_iff_ne]
      omega
    rw [hletter (by omega) (by omega), hletter hA (by omega)]

/-- A character is blank in lower case if it is blank. -/
theorem isBlank_of_mem_lowerChar {c d : Char} (h : d ∈ lowerChar c) : isBlank d = isBlank c := by
  unfold lowerChar at h
  split at h
  · rename_i hc
    obtain rfl := List.mem_singleton.mp h
    simp [isBlank, beq_iff_eq.mp hc]
  · split at h
    · rename_i hc
      have hd : isBlank d = false := by
        rcases List.mem_cons.mp h with rfl | h
        · decide
        · rw [List.mem_singleton.mp h]
          decide
      rw [hd]
      simp [isBlank, beq_iff_eq.mp hc]
    · rw [List.mem_singleton.mp h, isBlank_toLower]

theorem lowerChar_ne_nil (c : Char) : lowerChar c ≠ [] := by
  unfold lowerChar
  split
  · exact List.cons_ne_nil _ _
  · split <;> exact List.cons_ne_nil _ _

theorem isBlank_of_mem_lowerList {cs : List Char} {b : Bool} (h : ∀ c ∈ cs, isBlank c = b) :
    ∀ d ∈ lowerList cs, isBlank d = b := by
  intro d hd
  obtain ⟨c, hc, hmem⟩ := List.mem_flatMap.mp hd
  rw [isBlank_of_mem_lowerChar hmem, h c hc]

theorem IsWord.lower {w : List Char} (h : IsWord w) : IsWord (lowerList w) := by
  refine ⟨?_, isBlank_of_mem_lowerList h.2⟩
  obtain ⟨c, r, rfl⟩ := List.exists_cons_of_ne_nil h.1
  exact List.append_ne_nil_of_left_ne_nil (lowerChar_ne_nil c) _

theorem Ends.lower {cs : List Char} (h : Ends cs) : Ends (lowerList cs) := by
  intro d r hcons
  cases cs with
  | nil => cases hcons
  | cons c cs =>
    obtain ⟨e, s, hfirst⟩ := List.exists_cons_of_ne_nil (lowerChar_ne_nil c)
    have hd : e = d := by
      rw [lowerList, List.flatMap_cons, hfirst] at hcons
      exact (List.cons.inj hcons).1
    rw [← hd, isBlank_of_mem_lowerChar (hfirst ▸ List.mem_cons_self), h c cs rfl]

/-- **In lower case, a text spells its words in lower case.** -/
theorem Spells.lower {cs : List Char} {ws : List (List Char)} (h : Spells cs ws) :
    Spells (lowerList cs) (ws.map lowerList) := by
  induction h with
  | gap h => exact .gap (isBlank_of_mem_lowerList h)
  | word hgap hw hends _ ih =>
    rw [lowerList_append, lowerList_append]
    exact .word (isBlank_of_mem_lowerList hgap) hw.lower hends.lower ih

/-! ## 3. Characters outside ASCII -/

/-- A character outside ASCII. -/
def isForeign (c : Char) : Bool := 128 ≤ c.toNat

/-- No character is outside ASCII. -/
def IsAscii (cs : List Char) : Prop := ∀ c ∈ cs, isForeign c = false

/-- **The same text with other characters outside ASCII**: some characters outside ASCII may stand
for one, blank if it is blank.  What they are may depend on all that stands around it. -/
inductive Recasts : List Char → List Char → Prop where
  | nil : Recasts [] []
  | keep {cs ds : List Char} (c : Char) (h : Recasts cs ds) : Recasts (c :: cs) (c :: ds)
  | recast {c : Char} {cs form ds : List Char} (hc : isForeign c = true) (hne : form ≠ [])
      (hform : ∀ d ∈ form, isForeign d = true ∧ isBlank d = isBlank c) (h : Recasts cs ds) :
      Recasts (c :: cs) (form ++ ds)

/-- **A lower-case form of a text**: it is as `lower` says, but for the characters outside ASCII. -/
def LowerForm (s : String) (text : List Char) : Prop := Recasts (lower s).toList text

theorem Recasts.refl (cs : List Char) : Recasts cs cs := by
  induction cs with
  | nil => exact .nil
  | cons c cs ih => exact .keep c ih

theorem Recasts.of_append {a b ds : List Char} (h : Recasts (a ++ b) ds) :
    ∃ front rest, ds = front ++ rest ∧ Recasts a front ∧ Recasts b rest := by
  induction a generalizing ds with
  | nil => exact ⟨[], ds, rfl, .nil, h⟩
  | cons c a ih =>
    cases h with
    | keep _ h =>
      obtain ⟨front, rest, rfl, hfront, hrest⟩ := ih h
      exact ⟨c :: front, rest, rfl, .keep c hfront, hrest⟩
    | @recast _ _ form _ hc hne hform h =>
      obtain ⟨front, rest, rfl, hfront, hrest⟩ := ih h
      exact ⟨form ++ front, rest, (List.append_assoc form front rest).symm,
        .recast hc hne hform hfront, hrest⟩

theorem Recasts.isBlank {cs ds : List Char} (h : Recasts cs ds) {b : Bool}
    (hcs : ∀ c ∈ cs, isBlank c = b) : ∀ d ∈ ds, isBlank d = b := by
  induction h with
  | nil => exact hcs
  | keep c _ ih =>
    obtain ⟨hc, hcs⟩ := List.forall_mem_cons.mp hcs
    exact List.forall_mem_cons.mpr ⟨hc, ih hcs⟩
  | recast _ _ hform _ ih =>
    obtain ⟨hblank, hcs⟩ := List.forall_mem_cons.mp hcs
    intro d hd
    rcases List.mem_append.mp hd with hd | hd
    · rw [(hform d hd).2, hblank]
    · exact ih hcs d hd

theorem Recasts.isWord {w v : List Char} (h : Recasts w v) (hw : IsWord w) : IsWord v := by
  refine ⟨?_, h.isBlank hw.2⟩
  cases h with
  | nil => exact hw.1
  | keep c _ => exact List.cons_ne_nil c _
  | recast _ hne _ _ => exact List.append_ne_nil_of_left_ne_nil hne _

theorem Recasts.ends {cs ds : List Char} (h : Recasts cs ds) (hcs : Ends cs) : Ends ds := by
  intro d r hcons
  cases h with
  | nil => cases hcons
  | keep c _ =>
    cases hcons
    exact hcs d _ rfl
  | @recast c _ form _ _ hne hform _ =>
    obtain ⟨e, more, rfl⟩ := List.exists_cons_of_ne_nil hne
    cases hcons
    rw [(hform d List.mem_cons_self).2]
    exact hcs c _ rfl

/-- **The words are recast one by one**, by induction over the words. -/
theorem Recasts.spells {cs ds : List Char} {ws : List (List Char)} (h : Recasts cs ds)
    (hws : Spells cs ws) : ∃ vs, Spells ds vs ∧ (∀ w ∈ ws, ∃ v ∈ vs, Recasts w v) ∧
      ∀ v ∈ vs, ∃ w ∈ ws, Recasts w v := by
  induction hws generalizing ds with
  | gap hgap => exact ⟨[], .gap (h.isBlank hgap), by simp, by simp⟩
  | @word gap w rest ws hgap hw hends _ ih =>
    obtain ⟨front, rest', rfl, hfront, hrest⟩ := h.of_append
    obtain ⟨gap', v, rfl, hgap', hv⟩ := hfront.of_append
    obtain ⟨vs, hvs, hforth, hback⟩ := ih hrest
    refine ⟨v :: vs, .word (hgap'.isBlank hgap) (hv.isWord hw) (hrest.ends hends) hvs, ?_, ?_⟩
    · exact List.forall_mem_cons.mpr ⟨⟨v, List.mem_cons_self, hv⟩, fun w' hw' =>
        (hforth w' hw').imp fun _ ⟨hmem, h⟩ => ⟨List.mem_cons_of_mem v hmem, h⟩⟩
    · exact List.forall_mem_cons.mpr ⟨⟨w, List.mem_cons_self, hv⟩, fun v' hv' =>
        (hback v' hv').imp fun _ ⟨hmem, h⟩ => ⟨List.mem_cons_of_mem w hmem, h⟩⟩

/-- An ASCII text does not begin in characters outside ASCII. -/
theorem infix_foreign_iff {a form cs : List Char} (ha : IsAscii a)
    (hform : ∀ d ∈ form, isForeign d = true) : a <:+: form ++ cs ↔ a <:+: cs := by
  induction form with
  | nil => rfl
  | cons d form ih =>
    obtain ⟨hd, hform⟩ := List.forall_mem_cons.mp hform
    rw [List.cons_append, List.infix_cons_iff, ih hform]
    refine or_iff_right_of_imp fun hprefix => ?_
    cases a with
    | nil => exact List.nil_infix
    | cons x a =>
      obtain ⟨rfl, -⟩ := List.cons_prefix_cons.mp hprefix
      rw [ha x List.mem_cons_self] at hd
      cases hd

theorem Recasts.prefix_iff {a cs ds : List Char} (h : Recasts cs ds) (ha : IsAscii a) :
    a <+: cs ↔ a <+: ds := by
  induction h generalizing a with
  | nil => rfl
  | keep c _ ih =>
    cases a with
    | nil => simp
    | cons x a =>
      rw [List.cons_prefix_cons, List.cons_prefix_cons, ih (List.forall_mem_cons.mp ha).2]
  | @recast c _ form _ hc hne hform _ _ =>
    obtain ⟨d, more, rfl⟩ := List.exists_cons_of_ne_nil hne
    have hd := (hform d List.mem_cons_self).1
    cases a with
    | nil => simp
    | cons x a =>
      have hx := ha x List.mem_cons_self
      rw [List.cons_append, List.cons_prefix_cons, List.cons_prefix_cons]
      constructor <;> rintro ⟨rfl, -⟩ <;> simp_all

/-- **An ASCII text occurs as before.** -/
theorem Recasts.infix_iff {a cs ds : List Char} (h : Recasts cs ds) (ha : IsAscii a) :
    a <:+: cs ↔ a <:+: ds := by
  induction h with
  | nil => rfl
  | keep c h ih => rw [List.infix_cons_iff, List.infix_cons_iff, ih, (h.keep c).prefix_iff ha]
  | @recast c cs form ds hc hne hform _ ih =>
    have hsingle : ∀ d ∈ [c], isForeign d = true := by simpa using hc
    rw [← List.singleton_append, infix_foreign_iff ha hsingle, ih,
      infix_foreign_iff ha fun d hd => (hform d hd).1]

/-- In ASCII, nothing is recast. -/
theorem Recasts.eq_of_isAscii {cs ds : List Char} (h : Recasts cs ds)
    (ha : IsAscii cs ∨ IsAscii ds) : cs = ds := by
  induction h with
  | nil => rfl
  | keep c _ ih => rw [ih (ha.imp (fun h => (List.forall_mem_cons.mp h).2)
      fun h => (List.forall_mem_cons.mp h).2)]
  | @recast c _ form _ hc hne hform _ _ =>
    obtain ⟨d, more, rfl⟩ := List.exists_cons_of_ne_nil hne
    have hd := (hform d List.mem_cons_self).1
    rcases ha with ha | ha
    · simp [ha c List.mem_cons_self] at hc
    · simp [ha d List.mem_cons_self] at hd

/-- **It occurs as before in an ASCII text.** -/
theorem Recasts.infix_iff_of_isAscii {a cs ds : List Char} (h : Recasts cs ds) (ha : IsAscii a) :
    cs <:+: a ↔ ds <:+: a := by
  constructor
  · intro hcs
    rwa [← h.eq_of_isAscii (Or.inl fun c hc => ha c (hcs.subset hc))]
  · intro hds
    rwa [h.eq_of_isAscii (Or.inr fun c hc => ha c (hds.subset hc))]

end Text
end Workbench
