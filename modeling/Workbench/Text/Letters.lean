/-!
# Lower case

Texts are compared with the ASCII names of tools, categories, keywords and file extensions.  Two
foldings are needed:

* `asciiLower` changes `A` to `Z` alone;
* `lower` is the full lower-casing as far as such a comparison can tell.  Outside ASCII only two
  characters have a lower-case form with an ASCII letter in it, the Kelvin sign and the capital I
  with a dot above; every other character outside ASCII stays outside ASCII, and so never equals,
  begins or ends a part of an ASCII text, whichever form it takes.
-/

namespace Workbench
namespace Text

/-- The text with the letters `A` to `Z` in lower case and all else as it is. -/
def asciiLower (s : String) : String :=
  String.ofList (s.toList.map Char.toLower)

/-- The lower-case form of one character, as far as ASCII texts can tell it. -/
def lowerChar (c : Char) : List Char :=
  if c.toNat == 0x212A then ['k']
  else if c.toNat == 0x130 then ['i', Char.ofNat 0x307]
  else [c.toLower]

/-- The lower-case form of a list of characters, as far as ASCII texts can tell it. -/
def lowerList (cs : List Char) : List Char :=
  cs.flatMap lowerChar

/-- The lower-case form of a text, as far as ASCII texts can tell it. -/
def lower (s : String) : String :=
  String.ofList (lowerList s.toList)

/-- `part` occurs in `cs` as a run of neighbouring characters. -/
def occursIn (part : List Char) : List Char → Bool
  | [] => part.isEmpty
  | c :: r => part.isPrefixOf (c :: r) || occursIn part r

/-- `part` occurs in `s`. -/
def contains (s part : String) : Bool :=
  occursIn part.toList s.toList

theorem lowerList_append (a b : List Char) : lowerList (a ++ b) = lowerList a ++ lowerList b :=
  List.flatMap_append

/-- Whether a part occurs is said by a split of the whole around it. -/
theorem occursIn_iff {part cs : List Char} :
    occursIn part cs = true ↔ ∃ before after, cs = before ++ part ++ after := by
  induction cs with
  | nil =>
    simp only [occursIn, List.isEmpty_iff]
    constructor
    · rintro rfl
      exact ⟨[], [], rfl⟩
    · rintro ⟨before, after, h⟩
      have h' := congrArg List.length h
      simp only [List.length_nil, List.length_append] at h'
      exact List.eq_nil_of_length_eq_zero (by omega)
  | cons c r ih =>
    simp only [occursIn, Bool.or_eq_true, ih, List.isPrefixOf_iff_prefix]
    constructor
    · rintro (⟨after, h⟩ | ⟨before, after, rfl⟩)
      · exact ⟨[], after, by simpa using h.symm⟩
      · exact ⟨c :: before, after, rfl⟩
    · rintro ⟨before, after, h⟩
      cases before with
      | nil => exact Or.inl ⟨after, by simpa using h.symm⟩
      | cons d before =>
        simp only [List.cons_append, List.cons.injEq] at h
        exact Or.inr ⟨before, after, h.2⟩

end Text
end Workbench
