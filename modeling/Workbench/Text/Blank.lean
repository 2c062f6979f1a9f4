/-!
# Blank characters

The white space of Unicode (property `White_Space`), the trimming of a text at both ends and its
division into words.  Main statements:

* `isBlank_of_isWhitespace`: every character that core calls white space is blank;
* `trimList_eq_nil_iff`: trimming leaves nothing exactly when every character is blank;
* `not_blank_of_mem_wordsList`: words hold no blank character, and none is empty.
-/

namespace Workbench
namespace Text

/-! ## 1. The class -/

/-- The characters with the property `White_Space`. -/
def isBlank (c : Char) : Bool :=
  let n := c.toNat
  (9 ≤ n && n ≤ 13) || n == 0x20 || n == 0x85 || n == 0xA0 || n == 0x1680 ||
    (0x2000 ≤ n && n ≤ 0x200A) || n == 0x2028 || n == 0x2029 || n == 0x202F || n == 0x205F ||
    n == 0x3000

theorem isBlank_of_isWhitespace {c : Char} (h : c.isWhitespace = true) : isBlank c = true := by
  simp only [Char.isWhitespace, Bool.or_eq_true, decide_eq_true_eq] at h
  rcases h with ((rfl | rfl) | rfl) | rfl <;> decide

/-! ## 2. Trimming -/

/-- A list of characters without its trailing blanks. -/
def trimListEnd : List Char → List Char
  | [] => []
  | c :: r =>
    match trimListEnd r with
    | [] => if isBlank c then [] else [c]
    | t => c :: t

/-- A list of characters without the blanks at both ends. -/
def trimList (cs : List Char) : List Char :=
  trimListEnd (cs.dropWhile isBlank)

/-- A text without the blanks at both ends. -/
def trim (s : String) : String :=
  String.ofList (trimList s.toList)

/-- A text without the blanks at its end. -/
def trimEnd (s : String) : String :=
  String.ofList (trimListEnd s.toList)

/-- Nothing but blanks. -/
def allBlank (s : String) : Bool :=
  s.toList.all isBlank

theorem trimListEnd_eq_nil_iff {cs : List Char} :
    trimListEnd cs = [] ↔ ∀ c ∈ cs, isBlank c = true := by
  induction cs with
  | nil => simp [trimListEnd]
  | cons c r ih =>
    simp only [trimListEnd, List.mem_cons, forall_eq_or_imp]
    split
    · rename_i h
      have hr := ih.mp h
      by_cases hc : isBlank c = true
      · simpa [hc] using hr
      · simp [hc]
    · rename_i h
      simp only [reduceCtorEq, false_iff, not_and]
      exact fun _ hr => h (ih.mpr hr)

theorem trimList_eq_nil_iff {cs : List Char} :
    trimList cs = [] ↔ ∀ c ∈ cs, isBlank c = true := by
  rw [trimList, trimListEnd_eq_nil_iff]
  induction cs with
  | nil => simp
  | cons c r ih =>
    by_cases hc : isBlank c = true
    · simp [List.dropWhile, hc, ih]
    · simp [List.dropWhile, hc]

/-! ## 3. Words -/

/-- The words of a list of characters: its maximal runs of characters that are not blank. -/
def wordsList : List Char → List (List Char)
  | [] => []
  | c :: r =>
    if isBlank c then wordsList r
    else
      match r.head?, wordsList r with
      | some d, w :: ws => if isBlank d then [c] :: w :: ws else (c :: w) :: ws
      | _, ws => [c] :: ws

/-- The words of a text: its maximal runs of characters that are not blank. -/
def words (s : String) : List String :=
  (wordsList s.toList).map String.ofList

theorem not_blank_of_mem_wordsList {w cs : List Char} (h : w ∈ wordsList cs) :
    w ≠ [] ∧ ∀ c ∈ w, isBlank c = false := by
  induction cs generalizing w with
  | nil => simp [wordsList] at h
  | cons c r ih =>
    simp only [wordsList] at h
    split at h
    · exact ih h
    · rename_i hc
      have hc : isBlank c = false := by simpa using hc
      split at h
      · rename_i d v vs _ hv
        split at h
        · rcases List.mem_cons.mp h with rfl | h
          · simp [hc]
          · exact ih (hv ▸ h)
        · rcases List.mem_cons.mp h with rfl | h
          · have hv := ih (w := v) (hv ▸ List.mem_cons_self)
            exact ⟨by simp, by simpa [hc] using hv.2⟩
          · exact ih (hv ▸ List.mem_cons_of_mem v h)
      · rcases List.mem_cons.mp h with rfl | h
        · simp [hc]
        · exact ih h

end Text
end Workbench
