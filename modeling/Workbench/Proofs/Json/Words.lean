import Mathlib.Algebra.Group.Int.Defs
import Mathlib.Algebra.Group.Nat.Defs
import Workbench.Json.Printer
import Workbench.Json.Reader

/-!
# Words that are read as they were written

A word of a JSON text (a string, an integer, one of the fixed words) is read back from the front of
any text that goes on behind it.  A string says itself where it ends; a number is over where no
digit, point or exponent follows (`Ends`).

* `readString_stringChars`: **every string is read as it was written**, whatever characters are in
  it;
* `readScalar_number`: **so is every integer from `-2 ^ 63` to `2 ^ 64 - 1`**.
-/

namespace Workbench
namespace Json

/-! ## 1. Strings -/

theorem eq_of_toNat {c : Char} {n : Nat} (h : c.toNat = n) : c = Char.ofNat n :=
  h ▸ (Char.ofNat_toNat c).symm

/-- The two digits of a control character. -/
theorem hexValue?_digitChar : ∀ d : Fin 16, hexValue? (Nat.digitChar d) = some d.val := by
  decide

/-- The code of a control character is read as the character. -/
theorem readCode_control {c : Char} (h : c.toNat < 32) (rest : List Char) :
    readCode ('0' :: '0' :: Nat.digitChar (c.toNat / 16) :: Nat.digitChar (c.toNat % 16) :: rest) =
      .ok (c, rest) := by
  have hhigh : hexValue? (Nat.digitChar (c.toNat / 16)) = some (c.toNat / 16) :=
    hexValue?_digitChar ⟨c.toNat / 16, by omega⟩
  have hlow : hexValue? (Nat.digitChar (c.toNat % 16)) = some (c.toNat % 16) :=
    hexValue?_digitChar ⟨c.toNat % 16, by omega⟩
  have hzero : hexValue? '0' = some 0 := by decide
  have hcode : ((0 * 16 + 0) * 16 + c.toNat / 16) * 16 + c.toNat % 16 = c.toNat := by omega
  have hhex : readHex ('0' :: '0' :: Nat.digitChar (c.toNat / 16) ::
      Nat.digitChar (c.toNat % 16) :: rest) = .ok (c.toNat, rest) := by
    simp only [readHex, hzero, hhigh, hlow, hcode]
  have hplane : (decide (0xDC00 ≤ c.toNat) && decide (c.toNat ≤ 0xDFFF)) = false := by
    simp only [Bool.and_eq_false_iff, decide_eq_false_iff_not]
    omega
  have hsingle : (decide (c.toNat < 0xD800) || decide (0xDBFF < c.toNat)) = true := by
    simp only [Bool.or_eq_true, decide_eq_true_eq]
    omega
  simp only [readCode, hhex, bind, Except.bind, hplane, hsingle, Bool.false_eq_true, if_false,
    if_true, Char.ofNat_toNat]
  rfl

/-- **One character of a string**: however it was written, it is read as itself. -/
theorem readStringFrom_escapeChar (n : Nat) (acc : List Char) (c : Char) (rest : List Char) :
    readStringFrom (n + 1) acc (escapeChar c ++ rest) = readStringFrom n (c :: acc) rest := by
  unfold escapeChar
  -- the letters that stand for themselves or for a blank, then those with a code
  iterate 5
    split
    · rename_i h
      obtain rfl := beq_iff_eq.mp h
      rfl
  iterate 2
    split
    · rename_i h
      obtain rfl := eq_of_toNat (beq_iff_eq.mp h)
      rfl
  split
  · rename_i h
    have hletter : escapeLetter? 'u' = none := by decide
    simp only [List.cons_append, List.nil_append, readStringFrom, hletter, readCode_control h]
    rfl
  · rename_i hquote hback _ _ _ _ _ hcontrol
    simp only [List.cons_append, List.nil_append, readStringFrom, hquote, hback, hcontrol,
      Bool.false_eq_true, if_false]

theorem readStringFrom_flatMap (cs rest : List Char) :
    ∀ (n : Nat) (acc : List Char), cs.length < n →
      readStringFrom n acc (cs.flatMap escapeChar ++ '"' :: rest) =
        .ok (acc.reverse ++ cs, rest) := by
  induction cs with
  | nil =>
    rintro (_ | n) acc hn
    · cases hn
    · rw [List.append_nil]
      rfl
  | cons c cs ih =>
    rintro (_ | n) acc hn
    · cases hn
    · rw [List.flatMap_cons, List.append_assoc, readStringFrom_escapeChar,
        ih n (c :: acc) (Nat.lt_of_succ_lt_succ hn), List.reverse_cons, List.append_assoc]
      rfl

theorem length_le_flatMap_escapeChar (cs : List Char) :
    cs.length ≤ (cs.flatMap escapeChar).length := by
  induction cs with
  | nil => exact Nat.le_refl _
  | cons c cs ih =>
    have hpos : 0 < (escapeChar c).length := by
      unfold escapeChar
      repeat' split
      all_goals exact Nat.succ_pos _
    rw [List.flatMap_cons, List.length_append, List.length_cons]
    omega

/-- **Every string is read as it was written.** -/
theorem readString_stringChars (s : String) (rest : List Char) :
    readString (s.toList.flatMap escapeChar ++ '"' :: rest) = .ok (s, rest) := by
  have hlength : s.toList.length <
      (s.toList.flatMap escapeChar ++ '"' :: rest).length + 1 := by
    have := length_le_flatMap_escapeChar s.toList
    rw [List.length_append, List.length_cons]
    omega
  rw [readString, readStringFrom_flatMap _ _ _ _ hlength]
  simp only [List.reverse_nil, List.nil_append, String.ofList_toList]

/-! ## 2. Integers -/

/-- A number is over here: neither a digit nor a point nor an exponent follows. -/
def Ends : List Char → Prop
  | [] => True
  | c :: _ => c.isDigit = false ∧ c ≠ '.' ∧ c ≠ 'e' ∧ c ≠ 'E'

/-- More digits do not make a number smaller. -/
theorem le_ofDigitChars (digits : List Char) (n : Nat) : n ≤ Nat.ofDigitChars 10 digits n := by
  induction digits generalizing n with
  | nil => exact Nat.le_of_eq Nat.ofDigitChars_nil.symm
  | cons c digits ih =>
    rw [Nat.ofDigitChars_cons]
    have := ih (10 * n + (c.toNat - '0'.toNat))
    omega

/-- Digits that fit 64 bits are all taken. -/
theorem absorb_of_le (digits : List Char) (n : Nat)
    (h : Nat.ofDigitChars 10 digits n ≤ maxInteger) :
    absorb n digits = (Nat.ofDigitChars 10 digits n, []) := by
  induction digits generalizing n with
  | nil => rw [Nat.ofDigitChars_nil]; rfl
  | cons c digits ih =>
    have hzero : '0'.toNat = 48 := rfl
    rw [Nat.ofDigitChars_cons, hzero, Nat.mul_comm] at h ⊢
    have hfits : ¬ maxInteger < n * 10 + (c.toNat - 48) :=
      Nat.not_lt.mpr (Nat.le_trans (le_ofDigitChars digits _) h)
    simp only [absorb, if_neg hfits, ih _ h]

/-- The first digit of a number is not zero, unless the number is. -/
theorem head_toDigits {n : Nat} (hn : 0 < n) {c : Char} {rest : List Char}
    (h : Nat.toDigits 10 n = c :: rest) : c ≠ '0' := by
  induction n using Nat.strongRecOn generalizing c rest with
  | _ n ih =>
    by_cases hsmall : n < 10
    · rw [Nat.toDigits_of_lt_base hsmall] at h
      cases h
      have hdigit : ∀ d : Fin 10, 0 < d.val → Nat.digitChar d ≠ '0' := by decide
      exact hdigit ⟨n, hsmall⟩ hn
    · have hsplit := Nat.toDigits_of_base_le (b := 10) (n := n) (by decide) (by omega)
      rw [hsplit] at h
      cases hfirst : Nat.toDigits 10 (n / 10) with
      | nil => exact absurd hfirst Nat.toDigits_ne_nil
      | cons d more =>
        rw [hfirst] at h
        cases h
        exact ih (n / 10) (by omega) (by omega) hfirst

theorem isDigit_of_toDigits {n : Nat} {c : Char} {rest : List Char}
    (h : Nat.toDigits 10 n = c :: rest) : c.isDigit = true :=
  Nat.isDigit_of_mem_toDigits (by decide) (Nat.le_refl 10) (h ▸ List.mem_cons_self)

theorem takeWhile_toDigits (n : Nat) {rest : List Char} (h : Ends rest) :
    (Nat.toDigits 10 n ++ rest).takeWhile Char.isDigit = Nat.toDigits 10 n ∧
      (Nat.toDigits 10 n ++ rest).dropWhile Char.isDigit = rest := by
  have hall : ∀ c ∈ Nat.toDigits 10 n, c.isDigit = true := fun c hc =>
    Nat.isDigit_of_mem_toDigits (by decide) (by decide) hc
  have hstop : rest.takeWhile Char.isDigit = [] ∧ rest.dropWhile Char.isDigit = rest := by
    cases rest with
    | nil => exact ⟨rfl, rfl⟩
    | cons c rest => simp only [List.takeWhile_cons, List.dropWhile_cons, h.1, Bool.false_eq_true,
        if_false, and_self]
  rw [List.takeWhile_append_of_pos hall, List.dropWhile_append_of_pos hall, hstop.1, hstop.2,
    List.append_nil]
  exact ⟨rfl, rfl⟩

/-- **The digits of a number of 64 bits are read as the number.** -/
theorem readNumber_toDigits (negative : Bool) {n : Nat} (hn : n ≤ maxInteger) {rest : List Char}
    (h : Ends rest) :
    readNumber negative (Nat.toDigits 10 n ++ rest) = .ok (wholeNumber negative n, rest) := by
  obtain ⟨htake, hdrop⟩ := takeWhile_toDigits n h
  have habsorb : absorb 0 (Nat.toDigits 10 n) = (n, []) := by
    have hvalue : Nat.ofDigitChars 10 (Nat.toDigits 10 n) 0 = n := Nat.ofDigitChars_ten_toDigits
    rw [absorb_of_le _ _ (by rw [hvalue]; exact hn), hvalue]
  cases hdigits : Nat.toDigits 10 n with
  | nil => exact absurd hdigits Nat.toDigits_ne_nil
  | cons c more =>
    have hc : c.isDigit = true := isDigit_of_toDigits hdigits
    -- a leading zero stands alone
    have hparts : (if c == '0' then [c] else (c :: (more ++ rest)).takeWhile Char.isDigit) =
        Nat.toDigits 10 n ∧
        (if c == '0' then more ++ rest else (c :: (more ++ rest)).dropWhile Char.isDigit) =
          rest := by
      by_cases hzero : c = '0'
      · rcases Nat.eq_zero_or_pos n with rfl | hpos
        · rw [Nat.toDigits_zero] at hdigits ⊢
          cases hdigits
          exact ⟨rfl, rfl⟩
        · exact absurd hzero (head_toDigits hpos hdigits)
      · rw [hdigits] at htake hdrop
        rw [if_neg (mt beq_iff_eq.mp hzero), if_neg (mt beq_iff_eq.mp hzero), hdigits]
        exact ⟨htake, hdrop⟩
    simp only [List.cons_append, readNumber, hc, Bool.not_true, Bool.false_eq_true, if_false,
      hparts.1, hparts.2, habsorb]
    cases rest with
    | nil => rfl
    | cons d rest =>
      obtain ⟨hdigit, hpoint, hsmall, hlarge⟩ := h
      simp only [hdigit, Bool.false_eq_true, if_false, beq_eq_false_iff_ne.mpr hpoint,
        beq_eq_false_iff_ne.mpr hsmall, beq_eq_false_iff_ne.mpr hlarge, Bool.or_self,
        List.isEmpty_nil, if_true]

/-- An integer of 64 bits, with or without a sign. -/
def IsWhole (i : Int) : Prop := -2 ^ 63 ≤ i ∧ i < 2 ^ 64

instance (i : Int) : Decidable (IsWhole i) :=
  inferInstanceAs (Decidable (-2 ^ 63 ≤ i ∧ i < 2 ^ 64))

theorem toList_text_ofNat (n : Nat) :
    (Number.int (.ofNat n)).text.toList = Nat.toDigits 10 n := by
  show (Nat.repr n).toList = _
  rw [Nat.repr_eq_ofList_toDigits, String.toList_ofList]

theorem toList_text_negSucc (n : Nat) :
    (Number.int (.negSucc n)).text.toList = '-' :: Nat.toDigits 10 (n + 1) := by
  show ("-" ++ Nat.repr (n + 1)).toList = _
  rw [Nat.repr_eq_ofList_toDigits, String.toList_append, String.toList_ofList,
    String.toList_ofList]
  rfl

/-- The text of an integer begins with a digit or with a sign. -/
theorem head_number (i : Int) : ∃ c more, (Number.int i).text.toList = c :: more ∧
    (c.isDigit = true ∨ c = '-') := by
  cases i with
  | ofNat n =>
    rw [toList_text_ofNat]
    cases hdigits : Nat.toDigits 10 n with
    | nil => exact absurd hdigits Nat.toDigits_ne_nil
    | cons c more => exact ⟨c, more, rfl, Or.inl (isDigit_of_toDigits hdigits)⟩
  | negSucc n => exact ⟨_, _, toList_text_negSucc n, Or.inr rfl⟩

theorem digit_ne {c : Char} (h : c.isDigit = true) : c ≠ 'n' ∧ c ≠ 't' ∧ c ≠ 'f' ∧ c ≠ '-' := by
  refine ⟨?_, ?_, ?_, ?_⟩ <;> (rintro rfl; exact absurd h (by decide))

/-- A digit begins a number. -/
theorem readScalar_digit {c : Char} (h : c.isDigit = true) {more rest : List Char} {n : Number}
    (hread : readNumber false (c :: more) = .ok (n, rest)) :
    readScalar c more = .ok (.num n, rest) := by
  obtain ⟨hn, ht, hf, hsign⟩ := digit_ne h
  simp only [readScalar, beq_eq_false_iff_ne.mpr hn, beq_eq_false_iff_ne.mpr ht,
    beq_eq_false_iff_ne.mpr hf, beq_eq_false_iff_ne.mpr hsign, h, Bool.false_eq_true, if_false,
    if_true, hread]
  rfl

/-- A sign begins a negative number. -/
theorem readScalar_sign {more rest : List Char} {n : Number}
    (hread : readNumber true more = .ok (n, rest)) : readScalar '-' more = .ok (.num n, rest) := by
  have hn : ('-' == 'n') = false := by decide
  have ht : ('-' == 't') = false := by decide
  have hf : ('-' == 'f') = false := by decide
  simp only [readScalar, hn, ht, hf, beq_self_eq_true, Bool.false_eq_true, if_false, if_true,
    hread]
  rfl

theorem wholeNumber_negative {n : Nat} (hn : n + 1 ≤ 2 ^ 63) :
    wholeNumber true (n + 1) = .int (.negSucc n) := by
  have hzero : (n + 1 == 0) = false := rfl
  have hfits : ¬ Nat.pow 2 63 < n + 1 := Nat.not_lt.mpr hn
  simp only [wholeNumber, hzero, hfits, decide_false, Bool.or_self, Bool.false_eq_true, if_false,
    if_true]
  rfl

/-- **Every integer of 64 bits is read as it was written.** -/
theorem readScalar_number {i : Int} (hi : IsWhole i) {rest : List Char} (h : Ends rest)
    {c : Char} {more : List Char} (htext : (Number.int i).text.toList ++ rest = c :: more) :
    readScalar c more = .ok (.num (.int i), rest) := by
  have hmax : maxInteger = 2 ^ 64 - 1 := rfl
  obtain ⟨hlow, hhigh⟩ := hi
  cases i with
  | ofNat n =>
    have hn : n ≤ maxInteger := by
      rw [Int.ofNat_eq_natCast] at hhigh
      omega
    have hread := readNumber_toDigits false hn h
    rw [toList_text_ofNat] at htext
    rw [htext] at hread
    cases hdigits : Nat.toDigits 10 n with
    | nil => exact absurd hdigits Nat.toDigits_ne_nil
    | cons d digits =>
      rw [hdigits, List.cons_append] at htext
      cases htext
      exact readScalar_digit (isDigit_of_toDigits hdigits) hread
  | negSucc n =>
    have hn : n + 1 ≤ 2 ^ 63 := by omega
    have hread := readNumber_toDigits true (show n + 1 ≤ maxInteger by omega) h
    rw [wholeNumber_negative hn] at hread
    rw [toList_text_negSucc, List.cons_append] at htext
    cases htext
    exact readScalar_sign hread

/-! ## 3. Fixed words and blanks -/

theorem readWord_append (word rest : List Char) :
    readWord word (word ++ rest) = .ok ((), rest) := by
  induction word with
  | nil => rfl
  | cons c word ih => simp only [List.cons_append, readWord, beq_self_eq_true, if_true, ih]

theorem readScalar_null (rest : List Char) :
    readScalar 'n' ("ull".toList ++ rest) = .ok (.null, rest) := by
  simp only [readScalar, beq_self_eq_true, if_true, readWord_append]
  rfl

theorem readScalar_true (rest : List Char) :
    readScalar 't' ("rue".toList ++ rest) = .ok (.bool true, rest) := by
  have hn : ('t' == 'n') = false := by decide
  simp only [readScalar, hn, Bool.false_eq_true, if_false, beq_self_eq_true, if_true,
    readWord_append]
  rfl

theorem readScalar_false (rest : List Char) :
    readScalar 'f' ("alse".toList ++ rest) = .ok (.bool false, rest) := by
  have hn : ('f' == 'n') = false := by decide
  have ht : ('f' == 't') = false := by decide
  simp only [readScalar, hn, ht, Bool.false_eq_true, if_false, beq_self_eq_true, if_true,
    readWord_append]
  rfl

/-- A quote begins a string. -/
theorem readScalar_string (s : String) (rest : List Char) :
    readScalar '"' (s.toList.flatMap escapeChar ++ '"' :: rest) = .ok (.str s, rest) := by
  have hn : ('"' == 'n') = false := by decide
  have ht : ('"' == 't') = false := by decide
  have hf : ('"' == 'f') = false := by decide
  have hsign : ('"' == '-') = false := by decide
  have hdigit : '"'.isDigit = false := by decide
  simp only [readScalar, hn, ht, hf, hsign, hdigit, Bool.false_eq_true, if_false,
    beq_self_eq_true, if_true, readString_stringChars]
  rfl

theorem stringChars_append (s : String) (rest : List Char) :
    stringChars s ++ rest = '"' :: (s.toList.flatMap escapeChar ++ '"' :: rest) := by
  simp only [stringChars, List.cons_append, List.append_assoc, List.nil_append]

theorem skipSpace_cons {c : Char} (h : isSpace c = false) (rest : List Char) :
    skipSpace (c :: rest) = c :: rest := by
  simp only [skipSpace, List.dropWhile_cons, h, Bool.false_eq_true, if_false]

/-- Nothing but blanks. -/
def Blank (cs : List Char) : Prop := ∀ c ∈ cs, isSpace c = true

theorem blank_nil : Blank [] := nofun

/-- What stands at the beginning of a line are blanks. -/
theorem blank_lineStart (k : Nat) : Blank (lineStart k) := by
  intro c hc
  rcases List.mem_cons.mp hc with rfl | hc
  · rfl
  · rw [List.eq_of_mem_replicate hc]
    rfl

/-- Blanks are passed over. -/
theorem skipSpace_blank {gap : List Char} (h : Blank gap) (rest : List Char) :
    skipSpace (gap ++ rest) = skipSpace rest :=
  List.dropWhile_append_of_pos h

end Json
end Workbench
