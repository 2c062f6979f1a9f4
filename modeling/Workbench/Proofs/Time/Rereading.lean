import Mathlib.Algebra.Order.Ring.Nat
import Mathlib.Tactic.Ring
import Workbench.Proofs.Json.Words
import Workbench.Time.Timestamp

/-!
# Points in time that are read as they were written

A point in time is written with an offset of zero and as many digits as it needs, and the reader
takes much more than that.  Whatever it takes, it comes to a point in time in universal time
(`Timestamp.Valid`), and such a point in time is written so that it is read as itself.

* `Timestamp.valid_of_parse`: **what is read is valid**, whatever the offset;
* `Timestamp.parse_text`: **what is valid is read as it was written**.
-/

namespace Workbench

/-! ## 1. Digits -/

namespace Duration

theorem isDigit_of_mem_padded {width n : Nat} {c : Char} (h : c ∈ padded width n) :
    c.isDigit = true := by
  rcases List.mem_append.mp h with h | h
  · rw [List.eq_of_mem_replicate h]
    rfl
  · exact Nat.isDigit_of_mem_toDigits (by decide) (by decide) h

theorem length_padded {width n : Nat} (hwidth : 0 < width) (h : n < 10 ^ width) :
    (padded width n).length = width := by
  have hlength : (Nat.toDigits 10 n).length ≤ width :=
    (Nat.length_toDigits_le_iff (by decide) hwidth).mpr h
  rw [padded, List.length_append, List.length_replicate]
  omega

theorem padded_ne_nil (width n : Nat) : padded width n ≠ [] := by
  simp [padded, Nat.toDigits_ne_nil]

end Duration

namespace Timestamp

open Duration

theorem digitsValue_eq (ds : List Char) : digitsValue ds = Nat.ofDigitChars 10 ds 0 := by
  have hstep : (fun (n : Nat) (c : Char) => n * 10 + (c.toNat - 48)) =
      fun n c => 10 * n + (c.toNat - '0'.toNat) := by
    funext n c
    rw [Nat.mul_comm]
    rfl
  rw [digitsValue, hstep, Nat.ofDigitChars]

/-- Zeros in front do not count. -/
theorem digitsValue_padded (width n : Nat) : digitsValue (padded width n) = n := by
  have hzeros : ∀ k, Nat.ofDigitChars 10 (List.replicate k '0') 0 = 0 := by
    intro k
    induction k with
    | zero => rfl
    | succ k ih => rw [List.replicate_succ, Nat.ofDigitChars_cons]; exact ih
  rw [digitsValue_eq, padded, Nat.ofDigitChars_append, hzeros, Nat.ofDigitChars_ten_toDigits]

theorem ofDigitChars_lt (ds : List Char) (h : ∀ c ∈ ds, c.isDigit = true) (n : Nat) :
    Nat.ofDigitChars 10 ds n < (n + 1) * 10 ^ ds.length := by
  induction ds generalizing n with
  | nil => simp [Nat.ofDigitChars_nil]
  | cons c ds ih =>
    have hc : c.toNat - '0'.toNat ≤ 9 := by
      have hdigit := (Char.isDigit_iff_toNat.mp (h c List.mem_cons_self)).2
      have hnine : '9'.toNat = '0'.toNat + 9 := rfl
      omega
    rw [Nat.ofDigitChars_cons, List.length_cons]
    calc Nat.ofDigitChars 10 ds (10 * n + (c.toNat - '0'.toNat))
        < (10 * n + (c.toNat - '0'.toNat) + 1) * 10 ^ ds.length :=
          ih (fun c hc => h c (List.mem_cons_of_mem _ hc)) _
      _ ≤ (10 * (n + 1)) * 10 ^ ds.length := Nat.mul_le_mul_right _ (by omega)
      _ = (n + 1) * 10 ^ (ds.length + 1) := by ring

/-- So many digits, so small a number. -/
theorem digitsValue_lt {ds : List Char} (h : ∀ c ∈ ds, c.isDigit = true) :
    digitsValue ds < 10 ^ ds.length := by
  simpa [digitsValue_eq] using ofDigitChars_lt ds h 0

theorem not_isBlank_of_isDigit {c : Char} (h : c.isDigit = true) : Text.isBlank c = false := by
  obtain ⟨hlow, hhigh⟩ := Char.isDigit_iff_toNat.mp h
  have hzero : '0'.toNat = 48 := rfl
  have hnine : '9'.toNat = 57 := rfl
  simp only [Text.isBlank, Bool.or_eq_false_iff, Bool.and_eq_false_iff, decide_eq_false_iff_not,
    beq_eq_false_iff_ne]
  omega

/-! ## 2. What is read is valid -/

/-- A point in time that exists and can be written; the second may be a leap second. -/
structure Valid (t : Timestamp) : Prop where
  date : isDate t.year t.month t.day = true
  hour : t.hour ≤ 23
  minute : t.minute ≤ 59
  second : t.second ≤ 60
  nanos : t.nanos < 10 ^ 9

theorem readDigits_eq_ok {width : Nat} {cs ds rest : List Char}
    (h : readDigits width cs = .ok (ds, rest)) :
    (∀ c ∈ ds, c.isDigit = true) ∧ ds.length ≤ width := by
  unfold readDigits at h
  split at h
  · cases h
  · dsimp only at h
    split at h <;> cases h
    refine ⟨fun c hc => List.all_eq_true.mp List.all_takeWhile c hc, ?_⟩
    calc ((cs.take width).takeWhile Char.isDigit).length
        ≤ (cs.take width).length := (List.takeWhile_sublist _).length_le
      _ ≤ width := by rw [List.length_take]; omega

/-- A part of a reader has an outcome of its own. -/
theorem bind_eq_ok {α β : Type} {x : Except Fault α} {f : α → Except Fault β} {b : β}
    (h : (x >>= f) = .ok b) : ∃ a, x = .ok a ∧ f a = .ok b := by
  cases x with
  | error e => cases h
  | ok a => exact ⟨a, rfl, h⟩

theorem readField_eq_ok {low high n : Nat} {cs rest : List Char}
    (h : readField low high cs = .ok (n, rest)) : low ≤ n ∧ n ≤ high := by
  obtain ⟨⟨digits, r⟩, -, h⟩ := bind_eq_ok h
  dsimp only at h
  split at h
  · rename_i hbounds
    cases h
    simpa using hbounds
  · cases h

theorem readFraction_eq_ok {n : Nat} {cs rest : List Char}
    (h : readFraction cs = .ok (n, rest)) : n < 10 ^ 9 := by
  unfold readFraction at h
  split at h
  · obtain ⟨⟨digits, r⟩, hread, h⟩ := bind_eq_ok h
    obtain ⟨hdigits, hlength⟩ := readDigits_eq_ok hread
    cases h
    calc digitsValue digits * Nat.pow 10 (9 - digits.length)
        < 10 ^ digits.length * 10 ^ (9 - digits.length) :=
          Nat.mul_lt_mul_of_pos_right (digitsValue_lt hdigits) (Nat.pow_pos (by decide))
      _ = 10 ^ 9 := by rw [← Nat.pow_add, Nat.add_sub_cancel' hlength]
  · cases h
    decide

theorem isDate_iff {y : Int} {m d : Nat} : isDate y m d = true ↔
    minYear ≤ y ∧ y ≤ maxYear ∧ 1 ≤ m ∧ m ≤ 12 ∧ 1 ≤ d ∧ d ≤ daysInMonth y m := by
  simp only [isDate, Bool.and_eq_true, decide_eq_true_eq, and_assoc]

theorem one_le_daysInMonth (y : Int) (m : Nat) : 1 ≤ daysInMonth y m := by
  unfold daysInMonth
  repeat' split
  all_goals decide

/-- The next day is a date, if its year can be written. -/
theorem isDate_nextDay {y : Int} {m d : Nat} (h : isDate y m d = true)
    (hyear : (nextDay y m d).1 ≤ maxYear) :
    isDate (nextDay y m d).1 (nextDay y m d).2.1 (nextDay y m d).2.2 = true := by
  obtain ⟨hmin, hmax, hm₁, hm₂, hd₁, hd₂⟩ := isDate_iff.mp h
  unfold nextDay at hyear ⊢
  split
  · exact isDate_iff.mpr ⟨hmin, hmax, hm₁, hm₂, Nat.le_add_left 1 d, ‹_›⟩
  · rename_i hlast
    rw [if_neg hlast] at hyear
    split
    · exact isDate_iff.mpr ⟨hmin, hmax, Nat.le_add_left 1 m, ‹_›, Nat.le_refl 1,
        one_le_daysInMonth _ _⟩
    · rename_i hdecember
      rw [if_neg hdecember] at hyear
      exact isDate_iff.mpr ⟨by dsimp only; omega, hyear, Nat.le_refl 1, Nat.le_add_left 1 11,
        Nat.le_refl 1, one_le_daysInMonth _ _⟩

/-- So is the day before. -/
theorem isDate_previousDay {y : Int} {m d : Nat} (h : isDate y m d = true)
    (hyear : minYear ≤ (previousDay y m d).1) :
    isDate (previousDay y m d).1 (previousDay y m d).2.1 (previousDay y m d).2.2 = true := by
  obtain ⟨hmin, hmax, hm₁, hm₂, hd₁, hd₂⟩ := isDate_iff.mp h
  unfold previousDay at hyear ⊢
  split
  · exact isDate_iff.mpr ⟨hmin, hmax, hm₁, hm₂, by dsimp only; omega, by dsimp only; omega⟩
  · rename_i hfirst
    rw [if_neg hfirst] at hyear
    split
    · exact isDate_iff.mpr ⟨hmin, hmax, by dsimp only; omega, by dsimp only; omega,
        one_le_daysInMonth _ _, Nat.le_refl _⟩
    · rename_i hjanuary
      rw [if_neg hjanuary] at hyear
      exact isDate_iff.mpr ⟨hyear, by dsimp only; omega, Nat.le_add_left 1 11, Nat.le_refl 12,
        Nat.le_add_left 1 30, Nat.le_refl 31⟩

/-- **A local point in time comes to a valid one in universal time.** -/
theorem valid_of_shift {t t' : Timestamp} {offset : Int} (ht : t.Valid)
    (h : shift t offset = .ok t') : t'.Valid := by
  unfold shift at h
  split at h
  · cases h
  · dsimp only at h
    generalize (t.hour * 60 + t.minute : Int) - offset = minutes at h
    generalize hday : (if minutes < 0 then previousDay t.year t.month t.day
      else if 1440 ≤ minutes then nextDay t.year t.month t.day
      else (t.year, t.month, t.day)) = day at h
    have hinDay : (minutes % 1440).toNat < 1440 := by omega
    split at h
    · rename_i hyear
      have hdate : isDate day.1 day.2.1 day.2.2 = true := by
        split at hday
        · subst hday
          exact isDate_previousDay ht.date hyear.1
        · split at hday
          · subst hday
            exact isDate_nextDay ht.date hyear.2
          · subst hday
            exact ht.date
      cases h
      exact ⟨hdate, by dsimp only; omega, by dsimp only; omega, ht.second, ht.nanos⟩
    · cases h

/-- **What is read is valid.** -/
theorem valid_of_parse {s : String} {t : Timestamp} (h : parse s = .ok t) : t.Valid := by
  obtain ⟨⟨year, _⟩, -, h⟩ := bind_eq_ok h
  obtain ⟨_, -, h⟩ := bind_eq_ok h
  obtain ⟨⟨month, _⟩, -, h⟩ := bind_eq_ok h
  obtain ⟨_, -, h⟩ := bind_eq_ok h
  obtain ⟨⟨day, _⟩, -, h⟩ := bind_eq_ok h
  obtain ⟨_, -, h⟩ := bind_eq_ok h
  obtain ⟨⟨hour, _⟩, hhour, h⟩ := bind_eq_ok h
  obtain ⟨_, -, h⟩ := bind_eq_ok h
  obtain ⟨⟨minute, _⟩, hminute, h⟩ := bind_eq_ok h
  obtain ⟨_, -, h⟩ := bind_eq_ok h
  obtain ⟨⟨second, _⟩, hsecond, h⟩ := bind_eq_ok h
  obtain ⟨⟨nanos, _⟩, hnanos, h⟩ := bind_eq_ok h
  obtain ⟨⟨offset, rest⟩, -, h⟩ := bind_eq_ok h
  dsimp only at h
  split at h
  · cases h
  · split at h
    · cases h
    · rename_i hdate
      rw [Bool.not_eq_true, Bool.not_eq_false'] at hdate
      exact valid_of_shift ⟨hdate, (readField_eq_ok hhour).2, (readField_eq_ok hminute).2,
        (readField_eq_ok hsecond).2, readFraction_eq_ok hnanos⟩ h

/-! ## 3. What is valid is read as it was written -/

/-- A run of digits is taken as a whole, if it is as long as it may be or no digit follows. -/
theorem readDigits_append {width : Nat} {ds rest : List Char} (hne : ds ≠ [])
    (hdigits : ∀ c ∈ ds, c.isDigit = true) (hwidth : ds.length ≤ width)
    (hends : ds.length = width ∨ ∀ c ∈ rest.head?, c.isDigit = false) :
    readDigits width (ds ++ rest) = .ok (ds, rest) := by
  have htake : ((ds ++ rest).take width).takeWhile Char.isDigit = ds := by
    have hafter : (rest.take (width - ds.length)).takeWhile Char.isDigit = [] := by
      rcases hends with hfull | hends
      · rw [hfull, Nat.sub_self, List.take_zero, List.takeWhile_nil]
      · cases rest with
        | nil => rw [List.take_nil, List.takeWhile_nil]
        | cons c rest =>
          cases width - ds.length with
          | zero => rfl
          | succ k =>
            rw [List.take_succ_cons, List.takeWhile_cons_of_neg (by simp [hends c rfl])]
    rw [List.take_append, List.take_of_length_le hwidth, List.takeWhile_append_of_pos hdigits,
      hafter, List.append_nil]
  have hsome : (ds ++ rest).isEmpty = false := by simp [hne]
  have hds : ds.isEmpty = false := by simp [hne]
  simp only [readDigits, hsome, htake, hds, Bool.false_eq_true, if_false, List.drop_left]

theorem skipBlanks_cons {c : Char} (h : Text.isBlank c = false) (rest : List Char) :
    skipBlanks (c :: rest) = c :: rest := by
  simp only [skipBlanks, List.dropWhile_cons, h, Bool.false_eq_true, if_false]

/-- No blank stands in front of digits. -/
theorem skipBlanks_digits {ds : List Char} (hne : ds ≠ []) (hdigits : ∀ c ∈ ds, c.isDigit = true)
    (rest : List Char) : skipBlanks (ds ++ rest) = ds ++ rest := by
  cases ds with
  | nil => exact absurd rfl hne
  | cons c ds => exact skipBlanks_cons (not_isBlank_of_isDigit (hdigits c List.mem_cons_self)) _

/-- A number with so many digits as it has room for. -/
theorem readDigits_padded {width n : Nat} (hwidth : 0 < width) (h : n < 10 ^ width)
    (rest : List Char) : readDigits width (padded width n ++ rest) = .ok (padded width n, rest) :=
  readDigits_append (padded_ne_nil _ _) (fun _ => isDigit_of_mem_padded)
    (Nat.le_of_eq (length_padded hwidth h)) (Or.inl (length_padded hwidth h))

theorem readField_two {low high n : Nat} (hlow : low ≤ n) (hhigh : n ≤ high) (h : n < 100)
    (rest : List Char) : readField low high ((two n).toList ++ rest) = .ok (n, rest) := by
  have hbounds : (decide (low ≤ n) && decide (n ≤ high)) = true := by simp [hlow, hhigh]
  simp only [readField, two, String.toList_ofList,
    skipBlanks_digits (padded_ne_nil 2 n) (fun _ => isDigit_of_mem_padded),
    readDigits_padded (show 0 < 2 by decide) (show n < 10 ^ 2 from h), bind, Except.bind,
    digitsValue_padded, hbounds, if_true]
  rfl

theorem readSeparator_cons {sep : Char} (h : Text.isBlank sep = false) (rest : List Char) :
    readSeparator sep (sep :: rest) = .ok rest := by
  simp only [readSeparator, skipBlanks_cons h, beq_self_eq_true, if_true]

/-- All digits of a number are taken where no digit follows. -/
theorem readDigits_whole (width n : Nat) (rest : List Char)
    (hends : ∀ c ∈ rest.head?, c.isDigit = false) :
    readDigits (padded width n ++ rest).length (padded width n ++ rest) =
      .ok (padded width n, rest) :=
  readDigits_append (padded_ne_nil _ _) (fun _ => isDigit_of_mem_padded)
    (by rw [List.length_append]; omega) (Or.inr hends)

/-- **Every year is read as it was written.** -/
theorem readYear_yearText {y : Int} (hmin : minYear ≤ y) (hmax : y ≤ maxYear) (rest : List Char) :
    readYear ((yearText y).toList ++ '-' :: rest) = .ok (y, '-' :: rest) := by
  have hends : ∀ c ∈ ('-' :: rest).head?, c.isDigit = false := by
    rintro c ⟨⟩
    rfl
  have hlow : minYear = -262143 := rfl
  have hhigh : maxYear = 262142 := rfl
  have hlarge : Nat.pow 2 31 = 2147483648 := rfl
  by_cases hfour : 0 ≤ y ∧ y ≤ 9999
  · have hsmall : y.toNat < 10 ^ 4 := by omega
    have hread := readDigits_padded (show 0 < 4 by decide) hsmall ('-' :: rest)
    have hskip := skipBlanks_digits (padded_ne_nil 4 y.toNat) (fun _ => isDigit_of_mem_padded)
      ('-' :: rest)
    simp only [yearText, if_pos hfour, String.toList_ofList, readYear, hskip]
    cases hp : padded 4 y.toNat ++ '-' :: rest with
    | nil => simp at hp
    | cons c cs =>
      have hc : c.isDigit = true := by
        cases hpad : padded 4 y.toNat with
        | nil => exact absurd hpad (padded_ne_nil _ _)
        | cons d ds =>
          rw [hpad] at hp
          cases hp
          exact isDigit_of_mem_padded (hpad ▸ List.mem_cons_self)
      rw [hp] at hread
      split
      · rename_i hsign
        cases hsign
        cases hc
      · rename_i hsign
        cases hsign
        cases hc
      · rw [hread]
        simp only [bind, Except.bind, digitsValue_padded, Int.toNat_of_nonneg hfour.1]
        rfl
  · have hread := readDigits_whole 4 y.natAbs ('-' :: rest) hends
    by_cases hneg : y < 0
    · have hfits : y.natAbs ≤ Nat.pow 2 31 := by omega
      have habs : -(y.natAbs : Int) = y := by omega
      simp only [yearText, if_neg hfour, if_pos hneg, String.toList_append, String.toList_ofList]
      show readYear ('-' :: (padded 4 y.natAbs ++ '-' :: rest)) = _
      simp only [readYear, skipBlanks_cons (show Text.isBlank '-' = false by decide), hread, bind,
        Except.bind, digitsValue_padded, if_pos hfits, habs]
      rfl
    · have hfits : y.natAbs < Nat.pow 2 31 := by omega
      have habs : (y.natAbs : Int) = y := by omega
      simp only [yearText, if_neg hfour, if_neg hneg, String.toList_append, String.toList_ofList]
      show readYear ('+' :: (padded 4 y.natAbs ++ '-' :: rest)) = _
      simp only [readYear, skipBlanks_cons (show Text.isBlank '+' = false by decide), hread, bind,
        Except.bind, digitsValue_padded, if_pos hfits, habs]
      rfl

/-- **Every fraction is read as it was written**, however many digits it has. -/
theorem readFraction_fractionText {n : Nat} (h : n < 10 ^ 9) :
    readFraction ((fractionText n).toList ++ ['Z']) = .ok (n, ['Z']) := by
  -- a fraction of some digits, the value of which comes to the nanoseconds
  have hdigits : ∀ width m, 0 < width → width ≤ 9 → m < 10 ^ width → m * 10 ^ (9 - width) = n →
      readFraction (("." ++ String.ofList (padded width m)).toList ++ ['Z']) = .ok (n, ['Z']) := by
    intro width m hpos hwidth hm hn
    have hlength := length_padded hpos hm
    have hread : readDigits 9 (padded width m ++ ['Z']) = .ok (padded width m, ['Z']) :=
      readDigits_append (padded_ne_nil _ _) (fun _ => isDigit_of_mem_padded)
        (by omega) (Or.inr (by rintro c ⟨⟩; rfl))
    have hchars : ("." ++ String.ofList (padded width m)).toList ++ ['Z'] =
        '.' :: (padded width m ++ ['Z']) := by simp
    rw [hchars]
    have hvalue : digitsValue (padded width m) * Nat.pow 10 (9 - (padded width m).length) = n := by
      rw [digitsValue_padded, hlength]
      exact hn
    simp only [readFraction, hread, bind, Except.bind, hvalue]
    rfl
  unfold fractionText
  split
  · rename_i hzero
    rw [beq_iff_eq.mp hzero]
    rfl
  · split
    · rename_i hmillis
      have := beq_iff_eq.mp hmillis
      exact hdigits 3 (n / 1000000) (by decide) (by decide) (by omega) (by omega)
    · split
      · rename_i hmicros
        have := beq_iff_eq.mp hmicros
        exact hdigits 6 (n / 1000) (by decide) (by decide) (by omega) (by omega)
      · exact hdigits 9 n (by decide) (by decide) h (by omega)

/-- A point in time without an offset is where it is. -/
theorem shift_zero {t : Timestamp} (h : t.Valid) : shift t 0 = .ok t := by
  obtain ⟨hmin, hmax, -⟩ := isDate_iff.mp h.date
  have hhour := h.hour
  have hminute := h.minute
  have hlow : ¬ (t.hour * 60 + t.minute : Int) - 0 < 0 := by omega
  have hhigh : ¬ 1440 ≤ (t.hour * 60 + t.minute : Int) - 0 := by omega
  have hyear : minYear ≤ t.year ∧ t.year ≤ maxYear := ⟨hmin, hmax⟩
  have hinDay : (((t.hour * 60 + t.minute : Int) - 0) % 1440).toNat = t.hour * 60 + t.minute := by
    omega
  have hhours : (t.hour * 60 + t.minute) / 60 = t.hour := by omega
  have hminutes : (t.hour * 60 + t.minute) % 60 = t.minute := by omega
  have hnear : ¬ 1440 ≤ (0 : Int).natAbs := by decide
  simp only [shift, if_neg hnear, if_neg hlow, if_neg hhigh, if_pos hyear, hinDay, hhours,
    hminutes]

theorem le_daysInMonth {y : Int} {m : Nat} : daysInMonth y m ≤ 31 := by
  unfold daysInMonth
  repeat' split
  all_goals decide

/-- **A valid point in time is read as it was written.** -/
theorem parse_text {t : Timestamp} (h : t.Valid) : parse t.text = .ok t := by
  obtain ⟨hmin, hmax, hm₁, hm₂, hd₁, hd₂⟩ := isDate_iff.mp h.date
  have hd₃ : t.day ≤ 31 := Nat.le_trans hd₂ le_daysInMonth
  have hhour := h.hour
  have hminute := h.minute
  have hsecond := h.second
  have htext : t.text.toList = (yearText t.year).toList ++ '-' :: ((two t.month).toList ++
      '-' :: ((two t.day).toList ++ 'T' :: ((two t.hour).toList ++ ':' :: ((two t.minute).toList ++
        ':' :: ((two t.second).toList ++ ((fractionText t.nanos).toList ++ ['Z'])))))) := by
    simp [text, localText]
  have hdash : Text.isBlank '-' = false := by decide
  have hcolon : Text.isBlank ':' = false := by decide
  have hdivider : ∀ rest, readDivider ('T' :: rest) = .ok rest := fun rest => rfl
  have hoffset : readOffset (skipBlanks ['Z']) = .ok (0, []) := by decide
  have hrest : skipBlanks [] = [] := rfl
  simp only [parse, htext, parseChars, readYear_yearText hmin hmax, readSeparator_cons hdash,
    readSeparator_cons hcolon, readField_two hm₁ hm₂ (by omega), readField_two hd₁ hd₃ (by omega),
    readField_two (Nat.zero_le _) hhour (by omega),
    readField_two (Nat.zero_le _) hminute (by omega),
    readField_two (Nat.zero_le _) hsecond (by omega), readFraction_fractionText h.nanos, hdivider,
    hoffset, hrest, h.date, bind, Except.bind, List.isEmpty_nil, Bool.not_true, Bool.false_eq_true,
    if_false, shift_zero h]

end Timestamp
end Workbench
