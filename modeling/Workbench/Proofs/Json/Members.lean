import Mathlib.Data.List.Induction
import Mathlib.Data.List.Nodup
import Workbench.Json.Basic

/-!
# Members in the order of their keys

`Json.sortMembers` puts the members of an object in the order of their keys, and lets the last of
equal keys count.

* `sortMembers_perm`: with different keys no member is lost;
* `lookup_sortMembers`: with different keys each key is found with the value it had;
* `sortMembers_of_keysIncrease`: members that stand in order stay as they are.

All three go by the last member, since that is the one which is put in last.
-/

namespace Workbench
namespace Json

instance (members : List (String × Json)) : Decidable (KeysIncrease members) :=
  inferInstanceAs (Decidable (members.Pairwise _))

/-! ## 1. One more member -/

/-- The keys of members. -/
def keys (members : List (String × Json)) : List String := members.map Prod.fst

theorem keys_append (members others : List (String × Json)) :
    keys (members ++ others) = keys members ++ keys others :=
  List.map_append

theorem sortMembers_concat (members : List (String × Json)) (m : String × Json) :
    sortMembers (members ++ [m]) = insertMember m.1 m.2 (sortMembers members) := by
  simp only [sortMembers, List.foldl_append, List.foldl_cons, List.foldl_nil]

/-- A key that is not there comes in addition. -/
theorem insertMember_perm {key : String} {members : List (String × Json)}
    (h : key ∉ keys members) (value : Json) :
    (insertMember key value members).Perm ((key, value) :: members) := by
  induction members with
  | nil => exact List.Perm.refl _
  | cons m rest ih =>
    obtain ⟨hne, hrest⟩ := List.ne_and_not_mem_of_not_mem_cons h
    simp only [insertMember, beq_eq_false_iff_ne.mpr hne, Bool.false_eq_true, if_false]
    split
    · exact List.Perm.refl _
    · exact ((ih hrest).cons m).trans (List.Perm.swap _ _ _)

/-- A key behind all others comes last. -/
theorem insertMember_last {key : String} {members : List (String × Json)}
    (h : ∀ m ∈ members, m.1 < key) (value : Json) :
    insertMember key value members = members ++ [(key, value)] := by
  induction members with
  | nil => rfl
  | cons m rest ih =>
    have hlt : m.1 < key := h m List.mem_cons_self
    have hne : key ≠ m.1 := fun heq => String.lt_irrefl _ (heq ▸ hlt)
    have hnlt : ¬ key < m.1 := fun hgt => String.lt_irrefl _ (String.lt_trans hlt hgt)
    simp only [insertMember, beq_eq_false_iff_ne.mpr hne, Bool.false_eq_true, if_false, hnlt,
      List.cons_append]
    rw [ih fun m' hm' => h m' (List.mem_cons_of_mem _ hm')]

theorem lookup_concat (key : String) (members : List (String × Json)) (m : String × Json) :
    lookup key (members ++ [m]) =
      (lookup key members).or (if m.1 = key then some m.2 else none) := by
  induction members with
  | nil => simp only [List.nil_append, lookup, beq_iff_eq, Option.none_or]
  | cons m' rest ih =>
    simp only [List.cons_append, lookup, ih]
    split <;> rfl

theorem lookup_eq_none {key : String} {members : List (String × Json)} (h : key ∉ keys members) :
    lookup key members = none := by
  induction members with
  | nil => rfl
  | cons m rest ih =>
    obtain ⟨hne, hrest⟩ := List.ne_and_not_mem_of_not_mem_cons h
    simp only [lookup, beq_eq_false_iff_ne.mpr (Ne.symm hne), Bool.false_eq_true, if_false,
      ih hrest]

/-! ## 2. All members -/

theorem nodup_keys_concat {members : List (String × Json)} {m : String × Json} :
    (keys (members ++ [m])).Nodup ↔ (keys members).Nodup ∧ m.1 ∉ keys members := by
  rw [keys_append, List.nodup_append_comm]
  exact List.nodup_cons.trans And.comm

/-- **No member is lost if the keys are different.** -/
theorem sortMembers_perm {members : List (String × Json)} (h : (keys members).Nodup) :
    (sortMembers members).Perm members := by
  induction members using List.reverseRecOn with
  | nil => exact List.Perm.refl _
  | append_singleton members m ih =>
    obtain ⟨hbefore, hm⟩ := nodup_keys_concat.mp h
    have hperm : (sortMembers members).Perm members := ih hbefore
    have hnew : m.1 ∉ keys (sortMembers members) := fun hmem => hm ((hperm.map _).mem_iff.mp hmem)
    rw [sortMembers_concat]
    exact ((insertMember_perm hnew m.2).trans (hperm.cons _)).trans
      (List.perm_append_singleton _ _).symm

/-- **A key is found with the value it had before.** -/
theorem lookup_sortMembers {members : List (String × Json)} (h : (keys members).Nodup)
    (key : String) : lookup key (sortMembers members) = lookup key members := by
  induction members using List.reverseRecOn with
  | nil => rfl
  | append_singleton members m ih =>
    obtain ⟨hbefore, hm⟩ := nodup_keys_concat.mp h
    rw [sortMembers_concat, lookup_insertMember, lookup_concat, ih hbefore]
    by_cases heq : key = m.1
    · rw [if_pos heq, if_pos heq.symm, lookup_eq_none (heq ▸ hm), Option.none_or]
    · rw [if_neg heq, if_neg (Ne.symm heq), Option.or_none]

theorem get?_object {members : List (String × Json)} (h : (keys members).Nodup) (key : String) :
    (object members).get? key = lookup key members :=
  lookup_sortMembers h key

/-- **Members that stand in order stay as they are.** -/
theorem sortMembers_of_keysIncrease {members : List (String × Json)} (h : KeysIncrease members) :
    sortMembers members = members := by
  induction members using List.reverseRecOn with
  | nil => rfl
  | append_singleton members m ih =>
    obtain ⟨hbefore, -, hlast⟩ := List.pairwise_append.mp h
    rw [sortMembers_concat, ih hbefore]
    exact insertMember_last (fun m' hm' => hlast m' hm' m (List.mem_singleton_self m)) m.2

end Json
end Workbench
