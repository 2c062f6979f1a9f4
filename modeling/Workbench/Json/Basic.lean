import Workbench.Decimal.Double

/-!
# JSON values

A value of JSON, with its numbers held exactly.  An object is the list of its members.  Values that
come from a text, and values built by `Json.object`, hold their members in increasing order of
keys, each key once; `Json.Sorted` states that, and `object_sorted` proves it of `Json.object`.
-/

namespace Workbench

/-! ## 1. The type -/

/-- A number: an integer of at most 64 bits, or a double. -/
inductive Number where
  | int (i : Int)
  | double (d : Double)
  deriving DecidableEq, Repr, Inhabited

/-- A value of JSON. -/
inductive Json where
  | null
  | bool (b : Bool)
  | num (n : Number)
  | str (s : String)
  | arr (items : List Json)
  | obj (members : List (String × Json))
  deriving Repr, Inhabited

namespace Json

/-- An integer as a value. -/
def int (i : Int) : Json := .num (.int i)

/-- A natural number as a value. -/
def nat (n : Nat) : Json := .num (.int n)

/-- A list of texts as a value. -/
def texts (ss : List String) : Json := .arr (ss.map .str)

/-! ## 2. Equality -/

mutual

/-- Two values are the same. -/
def same : Json → Json → Bool
  | .null, .null => true
  | .bool a, .bool b => a == b
  | .num a, .num b => a == b
  | .str a, .str b => a == b
  | .arr a, .arr b => sameItems a b
  | .obj a, .obj b => sameMembers a b
  | _, _ => false

/-- Two lists of values are the same. -/
def sameItems : List Json → List Json → Bool
  | [], [] => true
  | a :: r, b :: s => same a b && sameItems r s
  | _, _ => false

/-- Two lists of members are the same. -/
def sameMembers : List (String × Json) → List (String × Json) → Bool
  | [], [] => true
  | (k, a) :: r, (l, b) :: s => k == l && same a b && sameMembers r s
  | _, _ => false

end

mutual

theorem same_iff : ∀ a b : Json, same a b = true ↔ a = b
  | .null, b => by cases b <;> simp [same]
  | .bool _, b => by cases b <;> simp [same]
  | .num _, b => by cases b <;> simp [same]
  | .str _, b => by cases b <;> simp [same]
  | .arr xs, b => by
    cases b <;> simp [same]
    exact sameItems_iff xs _
  | .obj ms, b => by
    cases b <;> simp [same]
    exact sameMembers_iff ms _

theorem sameItems_iff : ∀ a b : List Json, sameItems a b = true ↔ a = b
  | [], b => by cases b <;> simp [sameItems]
  | x :: xs, b => by
    cases b <;> simp [sameItems, same_iff x, sameItems_iff xs]

theorem sameMembers_iff : ∀ a b : List (String × Json), sameMembers a b = true ↔ a = b
  | [], b => by cases b <;> simp [sameMembers]
  | (k, x) :: xs, b => by
    cases b with
    | nil => simp [sameMembers]
    | cons y ys =>
      obtain ⟨l, y⟩ := y
      simp [sameMembers, same_iff x, sameMembers_iff xs, and_assoc]

end

instance : DecidableEq Json := fun a b =>
  if h : same a b = true then .isTrue ((same_iff a b).mp h)
  else .isFalse fun e => h ((same_iff a b).mpr e)

/-! ## 3. Members -/

/-- The members with a key added or, where it is present, given a new value.  The order of keys is
kept. -/
def insertMember (key : String) (value : Json) : List (String × Json) → List (String × Json)
  | [] => [(key, value)]
  | (k, v) :: r =>
    if key == k then (key, value) :: r
    else if key < k then (key, value) :: (k, v) :: r
    else (k, v) :: insertMember key value r

/-- Members in the order of their keys; of equal keys the last one counts. -/
def sortMembers (members : List (String × Json)) : List (String × Json) :=
  members.foldl (fun acc m => insertMember m.1 m.2 acc) []

/-- An object with the given members. -/
def object (members : List (String × Json)) : Json :=
  .obj (sortMembers members)

/-- The value of the first member with a key. -/
def lookup (key : String) : List (String × Json) → Option Json
  | [] => none
  | (k, v) :: r => if k == key then some v else lookup key r

/-- The member of an object; nothing for a value that is no object. -/
def get? : Json → String → Option Json
  | .obj members, key => lookup key members
  | _, _ => none

/-- The object with one more member, or a new value for it; any other value is left alone. -/
def insert : Json → String → Json → Json
  | .obj members, key, value => .obj (insertMember key value members)
  | j, _, _ => j

/-- The text of a string value. -/
def str? : Json → Option String
  | .str s => some s
  | _ => none

/-- The natural number of a value that is an integer and not negative. -/
def nat? : Json → Option Nat
  | .num (.int (.ofNat n)) => some n
  | _ => none

/-- The keys are in increasing order. -/
def KeysIncrease (members : List (String × Json)) : Prop :=
  members.Pairwise fun a b => a.1 < b.1

mutual

/-- Every object inside a value has its keys in increasing order. -/
def Sorted : Json → Prop
  | .arr items => SortedItems items
  | .obj members => KeysIncrease members ∧ SortedMembers members
  | _ => True

/-- Every value of a list is sorted. -/
def SortedItems : List Json → Prop
  | [] => True
  | j :: r => Sorted j ∧ SortedItems r

/-- Every value of a list of members is sorted. -/
def SortedMembers : List (String × Json) → Prop
  | [] => True
  | (_, j) :: r => Sorted j ∧ SortedMembers r

end

theorem lookup_insertMember (key k : String) (value : Json) (members : List (String × Json)) :
    lookup k (insertMember key value members) =
      if k = key then some value else lookup k members := by
  induction members with
  | nil =>
    by_cases h : k = key
    · simp [insertMember, lookup, h]
    · simp [insertMember, lookup, h, Ne.symm h]
  | cons m r ih =>
    obtain ⟨l, v⟩ := m
    simp only [insertMember]
    split
    · rename_i h
      have hl : key = l := by simpa using h
      subst hl
      by_cases hk : k = key
      · simp [lookup, hk]
      · simp [lookup, hk, Ne.symm hk]
    · rename_i h
      have hl : key ≠ l := by simpa using h
      split
      · by_cases hk : k = key
        · simp [lookup, hk]
        · simp [lookup, hk, Ne.symm hk]
      · by_cases hk : k = key
        · subst hk
          simp [lookup, ih, Ne.symm hl]
        · by_cases hkl : l = k
          · simp [lookup, hkl, hk]
          · simp [lookup, ih, hk, hkl]

theorem mem_insertMember {key : String} {value : Json} {members : List (String × Json)}
    {m : String × Json} (h : m ∈ insertMember key value members) :
    m = (key, value) ∨ m ∈ members := by
  induction members with
  | nil => simpa [insertMember] using h
  | cons n r ih =>
    obtain ⟨l, v⟩ := n
    simp only [insertMember] at h
    split at h
    · rcases List.mem_cons.mp h with h | h
      · exact Or.inl h
      · exact Or.inr (List.mem_cons_of_mem _ h)
    · split at h
      · rcases List.mem_cons.mp h with h | h
        · exact Or.inl h
        · exact Or.inr h
      · rcases List.mem_cons.mp h with h | h
        · exact Or.inr (h ▸ List.mem_cons_self)
        · rcases ih h with h | h
          · exact Or.inl h
          · exact Or.inr (List.mem_cons_of_mem _ h)

theorem keysIncrease_insertMember {key : String} {value : Json} {members : List (String × Json)}
    (h : KeysIncrease members) : KeysIncrease (insertMember key value members) := by
  induction members with
  | nil => simp [KeysIncrease, insertMember]
  | cons n r ih =>
    obtain ⟨l, v⟩ := n
    obtain ⟨hl, hr⟩ := List.pairwise_cons.mp h
    simp only [insertMember]
    split
    · rename_i he
      have he : key = l := by simpa using he
      subst he
      exact List.pairwise_cons.mpr ⟨hl, hr⟩
    · rename_i he
      have he : key ≠ l := by simpa using he
      split
      · rename_i hlt
        refine List.pairwise_cons.mpr ⟨fun m hm => ?_, h⟩
        rcases List.mem_cons.mp hm with rfl | hm
        · exact hlt
        · exact String.lt_trans hlt (hl m hm)
      · rename_i hlt
        refine List.pairwise_cons.mpr ⟨fun m hm => ?_, ih hr⟩
        rcases mem_insertMember hm with rfl | hm
        · have hle : l ≤ key := String.not_lt.mp hlt
          exact Decidable.byContradiction fun hn =>
            he (String.le_antisymm (String.not_lt.mp hn) hle)
        · exact hl m hm

theorem sortedMembers_insertMember {key : String} {value : Json} {members : List (String × Json)}
    (hv : Sorted value) (h : SortedMembers members) :
    SortedMembers (insertMember key value members) := by
  induction members with
  | nil => exact ⟨hv, trivial⟩
  | cons n r ih =>
    obtain ⟨l, v⟩ := n
    simp only [insertMember]
    split
    · exact ⟨hv, h.2⟩
    · split
      · exact ⟨hv, h⟩
      · exact ⟨h.1, ih h.2⟩

/-- An object built from sorted values is sorted. -/
theorem object_sorted {members : List (String × Json)} (h : SortedMembers members) :
    Sorted (object members) := by
  have main : ∀ (ms acc : List (String × Json)), KeysIncrease acc → SortedMembers acc →
      SortedMembers ms →
      KeysIncrease (ms.foldl (fun acc m => insertMember m.1 m.2 acc) acc) ∧
        SortedMembers (ms.foldl (fun acc m => insertMember m.1 m.2 acc) acc) := by
    intro ms
    induction ms with
    | nil => exact fun acc hk hs _ => ⟨hk, hs⟩
    | cons m r ih =>
      intro acc hk hs hm
      exact ih _ (keysIncrease_insertMember hk) (sortedMembers_insertMember hm.1 hs) hm.2
  exact main members [] List.Pairwise.nil trivial h

end Json
end Workbench
