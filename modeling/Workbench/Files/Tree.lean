/-!
# File trees

The directories and files of a file system, with the names that lead to them from the root.  The
order of the names is the order in which a directory lists what it holds.

* `FileTree.child?`, `FileTree.setChild` and `FileTree.dropChild` work on one directory;
* `FileTree.get?` is what a key leads to: the view by which the changes are described;
* `FileTree.get?_put` and `FileTree.get?_remove` say what the changes do to that view.
-/

namespace Workbench

/-! ## 1. The types -/

/-- The names that lead from the root to an entry. -/
abbrev Key := List String

/-- A directory, or a file with its content. -/
inductive Entry where
  | directory
  | file (content : String)
  deriving DecidableEq, Repr, Inhabited

/-- What a directory holds, in the order of its list. -/
inductive FileTree where
  | empty
  | file (name content : String) (rest : FileTree)
  | directory (name : String) (inside rest : FileTree)
  deriving DecidableEq, Repr, Inhabited

/-- A file with its content, or a directory with all that lies below it. -/
inductive Node where
  | file (content : String)
  | directory (inside : FileTree)
  deriving DecidableEq, Repr, Inhabited

namespace Node

/-- The node without what lies below it. -/
def entry : Node → Entry
  | file content => .file content
  | directory _ => .directory

/-- The node under a name in front of others. -/
def cons (name : String) : Node → FileTree → FileTree
  | file content, rest => .file name content rest
  | directory inside, rest => .directory name inside rest

end Node

/-- A new node: the directory is empty. -/
def Entry.node : Entry → Node
  | file content => .file content
  | directory => .directory .empty

namespace FileTree

/-! ## 2. One directory -/

/-- What stands under a name. -/
def child? : FileTree → String → Option Node
  | empty, _ => none
  | file n content rest, name => if n == name then some (.file content) else rest.child? name
  | directory n inside rest, name =>
    if n == name then some (.directory inside) else rest.child? name

/-- The directory with a node under a name, in place of an old one or behind all others. -/
def setChild : FileTree → String → Node → FileTree
  | empty, name, node => node.cons name empty
  | file n content rest, name, node =>
    if n == name then node.cons name rest else file n content (rest.setChild name node)
  | directory n inside rest, name, node =>
    if n == name then node.cons name rest else directory n inside (rest.setChild name node)

/-- The directory without a name. -/
def dropChild : FileTree → String → FileTree
  | empty, _ => empty
  | file n content rest, name =>
    if n == name then rest.dropChild name else file n content (rest.dropChild name)
  | directory n inside rest, name =>
    if n == name then rest.dropChild name else directory n inside (rest.dropChild name)

/-- The names in a directory. -/
def listing : FileTree → List String
  | empty => []
  | file n _ rest => n :: rest.listing
  | directory n _ rest => n :: rest.listing

/-! ## 3. All levels -/

/-- What a key leads to, with all that lies below it. -/
def node? : FileTree → Key → Option Node
  | t, [] => some (.directory t)
  | t, name :: below =>
    match t.child? name with
    | none => none
    | some (.file content) => if below.isEmpty then some (.file content) else none
    | some (.directory inside) => inside.node? below

/-- What a key leads to. -/
def get? (t : FileTree) (key : Key) : Option Entry := (t.node? key).map Node.entry

/-- A key leads to a directory. -/
def isDirectory (t : FileTree) (key : Key) : Bool := t.get? key == some .directory

/-- The names in the directory to which a key leads. -/
def names (t : FileTree) (key : Key) : List String :=
  match t.node? key with
  | some (.directory inside) => inside.listing
  | _ => []

/-- The tree with a new entry at a key, in place of an old one with all below it.  Without a
directory to put it in, nothing changes. -/
def put : FileTree → Key → Entry → FileTree
  | t, [], _ => t
  | t, [name], entry => t.setChild name entry.node
  | t, name :: below, entry =>
    match t.child? name with
    | some (.directory inside) => t.setChild name (.directory (inside.put below entry))
    | _ => t

/-- The tree without an entry and all that lies below it. -/
def remove : FileTree → Key → FileTree
  | t, [] => t
  | t, [name] => t.dropChild name
  | t, name :: below =>
    match t.child? name with
    | some (.directory inside) => t.setChild name (.directory (inside.remove below))
    | _ => t

/-- The entries below a key, each directory in front of what it holds. -/
def entriesFrom (above : Key) : FileTree → List (Key × Entry)
  | empty => []
  | file n content rest => (above ++ [n], .file content) :: rest.entriesFrom above
  | directory n inside rest =>
    (above ++ [n], .directory) :: (inside.entriesFrom (above ++ [n]) ++ rest.entriesFrom above)

/-- All entries but the root. -/
def entries (t : FileTree) : List (Key × Entry) := t.entriesFrom []

/-- The largest number of names that lead to an entry. -/
def depth : FileTree → Nat
  | empty => 0
  | file _ _ rest => max 1 rest.depth
  | directory _ inside rest => max (inside.depth + 1) rest.depth

/-! ## 4. What the changes do to a directory -/

theorem child?_cons (name m : String) (node : Node) (rest : FileTree) :
    (node.cons name rest).child? m = if m = name then some node else rest.child? m := by
  cases node <;> grind [Node.cons, child?]

theorem child?_setChild (t : FileTree) (name m : String) (node : Node) :
    (t.setChild name node).child? m = if m = name then some node else t.child? m := by
  induction t with
  | empty => simp [setChild, child?_cons, child?]
  | file n content rest ih => grind [setChild, child?, child?_cons]
  | directory n inside rest _ ih => grind [setChild, child?, child?_cons]

theorem child?_dropChild (t : FileTree) (name m : String) :
    (t.dropChild name).child? m = if m = name then none else t.child? m := by
  induction t with
  | empty => simp [dropChild, child?]
  | file n content rest ih => grind [dropChild, child?]
  | directory n inside rest _ ih => grind [dropChild, child?]

/-! ## 5. What the changes do to the view -/

@[simp] theorem get?_nil (t : FileTree) : t.get? [] = some .directory := rfl

theorem get?_cons (t : FileTree) (name : String) (below : Key) :
    t.get? (name :: below) =
      match t.child? name with
      | none => none
      | some (.file content) => if below.isEmpty then some (.file content) else none
      | some (.directory inside) => inside.get? below := by
  simp only [get?, node?]
  split
  · rfl
  · split <;> rfl
  · rfl

/-- A directory whose child of one name has been replaced. -/
theorem get?_setChild (t : FileTree) (name : String) (node : Node) (k : Key) :
    (t.setChild name node).get? k =
      match k with
      | [] => some .directory
      | m :: below => if m = name then (node.cons name empty).get? (name :: below)
        else t.get? (m :: below) := by
  cases k with
  | nil => rfl
  | cons m below =>
    by_cases h : m = name
    · simp [get?_cons, child?_setChild, child?_cons, h]
    · simp [get?_cons, child?_setChild, h]

/-- A new entry is found at its key, nothing is found below it, and all else is as before. -/
theorem get?_put {t : FileTree} {dir : Key} (h : t.get? dir = some .directory) (name : String)
    (entry : Entry) (k : Key) :
    (t.put (dir ++ [name]) entry).get? k =
      if k = dir ++ [name] then some entry
      else if (dir ++ [name]).isPrefixOf k then none else t.get? k := by
  induction dir generalizing t k with
  | nil =>
    cases k with
    | nil => simp
    | cons m below =>
      simp only [List.nil_append, put, get?_setChild]
      by_cases hm : m = name
      · cases entry <;> cases below <;>
          simp [hm, Entry.node, get?_cons, child?_cons, child?, List.isPrefixOf]
      · simp [hm, Ne.symm hm, List.isPrefixOf]
  | cons a r ih =>
    rw [get?_cons] at h
    split at h
    · cases h
    · split at h <;> cases h
    · rename_i inside hc
      have hput : t.put (a :: r ++ [name]) entry =
          t.setChild a (.directory (inside.put (r ++ [name]) entry)) := by
        cases r <;> simp [put, hc]
      rw [hput]
      cases k with
      | nil => simp
      | cons m below =>
        rw [get?_setChild]
        by_cases hm : m = a
        · subst hm
          simp [get?_cons, child?_cons, hc, ih h]
        · simp [hm, Ne.symm hm, List.isPrefixOf]

/-- Nothing is found at the key of a removed entry and below it, and all else is as before. -/
theorem get?_remove {key : Key} (h : key ≠ []) (t : FileTree) (k : Key) :
    (t.remove key).get? k = if key.isPrefixOf k then none else t.get? k := by
  induction key generalizing t k with
  | nil => exact absurd rfl h
  | cons a r ih =>
    cases k with
    | nil => simp [List.isPrefixOf]
    | cons m below =>
      cases r with
      | nil =>
        by_cases hm : m = a
        · simp [remove, get?_cons, child?_dropChild, hm, List.isPrefixOf]
        · simp [remove, get?_cons, child?_dropChild, hm, Ne.symm hm, List.isPrefixOf]
      | cons b s =>
        simp only [remove]
        split
        · rename_i inside hc
          rw [get?_setChild]
          by_cases hm : m = a
          · subst hm
            simp [get?_cons, child?_cons, hc, ih, List.isPrefixOf]
          · simp [hm, Ne.symm hm, List.isPrefixOf]
        · rename_i hc
          by_cases hm : m = a
          · subst hm
            rw [get?_cons]
            split
            · simp
            · cases below <;> simp [List.isPrefixOf]
            · rename_i inside hi
              exact absurd hi (hc inside)
          · simp [Ne.symm hm, List.isPrefixOf]

end FileTree
end Workbench
