import Workbench.Files.Disk
import Workbench.Proofs.Files.Paths

/-!
# Walking down a disk

A disk follows a path with the nodes in hand; what it does can be said by keys alone.

* `FileTree.walk` follows segments by keys, and `Disk.find_eq` says that a disk finds what a walk
  finds;
* `Disk.site` is where a path leads if neither its length nor its letters stand against it; the
  empty path leads to the working directory;
* `Disk.site_child` is the site of a name behind a path;
* `FileTree.Grows` says that nothing is lost and nothing changes its kind; a walk leads to the same
  place then (`FileTree.Grows.walk`);
* `Disk.namesIn` are the names in a directory, and `Disk.readDirectory_of_isDirectory` says that
  they can be read wherever there is one.
-/

namespace Workbench

/-! ## 1. Keys in a tree -/

namespace FileTree

/-- The node at a longer key is a child of the directory at the shorter one. -/
theorem node?_concat (t : FileTree) (key : Key) (name : String) :
    t.node? (key ++ [name]) =
      match t.node? key with
      | some (.directory inside) => inside.child? name
      | _ => none := by
  induction key generalizing t with
  | nil =>
    simp only [List.nil_append, node?]
    cases t.child? name with
    | none => rfl
    | some node => cases node <;> rfl
  | cons a r ih =>
    simp only [List.cons_append, node?]
    cases t.child? a with
    | none => rfl
    | some node =>
      cases node with
      | file content => cases r <;> simp
      | directory inside => exact ih inside

theorem get?_concat (t : FileTree) (key : Key) (name : String) :
    t.get? (key ++ [name]) =
      match t.node? key with
      | some (.directory inside) => (inside.child? name).map Node.entry
      | _ => none := by
  rw [get?, node?_concat]
  cases t.node? key with
  | none => rfl
  | some node => cases node <;> rfl

/-- What has something below it is a directory. -/
theorem isDirectory_of_concat {t : FileTree} {key : Key} {name : String}
    (h : t.get? (key ++ [name]) ≠ none) : t.get? key = some .directory := by
  rw [get?_concat] at h
  rw [get?]
  cases hk : t.node? key with
  | none => simp [hk] at h
  | some node =>
    cases node with
    | file content => simp [hk] at h
    | directory inside => rfl

theorem isDirectory_of_append {t : FileTree} {key below : Key} (hne : below ≠ [])
    (h : t.get? (key ++ below) ≠ none) : t.get? key = some .directory := by
  induction below generalizing key with
  | nil => exact absurd rfl hne
  | cons name below ih =>
    rw [List.append_cons] at h
    cases below with
    | nil => exact isDirectory_of_concat (by simpa using h)
    | cons other below =>
      have hnext : t.get? (key ++ [name]) ≠ none := by simp [ih (by simp) h]
      exact isDirectory_of_concat hnext

/-! ## 2. Walks -/

/-- The key one segment further on. -/
def stepKey (t : FileTree) (key : Key) (segment : String) : Except FileFault Key :=
  if t.get? key ≠ some .directory then .error .notDirectory
  else if segment == "" || segment == "." then .ok key
  else if segment == ".." then .ok key.dropLast
  else if Disk.maxName < segment.utf8ByteSize then .error .nameTooLong
  else if t.get? (key ++ [segment]) = none then .error .notFound
  else .ok (key ++ [segment])

/-- The key to which segments lead. -/
def walk (t : FileTree) : Key → List String → Except FileFault Key
  | key, [] => .ok key
  | key, s :: ss =>
    match t.stepKey key s with
    | .ok key => t.walk key ss
    | .error f => .error f

theorem walk_append (t : FileTree) (key : Key) (ss rest : List String) :
    t.walk key (ss ++ rest) = (t.walk key ss).bind (t.walk · rest) := by
  induction ss generalizing key with
  | nil => rfl
  | cons s ss ih =>
    simp only [List.cons_append, walk]
    cases t.stepKey key s with
    | error f => rfl
    | ok key => exact ih key

theorem walk_singleton (t : FileTree) (key : Key) (s : String) :
    t.walk key [s] = t.stepKey key s := by
  simp only [walk]
  cases t.stepKey key s <;> rfl

theorem stepKey_of_real {t : FileTree} {key key' : Key} {s : String}
    (hs : Path.IsEntryName s) (h : t.stepKey key s = .ok key') :
    key' = key ++ [s] ∧ t.get? key = some .directory ∧ t.get? key' ≠ none ∧
      s.utf8ByteSize ≤ Disk.maxName := by
  obtain ⟨h₁, h₂, h₃⟩ := hs
  unfold stepKey at h
  split at h
  · cases h
  · rename_i hdir
    simp only [h₁, h₂, h₃, beq_iff_eq, Bool.or_eq_true, or_self, if_false] at h
    split at h
    · cases h
    · split at h <;> cases h
      rename_i hlen hget
      exact ⟨rfl, Decidable.not_not.mp hdir, hget, Nat.le_of_not_lt hlen⟩

end FileTree

namespace Disk

variable {d : Disk}

/-- The nodes of a trail are those of the disk. -/
def Faithful (d : Disk) : Trail → Prop
  | [] => True
  | (name, node) :: trail =>
    d.tree.node? (keyOf trail ++ [name]) = some node ∧ d.Faithful trail

theorem faithful_nil (d : Disk) : d.Faithful [] := trivial

theorem keyOf_cons (name : String) (node : Node) (trail : Trail) :
    keyOf ((name, node) :: trail) = keyOf trail ++ [name] := by
  simp [keyOf]

theorem Faithful.here {trail : Trail} (h : d.Faithful trail) :
    d.tree.node? (keyOf trail) = some (d.here trail) := by
  cases trail with
  | nil => rfl
  | cons entry trail =>
    rw [keyOf_cons]
    exact h.1

theorem Faithful.drop {trail : Trail} (h : d.Faithful trail) : d.Faithful (trail.drop 1) := by
  cases trail with
  | nil => trivial
  | cons entry trail => exact h.2

theorem keyOf_drop (trail : Trail) : keyOf (trail.drop 1) = (keyOf trail).dropLast := by
  cases trail with
  | nil => rfl
  | cons entry trail => simp [keyOf]

theorem Faithful.step {trail trail' : Trail} {s : String} (h : d.Faithful trail)
    (hs : d.step trail s = .ok trail') : d.Faithful trail' := by
  unfold Disk.step at hs
  split at hs
  · cases hs
  · rename_i inside hinside
    split at hs
    · cases hs
      exact h
    · split at hs
      · cases hs
        exact h.drop
      · split at hs
        · cases hs
        · split at hs <;> cases hs
          rename_i node hnode
          refine ⟨?_, h⟩
          rw [FileTree.node?_concat, h.here, hinside]
          exact hnode

/-- A step with the nodes in hand is a step by keys. -/
theorem Faithful.step_eq {trail : Trail} (h : d.Faithful trail) (s : String) :
    (d.step trail s).map keyOf = d.tree.stepKey (keyOf trail) s := by
  have hget : d.tree.get? (keyOf trail) = some (d.here trail).entry := by
    simp [FileTree.get?, h.here]
  have hchild := d.tree.get?_concat (keyOf trail) s
  rw [h.here] at hchild
  unfold Disk.step FileTree.stepKey
  rw [hget]
  cases hnode : d.here trail with
  | file content => rfl
  | directory inside =>
    rw [hnode] at hchild
    simp only [Node.entry, ne_eq, not_true_eq_false, if_false]
    split
    · rfl
    · split
      · exact congrArg Except.ok (keyOf_drop trail)
      · split
        · rfl
        · cases hc : inside.child? s with
          | none => simp [hchild, hc, Except.map]
          | some node => simp [hchild, hc, Except.map, keyOf_cons]

/-- **What a disk follows with the nodes in hand it follows by keys.** -/
theorem Faithful.follow_eq {trail : Trail} (h : d.Faithful trail) (ss : List String) :
    (d.follow trail ss).map keyOf = d.tree.walk (keyOf trail) ss := by
  induction ss generalizing trail with
  | nil => rfl
  | cons s ss ih =>
    have hstep := h.step_eq s
    simp only [follow, FileTree.walk]
    cases hs : d.step trail s with
    | error f =>
      rw [hs] at hstep
      rw [← hstep]
      rfl
    | ok trail' =>
      rw [hs] at hstep
      rw [← hstep]
      exact ih (h.step hs)

theorem Faithful.follow {trail trail' : Trail} {ss : List String} (h : d.Faithful trail)
    (hs : d.follow trail ss = .ok trail') : d.Faithful trail' := by
  induction ss generalizing trail with
  | nil =>
    cases hs
    exact h
  | cons s ss ih =>
    simp only [Disk.follow] at hs
    split at hs
    · rename_i trail₁ hstep
      exact ih (h.step hstep) hs
    · cases hs

/-- Where a path leads, if neither its length nor its letters stand against it. -/
def site (d : Disk) (p : Path) : Except FileFault Key := d.tree.walk [] (d.route p)

/-- **What a disk finds.** -/
theorem find_eq (p : Path) :
    d.find p =
      match pathFault? p with
      | some f => .error f
      | none => d.site p := by
  unfold find
  cases pathFault? p with
  | some f => rfl
  | none => exact d.faithful_nil.follow_eq _

theorem find_eq_ok {p : Path} {key : Key} :
    d.find p = .ok key ↔ pathFault? p = none ∧ d.site p = .ok key := by
  rw [find_eq]
  cases pathFault? p <;> simp

/-! ## 4. A name behind a path -/

/-- The route of a path by its first segment. -/
theorem route_cons (d : Disk) (s : String) (rest : List String) :
    d.route ⟨s :: rest⟩ = if s == "" && !rest.isEmpty then rest else d.cwd ++ s :: rest := by
  unfold route
  rw [Path.isAbsolute_cons]
  rfl

/-- The route of a name behind a path passes through where the path leads. -/
theorem route_child (d : Disk) (p : Path) (name : String) :
    ∃ front, d.route (p.child name) = front ++ [name] ∧
      (d.route p = front ∨ d.route p = front ++ [""]) := by
  rcases p.child_eq with ⟨hempty, hchild⟩ | ⟨s, rest, hchild, hp⟩
  · rw [hchild, route_cons]
    refine ⟨d.cwd, by simp, ?_⟩
    obtain ⟨segments⟩ := p
    simp only [Path.isEmpty, Bool.or_eq_true, beq_iff_eq] at hempty
    rcases hempty with rfl | rfl
    · exact Or.inl (List.append_nil _)
    · exact Or.inr rfl
  · rw [hchild, route_cons]
    cases hs : s == "" with
    | true =>
      refine ⟨rest, by simp, ?_⟩
      rcases hp with ⟨rfl, hrest⟩ | rfl
      · rw [hs, Bool.true_and] at hrest
        exact Or.inl (by rw [route_cons, hs, hrest]; rfl)
      · exact Or.inr (by rw [route_cons, hs]; simp)
    | false =>
      refine ⟨d.cwd ++ s :: rest, by simp, ?_⟩
      rcases hp with ⟨rfl, -⟩ | rfl
      · exact Or.inl (by rw [route_cons, hs]; rfl)
      · exact Or.inr (by rw [route_cons, hs]; simp)

/-- **The site of a name behind a path** is one step from the site of the path. -/
theorem site_child (d : Disk) (p : Path) (name : String) :
    d.site (p.child name) = (d.site p).bind (d.tree.stepKey · name) := by
  obtain ⟨front, hchild, hp⟩ := d.route_child p name
  unfold site
  rw [hchild, FileTree.walk_append]
  rcases hp with hp | hp
  · rw [hp]
    simp only [FileTree.walk_singleton]
  · rw [hp, FileTree.walk_append]
    cases d.tree.walk [] front with
    | error f => rfl
    | ok key =>
      simp only [Except.bind, FileTree.walk_singleton, FileTree.stepKey]
      by_cases hdir : d.tree.get? key = some .directory <;> simp [hdir]

/-- What is found behind a path is found from where the path leads. -/
theorem site_child_ok {p : Path} {name : String} {key : Key} (h : d.site (p.child name) = .ok key) :
    ∃ above, d.site p = .ok above ∧ d.tree.stepKey above name = .ok key := by
  rw [site_child] at h
  cases hp : d.site p with
  | error f =>
    rw [hp] at h
    cases h
  | ok above =>
    rw [hp] at h
    exact ⟨above, rfl, h⟩

/-- What lies below a path is found below where the path leads. -/
theorem site_of_below {dir p : Path} {key : Key} (h : dir.Below p) (hp : d.site p = .ok key) :
    ∃ above, d.site dir = .ok above ∧ above <+: key := by
  induction h generalizing key with
  | here => exact ⟨key, hp, List.prefix_refl key⟩
  | child name _ hname ih =>
    obtain ⟨above, habove, hstep⟩ := site_child_ok hp
    obtain ⟨top, htop, hprefix⟩ := ih habove
    refine ⟨top, htop, hprefix.trans ?_⟩
    unfold FileTree.stepKey at hstep
    split at hstep
    · cases hstep
    · split at hstep
      · cases hstep
        exact List.prefix_refl _
      · split at hstep
        · rename_i hup
          exact absurd (beq_iff_eq.mp hup) hname
        · split at hstep
          · cases hstep
          · split at hstep <;> cases hstep
            exact List.prefix_append _ _

end Disk

/-! ## 5. Trees that grow -/

/-- Nothing is lost, and nothing changes its kind. -/
structure FileTree.Grows (t t' : FileTree) : Prop where
  directory : ∀ k, t.get? k = some .directory → t'.get? k = some .directory
  file : ∀ k content, t.get? k = some (.file content) → ∃ later, t'.get? k = some (.file later)

namespace FileTree.Grows

variable {t t' t'' : FileTree}

theorem refl (t : FileTree) : t.Grows t := ⟨fun _ h => h, fun _ content h => ⟨content, h⟩⟩

theorem trans (h : t.Grows t') (h' : t'.Grows t'') : t.Grows t'' where
  directory k hk := h'.directory k (h.directory k hk)
  file k content hk := by
    obtain ⟨later, hlater⟩ := h.file k content hk
    exact h'.file k later hlater

theorem isSome (h : t.Grows t') {k : Key} (hk : t.get? k ≠ none) : t'.get? k ≠ none := by
  cases he : t.get? k with
  | none => exact absurd he hk
  | some entry =>
    cases entry with
    | directory => simp [h.directory k he]
    | file content =>
      obtain ⟨later, hlater⟩ := h.file k content he
      simp [hlater]

theorem stepKey (h : t.Grows t') {key key' : Key} {s : String} (hs : t.stepKey key s = .ok key') :
    t'.stepKey key s = .ok key' := by
  unfold FileTree.stepKey at hs ⊢
  split at hs
  · cases hs
  · rename_i hdir
    rw [if_neg (by simpa using h.directory key (Decidable.not_not.mp hdir))]
    split
    · rename_i hsame
      rwa [if_pos hsame] at hs
    · rename_i hother
      rw [if_neg hother] at hs
      split
      · rename_i hup
        rwa [if_pos hup] at hs
      · rename_i hdown
        rw [if_neg hdown] at hs
        split at hs
        · cases hs
        · rename_i hlen
          rw [if_neg hlen]
          split at hs
          · cases hs
          · rename_i hget
            rwa [if_neg (h.isSome hget)]

/-- **A walk leads to the same place when the tree has grown.** -/
theorem walk (h : t.Grows t') {key key' : Key} {ss : List String} (hs : t.walk key ss = .ok key') :
    t'.walk key ss = .ok key' := by
  induction ss generalizing key with
  | nil => exact hs
  | cons s ss ih =>
    simp only [FileTree.walk] at hs ⊢
    split at hs
    · rename_i key₁ hstep
      rw [h.stepKey hstep]
      exact ih hs
    · cases hs

end FileTree.Grows

/-- The tree has grown, and relative paths begin where they did. -/
structure Disk.Grows (d d' : Disk) : Prop where
  tree : d.tree.Grows d'.tree
  cwd : d'.cwd = d.cwd

namespace Disk.Grows

variable {d d' d'' : Disk}

theorem refl (d : Disk) : d.Grows d := ⟨.refl d.tree, rfl⟩

theorem trans (h : d.Grows d') (h' : d'.Grows d'') : d.Grows d'' :=
  ⟨h.tree.trans h'.tree, h'.cwd.trans h.cwd⟩

theorem route (h : d.Grows d') (p : Path) : d'.route p = d.route p := by
  simp [Disk.route, h.cwd]

theorem site (h : d.Grows d') {p : Path} {key : Key} (hp : d.site p = .ok key) :
    d'.site p = .ok key := by
  unfold Disk.site at hp ⊢
  rw [h.route p]
  exact h.tree.walk hp

theorem find (h : d.Grows d') {p : Path} {key : Key} (hp : d.find p = .ok key) :
    d'.find p = .ok key := by
  rw [find_eq_ok] at hp ⊢
  exact ⟨hp.1, h.site hp.2⟩

end Disk.Grows

/-! ## 6. Directories -/

namespace Disk

variable {d d' : Disk}

theorem isDirectory_iff {p : Path} :
    d.isDirectory p = true ↔ ∃ key, d.find p = .ok key ∧ d.tree.get? key = some .directory := by
  unfold isDirectory entry?
  cases d.find p <;> simp

theorem Grows.isDirectory (h : d.Grows d') {p : Path} (hp : d.isDirectory p = true) :
    d'.isDirectory p = true := by
  obtain ⟨key, hfind, hget⟩ := isDirectory_iff.mp hp
  exact isDirectory_iff.mpr ⟨key, h.find hfind, h.tree.directory key hget⟩

/-- The names in a directory; none, if the path leads to no directory. -/
def namesIn (d : Disk) (p : Path) : List String :=
  match d.find p with
  | .ok key => d.tree.names key
  | .error _ => []

theorem readDirectory_of_isDirectory {p : Path} (h : d.isDirectory p = true) :
    d.readDirectory p = .ok (d.namesIn p) := by
  obtain ⟨key, hfind, hget⟩ := isDirectory_iff.mp h
  simp [readDirectory, namesIn, hfind, FileTree.isDirectory, hget]

/-- Only directories are read. -/
theorem isDirectory_of_readDirectory {p : Path} {names : List String}
    (h : d.readDirectory p = .ok names) : d.isDirectory p = true := by
  unfold readDirectory at h
  split at h
  · cases h
  · rename_i key hfind
    split at h
    · rename_i hdir
      exact isDirectory_iff.mpr ⟨key, hfind, by simpa [FileTree.isDirectory] using hdir⟩
    · cases h

end Disk
end Workbench
