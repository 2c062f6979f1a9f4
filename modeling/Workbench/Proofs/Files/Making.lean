import Workbench.Proofs.Files.Writing

/-!
# Directories that are made

To make a directory is to make those that are missing above it as well.  Which ones these are is
told by the path: by what is above it, and by where that leads once all has been made.

* `Along` compares the routes of two paths, and `Disk.along_of_mem_ancestors` says that the route of
  a path goes along those above it;
* `Disk.below_of_walk` tells where such a route leads that goes on from a directory without leading
  upwards: to a directory that was there before, or further down;
* `Disk.Extends` says that only directories have come in, and `Disk.Makes` that every new one is
  where one of some paths leads: `Disk.makes_makeDirectories` is this for a path and what is above.
-/

namespace Workbench

/-- What a list begins with ends in its first part, or goes on into its second. -/
theorem prefix_append_cases {α : Type} {front l l' : List α} (h : front <+: l ++ l') :
    front <+: l ∨ ∃ part, part <+: l' ∧ front = l ++ part := by
  rcases List.prefix_or_prefix_of_prefix h (List.prefix_append l l') with hshort | ⟨part, rfl⟩
  · exact Or.inl hshort
  · exact Or.inr ⟨part, (List.prefix_append_right_inj l).mp h, rfl⟩

/-! ## 1. Routes -/

/-- The route goes along another one for a while, and then nowhere: there are only empty segments
behind. -/
def Along (route way : List String) : Prop :=
  ∃ front blanks, front <+: way ∧ route = front ++ blanks ∧ ∀ s ∈ blanks, s = ""

namespace Along

theorem of_isPrefix {route way : List String} (h : route <+: way) : Along route way :=
  ⟨route, [], h, by simp, by simp⟩

theorem refl (route : List String) : Along route route := of_isPrefix (List.prefix_refl route)

theorem trans {route middle way : List String} (h : Along route middle) (h' : Along middle way) :
    Along route way := by
  obtain ⟨front, blanks, hprefix, rfl, hblanks⟩ := h
  obtain ⟨front', blanks', hprefix', rfl, hblanks'⟩ := h'
  rcases prefix_append_cases hprefix with hshort | ⟨part, hpart, rfl⟩
  · exact ⟨front, blanks, hshort.trans hprefix', rfl, hblanks⟩
  · refine ⟨front', part ++ blanks, hprefix', by simp, fun s hs => ?_⟩
    rcases List.mem_append.mp hs with hs | hs
    · exact hblanks' s (hpart.subset hs)
    · exact hblanks s hs

end Along

namespace FileTree

variable {t : FileTree} {key key' : Key}

/-- Empty segments lead nowhere else. -/
theorem walk_blanks {blanks : List String} (hblanks : ∀ s ∈ blanks, s = "")
    (hkey : t.get? key = some .directory) : t.walk key blanks = .ok key := by
  induction blanks with
  | nil => rfl
  | cons s rest ih =>
    obtain rfl := hblanks s List.mem_cons_self
    simpa [walk, stepKey, hkey] using ih fun s hs => hblanks s (List.mem_cons_of_mem _ hs)

/-- The parts of a walk. -/
theorem walk_append_ok {front rest : List String} (h : t.walk key (front ++ rest) = .ok key') :
    ∃ middle, t.walk key front = .ok middle ∧ t.walk middle rest = .ok key' := by
  rw [walk_append] at h
  cases hfront : t.walk key front with
  | error f =>
    rw [hfront] at h
    cases h
  | ok middle =>
    rw [hfront] at h
    exact ⟨middle, rfl, h⟩

/-- A walk goes on from a directory. -/
theorem isDirectory_of_walk_cons {s : String} {rest : List String}
    (h : t.walk key (s :: rest) = .ok key') : t.get? key = some .directory := by
  simp only [walk, stepKey] at h
  by_cases hdir : t.get? key = some .directory
  · exact hdir
  · simp [hdir] at h

/-- Without two dots, a walk leads down. -/
theorem prefix_of_walk {ss : List String} (hss : ∀ s ∈ ss, s ≠ "..")
    (h : t.walk key ss = .ok key') : key <+: key' := by
  induction ss generalizing key with
  | nil =>
    cases h
    exact List.prefix_refl _
  | cons s ss ih =>
    simp only [walk] at h
    split at h
    · rename_i next hstep
      have hnext := ih (fun s hs => hss s (List.mem_cons_of_mem _ hs)) h
      refine List.IsPrefix.trans ?_ hnext
      unfold stepKey at hstep
      have hup : (s == "..") = false := by simpa using hss s List.mem_cons_self
      rw [hup] at hstep
      split at hstep
      · cases hstep
      · split at hstep
        · cases hstep
          exact List.prefix_refl _
        · simp only [Bool.false_eq_true, if_false] at hstep
          split at hstep
          · cases hstep
          · split at hstep <;> cases hstep
            exact List.prefix_append _ _
    · cases h

/-- Empty segments at the end can be left out. -/
theorem walk_of_blanks {front blanks : List String} (hblanks : ∀ s ∈ blanks, s = "")
    (h : t.walk key (front ++ blanks) = .ok key') : t.walk key front = .ok key' := by
  obtain ⟨middle, hfront, hrest⟩ := walk_append_ok h
  cases blanks with
  | nil =>
    cases hrest
    exact hfront
  | cons s rest =>
    rw [walk_blanks hblanks (isDirectory_of_walk_cons hrest)] at hrest
    cases hrest
    exact hfront

end FileTree

/-! ## 2. Above a path -/

namespace Path

theorem dropIdle_isPrefix (ss : List String) : dropIdle ss <+: ss := by
  induction ss with
  | nil => exact List.prefix_refl []
  | cons s ss ih =>
    simp only [dropIdle]
    split
    · split
      · exact List.nil_prefix
      · exact List.prefix_append [s] ss
    · exact (List.prefix_cons_inj s).mpr ih

theorem dropLastComponent_isPrefix (ss : List String) : dropLastComponent ss <+: ss :=
  (dropIdle_isPrefix _).trans ((List.dropLast_prefix _).trans (dropIdle_isPrefix ss))

end Path

namespace Disk

variable {d d' d'' : Disk}

theorem route_relative {s : String} (rest : List String) (h : s ≠ "") :
    d.route ⟨s :: rest⟩ = d.cwd ++ s :: rest := by
  rw [route_cons, beq_eq_false_iff_ne.mpr h]
  rfl

theorem route_empty : d.route Path.empty = d.cwd ++ [""] := by
  simp [Path.empty, route_cons]

/-- The route of a path goes along that of the path above it. -/
theorem along_of_parent? {p q : Path} (h : p.parent? = some q) : Along (d.route q) (d.route p) := by
  obtain ⟨segments⟩ := p
  cases segments with
  | nil => cases h
  | cons s rest =>
    have hcwd : ∀ way, Along (d.route Path.empty) (d.cwd ++ way) := fun way =>
      ⟨d.cwd, [""], List.prefix_append _ _, route_empty, by simp⟩
    by_cases hroot : s = ""
    · subst hroot
      by_cases hrest : rest = []
      · subst hrest
        cases h
      · rw [Path.parent?_root hrest] at h
        have hroute : ∀ {t : List String}, t ≠ [] → d.route ⟨"" :: t⟩ = t := by
          intro t ht
          simp [route_cons, ht]
        rw [hroute hrest]
        split at h
        · cases h
        · split at h <;> cases h
          · exact ⟨[], [""], List.nil_prefix, hroute (by simp), by simp⟩
          · rename_i hnil
            rw [hroute hnil]
            exact .of_isPrefix (Path.dropLastComponent_isPrefix rest)
    · rw [route_relative rest hroot]
      by_cases hhere : s = "."
      · subst hhere
        rw [Path.parent?_here] at h
        split at h <;> cases h
        · exact hcwd _
        · rw [route_relative _ hroot]
          refine .of_isPrefix ((List.prefix_append_right_inj _).mpr ?_)
          exact (List.prefix_cons_inj _).mpr (Path.dropLastComponent_isPrefix rest)
      · rw [Path.parent?_name rest ⟨hroot, hhere⟩] at h
        split at h <;> cases h
        · exact hcwd _
        · rename_i hnil
          have hprefix := Path.dropLastComponent_isPrefix (s :: rest)
          obtain ⟨first, others, hcut⟩ := List.exists_cons_of_ne_nil hnil
          rw [hcut] at hprefix ⊢
          obtain rfl : first = s := (List.cons_prefix_cons.mp hprefix).1
          rw [route_relative others hroot]
          exact .of_isPrefix ((List.prefix_append_right_inj _).mpr hprefix)

/-- **The route of a path goes along all that is above it.** -/
theorem along_of_mem_ancestors {p q : Path} (h : q ∈ p.ancestors) :
    Along (d.route q) (d.route p) := by
  unfold Path.ancestors at h
  generalize p.segments.length + 1 = steps at h
  induction steps generalizing p with
  | zero =>
    obtain rfl := List.mem_singleton.mp h
    exact .refl _
  | succ steps ih =>
    simp only [Path.ancestorsFrom] at h
    split at h
    · obtain rfl := List.mem_singleton.mp h
      exact .refl _
    · rename_i above habove
      rcases List.mem_cons.mp h with rfl | h
      · exact .refl _
      · exact (ih h).trans (along_of_parent? habove)

/-- The route of a relative path behind another one. -/
theorem route_join (d : Disk) (p : Path) {q : Path} (hq : q.isAbsolute = false)
    (hne : q.segments ≠ []) :
    ∃ front, d.route (p.join q) = front ++ q.segments ∧
      (d.route p = front ∨ d.route p = front ++ [""]) := by
  obtain ⟨ss⟩ := q
  obtain ⟨first, others, rfl⟩ := List.exists_cons_of_ne_nil hne
  rw [Path.isAbsolute_cons] at hq
  obtain ⟨front, hroute, hp⟩ := d.route_child p first
  refine ⟨front, ?_, hp⟩
  have hmore : d.route (p.join ⟨first :: others⟩) = d.route (p.child first) ++ others := by
    rw [Path.join_cons p hq]
    rcases p.child_eq with ⟨-, hchild⟩ | ⟨s, rest, hchild, -⟩
    · simp [hchild, route_cons, hq]
    · by_cases hroot : s = "" <;> simp [hchild, route_cons, hroot]
  rw [hmore, hroute]
  simp

/-- **Where a route along a directory leads** that goes on without two dots: to a directory that was
there before, or further down. -/
theorem below_of_walk (h : d.Grows d') {base tail route : List String} {key k : Key}
    (hbase : d.tree.walk [] base = .ok key) (hkey : d.tree.get? key = some .directory)
    (htail : ∀ s ∈ tail, s ≠ "..") (halong : Along route (base ++ tail))
    (hk : d'.tree.walk [] route = .ok k) : d.tree.get? k = some .directory ∨ key <+: k := by
  obtain ⟨front, blanks, hprefix, rfl, hblanks⟩ := halong
  have hfront := FileTree.walk_of_blanks hblanks hk
  rcases prefix_append_cases hprefix with ⟨rest, rfl⟩ | ⟨part, hpart, rfl⟩
  · obtain ⟨middle, hmiddle, hrest⟩ := FileTree.walk_append_ok hbase
    rw [h.tree.walk hmiddle] at hfront
    cases hfront
    refine Or.inl ?_
    cases rest with
    | nil =>
      cases hrest
      exact hkey
    | cons s rest => exact FileTree.isDirectory_of_walk_cons hrest
  · obtain ⟨middle, hmiddle, hrest⟩ := FileTree.walk_append_ok hfront
    rw [h.tree.walk hbase] at hmiddle
    cases hmiddle
    exact Or.inr (FileTree.prefix_of_walk (fun s hs => htail s (hpart.subset hs)) hrest)

/-! ## 3. New directories -/

/-- Only directories have come in. -/
structure Extends (d d' : Disk) : Prop where
  cwd : d'.cwd = d.cwd
  get? : ∀ k, d'.tree.get? k = d.tree.get? k ∨
    (d.tree.get? k = none ∧ d'.tree.get? k = some .directory)

namespace Extends

theorem refl (d : Disk) : d.Extends d := ⟨rfl, fun _ => Or.inl rfl⟩

theorem trans {d'' : Disk} (h : d.Extends d') (h' : d'.Extends d'') : d.Extends d'' where
  cwd := h'.cwd.trans h.cwd
  get? k := by
    rcases h'.get? k with h₂ | ⟨h₂, h₃⟩
    · rw [h₂]
      exact h.get? k
    · rcases h.get? k with h₁ | ⟨h₁, h₄⟩
      · exact Or.inr ⟨h₁ ▸ h₂, h₃⟩
      · rw [h₄] at h₂
        cases h₂

theorem get?_of_some (h : d.Extends d') {k : Key} {entry : Entry}
    (hk : d.tree.get? k = some entry) : d'.tree.get? k = some entry := by
  rcases h.get? k with h₁ | ⟨h₁, -⟩
  · rw [h₁, hk]
  · rw [h₁] at hk
    cases hk

theorem grows (h : d.Extends d') : d.Grows d' where
  cwd := h.cwd
  tree := ⟨fun _ hk => h.get?_of_some hk, fun _ content hk => ⟨content, h.get?_of_some hk⟩⟩

end Extends

/-- Behind what is left of a route, only empty segments have been dropped. -/
theorem dropSlashes_append (ss : List String) :
    ∃ blanks, ss = dropSlashes ss ++ blanks ∧ ∀ s ∈ blanks, s = "" := by
  induction ss with
  | nil => exact ⟨[], rfl, by simp⟩
  | cons s ss ih =>
    obtain ⟨blanks, hss, hblanks⟩ := ih
    simp only [dropSlashes]
    split
    · rename_i hnil
      rw [hnil, List.nil_append] at hss
      split
      · rename_i hs
        refine ⟨s :: ss, rfl, fun x hx => ?_⟩
        rcases List.mem_cons.mp hx with rfl | hx
        · exact beq_iff_eq.mp hs
        · exact hblanks x (hss ▸ hx)
      · exact ⟨ss, rfl, hss ▸ hblanks⟩
    · exact ⟨blanks, by rw [List.cons_append, ← hss], hblanks⟩

/-- No empty segment is left at the end. -/
theorem dropSlashes_getLast? (ss : List String) : (dropSlashes ss).getLast? ≠ some "" := by
  induction ss with
  | nil => simp [dropSlashes]
  | cons s ss ih =>
    simp only [dropSlashes]
    split
    · split
      · simp
      · rename_i hs
        simpa using hs
    · rename_i hne
      rwa [List.getLast?_cons_of_ne_nil hne]

/-- The name of a new entry is really one. -/
theorem isEntryName_of_place {p : Path} {dir : Key} {name : String}
    (h : d.place p = .ok (dir, some name)) : Path.IsEntryName name := by
  refine ⟨?_, ?_⟩
  · rintro rfl
    exact dropSlashes_getLast? _ (place_ok h).2.2.1
  · unfold place at h
    split at h
    · cases h
    · simp only at h
      split at h
      · cases h
      · split at h
        · cases h
        · cases h
        · split at h
          · cases h
          · rename_i hdots
            split at h <;> cases h
            simpa using hdots

/-- A new directory takes the place of nothing. -/
theorem replaced_of_makeDirectory {p : Path} (h : d.makeDirectory p = .ok d') :
    ∃ dir name, d.place p = .ok (dir, some name) ∧ d.tree.get? (dir ++ [name]) = none ∧
      Replaced d d' (dir ++ [name]) .directory := by
  unfold makeDirectory at h
  split at h
  · cases h
  · cases h
  · rename_i dir name hplace
    split at h
    · cases h
    · rename_i hnew
      cases h
      have hnone : d.tree.get? (dir ++ [name]) = none := by simpa using hnew
      exact ⟨dir, name, hplace, hnone,
        .of_put _ (place_ok hplace).2.2.2.1 (by rw [hnone]; rintro ⟨⟩)⟩

theorem Replaced.extends {key : Key} (h : Replaced d d' key .directory)
    (hnone : d.tree.get? key = none) : d.Extends d' where
  cwd := h.cwd
  get? k := by
    rw [h.get?]
    split
    · rename_i hk
      exact Or.inr ⟨hk ▸ hnone, rfl⟩
    · exact Or.inl rfl

/-- **The path of a new directory leads there.** -/
theorem site_of_makeDirectory {p : Path} (h : d.makeDirectory p = .ok d') :
    ∃ key, d'.site p = .ok key ∧ d.tree.get? key = none ∧ Replaced d d' key .directory := by
  obtain ⟨dir, name, hplace, hnone, hreplaced⟩ := replaced_of_makeDirectory h
  obtain ⟨-, hwalk, hlast, hdir, hlen⟩ := place_ok hplace
  obtain ⟨hblank, hhere, hup⟩ := isEntryName_of_place hplace
  have hgrows : d.Grows d' := (hreplaced.extends hnone).grows
  have hmade : d'.tree.get? (dir ++ [name]) = some .directory := by
    rw [hreplaced.get?, if_pos rfl]
  have hstep : d'.tree.stepKey dir name = .ok (dir ++ [name]) := by
    simp [FileTree.stepKey, hgrows.tree.directory dir hdir, hmade, hblank, hhere, hup,
      Nat.not_lt.mpr hlen]
  refine ⟨dir ++ [name], ?_, hnone, hreplaced⟩
  obtain ⟨blanks, hroute, hblanks⟩ := dropSlashes_append (d.route p)
  obtain ⟨front, hfront⟩ := List.getLast?_eq_some_iff.mp hlast
  rw [hfront] at hroute hwalk
  rw [List.dropLast_concat] at hwalk
  rw [site, hgrows.route, hroute, FileTree.walk_append, FileTree.walk_append,
    hgrows.tree.walk hwalk]
  simp only [Except.bind, FileTree.walk_singleton, hstep]
  exact FileTree.walk_blanks hblanks hmade

/-- **Directories have been made for some paths**: every new entry is where one of them leads. -/
structure Makes (d d' : Disk) (ps : List Path) : Prop where
  more : d.Extends d'
  sites : ∀ k, d.tree.get? k = none → d'.tree.get? k ≠ none → ∃ p ∈ ps, d'.site p = .ok k

theorem Makes.refl (d : Disk) (ps : List Path) : Makes d d ps :=
  ⟨.refl d, fun _ hnone hsome => absurd hnone hsome⟩

theorem Makes.trans {ps : List Path} (h : Makes d d' ps) (h' : Makes d' d'' ps) :
    Makes d d'' ps where
  more := h.more.trans h'.more
  sites k hnone hsome := by
    by_cases hmiddle : d'.tree.get? k = none
    · exact h'.sites k hmiddle hsome
    · obtain ⟨p, hp, hsite⟩ := h.sites k hnone hmiddle
      exact ⟨p, hp, h'.more.grows.site hsite⟩

theorem makes_makeDirectory {p : Path} {ps : List Path} (hp : p ∈ ps)
    (h : d.makeDirectory p = .ok d') : Makes d d' ps := by
  obtain ⟨key, hsite, hnew, hreplaced⟩ := site_of_makeDirectory h
  refine ⟨hreplaced.extends hnew, fun k hnone hsome => ?_⟩
  rw [hreplaced.get?] at hsome
  split at hsome
  · rename_i hk
    exact ⟨p, hp, hk ▸ hsite⟩
  · exact absurd hnone hsome

theorem makes_makeUpTo {ps missing above rest : List Path} (hmissing : ∀ p ∈ missing, p ∈ ps)
    (habove : ∀ p ∈ above, p ∈ ps) (h : d.makeUpTo missing above = .ok (d', rest)) :
    Makes d d' ps ∧ ∀ p ∈ rest, p ∈ ps := by
  induction above generalizing missing with
  | nil =>
    cases h
    exact ⟨.refl d ps, hmissing⟩
  | cons p above ih =>
    have hp := habove p List.mem_cons_self
    simp only [makeUpTo] at h
    split at h
    · cases h
      exact ⟨.refl d ps, hmissing⟩
    · split at h
      · rename_i made hmade
        cases h
        exact ⟨makes_makeDirectory hp hmade, hmissing⟩
      · refine ih (fun q hq => ?_) (fun q hq => habove q (List.mem_cons_of_mem p hq)) h
        rcases List.mem_cons.mp hq with rfl | hq
        · exact hp
        · exact hmissing q hq
      · split at h <;> cases h
        exact ⟨.refl d ps, hmissing⟩
      · cases h

theorem makes_makeAll {ps missing : List Path} (hmissing : ∀ p ∈ missing, p ∈ ps) :
    Makes d (d.makeAll missing).1 ps := by
  induction missing generalizing d with
  | nil => exact .refl d ps
  | cons p missing ih =>
    have hrest := fun q hq => hmissing q (List.mem_cons_of_mem p hq)
    simp only [makeAll]
    split
    · rename_i made hmade
      exact (makes_makeDirectory (hmissing p List.mem_cons_self) hmade).trans (ih hrest)
    · split
      · exact ih hrest
      · exact .refl d ps

/-- **Directories are made only where a path leads, and above**, also when a later one cannot be
made. -/
theorem makes_makeDirectories (p : Path) : Makes d (d.makeDirectories p).1 p.ancestors := by
  unfold makeDirectories
  split
  · exact .refl d _
  · rename_i made missing hmade
    obtain ⟨hmakes, hmissing⟩ := makes_makeUpTo (by simp) (fun _ h => h) hmade
    exact hmakes.trans (makes_makeAll hmissing)

/-- **To make directories brings only directories in**, also when a later one cannot be made. -/
theorem extends_makeDirectories (p : Path) : d.Extends (d.makeDirectories p).1 :=
  (makes_makeDirectories p).more

end Disk
end Workbench
