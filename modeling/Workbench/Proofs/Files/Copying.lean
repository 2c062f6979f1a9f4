import Workbench.Proofs.Files.Making

/-!
# Copies into one directory

Files are copied into a directory, one after the other and each under its own name, and directories
may be made in between.  The name alone decides the target, so of two files with one name the later
one stays, and a file that lies in the directory already is its own target.

* `Disk.key_of_fileName?` is the last name of the key to which a path leads;
* `Disk.Filled` is what such copies leave behind: all else is as it was, and a target holds what the
  last file of its name brought (`Disk.Arrived`);
* `Disk.Filled.copy` and `Disk.Filled.directories` are the steps, and `Disk.Filled.arrived` finds
  the last file of a name.
-/

namespace Workbench

/-! ## 1. The last name of a path -/

/-- A path that ends in a name has that name as a segment, and nothing of meaning behind it. -/
theorem Path.segments_of_fileName? {p : Path} {name : String} (h : p.fileName? = some name) :
    ∃ front idle, p.segments = front ++ name :: idle ∧ ∀ s ∈ idle, component? s = none := by
  have hbody : ∀ {ss : List String}, (bodyComponents ss).getLast? = some (.name name) →
      ∃ front idle, ss = front ++ name :: idle ∧ ∀ s ∈ idle, component? s = none := by
    intro ss hlast
    rw [bodyComponents, List.getLast?_filterMap] at hlast
    obtain ⟨behind, s, before, hss, hs, hidle⟩ := List.findSome?_eq_some_iff.mp hlast
    obtain ⟨rfl, -⟩ := isEntryName_of_component? hs
    refine ⟨before.reverse, behind.reverse, ?_, by simpa using hidle⟩
    simpa using congrArg List.reverse hss
  have hlast := fileName?_eq_some.mp h
  obtain ⟨segments⟩ := p
  cases segments with
  | nil => cases hlast
  | cons s rest =>
    -- the root or a dot in front is no name, so the name is among the other segments
    have hrest : ∀ {c : Component}, c ≠ .name name →
        (c :: bodyComponents rest).getLast? = some (.name name) →
        ∃ front idle, s :: rest = front ++ name :: idle ∧ ∀ s ∈ idle, component? s = none := by
      intro c hc hlast
      cases hl : (bodyComponents rest).getLast? with
      | none =>
        rw [List.getLast?_cons, hl] at hlast
        exact absurd (Option.some.inj hlast) hc
      | some last =>
        rw [List.getLast?_cons, hl] at hlast
        cases hlast
        obtain ⟨front, idle, rfl, hidle⟩ := hbody hl
        exact ⟨s :: front, idle, rfl, hidle⟩
    rw [components_cons] at hlast
    split at hlast
    · exact hrest (by rintro ⟨⟩) hlast
    · split at hlast
      · exact hrest (by rintro ⟨⟩) hlast
      · exact hbody hlast

/-- What means nothing in a path leads nowhere else. -/
theorem FileTree.walk_idle {t : FileTree} {key key' : Key} {idle : List String}
    (hidle : ∀ s ∈ idle, Path.component? s = none) (h : t.walk key idle = .ok key') :
    key' = key := by
  induction idle with
  | nil =>
    cases h
    rfl
  | cons s ss ih =>
    have hs : s == "" || s == "." := by
      have hnone := hidle s List.mem_cons_self
      unfold Path.component? at hnone
      split at hnone
      · assumption
      · split at hnone <;> cases hnone
    simp only [walk] at h
    split at h
    · rename_i next hstep
      unfold stepKey at hstep
      split at hstep
      · cases hstep
      · cases hstep
        exact ih (fun s hs => hidle s (List.mem_cons_of_mem _ hs)) h
    · cases h

namespace Disk

variable {d d' : Disk}

/-- **The last name of a path is the last name of the key to which it leads.** -/
theorem key_of_fileName? {p : Path} {name : String} {key : Key} (hname : p.fileName? = some name)
    (hkey : d.find p = .ok key) : ∃ above, key = above ++ [name] := by
  have hentry := Path.isEntryName_of_fileName? hname
  obtain ⟨front, idle, hsegments, hidle⟩ := Path.segments_of_fileName? hname
  obtain ⟨way, hroute⟩ : ∃ way, d.route p = way ++ ([name] ++ idle) := by
    obtain ⟨segments⟩ := p
    cases front with
    | nil =>
      obtain rfl : segments = name :: idle := hsegments
      exact ⟨d.cwd, by simp [route, Path.isAbsolute_cons, hentry.1]⟩
    | cons s rest =>
      obtain rfl : segments = s :: (rest ++ name :: idle) := hsegments
      rw [route_cons]
      split
      · exact ⟨rest, rfl⟩
      · exact ⟨d.cwd ++ s :: rest, by simp⟩
  have hsite := (find_eq_ok.mp hkey).2
  rw [site, hroute, FileTree.walk_append] at hsite
  cases hway : d.tree.walk [] way with
  | error f =>
    rw [hway] at hsite
    cases hsite
  | ok above =>
    rw [hway] at hsite
    simp only [Except.bind, List.singleton_append, FileTree.walk] at hsite
    split at hsite
    · rename_i named hstep
      obtain ⟨rfl, -⟩ := FileTree.stepKey_of_real hentry hstep
      exact ⟨above, FileTree.walk_idle hidle hsite⟩
    · cases hsite

/-! ## 2. One copy -/

/-- **A copy under its own name**: where the target lies, and what it holds then.  Whoever is its
own target is emptied. -/
theorem copyFile_child {dir p : Path} {name : String} (hname : p.fileName? = some name)
    (h : d.copyFile p (dir.child name) = .ok d') :
    ∃ dirKey sourceKey content, d.site dir = .ok dirKey ∧ d.find p = .ok sourceKey ∧
      d.Grows d' ∧ d'.find (dir.child name) = .ok (dirKey ++ [name]) ∧
      Replaced d d' (dirKey ++ [name]) (.file content) ∧
      (sourceKey = dirKey ++ [name] → content = "") ∧
      (sourceKey ≠ dirKey ++ [name] → d.tree.get? sourceKey = some (.file content)) := by
  have hentry := Path.isEntryName_of_fileName? hname
  obtain ⟨key, sourceKey, content, hkey, hsource, hreplaced, hown, hother⟩ := copyFile_ok h
  obtain ⟨dirKey, hsite, rfl, hdir, hfile, hfault, hlen⟩ := openForWriting_child hentry hkey
  have hgrows : d.Grows d' := hreplaced.grows hfile (by rintro ⟨⟩)
  have hfind : d'.find (dir.child name) = .ok (dirKey ++ [name]) :=
    find_child hentry (hgrows.site hsite) (hgrows.tree.directory _ hdir)
      (by rw [hreplaced.get?, if_pos rfl]; rintro ⟨⟩) hfault hlen
  exact ⟨dirKey, sourceKey, content, hsite, hsource, hgrows, hfind, hreplaced, hown, hother⟩

/-! ## 3. One copy after the other -/

/-- A key at which some of the files were copied into the directory. -/
def IsTarget (d : Disk) (dir : Path) (copied : List Path) (key : Key) : Prop :=
  ∃ p ∈ copied, ∃ name, p.fileName? = some name ∧ d.find (dir.child name) = .ok key

/-- The file of the directory that bears the name of a copied one holds what that one held in the
beginning; it is empty if it is that one. -/
def Arrived (before after : Disk) (dir p : Path) : Prop :=
  ∃ name key sourceKey content, p.fileName? = some name ∧
    after.find (dir.child name) = .ok key ∧ after.find p = .ok sourceKey ∧
    after.tree.get? key = some (.file content) ∧ (sourceKey = key → content = "") ∧
    (sourceKey ≠ key → before.tree.get? sourceKey = some (.file content))

/-- **What is left behind** when files have been copied into a directory and directories made. -/
structure Filled (before : Disk) (dir : Path) (copied : List Path) (after : Disk) : Prop where
  grows : before.Grows after
  /-- Away from the targets, only directories have come in. -/
  away : ∀ key, ¬ after.IsTarget dir copied key → after.tree.get? key = before.tree.get? key ∨
    (before.tree.get? key = none ∧ after.tree.get? key = some .directory)
  /-- The last file of each name has arrived. -/
  last : ∀ front p rest, copied = front ++ p :: rest →
    (∀ q ∈ rest, q.fileName? ≠ p.fileName?) → Arrived before after dir p

section Steps

variable {before : Disk} {dir : Path} {copied : List Path}

theorem Filled.nil (before : Disk) (dir : Path) : Filled before dir [] before where
  grows := .refl before
  away _ _ := Or.inl rfl
  last front p rest h := absurd h (by simp)

theorem Grows.isTarget (h : d.Grows d') {key : Key} (hk : d.IsTarget dir copied key) :
    d'.IsTarget dir copied key := by
  obtain ⟨p, hp, name, hname, hfind⟩ := hk
  exact ⟨p, hp, name, hname, h.find hfind⟩

/-- To make directories changes nothing about the copies. -/
theorem Filled.directories (hf : Filled before dir copied d) (h : d.Extends d') :
    Filled before dir copied d' where
  grows := hf.grows.trans h.grows
  away key hk := by
    have haway := hf.away key fun htarget => hk (h.grows.isTarget htarget)
    rcases h.get? key with hsame | ⟨hnone, hdir⟩
    · rwa [hsame]
    · rcases haway with hold | ⟨-, hold⟩
      · exact Or.inr ⟨hold ▸ hnone, hdir⟩
      · rw [hnone] at hold
        cases hold
  last front p rest hcopied hrest := by
    obtain ⟨name, key, sourceKey, content, hname, hkey, hsource, hget, hown, hother⟩ :=
      hf.last front p rest hcopied hrest
    exact ⟨name, key, sourceKey, content, hname, h.grows.find hkey, h.grows.find hsource,
      h.get?_of_some hget, hown, hother⟩

/-- A file that is copied, and is not its own target, is one from the beginning: the targets so far
bear other names, or lie where it goes itself. -/
theorem Filled.source (hf : Filled before dir copied d) {p : Path} {name : String}
    {dirKey sourceKey : Key} {content : String} (hname : p.fileName? = some name)
    (hsite : d.site dir = .ok dirKey) (hsource : d.find p = .ok sourceKey)
    (hne : sourceKey ≠ dirKey ++ [name]) (hget : d.tree.get? sourceKey = some (.file content)) :
    before.tree.get? sourceKey = some (.file content) := by
  have hfree : ¬ d.IsTarget dir copied sourceKey := by
    rintro ⟨q, -, other, hother, hfind⟩
    obtain ⟨dirKey', hsite', rfl, -⟩ := find_child_ok (Path.isEntryName_of_fileName? hother) hfind
    rw [hsite] at hsite'
    cases hsite'
    obtain ⟨above, habove⟩ := key_of_fileName? hname hsource
    obtain ⟨-, hlast⟩ := List.append_inj' habove rfl
    cases hlast
    exact hne rfl
  rcases hf.away _ hfree with hsame | ⟨-, hdir⟩
  · rw [← hsame, hget]
  · rw [hget] at hdir
    cases hdir

/-- **One copy more.** -/
theorem Filled.copy (hf : Filled before dir copied d) {p : Path} {name : String}
    (hname : p.fileName? = some name) (h : d.copyFile p (dir.child name) = .ok d') :
    Filled before dir (copied ++ [p]) d' := by
  obtain ⟨dirKey, sourceKey, content, hsite, hsource, hgrows, hfind, hreplaced, hown, hother⟩ :=
    copyFile_child hname h
  constructor
  case grows => exact hf.grows.trans hgrows
  case away =>
    intro key hkey
    have hne : key ≠ dirKey ++ [name] := by
      rintro rfl
      exact hkey ⟨p, List.mem_append_right _ List.mem_cons_self, name, hname, hfind⟩
    rw [hreplaced.get?, if_neg hne]
    refine hf.away key fun ⟨q, hq, other, hqname, hqfind⟩ => hkey ?_
    exact ⟨q, List.mem_append_left _ hq, other, hqname, hgrows.find hqfind⟩
  case last =>
    intro front q rest hcopied hrest
    rcases List.eq_nil_or_concat rest with rfl | ⟨rest, latest, rfl⟩
    · obtain ⟨-, hq⟩ := List.append_inj' hcopied rfl
      cases hq
      refine ⟨name, _, sourceKey, content, hname, hfind, hgrows.find hsource, ?_, hown, ?_⟩
      · rw [hreplaced.get?, if_pos rfl]
      · exact fun hne => hf.source hname hsite hsource hne (hother hne)
    · rw [List.concat_eq_append] at hrest
      rw [List.concat_eq_append, ← List.cons_append, ← List.append_assoc] at hcopied
      obtain ⟨hfront, hp⟩ := List.append_inj' hcopied rfl
      cases hp
      obtain ⟨qname, key, qsource, qcontent, hqname, hkey, hqfind, hget, hqown, hqother⟩ :=
        hf.last front q rest hfront fun r hr => hrest r (List.mem_append_left _ hr)
      refine ⟨qname, key, qsource, qcontent, hqname, hgrows.find hkey, hgrows.find hqfind, ?_,
        hqown, hqother⟩
      have hne : key ≠ dirKey ++ [name] := by
        rintro rfl
        obtain ⟨dirKey', -, hsame, -⟩ :=
          find_child_ok (Path.isEntryName_of_fileName? hqname) hkey
        obtain ⟨-, hlast⟩ := List.append_inj' hsame rfl
        cases hlast
        exact hrest p (List.mem_append_right _ List.mem_cons_self) (hname.trans hqname.symm)
      rw [hreplaced.get?, if_neg hne, hget]

/-- Of the files with one name, the last one has arrived. -/
theorem Filled.arrived (hf : Filled before dir copied d) {p : Path} (hp : p ∈ copied) :
    ∃ q ∈ copied, q.fileName? = p.fileName? ∧ Arrived before d dir q := by
  have hsome : (copied.reverse.find? fun q => q.fileName? == p.fileName?).isSome = true :=
    List.find?_isSome.mpr ⟨p, List.mem_reverse.mpr hp, beq_self_eq_true _⟩
  obtain ⟨q, hq⟩ := Option.isSome_iff_exists.mp hsome
  obtain ⟨hsame, behind, front, hcopied, hbehind⟩ := List.find?_eq_some_iff_append.mp hq
  have hsplit : copied = front.reverse ++ q :: behind.reverse := by
    simpa using congrArg List.reverse hcopied
  have hname : q.fileName? = p.fileName? := beq_iff_eq.mp hsame
  refine ⟨q, by simp [hsplit], hname, hf.last _ q _ hsplit fun r hr => ?_⟩
  simpa [hname] using hbehind r (List.mem_reverse.mp hr)

end Steps

end Disk
end Workbench
