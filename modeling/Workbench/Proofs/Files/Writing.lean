import Workbench.Proofs.Files.Walking

/-!
# Writing to a disk

What an operation that writes leaves behind, key by key.

* `Disk.Replaced` says that one key leads to something else and all others do not, as after a write
  (`Disk.replaced_of_writeFile`) or a copy (`Disk.copyFile_ok`);
* `Disk.openForWriting_child` is the key of a file that is written into a directory, and
  `Disk.find_child` finds it there.
-/

namespace Workbench

/-! ## 1. New entries -/

/-- A new entry, or a file in place of a file, leaves all else as it was. -/
theorem FileTree.get?_put_of_vacant {t : FileTree} {dir : Key} {name : String} (entry : Entry)
    (hdir : t.get? dir = some .directory) (hkey : t.get? (dir ++ [name]) ≠ some .directory)
    (k : Key) :
    (t.put (dir ++ [name]) entry).get? k = if k = dir ++ [name] then some entry else t.get? k := by
  rw [get?_put hdir]
  split
  · rfl
  · rename_i hne
    split
    · rename_i hprefix
      obtain ⟨below, rfl⟩ := List.isPrefixOf_iff_prefix.mp hprefix
      cases hget : t.get? (dir ++ [name] ++ below) with
      | none => rfl
      | some e =>
        have hbelow : below ≠ [] := by
          rintro rfl
          exact hne (List.append_nil _)
        exact absurd (isDirectory_of_append hbelow (by rw [hget]; rintro ⟨⟩)) hkey
    · rfl

namespace Disk

variable {d d' : Disk}

/-- The disk leads to an entry at a key now, and all else is as it was. -/
structure Replaced (d d' : Disk) (key : Key) (entry : Entry) : Prop where
  cwd : d'.cwd = d.cwd
  get? : ∀ k, d'.tree.get? k = if k = key then some entry else d.tree.get? k

theorem Replaced.of_put {dir : Key} {name : String} (entry : Entry)
    (hdir : d.tree.get? dir = some .directory)
    (hkey : d.tree.get? (dir ++ [name]) ≠ some .directory) :
    Replaced d (d.put (dir ++ [name]) entry) (dir ++ [name]) entry :=
  ⟨rfl, FileTree.get?_put_of_vacant entry hdir hkey⟩

/-- What is written over a file, or where nothing was, makes the disk grow. -/
theorem Replaced.grows {key : Key} {entry : Entry} (h : Replaced d d' key entry)
    (hdir : d.tree.get? key ≠ some .directory)
    (hfile : entry = .directory → d.tree.get? key = none) : d.Grows d' where
  cwd := h.cwd
  tree := by
    constructor
    · intro k hk
      rw [h.get?, if_neg (by rintro rfl; exact hdir hk)]
      exact hk
    · intro k content hk
      by_cases hsame : k = key
      · subst hsame
        cases entry with
        | directory =>
          rw [hfile rfl] at hk
          cases hk
        | file later => exact ⟨later, by rw [h.get?, if_pos rfl]⟩
      · exact ⟨content, by rw [h.get?, if_neg hsame, hk]⟩

/-! ## 2. Places -/

theorem dropSlashes_concat (front : List String) {name : String} (hname : name ≠ "") :
    dropSlashes (front ++ [name]) = front ++ [name] := by
  induction front with
  | nil => simp [dropSlashes, hname]
  | cons s ss ih =>
    simp only [List.cons_append, dropSlashes, ih]
    cases ss <;> rfl

/-- The place of a new entry. -/
theorem place_ok {p : Path} {dir : Key} {name : String} (h : d.place p = .ok (dir, some name)) :
    pathFault? p = none ∧ d.tree.walk [] (dropSlashes (d.route p)).dropLast = .ok dir ∧
      (dropSlashes (d.route p)).getLast? = some name ∧ d.tree.get? dir = some .directory ∧
      name.utf8ByteSize ≤ maxName := by
  unfold place at h
  split at h
  · cases h
  · rename_i hfault
    simp only at h
    split at h
    · cases h
    · rename_i trail hfollow
      have hwalk := d.faithful_nil.follow_eq (dropSlashes (d.route p)).dropLast
      rw [hfollow] at hwalk
      have hfaithful := d.faithful_nil.follow hfollow
      split at h
      · cases h
      · cases h
      · rename_i inside s hhere hlast
        split at h
        · cases h
        · split at h <;> cases h
          rename_i hlen
          refine ⟨hfault, hwalk.symm, hlast, ?_, Nat.le_of_not_lt hlen⟩
          simp [FileTree.get?, hfaithful.here, hhere, Node.entry]

/-- The key of a file that is written is not that of a directory, and lies in one. -/
theorem openForWriting_ok {p : Path} {key : Key} (h : d.openForWriting p = .ok key) :
    ∃ dir name, key = dir ++ [name] ∧ d.place p = .ok (dir, some name) ∧
      d.tree.get? key ≠ some .directory := by
  unfold openForWriting at h
  split at h
  · cases h
  · cases h
  · rename_i dir name hplace
    split at h <;> cases h
    rename_i hblocked
    refine ⟨dir, name, rfl, hplace, fun hdir => hblocked ?_⟩
    simp [FileTree.isDirectory, hdir]

/-- **A write changes what one key leads to, and nothing else.** -/
theorem replaced_of_writeFile {p : Path} {content : String} (h : d.writeFile p content = .ok d') :
    ∃ key, d.openForWriting p = .ok key ∧ Replaced d d' key (.file content) := by
  unfold writeFile at h
  split at h
  · cases h
  · rename_i key hkey
    cases h
    obtain ⟨dir, name, rfl, hplace, hdir⟩ := openForWriting_ok hkey
    exact ⟨_, hkey, .of_put _ (place_ok hplace).2.2.2.1 hdir⟩

/-- A path names the same place when the disk has grown. -/
theorem Grows.openForWriting (h : d.Grows d') {p : Path} {key key' : Key}
    (hkey : d.openForWriting p = .ok key) (hkey' : d'.openForWriting p = .ok key') :
    key' = key := by
  obtain ⟨dir, name, rfl, hplace, -⟩ := openForWriting_ok hkey
  obtain ⟨dir', name', rfl, hplace', -⟩ := openForWriting_ok hkey'
  obtain ⟨-, hwalk, hlast, -⟩ := place_ok hplace
  obtain ⟨-, hwalk', hlast', -⟩ := place_ok hplace'
  rw [h.route, h.tree.walk hwalk] at hwalk'
  rw [h.route, hlast] at hlast'
  cases hwalk'
  cases hlast'
  rfl

/-- **The key of a file that is written into a directory.** -/
theorem openForWriting_child {p : Path} {name : String} {key : Key} (hname : Path.IsEntryName name)
    (h : d.openForWriting (p.child name) = .ok key) :
    ∃ dir, d.site p = .ok dir ∧ key = dir ++ [name] ∧ d.tree.get? dir = some .directory ∧
      d.tree.get? key ≠ some .directory ∧ pathFault? (p.child name) = none ∧
      name.utf8ByteSize ≤ maxName := by
  obtain ⟨dir, last, rfl, hplace, hkey⟩ := openForWriting_ok h
  obtain ⟨hfault, hwalk, hlast, hdir, hlen⟩ := place_ok hplace
  obtain ⟨front, hroute, hp⟩ := d.route_child p name
  rw [hroute, dropSlashes_concat front hname.1, List.dropLast_concat] at hwalk
  rw [hroute, dropSlashes_concat front hname.1, List.getLast?_concat] at hlast
  cases hlast
  refine ⟨dir, ?_, rfl, hdir, hkey, hfault, hlen⟩
  unfold site
  rcases hp with hp | hp
  · rw [hp, hwalk]
  · rw [hp, FileTree.walk_append, hwalk]
    simp [Except.bind, FileTree.walk, FileTree.stepKey, hdir]

/-- What was written into a directory is found there, as long as the disk only grows. -/
theorem find_child {p : Path} {name : String} {dir : Key} (hname : Path.IsEntryName name)
    (hsite : d.site p = .ok dir) (hdir : d.tree.get? dir = some .directory)
    (hkey : d.tree.get? (dir ++ [name]) ≠ none) (hfault : pathFault? (p.child name) = none)
    (hlen : name.utf8ByteSize ≤ maxName) : d.find (p.child name) = .ok (dir ++ [name]) := by
  obtain ⟨h₁, h₂, h₃⟩ := hname
  rw [find_eq_ok]
  refine ⟨hfault, ?_⟩
  rw [site_child, hsite]
  simp [Except.bind, FileTree.stepKey, hdir, hkey, h₁, h₂, h₃, Nat.not_lt.mpr hlen]

/-- **What is found behind a directory** lies in the directory to which the path leads. -/
theorem find_child_ok {p : Path} {name : String} {key : Key} (hname : Path.IsEntryName name)
    (h : d.find (p.child name) = .ok key) :
    ∃ dir, d.site p = .ok dir ∧ key = dir ++ [name] ∧ d.tree.get? dir = some .directory ∧
      d.tree.get? key ≠ none ∧ name.utf8ByteSize ≤ maxName := by
  obtain ⟨dir, hsite, hstep⟩ := site_child_ok (find_eq_ok.mp h).2
  obtain ⟨rfl, hdir, hpresent, hlen⟩ := FileTree.stepKey_of_real hname hstep
  exact ⟨dir, hsite, rfl, hdir, hpresent, hlen⟩

/-! ## 3. Reading and copying -/

/-- The content of a file. -/
theorem readFile_ok {p : Path} {content : String} :
    d.readFile p = .ok content ↔
      ∃ key, d.find p = .ok key ∧ d.tree.get? key = some (.file content) := by
  unfold readFile
  cases hfind : d.find p with
  | error f => simp
  | ok key =>
    simp only [Except.ok.injEq, exists_eq_left']
    cases hget : d.tree.get? key with
    | none => simp
    | some entry => cases entry <;> simp

/-- What is written into a directory is read there. -/
theorem readFile_of_writeFile_child {p : Path} {name content : String}
    (hname : Path.IsEntryName name) (h : d.writeFile (p.child name) content = .ok d') :
    d'.readFile (p.child name) = .ok content := by
  obtain ⟨key, hkey, hreplaced⟩ := replaced_of_writeFile h
  obtain ⟨dir, hsite, rfl, hdir, hfile, hfault, hlen⟩ := openForWriting_child hname hkey
  have hgrows : d.Grows d' := hreplaced.grows hfile (by rintro ⟨⟩)
  have hget : d'.tree.get? (dir ++ [name]) = some (.file content) := by
    rw [hreplaced.get?, if_pos rfl]
  exact readFile_ok.mpr ⟨_, find_child hname (hgrows.site hsite) (hgrows.tree.directory _ hdir)
    (by rw [hget]; rintro ⟨⟩) hfault hlen, hget⟩

/-- What is replaced twice is replaced once. -/
theorem Replaced.trans {d'' : Disk} {key : Key} {first second : Entry}
    (h : Replaced d d' key first) (h' : Replaced d' d'' key second) :
    Replaced d d'' key second where
  cwd := h'.cwd.trans h.cwd
  get? k := by
    rw [h'.get?, h.get?]
    split <;> rfl

/-- **A copy changes what one key leads to, and nothing else**: it leads to the content of the
source then, or to nothing at all if the source is there itself. -/
theorem copyFile_ok {source target : Path} (h : d.copyFile source target = .ok d') :
    ∃ key sourceKey content, d.openForWriting target = .ok key ∧ d.find source = .ok sourceKey ∧
      Replaced d d' key (.file content) ∧ (sourceKey = key → content = "") ∧
      (sourceKey ≠ key → d.tree.get? sourceKey = some (.file content)) := by
  unfold copyFile at h
  split at h
  · cases h
  · rename_i before hbefore
    split at h
    · cases h
    · rename_i emptied hemptied
      split at h
      · cases h
      · rename_i content hcontent
        obtain ⟨key, hkey, hfirst⟩ := replaced_of_writeFile hemptied
        obtain ⟨key', hkey', hsecond⟩ := replaced_of_writeFile h
        obtain ⟨-, -, -, -, hdir⟩ := openForWriting_ok hkey
        have hgrows : d.Grows emptied := hfirst.grows hdir (by rintro ⟨⟩)
        obtain rfl : key' = key := hgrows.openForWriting hkey hkey'
        obtain ⟨sourceKey, hfind, -⟩ := readFile_ok.mp hbefore
        obtain ⟨sourceKey', hfind', hget⟩ := readFile_ok.mp hcontent
        rw [hgrows.find hfind] at hfind'
        cases hfind'
        rw [hfirst.get?] at hget
        refine ⟨key', sourceKey, content, hkey, hfind, hfirst.trans hsecond, fun hown => ?_,
          fun hne => ?_⟩
        · rw [if_pos hown] at hget
          cases hget
          rfl
        · rwa [if_neg hne] at hget

end Disk
end Workbench
