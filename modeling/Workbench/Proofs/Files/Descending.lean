import Workbench.Proofs.Files.Entries
import Workbench.Proofs.Files.Home
import Workbench.Proofs.Files.Making

/-!
# Down by names

A relative path that does not lead upwards leads down, by its names: what means nothing in it can be
left out.  So a file that is found by a path behind a directory is found by the names of that path,
one behind the other, and every directory on the way is found as well.  No path on the way is longer
than the one at hand.

* `Path.names` are the names of a path, and `FileTree.walk_names` says that a walk goes by them;
* `Disk.pathFault?_of_sublist`: a path with fewer segments fails for no other reason;
* `Disk.Descends` are the directories on the way, and `Disk.descends_child` and
  `Disk.descends_join` find them.
-/

namespace Workbench

/-! ## 1. The names of a path -/

namespace Path

/-- The segment means something. -/
def counts (s : String) : Bool := s != "" && s != "."

/-- The name that a component is. -/
def nameOf? : Component → Option String
  | .name s => some s
  | _ => none

/-- The names of a path, without a root and dots. -/
def names (p : Path) : List String := p.components.filterMap nameOf?

theorem isEntryName_of_mem_filter {ss : List String} (hss : ∀ s ∈ ss, s ≠ "..") :
    ∀ n ∈ ss.filter counts, IsEntryName n := by
  intro n hn
  obtain ⟨hmem, hcounts⟩ := List.mem_filter.mp hn
  simp only [counts, Bool.and_eq_true, bne_iff_ne] at hcounts
  exact ⟨hcounts.1, hcounts.2, hss n hmem⟩

/-- Segments without two dots are names, or mean nothing. -/
theorem filterMap_bodyComponents {ss : List String} (hss : ∀ s ∈ ss, s ≠ "..") :
    (bodyComponents ss).filterMap nameOf? = ss.filter counts := by
  induction ss with
  | nil => rfl
  | cons s ss ih =>
    obtain ⟨hs, hss⟩ := List.forall_mem_cons.mp hss
    rw [bodyComponents, List.filterMap_cons, ← bodyComponents]
    by_cases hcounts : counts s = true
    · have hsingle : ∀ n ∈ [s], n ≠ ".." := by simpa using hs
      have hentry := isEntryName_of_mem_filter hsingle s (by simp [hcounts])
      rw [component?_of_isEntryName hentry, List.filter_cons_of_pos hcounts, ← ih hss]
      rfl
    · have hnone : component? s = none := by
        unfold component?
        rw [if_pos]
        simpa [counts, ← Decidable.or_iff_not_imp_left] using hcounts
      rw [hnone, List.filter_cons_of_neg hcounts, ← ih hss]

/-- **The names of a relative path** that does not lead upwards are its segments that count. -/
theorem names_eq {p : Path} (habs : p.isAbsolute = false) (hup : ∀ s ∈ p.segments, s ≠ "..") :
    p.names = p.segments.filter counts := by
  obtain ⟨segments⟩ := p
  cases segments with
  | nil => rfl
  | cons s rest =>
    rw [isAbsolute_cons] at habs
    rw [names, components_cons, habs, if_neg (by simp)]
    split
    · rename_i hhere
      rw [beq_iff_eq.mp hhere, List.filterMap_cons,
        filterMap_bodyComponents fun n hn => hup n (List.mem_cons_of_mem s hn)]
      rfl
    · exact filterMap_bodyComponents hup

/-! ## 2. Segments of paths behind one another -/

/-- A name behind a path stands behind its front. -/
theorem child_front {p : Path} (hp : p.isEmpty = false) (name : String) :
    p.child name = ⟨p.front ++ [name]⟩ :=
  join_eq hp (by simp [isAbsolute_cons]) (List.cons_ne_nil name [])

theorem front_of_segments {p : Path} {ss : List String} {name : String} (hname : name ≠ "")
    (hp : p.segments = ss ++ [name]) : p.front = ss ++ [name] := by
  rw [front, hp, List.getLast?_concat, if_neg (by simpa using hname)]

/-- Names behind a path stand behind its front. -/
theorem foldl_child {p : Path} (hp : p.isEmpty = false) {names : List String}
    (hnames : ∀ n ∈ names, n ≠ "") (last : String) :
    (names.foldl Path.child p).child last = ⟨p.front ++ (names ++ [last])⟩ := by
  induction names generalizing p with
  | nil => exact child_front hp last
  | cons n names ih =>
    obtain ⟨hn, hnames⟩ := List.forall_mem_cons.mp hnames
    have hchild := child_front hp n
    have hfront : (p.child n).front = p.front ++ [n] :=
      front_of_segments hn (by rw [hchild])
    rw [List.foldl_cons, ih (p.isEmpty_child hn) hnames, hfront]
    simp

/-- A name behind a relative path behind another one: all segments of both, but for an empty one at
the end. -/
theorem child_join {p q : Path} (hp : p.isEmpty = false) (hq : q.isAbsolute = false)
    (hne : q.segments ≠ []) (name : String) :
    (p.join q).child name = ⟨p.front ++ (q.front ++ [name])⟩ := by
  have hjoin := join_eq hp hq hne
  have hempty : (p.join q).isEmpty = false := by
    obtain ⟨s, rest, hfront⟩ := List.exists_cons_of_ne_nil (front_ne_nil hp)
    obtain ⟨t, others, hsegments⟩ := List.exists_cons_of_ne_nil hne
    simp [hjoin, hfront, hsegments, isEmpty]
  have hfront : (p.join q).front = p.front ++ q.front := by
    have hlast : (p.front ++ q.segments).getLast? = q.segments.getLast? := by
      obtain ⟨t, others, hsegments⟩ := List.exists_cons_of_ne_nil hne
      rw [List.getLast?_append, hsegments, List.getLast?_cons, Option.some_or]
    have hq : q.front =
        if q.segments.getLast? == some "" then q.segments.dropLast else q.segments := rfl
    rw [hjoin, front, hlast, hq]
    split
    · exact List.dropLast_append_of_ne_nil hne
    · rfl
  rw [child_front hempty, hfront, List.append_assoc]

theorem mem_front {p : Path} {s : String} (h : s ∈ p.segments) : s = "" ∨ s ∈ p.front := by
  unfold front
  split
  · rename_i hlast
    obtain ⟨before, hsegments⟩ := List.getLast?_eq_some_iff.mp (beq_iff_eq.mp hlast)
    rw [hsegments] at h ⊢
    rw [List.dropLast_concat]
    rcases List.mem_append.mp h with h | h
    · exact Or.inr h
    · exact Or.inl (List.mem_singleton.mp h)
  · exact Or.inr h

/-- The segments that count are left when an empty one at the end is dropped. -/
theorem filter_sublist_front (p : Path) : (p.segments.filter counts).Sublist p.front := by
  unfold front
  split
  · rename_i hlast
    obtain ⟨before, hsegments⟩ := List.getLast?_eq_some_iff.mp (beq_iff_eq.mp hlast)
    rw [hsegments, List.dropLast_concat, List.filter_append, show [""].filter counts = [] from rfl,
      List.append_nil]
    exact List.filter_sublist
  · exact List.filter_sublist

/-! ## 3. Lengths -/

/-- The bytes of segments, each with a slash behind it. -/
def span : List String → Nat
  | [] => 0
  | s :: ss => s.utf8ByteSize + 1 + span ss

theorem span_le_of_sublist {ss ss' : List String} (h : ss.Sublist ss') : span ss ≤ span ss' := by
  induction h with
  | slnil => exact Nat.le_refl _
  | cons s _ ih => exact Nat.le_trans ih (Nat.le_add_left _ _)
  | cons_cons s _ ih => exact Nat.add_le_add_left ih _

/-- A text has the bytes of its segments, without a slash behind the last one. -/
theorem utf8ByteSize_text (p : Path) : p.text.utf8ByteSize = span p.segments - 1 := by
  obtain ⟨segments⟩ := p
  unfold text
  induction segments with
  | nil => rfl
  | cons s rest ih =>
    cases rest with
    | nil => simp [span]
    | cons t rest =>
      have hslash : "/".utf8ByteSize = 1 := rfl
      simp only [String.intercalate_cons_cons, String.utf8ByteSize_append, ih, hslash, span]
      omega

end Path

namespace Disk

variable {d : Disk} {p q dir : Path} {key : Key} {names : List String}

theorem pathFault?_eq_none : pathFault? p = none ↔
    p.hasNul = false ∧ p.isEmpty = false ∧ p.text.utf8ByteSize < maxPath := by
  unfold pathFault?
  cases p.hasNul <;> cases p.isEmpty <;> simp

/-- **Fewer segments bring no fault in.** -/
theorem pathFault?_of_sublist (h : p.segments.Sublist q.segments) (hp : p.isEmpty = false)
    (hq : pathFault? q = none) : pathFault? p = none := by
  obtain ⟨hnul, -, hsize⟩ := pathFault?_eq_none.mp hq
  refine pathFault?_eq_none.mpr ⟨?_, hp, ?_⟩
  · simp only [Path.hasNul, List.any_eq_false] at hnul ⊢
    exact fun s hs => hnul s (h.subset hs)
  · have hspan := Path.span_le_of_sublist h
    rw [Path.utf8ByteSize_text] at hsize ⊢
    omega

/-- Nothing stands against a directory whose entry has a path without fault. -/
theorem pathFault?_of_child (name : String) (hp : p.isEmpty = false)
    (h : pathFault? (p.child name) = none) : pathFault? p = none := by
  obtain ⟨hnul, -, hsize⟩ := pathFault?_eq_none.mp h
  refine pathFault?_eq_none.mpr ⟨?_, hp, ?_⟩
  · rw [Path.child_front hp] at hnul
    simp only [Path.hasNul, List.any_eq_false] at hnul ⊢
    intro s hs
    rcases Path.mem_front hs with rfl | hs
    · decide
    · exact hnul s (List.mem_append_left _ hs)
  · rw [Path.child, Path.text_join hp (by simp [Path.isAbsolute_cons]) (List.cons_ne_nil name []),
      String.utf8ByteSize_append, String.utf8ByteSize_append] at hsize
    omega

end Disk

/-! ## 4. Walks -/

/-- **A walk goes by the names of its segments**, if none of them is two dots; each has a length
that a name can have. -/
theorem FileTree.walk_names {t : FileTree} {key key' : Key} {ss : List String}
    (hss : ∀ s ∈ ss, s ≠ "..") (h : t.walk key ss = .ok key') :
    key' = key ++ ss.filter Path.counts ∧
      ∀ n ∈ ss.filter Path.counts, n.utf8ByteSize ≤ Disk.maxName := by
  induction ss generalizing key with
  | nil =>
    cases h
    simp
  | cons s ss ih =>
    obtain ⟨hs, hss'⟩ := List.forall_mem_cons.mp hss
    simp only [walk] at h
    split at h
    · rename_i next hstep
      obtain ⟨rfl, hsizes⟩ := ih hss' h
      by_cases hcounts : Path.counts s = true
      · have hentry := Path.isEntryName_of_mem_filter hss s
          (List.mem_filter.mpr ⟨List.mem_cons_self, hcounts⟩)
        obtain ⟨rfl, -, -, hsize⟩ := stepKey_of_real hentry hstep
        rw [List.filter_cons_of_pos hcounts]
        exact ⟨by simp, List.forall_mem_cons.mpr ⟨hsize, hsizes⟩⟩
      · have hidle : (s == "" || s == ".") = true := by
          simpa [Path.counts, ← Decidable.or_iff_not_imp_left] using hcounts
        rw [List.filter_cons_of_neg hcounts]
        unfold stepKey at hstep
        rw [hidle, if_pos rfl] at hstep
        split at hstep <;> cases hstep
        exact ⟨rfl, hsizes⟩
    · cases h

/-! ## 5. Descents -/

namespace Disk

variable {d : Disk} {p q dir : Path} {key : Key} {names : List String}

/-- **The way down from a directory by names**: each path on it is found, and leads to a
directory. -/
def Descends (d : Disk) : Path → Key → List String → Prop
  | dir, key, [] => d.find dir = .ok key ∧ d.tree.get? key = some .directory
  | dir, key, name :: names =>
    d.find dir = .ok key ∧ d.tree.get? key = some .directory ∧
      d.Descends (dir.child name) (key ++ [name]) names

/-- Where the way ends. -/
theorem Descends.find (h : d.Descends dir key names) :
    d.find (names.foldl Path.child dir) = .ok (key ++ names) ∧
      d.tree.get? (key ++ names) = some .directory := by
  induction names generalizing dir key with
  | nil =>
    rw [List.append_nil]
    exact h
  | cons name names ih => simpa using ih h.2.2

/-- Where it begins. -/
theorem Descends.start (h : d.Descends dir key names) :
    d.find dir = .ok key ∧ d.tree.get? key = some .directory := by
  cases names with
  | nil => exact h
  | cons name names => exact ⟨h.1, h.2.1⟩

/-- The directories of a key are found on the way down, by induction over the names, as long as no
path on it has a fault. -/
theorem descends_of_find (hdir : d.find dir = .ok key)
    (hget : d.tree.get? (key ++ names) = some .directory)
    (hnames : ∀ n ∈ names, Path.IsEntryName n ∧ n.utf8ByteSize ≤ maxName)
    (hfault : ∀ front, front <+: names → pathFault? (front.foldl Path.child dir) = none) :
    d.Descends dir key names := by
  induction names generalizing dir key with
  | nil => exact ⟨hdir, by simpa using hget⟩
  | cons name names ih =>
    obtain ⟨⟨hname, hsize⟩, hnames⟩ := List.forall_mem_cons.mp hnames
    have hsome : d.tree.get? (key ++ name :: names) ≠ none := by
      rw [hget]
      rintro ⟨⟩
    have htop := FileTree.isDirectory_of_append (List.cons_ne_nil name names) hsome
    rw [List.append_cons] at hget hsome
    have hnext : d.tree.get? (key ++ [name]) ≠ none := by
      cases names with
      | nil => simpa using hsome
      | cons n names =>
        rw [FileTree.isDirectory_of_append (List.cons_ne_nil n names) hsome]
        rintro ⟨⟩
    refine ⟨hdir, htop, ih ?_ hget hnames fun front hfront =>
      hfault (name :: front) (List.cons_prefix_cons.mpr ⟨rfl, hfront⟩)⟩
    exact find_child hname (find_eq_ok.mp hdir).2 htop hnext
      (hfault [name] (List.cons_prefix_cons.mpr ⟨rfl, List.nil_prefix⟩)) hsize

/-- **A file is found by names alone**: some path is found that has these names among its segments,
and perhaps more that mean nothing. -/
theorem descends_of_sublist {file : String} (hdir : dir.isEmpty = false)
    (hsite : d.site dir = .ok key) (hget : d.tree.get? (key ++ names) = some .directory)
    (hnames : ∀ n ∈ names, Path.IsEntryName n ∧ n.utf8ByteSize ≤ maxName)
    (hfile : Path.IsEntryName file) (hsize : file.utf8ByteSize ≤ maxName)
    (hpresent : d.tree.get? (key ++ names ++ [file]) ≠ none) (hq : pathFault? q = none)
    (hsub : (dir.front ++ (names ++ [file])).Sublist q.segments) :
    d.Descends dir key names ∧
      d.find ((names.foldl Path.child dir).child file) = .ok (key ++ names ++ [file]) := by
  have hne : ∀ {front}, front <+: names → ∀ n ∈ front, n ≠ "" := fun hfront n hn =>
    (hnames n (hfront.subset hn)).1.1
  have hempty : ∀ {front}, front <+: names → (front.foldl Path.child dir).isEmpty = false := by
    intro front hfront
    rcases List.eq_nil_or_concat front with rfl | ⟨before, n, rfl⟩
    · exact hdir
    · rw [List.concat_eq_append] at hfront ⊢
      rw [List.foldl_append]
      exact Path.isEmpty_child _ (hne hfront n (by simp))
  -- the path of every entry on the way has some of the segments at hand
  have hchild : ∀ {front next}, front ++ [next] <+: names ++ [file] → front <+: names →
      next ≠ "" → pathFault? ((front.foldl Path.child dir).child next) = none := by
    intro front next hnext hfront hblank
    refine pathFault?_of_sublist ?_ (Path.isEmpty_child _ hblank) hq
    rw [Path.foldl_child hdir (hne hfront)]
    exact (hnext.sublist.append_left _).trans hsub
  have hfault : ∀ front, front <+: names → pathFault? (front.foldl Path.child dir) = none := by
    intro front hfront
    obtain ⟨behind, rfl⟩ := hfront
    cases behind with
    | nil =>
      refine pathFault?_of_child file (hempty (List.prefix_append front [])) ?_
      exact hchild (by simp) (List.prefix_append front []) hfile.1
    | cons next behind =>
      refine pathFault?_of_child next (hempty (List.prefix_append front _)) ?_
      exact hchild ⟨behind ++ [file], by simp⟩ (List.prefix_append front _)
        (hnames next (by simp)).1.1
  have hfind : d.find dir = .ok key := find_eq_ok.mpr ⟨hfault [] List.nil_prefix, hsite⟩
  have hdescends := descends_of_find hfind hget hnames hfault
  obtain ⟨hend, hdirectory⟩ := hdescends.find
  exact ⟨hdescends, find_child hfile (find_eq_ok.mp hend).2 hdirectory hpresent
    (hchild (List.prefix_refl _) (List.prefix_refl _) hfile.1) hsize⟩

/-- A file in a directory: the way down has no names. -/
theorem descends_child {file : String} {k : Key} (hdir : dir.isEmpty = false)
    (hfile : Path.IsEntryName file) (h : d.find (dir.child file) = .ok k) :
    ∃ key, d.Descends dir key [] ∧ k = key ++ [file] := by
  obtain ⟨key, hsite, rfl, hdirectory, -⟩ := find_child_ok hfile h
  have hfault := pathFault?_of_child file hdir (find_eq_ok.mp h).1
  exact ⟨key, ⟨find_eq_ok.mpr ⟨hfault, hsite⟩, hdirectory⟩, rfl⟩

/-- **A file below a directory**, by a relative path that does not lead upwards: it is found by the
names of that path. -/
theorem descends_join {file : String} {k : Key} (hdir : dir.isEmpty = false)
    (habs : q.isAbsolute = false) (hne : q.segments ≠ []) (hup : ∀ s ∈ q.segments, s ≠ "..")
    (hfile : Path.IsEntryName file) (h : d.find ((dir.join q).child file) = .ok k) :
    ∃ key, d.Descends dir key q.names ∧ k = key ++ q.names ++ [file] ∧
      d.find ((q.names.foldl Path.child dir).child file) = .ok k := by
  rw [Path.names_eq habs hup]
  obtain ⟨above, hjoin, rfl, hdirectory, hpresent, hsize⟩ := find_child_ok hfile h
  obtain ⟨front, hroute, hfront⟩ := d.route_join dir habs hne
  rw [site, hroute] at hjoin
  obtain ⟨key, hkey, hrest⟩ := FileTree.walk_append_ok hjoin
  obtain ⟨rfl, hsizes⟩ := FileTree.walk_names hup hrest
  have hsite : d.site dir = .ok key := by
    rcases hfront with hfront | hfront
    · rw [site, hfront, hkey]
    · have htop : d.tree.get? key = some .directory := by
        obtain ⟨s, ss, hsegments⟩ := List.exists_cons_of_ne_nil hne
        rw [hsegments] at hrest
        exact FileTree.isDirectory_of_walk_cons hrest
      rw [site, hfront, FileTree.walk_append, hkey]
      exact FileTree.walk_blanks (by simp) htop
  obtain ⟨hdescends, hfind⟩ := descends_of_sublist hdir hsite hdirectory
    (fun n hn => ⟨Path.isEntryName_of_mem_filter hup n hn, hsizes n hn⟩) hfile hsize hpresent
    (find_eq_ok.mp h).1 (by
      rw [Path.child_join hdir habs hne]
      exact ((Path.filter_sublist_front q).append_right [file]).append_left _)
  exact ⟨key, hdescends, rfl, hfind⟩

end Disk
end Workbench
