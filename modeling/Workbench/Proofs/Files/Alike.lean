import Workbench.Files.Disk
import Mathlib.Data.List.Forall2

/-!
# Disks that differ in contents

What an operation on a disk does never hangs on what the files hold: paths are followed by names,
and a content is only ever copied.  So two disks of one shape stay of one shape, whatever is done to
both.

* `Disk.Alike R` are disks with the same directories and files, whose contents `R` relates;
* `Disk.Alike.find`, `Disk.Alike.readDirectory`, `Disk.Alike.isFile` and their like: what is asked
  about the shape of a disk is answered alike;
* `Disk.Alike.makeDirectories`, `Disk.Alike.writeFile` and `Disk.Alike.copyFile`: what changes a
  disk changes the other one alike, and fails in the same cases with the same error.
-/

namespace Workbench

/-- Two results agree: both are the same error, or both are values that `S` relates. -/
inductive Agree {ε α β : Type} (S : α → β → Prop) : Except ε α → Except ε β → Prop where
  | error (e : ε) : Agree S (.error e) (.error e)
  | ok {a : α} {b : β} (h : S a b) : Agree S (.ok a) (.ok b)

/-- What agrees with the same agrees. -/
theorem Agree.join {ε α β γ : Type} {S : α → γ → Prop} {S' : β → γ → Prop} {T : α → β → Prop}
    (hT : ∀ a b c, S a c → S' b c → T a b) {x : Except ε α} {y : Except ε β} {z : Except ε γ}
    (hx : Agree S x z) (hy : Agree S' y z) : Agree T x y := by
  cases hx with
  | error e =>
    cases hy
    exact .error e
  | ok hx =>
    cases hy with
    | ok hy => exact .ok (hT _ _ _ hx hy)

variable {R : String → String → Prop}

/-! ## 1. Entries, nodes and trees -/

/-- Entries of one kind, whose contents are related. -/
inductive Entry.Alike (R : String → String → Prop) : Entry → Entry → Prop where
  | directory : Alike R .directory .directory
  | file {content content' : String} (h : R content content') :
      Alike R (.file content) (.file content')

/-- Trees with the same names in the same order, whose contents are related. -/
inductive FileTree.Alike (R : String → String → Prop) : FileTree → FileTree → Prop where
  | empty : Alike R .empty .empty
  | file {name content content' : String} {rest rest' : FileTree} (h : R content content')
      (hrest : Alike R rest rest') : Alike R (.file name content rest) (.file name content' rest')
  | directory {name : String} {inside inside' rest rest' : FileTree}
      (hinside : Alike R inside inside') (hrest : Alike R rest rest') :
      Alike R (.directory name inside rest) (.directory name inside' rest')

/-- Nodes of one kind and shape, whose contents are related. -/
inductive Node.Alike (R : String → String → Prop) : Node → Node → Prop where
  | file {content content' : String} (h : R content content') :
      Alike R (.file content) (.file content')
  | directory {inside inside' : FileTree} (h : inside.Alike R inside') :
      Alike R (.directory inside) (.directory inside')

theorem Node.Alike.entry {n n' : Node} (h : n.Alike R n') : n.entry.Alike R n'.entry := by
  cases h with
  | file h => exact .file h
  | directory h => exact .directory

theorem Entry.Alike.node {a a' : Entry} (h : a.Alike R a') : a.node.Alike R a'.node := by
  cases h with
  | file h => exact .file h
  | directory => exact .directory .empty

theorem Node.Alike.cons {n n' : Node} (h : n.Alike R n') (name : String) {rest rest' : FileTree}
    (hrest : rest.Alike R rest') : (n.cons name rest).Alike R (n'.cons name rest') := by
  cases h with
  | file h => exact .file h hrest
  | directory h => exact .directory h hrest

namespace FileTree.Alike

variable {t t' : FileTree}

theorem refl (hR : ∀ content, R content content) (t : FileTree) : t.Alike R t := by
  induction t with
  | empty => exact .empty
  | file name content rest ih => exact .file (hR content) ih
  | directory name inside rest ihi ih => exact .directory ihi ih

theorem child? (h : t.Alike R t') (name : String) :
    Option.Rel (Node.Alike R) (t.child? name) (t'.child? name) := by
  induction h with
  | empty => exact .none
  | file h hrest ih =>
    unfold FileTree.child?
    split
    · exact .some (.file h)
    · exact ih
  | directory hinside hrest ihi ih =>
    unfold FileTree.child?
    split
    · exact .some (.directory hinside)
    · exact ih

theorem setChild (h : t.Alike R t') (name : String) {n n' : Node} (hn : n.Alike R n') :
    (t.setChild name n).Alike R (t'.setChild name n') := by
  induction h with
  | empty => exact hn.cons name .empty
  | file h hrest ih =>
    unfold FileTree.setChild
    split
    · exact hn.cons name hrest
    · exact .file h ih
  | directory hinside hrest ihi ih =>
    unfold FileTree.setChild
    split
    · exact hn.cons name hrest
    · exact .directory hinside ih

theorem listing (h : t.Alike R t') : t.listing = t'.listing := by
  induction h with
  | empty => rfl
  | file h hrest ih => simp only [FileTree.listing, ih]
  | directory hinside hrest ihi ih => simp only [FileTree.listing, ih]

theorem depth (h : t.Alike R t') : t.depth = t'.depth := by
  induction h with
  | empty => rfl
  | file h hrest ih => simp only [FileTree.depth, ih]
  | directory hinside hrest ihi ih => simp only [FileTree.depth, ihi, ih]

theorem node? (h : t.Alike R t') (key : Key) :
    Option.Rel (Node.Alike R) (t.node? key) (t'.node? key) := by
  induction key generalizing t t' with
  | nil => exact .some (.directory h)
  | cons name below ih =>
    unfold FileTree.node?
    have hchild := h.child? name
    revert hchild
    cases t.child? name <;> cases t'.child? name <;> intro hchild <;> cases hchild
    · exact .none
    · rename_i hn
      cases hn with
      | file h =>
        dsimp only
        split
        · exact .some (.file h)
        · exact .none
      | directory h => exact ih h

theorem get? (h : t.Alike R t') (key : Key) :
    Option.Rel (Entry.Alike R) (t.get? key) (t'.get? key) := by
  unfold FileTree.get?
  have hnode := h.node? key
  revert hnode
  cases t.node? key <;> cases t'.node? key <;> intro hnode <;> cases hnode
  · exact .none
  · exact .some (Node.Alike.entry ‹_›)

theorem isSome_get? (h : t.Alike R t') (key : Key) :
    (t.get? key).isSome = (t'.get? key).isSome := by
  have hget := h.get? key
  revert hget
  cases t.get? key <;> cases t'.get? key <;> intro hget <;> cases hget <;> rfl

theorem isDirectory (h : t.Alike R t') (key : Key) : t.isDirectory key = t'.isDirectory key := by
  unfold FileTree.isDirectory
  have hget := h.get? key
  revert hget
  cases t.get? key <;> cases t'.get? key <;> intro hget <;> cases hget
  · rfl
  · rename_i he
    cases he <;> rfl

theorem names (h : t.Alike R t') (key : Key) : t.names key = t'.names key := by
  unfold FileTree.names
  have hnode := h.node? key
  revert hnode
  cases t.node? key <;> cases t'.node? key <;> intro hnode <;> cases hnode
  · rfl
  · rename_i hn
    cases hn with
    | file h => rfl
    | directory h => exact h.listing

theorem put (h : t.Alike R t') (key : Key) {a a' : Entry} (ha : a.Alike R a') :
    (t.put key a).Alike R (t'.put key a') := by
  induction key generalizing t t' with
  | nil => exact h
  | cons name below ih =>
    cases below with
    | nil => exact h.setChild name ha.node
    | cons next below =>
      unfold FileTree.put
      have hchild := h.child? name
      revert hchild
      cases t.child? name <;> cases t'.child? name <;> intro hchild <;> cases hchild
      · exact h
      · rename_i hn
        cases hn with
        | file _ => exact h
        | directory hinside => exact h.setChild name (.directory (ih hinside))

end FileTree.Alike

/-! ## 2. What is asked about the shape of a disk -/

namespace Disk

/-- Disks with the same directories and files, whose contents are related. -/
structure Alike (R : String → String → Prop) (d d' : Disk) : Prop where
  tree : d.tree.Alike R d'.tree
  cwd : d.cwd = d'.cwd
  home : d.home = d'.home

namespace Alike

variable {d d' : Disk}

theorem refl (hR : ∀ content, R content content) (d : Disk) : d.Alike R d :=
  ⟨.refl hR d.tree, rfl, rfl⟩

/-- Trails over the same names, whose nodes are related. -/
abbrev Trails (R : String → String → Prop) : Trail → Trail → Prop :=
  List.Forall₂ fun a b => a.1 = b.1 ∧ a.2.Alike R b.2

theorem here (h : d.Alike R d') {trail trail' : Trail} (ht : Trails R trail trail') :
    (d.here trail).Alike R (d'.here trail') := by
  cases ht with
  | nil => exact .directory h.tree
  | cons hn _ => exact hn.2

theorem keyOf {trail trail' : Trail} (ht : Trails R trail trail') :
    Disk.keyOf trail = Disk.keyOf trail' := by
  have hnames : trail.map Prod.fst = trail'.map Prod.fst := by
    induction ht with
    | nil => rfl
    | cons hn _ ih => simp only [List.map_cons, hn.1, ih]
  simp only [Disk.keyOf, hnames]

theorem step (h : d.Alike R d') {trail trail' : Trail} (ht : Trails R trail trail')
    (segment : String) : Agree (Trails R) (d.step trail segment) (d'.step trail' segment) := by
  have hhere := h.here ht
  unfold Disk.step
  revert hhere
  cases d.here trail <;> cases d'.here trail' <;> intro hhere <;> cases hhere
  · exact .error _
  · rename_i hinside
    dsimp only
    split
    · exact .ok ht
    · split
      · exact .ok (List.forall₂_drop 1 ht)
      · split
        · exact .error _
        · have hchild := hinside.child? segment
          revert hchild
          cases FileTree.child? _ segment <;> cases FileTree.child? _ segment <;>
            intro hchild <;> cases hchild
          · exact .error _
          · exact .ok (.cons ⟨rfl, ‹_›⟩ ht)

theorem follow (h : d.Alike R d') {trail trail' : Trail} (ht : Trails R trail trail')
    (segments : List String) :
    Agree (Trails R) (d.follow trail segments) (d'.follow trail' segments) := by
  induction segments generalizing trail trail' with
  | nil => exact .ok ht
  | cons s ss ih =>
    have hstep := h.step ht s
    unfold Disk.follow
    revert hstep
    cases d.step trail s <;> cases d'.step trail' s <;> intro hstep <;> cases hstep
    · exact .error _
    · exact ih ‹_›

theorem route (h : d.Alike R d') (p : Path) : d.route p = d'.route p := by
  simp only [Disk.route, h.cwd]

theorem find (h : d.Alike R d') (p : Path) : d.find p = d'.find p := by
  unfold Disk.find
  rw [h.route p]
  split
  · rfl
  · have hfollow := h.follow .nil (d'.route p)
    revert hfollow
    cases d.follow [] (d'.route p) <;> cases d'.follow [] (d'.route p) <;>
      intro hfollow <;> cases hfollow
    · rfl
    · exact congrArg Except.ok (keyOf ‹_›)

theorem entry? (h : d.Alike R d') (p : Path) :
    Option.Rel (Entry.Alike R) (d.entry? p) (d'.entry? p) := by
  unfold Disk.entry?
  rw [h.find p]
  split
  · exact h.tree.get? _
  · exact .none

theorem pathExists (h : d.Alike R d') (p : Path) : d.pathExists p = d'.pathExists p := by
  unfold Disk.pathExists
  have he := h.entry? p
  revert he
  cases d.entry? p <;> cases d'.entry? p <;> intro he <;> cases he <;> rfl

theorem isDirectory (h : d.Alike R d') (p : Path) : d.isDirectory p = d'.isDirectory p := by
  unfold Disk.isDirectory
  have he := h.entry? p
  revert he
  cases d.entry? p <;> cases d'.entry? p <;> intro he <;> cases he
  · rfl
  · rename_i ha
    cases ha <;> rfl

theorem isFile (h : d.Alike R d') (p : Path) : d.isFile p = d'.isFile p := by
  unfold Disk.isFile
  have he := h.entry? p
  revert he
  cases d.entry? p <;> cases d'.entry? p <;> intro he <;> cases he
  · rfl
  · rename_i ha
    cases ha <;> rfl

theorem readDirectory (h : d.Alike R d') (p : Path) :
    d.readDirectory p = d'.readDirectory p := by
  unfold Disk.readDirectory
  rw [h.find p]
  split
  · rfl
  · rw [h.tree.isDirectory, h.tree.names]

theorem readFile (h : d.Alike R d') (p : Path) : Agree R (d.readFile p) (d'.readFile p) := by
  unfold Disk.readFile
  rw [h.find p]
  split
  · exact .error _
  · rename_i key _
    have hget := h.tree.get? key
    revert hget
    cases d.tree.get? key <;> cases d'.tree.get? key <;> intro hget <;> cases hget
    · exact .error _
    · rename_i ha
      cases ha with
      | directory => exact .error _
      | file h => exact .ok h

theorem place (h : d.Alike R d') (p : Path) : d.place p = d'.place p := by
  unfold Disk.place
  rw [h.route p]
  split
  · rfl
  · dsimp only
    have hfollow := h.follow .nil (dropSlashes (d'.route p)).dropLast
    revert hfollow
    cases d.follow [] (dropSlashes (d'.route p)).dropLast <;>
      cases d'.follow [] (dropSlashes (d'.route p)).dropLast <;> intro hfollow <;> cases hfollow
    · rfl
    · rename_i trail trail' ht
      have hhere := h.here ht
      dsimp only
      rw [keyOf ht]
      revert hhere
      cases d.here trail <;> cases d'.here trail' <;> intro hhere <;> cases hhere
      · rfl
      · cases (dropSlashes (d'.route p)).getLast? <;> rfl

/-! ## 3. What changes a disk -/

theorem put (h : d.Alike R d') (key : Key) {a a' : Entry} (ha : a.Alike R a') :
    (d.put key a).Alike R (d'.put key a') :=
  ⟨h.tree.put key ha, h.cwd, h.home⟩

theorem makeDirectory (h : d.Alike R d') (p : Path) :
    Agree (Alike R) (d.makeDirectory p) (d'.makeDirectory p) := by
  unfold Disk.makeDirectory
  rw [h.place p]
  split
  · exact .error _
  · exact .error _
  · rw [h.tree.isSome_get?]
    split
    · exact .error _
    · exact .ok (h.put _ .directory)

theorem openForWriting (h : d.Alike R d') (p : Path) :
    d.openForWriting p = d'.openForWriting p := by
  unfold Disk.openForWriting
  rw [h.place p]
  split
  · rfl
  · rfl
  · rw [h.tree.isDirectory]

theorem writeFile (h : d.Alike R d') (p : Path) {content content' : String}
    (hc : R content content') :
    Agree (Alike R) (d.writeFile p content) (d'.writeFile p content') := by
  unfold Disk.writeFile
  rw [h.openForWriting p]
  split
  · exact .error _
  · exact .ok (h.put _ (.file hc))

/-- A file that is copied brings its content along, whatever that is. -/
theorem copyFile (h : d.Alike R d') (hblank : R "" "") (source target : Path) :
    Agree (Alike R) (d.copyFile source target) (d'.copyFile source target) := by
  unfold Disk.copyFile
  have hsource := h.readFile source
  revert hsource
  cases d.readFile source <;> cases d'.readFile source <;> intro hsource <;> cases hsource
  · exact .error _
  · have hemptied := h.writeFile target hblank
    dsimp only
    revert hemptied
    cases d.writeFile target "" <;> cases d'.writeFile target "" <;>
      intro hemptied <;> cases hemptied
    · exact .error _
    · rename_i emptied emptied' hemptied
      have hcontent := hemptied.readFile source
      dsimp only
      revert hcontent
      cases emptied.readFile source <;> cases emptied'.readFile source <;>
        intro hcontent <;> cases hcontent
      · exact .error _
      · exact hemptied.writeFile target ‹_›

theorem makeUpTo (h : d.Alike R d') (missing above : List Path) :
    Agree (fun a b => a.1.Alike R b.1 ∧ a.2 = b.2) (d.makeUpTo missing above)
      (d'.makeUpTo missing above) := by
  induction above generalizing missing with
  | nil => exact .ok ⟨h, rfl⟩
  | cons p above ih =>
    unfold Disk.makeUpTo
    split
    · exact .ok ⟨h, rfl⟩
    · have hmake := h.makeDirectory p
      revert hmake
      cases d.makeDirectory p <;> cases d'.makeDirectory p <;> intro hmake <;> cases hmake
      · rename_i f
        cases f with
        | notFound => exact ih (p :: missing)
        | alreadyExists =>
          dsimp only
          rw [h.isDirectory p]
          split
          · exact .ok ⟨h, rfl⟩
          · exact .error _
        | _ => exact .error _
      · exact .ok ⟨‹_›, rfl⟩

theorem makeAll (h : d.Alike R d') (missing : List Path) :
    (d.makeAll missing).1.Alike R (d'.makeAll missing).1 ∧
      (d.makeAll missing).2 = (d'.makeAll missing).2 := by
  induction missing generalizing d d' with
  | nil => exact ⟨h, rfl⟩
  | cons p ps ih =>
    unfold Disk.makeAll
    have hmake := h.makeDirectory p
    revert hmake
    cases d.makeDirectory p <;> cases d'.makeDirectory p <;> intro hmake <;> cases hmake
    · dsimp only
      rw [h.isDirectory p]
      split
      · exact ih h
      · exact ⟨h, rfl⟩
    · exact ih ‹_›

theorem makeDirectories (h : d.Alike R d') (p : Path) :
    (d.makeDirectories p).1.Alike R (d'.makeDirectories p).1 ∧
      (d.makeDirectories p).2 = (d'.makeDirectories p).2 := by
  unfold Disk.makeDirectories
  have hmake := h.makeUpTo [] p.ancestors
  revert hmake
  cases d.makeUpTo [] p.ancestors <;> cases d'.makeUpTo [] p.ancestors <;>
    intro hmake <;> cases hmake
  · exact ⟨h, rfl⟩
  · rename_i a b hab
    obtain ⟨made, missing⟩ := a
    obtain ⟨made', missing'⟩ := b
    obtain ⟨hmade, rfl⟩ := hab
    exact hmade.makeAll missing

end Alike
end Disk
end Workbench
