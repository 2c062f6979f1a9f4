import Workbench.Proofs.Project.Times
import Workbench.Proofs.Shape.Decoding

/-!
# Deadlines in the arguments of calls

How long a caller waits is said among the arguments of a call, but it is no matter of the operation
that the call asks for.

* `SameButDeadline` are arguments that are the same but for a valid deadline: it may be another one,
  null, or left out;
* `Fields.agree_decode` says that the fields of a request are read alike then, but for the deadline,
  and `planner_agrees` that the plan of the call is the same;
* `Job.SameButDeadline.agrees`: jobs with such arguments ask the same of a workspace.
-/

namespace Workbench

/-! ## 1. Arguments -/

/-- A value that a caller may give as a deadline. -/
def IsDeadline (j : Json) : Prop := ∃ v, (Shape.option (.natural .plain)).decode j = .ok v

/-- The members without the deadline. -/
def besideDeadline (members : List (String × Json)) : List (String × Json) :=
  members.filter fun m => m.1 != "timeout_secs"

/-- The members say at most once how long the caller waits, and give a valid time then. -/
structure OneDeadline (members : List (String × Json)) : Prop where
  once : (members.filter fun m => m.1 == "timeout_secs").length ≤ 1
  valid : ∀ j, ("timeout_secs", j) ∈ members → IsDeadline j

/-- **Arguments that are the same but for a valid deadline.**  Whatever else they are, each of them
may also be compared with itself. -/
inductive SameButDeadline : Json → Json → Prop where
  | same (arguments : Json) : SameButDeadline arguments arguments
  | members {members members' : List (String × Json)}
      (h : besideDeadline members = besideDeadline members') (hone : OneDeadline members)
      (hone' : OneDeadline members') : SameButDeadline (.obj members) (.obj members')

theorem OneDeadline.tail {m : String × Json} {members : List (String × Json)}
    (h : OneDeadline (m :: members)) : OneDeadline members where
  once := by
    have honce := h.once
    rw [List.filter_cons] at honce
    split at honce
    · simp only [List.length_cons] at honce
      omega
    · exact honce
  valid j hj := h.valid j (List.mem_cons_of_mem _ hj)

/-- Behind the deadline there is no other one. -/
theorem OneDeadline.alone {m : String × Json} {members : List (String × Json)}
    (h : OneDeadline (m :: members)) (hm : m.1 = "timeout_secs") :
    ∀ m' ∈ members, m'.1 ≠ "timeout_secs" := by
  intro m' hm' hname
  have honce := h.once
  rw [List.filter_cons_of_pos (by simp only [hm, beq_self_eq_true]), List.length_cons] at honce
  have hmem : m' ∈ members.filter fun m => m.1 == "timeout_secs" :=
    List.mem_filter.mpr ⟨hm', by simp only [hname, beq_self_eq_true]⟩
  have hpos := List.length_pos_of_mem hmem
  omega

/-! ## 2. Fields -/

namespace Field

/-- The field is the deadline, or is not read under its name. -/
def Apart (f : Field) (s : Shape) : Prop :=
  f.accepts "timeout_secs" = false ∨ f = timeoutSecs ∧ s = .option (.natural .plain)

theorem accepts_timeoutSecs (key : String) :
    timeoutSecs.accepts key = true ↔ key = "timeout_secs" := by
  simp only [accepts, timeoutSecs, optional, List.contains_nil, Bool.or_false, beq_iff_eq]

end Field

namespace Fields

/-- Each field is the deadline, or is not read under its name. -/
def Apart : Fields → Prop
  | nil => True
  | cons f s rest => f.Apart s ∧ rest.Apart

/-- The slots are equal but for that of the deadline. -/
def AgreeSlots : (fields : Fields) → fields.Slots → fields.Slots → Prop
  | nil, _, _ => True
  | cons f _ rest, (slot, slots), (slot', slots') =>
    (f.accepts "timeout_secs" = false → slot = slot') ∧ rest.AgreeSlots slots slots'

/-- The values are equal but for that of the deadline. -/
def AgreeValues : (fields : Fields) → fields.Values → fields.Values → Prop
  | nil, _, _ => True
  | cons f _ rest, v, v' =>
    (f.accepts "timeout_secs" = false → v.1 = v'.1) ∧ rest.AgreeValues v.2 v'.2

/-- The deadline was not met so far. -/
def Awaiting : (fields : Fields) → fields.Slots → Prop
  | nil, _ => True
  | cons f _ rest, (slot, slots) =>
    (f.accepts "timeout_secs" = true → slot = none) ∧ rest.Awaiting slots

theorem AgreeSlots.refl : (fields : Fields) → (slots : fields.Slots) →
    fields.AgreeSlots slots slots
  | nil, _ => trivial
  | cons _ _ rest, (_, slots) => ⟨fun _ => rfl, AgreeSlots.refl rest slots⟩

theorem AgreeSlots.symm : {fields : Fields} → {slots slots' : fields.Slots} →
    fields.AgreeSlots slots slots' → fields.AgreeSlots slots' slots
  | nil, _, _, _ => trivial
  | cons _ _ _, (_, _), (_, _), ⟨h, hrest⟩ => ⟨fun hf => (h hf).symm, AgreeSlots.symm hrest⟩

theorem AgreeSlots.trans : {fields : Fields} → {x y z : fields.Slots} →
    fields.AgreeSlots x y → fields.AgreeSlots y z → fields.AgreeSlots x z
  | nil, _, _, _, _, _ => trivial
  | cons _ _ _, (_, _), (_, _), (_, _), ⟨h, hrest⟩, ⟨h', hrest'⟩ =>
    ⟨fun hf => (h hf).trans (h' hf), AgreeSlots.trans hrest hrest'⟩

theorem awaiting_noSlots : (fields : Fields) → fields.Awaiting fields.noSlots
  | nil => trivial
  | cons _ _ rest => ⟨fun _ => rfl, awaiting_noSlots rest⟩

/-- A member other than the deadline goes to the same place with the same result. -/
theorem agree_place : (fields : Fields) → fields.Apart → (key : String) →
    key ≠ "timeout_secs" → (j : Json) → (slots slots' : fields.Slots) →
    fields.AgreeSlots slots slots' →
    Agree fields.AgreeSlots (fields.place key j slots) (fields.place key j slots')
  | nil, _, _, _, _, _, _, _ => .ok trivial
  | cons f s rest, ⟨hf, hrest⟩, key, hkey, j, (slot, slots), (slot', slots'), ⟨h, hslots⟩ => by
    simp only [place]
    split
    · rename_i hkeyed
      -- the field is not the deadline, since it is read under another name
      have hother : f.accepts "timeout_secs" = false := by
        rcases hf with hf | ⟨rfl, -⟩
        · exact hf
        · exact absurd ((Field.accepts_timeoutSecs key).mp hkeyed) hkey
      rw [h hother]
      split
      · exact .error _
      · split
        · exact .ok ⟨fun _ => rfl, hslots⟩
        · exact .error _
    · have ih := agree_place rest hrest key hkey j slots slots' hslots
      revert ih
      cases rest.place key j slots <;> cases rest.place key j slots' <;> intro ih <;> cases ih
      · exact .error _
      · exact .ok ⟨h, ‹_›⟩

/-- A member other than the deadline leaves the slot of the deadline alone. -/
theorem awaiting_place : (fields : Fields) → fields.Apart → (key : String) →
    key ≠ "timeout_secs" → (j : Json) → (slots : fields.Slots) → fields.Awaiting slots →
    ∀ slots', fields.place key j slots = .ok slots' → fields.Awaiting slots'
  | nil, _, _, _, _, _, _, _, _ => trivial
  | cons f s rest, ⟨hf, hrest⟩, key, hkey, j, (slot, slots), ⟨h, hslots⟩, slots', hplace => by
    simp only [place] at hplace
    split at hplace
    · rename_i hkeyed
      have hother : f.accepts "timeout_secs" = false := by
        rcases hf with hf | ⟨rfl, -⟩
        · exact hf
        · exact absurd ((Field.accepts_timeoutSecs key).mp hkeyed) hkey
      split at hplace
      · cases hplace
      · split at hplace <;> cases hplace
        exact ⟨fun hthis => absurd hthis (by simp only [hother, Bool.false_eq_true,
          not_false_eq_true]), hslots⟩
    · split at hplace <;> cases hplace
      rename_i slots' hok
      exact ⟨h, awaiting_place rest hrest key hkey j slots hslots slots' hok⟩

/-- A valid deadline goes to its slot, or is passed over. -/
theorem agree_place_deadline : (fields : Fields) → fields.Apart → (j : Json) → IsDeadline j →
    (slots : fields.Slots) → fields.Awaiting slots →
    ∃ slots', fields.place "timeout_secs" j slots = .ok slots' ∧ fields.AgreeSlots slots' slots
  | nil, _, _, _, slots, _ => ⟨slots, rfl, trivial⟩
  | cons f s rest, ⟨hf, hrest⟩, j, hj, (slot, slots), ⟨h, hslots⟩ => by
    simp only [place]
    split
    · rename_i hkeyed
      rcases hf with hf | ⟨rfl, rfl⟩
      · rw [hf] at hkeyed
        cases hkeyed
      · obtain ⟨v, hv⟩ := hj
        rw [h hkeyed, hv]
        refine ⟨_, rfl, fun hother => ?_, AgreeSlots.refl rest slots⟩
        rw [hkeyed] at hother
        cases hother
    · obtain ⟨slots', hplace, hagree⟩ := agree_place_deadline rest hrest j hj slots hslots
      rw [hplace]
      exact ⟨_, rfl, fun _ => rfl, hagree⟩

/-- The members are met alike with and without a valid deadline among them. -/
theorem agree_foldlM {fields : Fields} (hf : fields.Apart) {members : List (String × Json)}
    (hone : OneDeadline members) (slots slots' : fields.Slots)
    (hagree : fields.AgreeSlots slots slots')
    (hawaiting : (∀ m ∈ members, m.1 ≠ "timeout_secs") ∨ fields.Awaiting slots) :
    Agree fields.AgreeSlots (members.foldlM (fun slots m => fields.place m.1 m.2 slots) slots)
      ((besideDeadline members).foldlM (fun slots m => fields.place m.1 m.2 slots) slots') := by
  induction members generalizing slots slots' with
  | nil => exact .ok hagree
  | cons m members ih =>
    by_cases hm : m.1 = "timeout_secs"
    · -- the deadline: placed on one side, absent on the other
      have hwait : fields.Awaiting slots :=
        hawaiting.resolve_left fun hall => hall m List.mem_cons_self hm
      have hj : IsDeadline m.2 := hone.valid m.2 (hm ▸ List.mem_cons_self)
      obtain ⟨placed, hplace, hplaced⟩ := agree_place_deadline fields hf m.2 hj slots hwait
      have hskip : besideDeadline (m :: members) = besideDeadline members :=
        List.filter_cons_of_neg (by simp only [hm, bne_self_eq_false, Bool.false_eq_true,
          not_false_eq_true])
      rw [hskip, List.foldlM_cons, hm, hplace]
      exact ih hone.tail placed slots' (hplaced.trans hagree) (.inl (hone.alone hm))
    · have hkeep : besideDeadline (m :: members) = m :: besideDeadline members :=
        List.filter_cons_of_pos (by simp only [bne_iff_ne, ne_eq, hm, not_false_eq_true])
      rw [hkeep, List.foldlM_cons, List.foldlM_cons]
      have hplace := agree_place fields hf m.1 hm m.2 slots slots' hagree
      have hwait := awaiting_place fields hf m.1 hm m.2 slots
      revert hplace hwait
      cases fields.place m.1 m.2 slots <;> cases fields.place m.1 m.2 slots' <;>
        intro hplace hwait <;> cases hplace
      · exact .error _
      · refine ih hone.tail _ _ ‹_› (hawaiting.imp (fun hall m' hm' => ?_) fun h => hwait h _ rfl)
        exact hall m' (List.mem_cons_of_mem _ hm')

/-- The fields are filled alike but for the deadline, which may always be absent. -/
theorem agree_fill : (fields : Fields) → fields.Apart → (slots slots' : fields.Slots) →
    fields.AgreeSlots slots slots' →
    Agree fields.AgreeValues (fields.fill slots) (fields.fill slots')
  | nil, _, _, _, _ => .ok trivial
  | cons f s rest, ⟨hf, hrest⟩, (slot, slots), (slot', slots'), ⟨h, hslots⟩ => by
    have ih := agree_fill rest hrest slots slots' hslots
    simp only [fill]
    rcases hf with hf | ⟨rfl, rfl⟩
    · rw [h hf]
      split
      · exact .error _
      · revert ih
        cases rest.fill slots <;> cases rest.fill slots' <;> intro ih <;> cases ih
        · exact .error _
        · exact .ok ⟨fun _ => rfl, ‹_›⟩
    · have hfills (slot : Option (Shape.option (.natural .plain)).Value) :
          ∃ v, Field.timeoutSecs.fromSlot
            (fun j => (Shape.option (.natural .plain)).decode j) slot = .ok v := by
        cases slot with
        | none => exact ⟨none, rfl⟩
        | some v => exact ⟨v, rfl⟩
      obtain ⟨v, hv⟩ := hfills slot
      obtain ⟨v', hv'⟩ := hfills slot'
      rw [hv, hv']
      revert ih
      cases rest.fill slots <;> cases rest.fill slots' <;> intro ih <;> cases ih
      · exact .error _
      · exact .ok ⟨fun hother => absurd hother (by decide), ‹_›⟩

/-- The members of two calls are met alike if they differ in the deadline only. -/
theorem agree_members {fields : Fields} (hf : fields.Apart)
    {members members' : List (String × Json)}
    (h : besideDeadline members = besideDeadline members') (hone : OneDeadline members)
    (hone' : OneDeadline members') :
    Agree fields.AgreeSlots
      (members.foldlM (fun slots m => fields.place m.1 m.2 slots) fields.noSlots)
      (members'.foldlM (fun slots m => fields.place m.1 m.2 slots) fields.noSlots) := by
  have hwait : fields.Awaiting fields.noSlots := awaiting_noSlots fields
  have hsame : fields.AgreeSlots fields.noSlots fields.noSlots := AgreeSlots.refl fields _
  have hbeside := agree_foldlM hf hone fields.noSlots fields.noSlots hsame (.inr hwait)
  have hbeside' := agree_foldlM hf hone' fields.noSlots fields.noSlots hsame (.inr hwait)
  rw [h] at hbeside
  exact hbeside.join (fun x y z hx hy => hx.trans hy.symm) hbeside'

/-- **The fields of a request are read alike but for the deadline.** -/
theorem agree_decode {fields : Fields} (hf : fields.Apart) (name : String)
    {members members' : List (String × Json)}
    (h : besideDeadline members = besideDeadline members') (hone : OneDeadline members)
    (hone' : OneDeadline members') :
    Agree fields.AgreeValues ((Shape.record name fields).decode (.obj members))
      ((Shape.record name fields).decode (.obj members')) := by
  have hmembers := agree_members hf h hone hone'
  rw [Shape.decode_obj, Shape.decode_obj]
  revert hmembers
  generalize List.foldlM (fun slots m => fields.place m.1 m.2 slots) fields.noSlots members = x
  generalize List.foldlM (fun slots m => fields.place m.1 m.2 slots) fields.noSlots members' = y
  intro hmembers
  cases hmembers with
  | error m => exact .error m
  | ok hslots => exact agree_fill fields hf _ _ hslots

end Fields

/-! ## 3. Plans -/

theorem agree_parse {α : Type} [Shaped α]
    {T : (Shaped.shape α).Value → (Shaped.shape α).Value → Prop} {S : α → α → Prop} {j j' : Json}
    (h : Agree T ((Shaped.shape α).decode j) ((Shaped.shape α).decode j'))
    (hT : ∀ v v', T v v' → S (Shaped.ofValue v) (Shaped.ofValue v')) :
    Agree S (Tool.parseArguments α j) (Tool.parseArguments α j') := by
  simp only [Tool.parseArguments, decode]
  revert h
  generalize (Shaped.shape α).decode j = x
  generalize (Shaped.shape α).decode j' = y
  intro h
  cases h with
  | error m => exact .error _
  | ok h => exact .ok (hT _ _ h)

section Planners

variable {members members' : List (String × Json)} (context : PlanContext)
  (h : besideDeadline members = besideDeadline members') (hone : OneDeadline members)
  (hone' : OneDeadline members')
include h hone hone'

theorem sessionRequest_agrees : Agree (fun _ _ : SessionRequest => True)
    (Tool.parseArguments SessionRequest (.obj members))
    (Tool.parseArguments SessionRequest (.obj members')) := by
  refine agree_parse (Fields.agree_decode ?_ _ h hone hone') fun _ _ _ => trivial
  exact ⟨.inl rfl, .inr ⟨rfl, rfl⟩, trivial⟩

theorem openProject_agrees :
    Plan.openProject context (.obj members) = Plan.openProject context (.obj members') := by
  have hparse : Agree (fun r r' : OpenProjectRequest => 
      r.projectPath = r'.projectPath ∧ r.projectName = r'.projectName)
      (Tool.parseArguments OpenProjectRequest (.obj members))
      (Tool.parseArguments OpenProjectRequest (.obj members')) := by
    refine agree_parse (Fields.agree_decode ?_ _ h hone hone') fun _ _ hv => ?_
    · exact ⟨.inl rfl, .inl rfl, .inl rfl, .inr ⟨rfl, rfl⟩, trivial⟩
    · exact ⟨hv.2.1 rfl, hv.2.2.1 rfl⟩
  simp only [Plan.openProject]
  revert hparse
  generalize Tool.parseArguments OpenProjectRequest (.obj members) = x
  generalize Tool.parseArguments OpenProjectRequest (.obj members') = y
  intro hparse
  cases hparse with
  | error e => rfl
  | @ok r r' hr =>
    obtain ⟨id, path, name, secs⟩ := r
    obtain ⟨id', path', name', secs'⟩ := r'
    obtain ⟨rfl, rfl⟩ := hr
    rfl

theorem closeProject_agrees :
    Plan.closeProject context (.obj members) = Plan.closeProject context (.obj members') := by
  have hparse : Agree (fun r r' : CloseProjectRequest => r.save = r'.save)
      (Tool.parseArguments CloseProjectRequest (.obj members))
      (Tool.parseArguments CloseProjectRequest (.obj members')) := by
    refine agree_parse (Fields.agree_decode ?_ _ h hone hone') fun _ _ hv => ?_
    · exact ⟨.inl rfl, .inl rfl, .inr ⟨rfl, rfl⟩, trivial⟩
    · exact hv.2.1 rfl
  simp only [Plan.closeProject]
  revert hparse
  generalize Tool.parseArguments CloseProjectRequest (.obj members) = x
  generalize Tool.parseArguments CloseProjectRequest (.obj members') = y
  intro hparse
  cases hparse with
  | error e => rfl
  | @ok r r' hr =>
    obtain ⟨id, save, secs⟩ := r
    obtain ⟨id', save', secs'⟩ := r'
    cases hr
    rfl

theorem saveProject_agrees :
    Plan.saveProject context (.obj members) = Plan.saveProject context (.obj members') := by
  have hparse := sessionRequest_agrees h hone hone'
  simp only [Plan.saveProject]
  revert hparse
  generalize Tool.parseArguments SessionRequest (.obj members) = x
  generalize Tool.parseArguments SessionRequest (.obj members') = y
  intro hparse
  cases hparse <;> rfl

theorem projectInfo_agrees :
    Plan.projectInfo context (.obj members) = Plan.projectInfo context (.obj members') := by
  have hparse := sessionRequest_agrees h hone hone'
  simp only [Plan.projectInfo]
  revert hparse
  generalize Tool.parseArguments SessionRequest (.obj members) = x
  generalize Tool.parseArguments SessionRequest (.obj members') = y
  intro hparse
  cases hparse <;> rfl

theorem listBlocks_agrees :
    Plan.listBlocks context (.obj members) = Plan.listBlocks context (.obj members') := by
  have hparse : Agree (fun r r' : ListBlocksRequest => r.blockType = r'.blockType)
      (Tool.parseArguments ListBlocksRequest (.obj members))
      (Tool.parseArguments ListBlocksRequest (.obj members')) := by
    refine agree_parse (Fields.agree_decode ?_ _ h hone hone') fun _ _ hv => ?_
    · exact ⟨.inl rfl, .inl rfl, .inr ⟨rfl, rfl⟩, trivial⟩
    · exact hv.2.1 rfl
  simp only [Plan.listBlocks]
  revert hparse
  generalize Tool.parseArguments ListBlocksRequest (.obj members) = x
  generalize Tool.parseArguments ListBlocksRequest (.obj members') = y
  intro hparse
  cases hparse with
  | error e => rfl
  | @ok r r' hr =>
    obtain ⟨id, kind, secs⟩ := r
    obtain ⟨id', kind', secs'⟩ := r'
    cases hr
    rfl

theorem exportBlocks_agrees :
    Plan.exportBlocks context (.obj members) = Plan.exportBlocks context (.obj members') := by
  have hparse : Agree (fun r r' : ExportBlocksRequest => 
      r.blockNames = r'.blockNames ∧ r.outputPath = r'.outputPath)
      (Tool.parseArguments ExportBlocksRequest (.obj members))
      (Tool.parseArguments ExportBlocksRequest (.obj members')) := by
    refine agree_parse (Fields.agree_decode ?_ _ h hone hone') fun _ _ hv => ?_
    · exact ⟨.inl rfl, .inl rfl, .inl rfl, .inr ⟨rfl, rfl⟩, trivial⟩
    · exact ⟨hv.2.1 rfl, hv.2.2.1 rfl⟩
  simp only [Plan.exportBlocks]
  revert hparse
  generalize Tool.parseArguments ExportBlocksRequest (.obj members) = x
  generalize Tool.parseArguments ExportBlocksRequest (.obj members') = y
  intro hparse
  cases hparse with
  | error e => rfl
  | @ok r r' hr =>
    obtain ⟨id, names, output, secs⟩ := r
    obtain ⟨id', names', output', secs'⟩ := r'
    obtain ⟨rfl, rfl⟩ := hr
    rfl

theorem importBlocks_agrees :
    Plan.importBlocks context (.obj members) = Plan.importBlocks context (.obj members') := by
  have hparse : Agree (fun r r' : ImportBlocksRequest => 
      r.paths = r'.paths ∧ r.targetFolder = r'.targetFolder)
      (Tool.parseArguments ImportBlocksRequest (.obj members))
      (Tool.parseArguments ImportBlocksRequest (.obj members')) := by
    refine agree_parse (Fields.agree_decode ?_ _ h hone hone') fun _ _ hv => ?_
    · exact ⟨.inl rfl, .inl rfl, .inl rfl, .inr ⟨rfl, rfl⟩, trivial⟩
    · exact ⟨hv.2.1 rfl, hv.2.2.1 rfl⟩
  simp only [Plan.importBlocks]
  revert hparse
  generalize Tool.parseArguments ImportBlocksRequest (.obj members) = x
  generalize Tool.parseArguments ImportBlocksRequest (.obj members') = y
  intro hparse
  cases hparse with
  | error e => rfl
  | @ok r r' hr =>
    obtain ⟨id, paths, folder, secs⟩ := r
    obtain ⟨id', paths', folder', secs'⟩ := r'
    obtain ⟨rfl, rfl⟩ := hr
    rfl

end Planners

/-- **The plan of a call does not depend on its deadline.** -/
theorem planner_agrees {name : String} {planner : Planner} (hp : Tool.planner? name = some planner)
    {arguments arguments' : Json} (h : SameButDeadline arguments arguments')
    (context : PlanContext) : planner context arguments = planner context arguments' := by
  cases h with
  | same => rfl
  | members h hone hone' =>
    unfold Tool.planner? at hp
    repeat' split at hp
    all_goals cases hp
    · exact openProject_agrees context h hone hone'
    · exact closeProject_agrees context h hone hone'
    · exact saveProject_agrees context h hone hone'
    · exact projectInfo_agrees context h hone hone'
    · exact listBlocks_agrees context h hone hone'
    · exact exportBlocks_agrees context h hone hone'
    · exact importBlocks_agrees context h hone hone'

/-! ## 4. Jobs -/

/-- Jobs that are the same but for a valid deadline. -/
inductive Job.SameButDeadline : Job → Job → Prop where
  | release : SameButDeadline .release .release
  | tool (info : ToolInfo) {arguments arguments' : Json}
      (h : Workbench.SameButDeadline arguments arguments') :
      SameButDeadline (.tool info arguments) (.tool info arguments')

theorem Job.SameButDeadline.refl (job : Job) : job.SameButDeadline job := by
  cases job with
  | release => exact .release
  | tool info arguments => exact .tool info (.same arguments)

/-- **Jobs that differ in their deadlines ask the same of a workspace.** -/
theorem Job.SameButDeadline.agrees {job job' : Job} (h : job.SameButDeadline job')
    (context : PlanContext) : Job.Agrees context job job' := by
  cases h with
  | release => exact .release
  | tool info h => exact .tool info fun planner hp => planner_agrees hp h context

end Workbench
