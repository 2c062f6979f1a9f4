import Workbench.Proofs.Shape.Decoding
import Workbench.Session.Backend
import Workbench.Task.Call

/-!
# For whom a call is, and for how long it waits

The session of a call and its deadline are read twice: from the raw arguments, before anything is
queued, and as fields of the request, where the tool is carried out.

* `Tool.address?` is what the request of a tool names, the fields of the decoded type;
* `sessionId_of_stands` and `timeout_of_stands`: the raw readings agree with the two fields, on
  whatever members they stand for a value;
* `readsAlike_of_address?`: so they agree for every tool that works in a session;
* `run_of_mismatch`: arguments that are no request of a tool ask nothing of its resource.
-/

namespace Workbench

/-! ## 1. What a request names -/

/-- The session that a request names, and for how many seconds its caller waits. -/
structure Address where
  sessionId : String
  timeoutSecs : Option Nat
  deriving DecidableEq, Repr

namespace Address

/-- How long the caller waits: from one second to ten minutes, or the standard time if the request
does not say. -/
def limit (a : Address) (standard : Duration) : Duration :=
  match a.timeoutSecs with
  | some secs => .ofSeconds (max 1 (min 600 secs))
  | none => standard

/-- The address in arguments that are a request of some type. -/
def read (α : Type) [Shaped α] (address : α → Address) (arguments : Json) :
    Except Mismatch Address :=
  (decode α arguments).map address

end Address

/-- **What the request of a tool names**, if the arguments are one; nothing for a tool that works in
no session. -/
def Tool.address? (tool : String) (arguments : Json) : Option (Except Mismatch Address) :=
  if tool == "session_info" || tool == "close_session" || tool == "terminate_session" ||
      tool == "save_project" || tool == "get_project_info" then
    some (Address.read SessionRequest (fun r => ⟨r.sessionId, r.timeoutSecs⟩) arguments)
  else if tool == "open_project" then
    some (Address.read OpenProjectRequest (fun r => ⟨r.sessionId, r.timeoutSecs⟩) arguments)
  else if tool == "close_project" then
    some (Address.read CloseProjectRequest (fun r => ⟨r.sessionId, r.timeoutSecs⟩) arguments)
  else if tool == "list_blocks" then
    some (Address.read ListBlocksRequest (fun r => ⟨r.sessionId, r.timeoutSecs⟩) arguments)
  else if tool == "export_blocks" then
    some (Address.read ExportBlocksRequest (fun r => ⟨r.sessionId, r.timeoutSecs⟩) arguments)
  else if tool == "import_blocks" then
    some (Address.read ImportBlocksRequest (fun r => ⟨r.sessionId, r.timeoutSecs⟩) arguments)
  else none

/-- A tool names a session exactly if it works in one. -/
theorem Tool.isSome_address? : ∀ info ∈ Tool.all, ∀ arguments,
    (Tool.address? info.name arguments).isSome = (info.precondition != .none) := by
  simp only [Tool.all, List.forall_mem_cons]
  refine ⟨?_, ?_, ?_, ?_, ?_, ?_, ?_, ?_, ?_, ?_, ?_, ?_, ?_, ?_, fun _ h => by cases h⟩
  all_goals
    intro _
    rfl

/-- Every tool that works on a resource is for a session. -/
theorem Tool.exists_address? {tool : String} {planner : Planner}
    (hp : Tool.planner? tool = some planner) (arguments : Json) :
    ∃ read, Tool.address? tool arguments = some read := by
  unfold Tool.planner? at hp
  repeat' split at hp
  all_goals cases hp
  all_goals
    rename_i htool
    obtain rfl := beq_iff_eq.mp htool
    exact ⟨_, rfl⟩

/-! ## 2. The two fields -/

/-- A member that is read under one of the names of a field is found among its members. -/
theorem Field.lookup_membersOf {f : Field} {key : String} (h : key ∈ f.spellings)
    (members : List (String × Json)) :
    Json.lookup key (f.membersOf members) = Json.lookup key members := by
  induction members with
  | nil => rfl
  | cons m members ih =>
    by_cases hm : m.1 ∈ f.spellings
    · rw [membersOf_cons_own hm, Json.lookup, Json.lookup, ih]
    · have hne : ¬ (m.1 == key) = true := fun heq => hm (beq_iff_eq.mp heq ▸ h)
      rw [membersOf_cons_foreign hm, ih, Json.lookup, if_neg hne]

section Fields

variable {members : List (String × Json)}

/-- **The session is the one that the field names**, under either of its names. -/
theorem sessionId_of_stands {id : String}
    (h : Field.sessionId.Stands (fun j => Shape.text.decode j)
      (Field.sessionId.membersOf members) id) :
    Call.sessionId (.obj members) = .ok id := by
  have hfirst := Field.lookup_membersOf
    (show "session_id" ∈ Field.sessionId.spellings by decide) members
  have hsecond := Field.lookup_membersOf
    (show "sessionId" ∈ Field.sessionId.spellings by decide) members
  simp only [Call.sessionId, Json.get?, ← hfirst, ← hsecond]
  match hmembers : Field.sessionId.membersOf members with
  | [] =>
    rw [hmembers] at h
    cases h
  | _ :: _ :: _ =>
    rw [hmembers] at h
    exact h.elim
  | [(key, j)] =>
    rw [hmembers] at h
    obtain rfl : j = .str id := Shape.decode_text_eq_ok_iff.mp h
    have hkey : key ∈ Field.sessionId.spellings :=
      (Field.mem_membersOf.mp (hmembers ▸ List.mem_singleton_self (key, Json.str id))).2
    rcases List.mem_pair.mp hkey with rfl | rfl <;> rfl

/-- **The deadline is that of the field**, within its limits. -/
theorem timeout_of_stands {id : String} {secs : Option Nat}
    (h : Field.timeoutSecs.Stands (fun j => (Shape.option (.natural .plain)).decode j)
      (Field.timeoutSecs.membersOf members) secs) (standard : Duration) :
    Call.timeout standard (.obj members) = (Address.mk id secs).limit standard := by
  have hlookup := Field.lookup_membersOf
    (show "timeout_secs" ∈ Field.timeoutSecs.spellings by decide) members
  simp only [Call.timeout, Json.get?, ← hlookup]
  match hmembers : Field.timeoutSecs.membersOf members with
  | [] =>
    rw [hmembers] at h
    have hnull : (Shape.option (.natural .plain)).decode .null = .ok secs := h
    rw [Shape.decode_option_null] at hnull
    cases hnull
    rfl
  | _ :: _ :: _ =>
    rw [hmembers] at h
    exact h.elim
  | [(key, j)] =>
    rw [hmembers] at h
    have hdecode : (Shape.option (.natural .plain)).decode j = .ok secs := h
    have hkey : key ∈ Field.timeoutSecs.spellings :=
      (Field.mem_membersOf.mp (hmembers ▸ List.mem_singleton_self (key, j))).2
    obtain rfl := List.mem_singleton.mp hkey
    by_cases hj : j = .null
    · subst hj
      rw [Shape.decode_option_null] at hdecode
      cases hdecode
      rfl
    · obtain ⟨n, rfl, hn⟩ := (Shape.decode_option_eq_ok_iff hj).mp hdecode
      obtain ⟨rfl, -⟩ := Shape.decode_natural_eq_ok_iff.mp hn
      rfl

end Fields

/-! ## 3. Every tool -/

/-- Arguments are read alike: whatever the request names is also what is read from them. -/
def Json.ReadsAlike (arguments : Json) (read : Except Mismatch Address) : Prop :=
  ∀ a, read = .ok a → Call.sessionId arguments = .ok a.sessionId ∧
    ∀ standard, Call.timeout standard arguments = a.limit standard

section Requests

variable {members : List (String × Json)}

/-- The two fields are all that has to be looked at. -/
theorem readsAlike_of_fields {α : Type} [Shaped α] {address : α → Address}
    (h : ∀ r, (Shaped.shape α).decode (.obj members) = .ok (Shaped.toValue r) →
      Field.sessionId.Stands (fun j => Shape.text.decode j)
          (Field.sessionId.membersOf members) (address r).sessionId ∧
        Field.timeoutSecs.Stands (fun j => (Shape.option (.natural .plain)).decode j)
          (Field.timeoutSecs.membersOf members) (address r).timeoutSecs) :
    Json.ReadsAlike (.obj members) (Address.read α address (.obj members)) := by
  intro a ha
  unfold Address.read at ha
  cases hd : decode α (.obj members) with
  | error m =>
    rw [hd] at ha
    cases ha
  | ok r =>
    rw [hd] at ha
    cases ha
    obtain ⟨hid, hsecs⟩ := h r (decode_eq_ok_iff.mp hd)
    exact ⟨sessionId_of_stands hid, timeout_of_stands hsecs⟩

/-- **The request of every tool that works in a session is read alike.** -/
theorem readsAlike_of_address? {tool : String} {read : Except Mismatch Address}
    (h : Tool.address? tool (.obj members) = some read) :
    Json.ReadsAlike (.obj members) read := by
  unfold Tool.address? at h
  repeat' split at h
  all_goals cases h
  · refine readsAlike_of_fields fun r hr => ?_
    obtain ⟨hid, hsecs, -⟩ := (Shape.decode_obj_eq_ok_iff (by decide)).mp hr
    exact ⟨hid, hsecs⟩
  · refine readsAlike_of_fields fun r hr => ?_
    obtain ⟨hid, -, -, hsecs, -⟩ := (Shape.decode_obj_eq_ok_iff (by decide)).mp hr
    exact ⟨hid, hsecs⟩
  · refine readsAlike_of_fields fun r hr => ?_
    obtain ⟨hid, -, hsecs, -⟩ := (Shape.decode_obj_eq_ok_iff (by decide)).mp hr
    exact ⟨hid, hsecs⟩
  · refine readsAlike_of_fields fun r hr => ?_
    obtain ⟨hid, -, hsecs, -⟩ := (Shape.decode_obj_eq_ok_iff (by decide)).mp hr
    exact ⟨hid, hsecs⟩
  · refine readsAlike_of_fields fun r hr => ?_
    obtain ⟨hid, -, -, hsecs, -⟩ := (Shape.decode_obj_eq_ok_iff (by decide)).mp hr
    exact ⟨hid, hsecs⟩
  · refine readsAlike_of_fields fun r hr => ?_
    obtain ⟨hid, -, -, hsecs, -⟩ := (Shape.decode_obj_eq_ok_iff (by decide)).mp hr
    exact ⟨hid, hsecs⟩

end Requests

/-- Arguments in which a session is found are an object. -/
theorem exists_members_of_sessionId {arguments : Json} {id : String}
    (h : Call.sessionId arguments = .ok id) : ∃ members, arguments = .obj members := by
  cases arguments with
  | obj members => exact ⟨members, rfl⟩
  | _ => cases h

/-- **A call that has found its session is for the one that its request names, and waits as long as
that says.** -/
theorem reads_of_sessionId {tool id : String} {arguments : Json} {a : Address}
    (hid : Call.sessionId arguments = .ok id) (ha : Tool.address? tool arguments = some (.ok a)) :
    a.sessionId = id ∧ ∀ standard, Call.timeout standard arguments = a.limit standard := by
  obtain ⟨members, rfl⟩ := exists_members_of_sessionId hid
  obtain ⟨hsession, htimeout⟩ := readsAlike_of_address? ha a rfl
  rw [hid] at hsession
  exact ⟨(Except.ok.inj hsession).symm, htimeout⟩

/-! ## 4. Arguments that are no request -/

theorem decode_of_read_error {α : Type} [Shaped α] {address : α → Address} {arguments : Json}
    {m : Mismatch} (h : Address.read α address arguments = .error m) :
    decode α arguments = .error m := by
  unfold Address.read at h
  cases hd : decode α arguments with
  | error m' =>
    rw [hd] at h
    cases h
    rfl
  | ok r =>
    rw [hd] at h
    cases h

theorem parseArguments_of_read_error {α : Type} [Shaped α] {address : α → Address}
    {arguments : Json} {m : Mismatch} (h : Address.read α address arguments = .error m) :
    Tool.parseArguments α arguments = .error (.ofMismatch m) := by
  rw [Tool.parseArguments, decode_of_read_error h]

/-- There is no plan for arguments that are no request. -/
theorem planner_of_mismatch {tool : String} {planner : Planner} {arguments : Json} {m : Mismatch}
    (hp : Tool.planner? tool = some planner) (h : Tool.address? tool arguments = some (.error m))
    (context : PlanContext) : planner context arguments = .error (.ofMismatch m) := by
  unfold Tool.planner? at hp
  repeat' split at hp
  all_goals cases hp
  all_goals
    rename_i htool
    obtain rfl := beq_iff_eq.mp htool
    have hparse := parseArguments_of_read_error (Option.some.inj h)
  · simp only [Plan.openProject, hparse]
  · simp only [Plan.closeProject, hparse]
  · simp only [Plan.saveProject, hparse]
  · simp only [Plan.projectInfo, hparse]
  · simp only [Plan.listBlocks, hparse]
  · simp only [Plan.exportBlocks, hparse]
  · simp only [Plan.importBlocks, hparse]

/-- **Arguments that are no request of a tool ask nothing of its resource.** -/
theorem run_of_mismatch {ρ σ : Type} {info : ToolInfo} {planner : Planner} {arguments : Json}
    {m : Mismatch} (hp : Tool.planner? info.name = some planner)
    (h : Tool.address? info.name arguments = some (.error m)) (b : Backend ρ σ)
    (context : PlanContext) (seat : Nat) (resource : ρ) (surroundings : σ) (now : Timestamp) :
    b.run context seat (.tool info arguments) resource surroundings now =
      (surroundings, some (.value resource (.error (.ofMismatch m)))) := by
  simp only [Backend.run, hp, planner_of_mismatch hp h context]

end Workbench
