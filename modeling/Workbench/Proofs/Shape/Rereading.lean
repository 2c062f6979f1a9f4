import Workbench.Config.Basic
import Workbench.Project.Report
import Workbench.Proofs.Shape.Decoding
import Workbench.Proofs.Time.Rereading
import Workbench.Session.Info
import Workbench.Tool.Envelope
import Workbench.Tool.Registry

/-!
# What was decoded is encoded so that it decodes to the same

A value has many spellings: a record may be a list or an object with other names, unknown members
and absent ones, a time may have any offset.  It is encoded in one of them, and what was left out
there must come back from its absence.

* `Shape.Faithful` is what a shape needs for that, and can be checked: the names of a record are
  different, and null is left out only where absence counts as null;
* `Shape.rereads_of_decode`: **a value that was decoded is encoded to what decodes to it**,
  for every faithful shape;
* `decode_encode_of_recorded` says it for the types that are kept as JSON.

The value must have been decoded: not every number fits, and not every time can be written.
-/

namespace Workbench

/-! ## 1. Faithful shapes -/

namespace Field

/-- What is left out when it is null counts as null when it is absent. -/
def Restores (f : Field) : Prop :=
  f.omitNull = true → f.presence = .optional ∨ f.presence = .default .null

instance (f : Field) : Decidable f.Restores :=
  inferInstanceAs (Decidable (f.omitNull = true → _))

theorem Restores.absent {f : Field} (h : f.Restores) (homit : f.omitNull = true) {α : Type}
    (decode : Json → Except Mismatch α) : f.absent decode = decode .null := by
  rcases h homit with hp | hp <;> rw [Field.absent, hp]

end Field

mutual

/-- Values of the shape can be told from what they are encoded as. -/
def Shape.Faithful : Shape → Prop
  | .option s => s.Faithful
  | .list s => s.Faithful
  | .choice variants => variants.Nodup
  | .record _ fields => fields.Distinct ∧ fields.Faithful
  | _ => True

/-- So can values of the fields. -/
def Fields.Faithful : Fields → Prop
  | .nil => True
  | .cons f s rest => f.Restores ∧ s.Faithful ∧ rest.Faithful

end

mutual

/-- It can be checked whether a shape is faithful. -/
def Shape.decideFaithful : (s : Shape) → Decidable s.Faithful
  | .option s => s.decideFaithful
  | .list s => s.decideFaithful
  | .choice variants => inferInstanceAs (Decidable variants.Nodup)
  | .record _ fields =>
    have := fields.decideFaithful
    inferInstanceAs (Decidable (fields.Distinct ∧ fields.Faithful))
  | .text | .natural _ | .flag | .any | .object | .time => isTrue trivial

/-- So it can for fields. -/
def Fields.decideFaithful : (fields : Fields) → Decidable fields.Faithful
  | .nil => isTrue trivial
  | .cons f s rest =>
    have := s.decideFaithful
    have := rest.decideFaithful
    inferInstanceAs (Decidable (f.Restores ∧ s.Faithful ∧ rest.Faithful))

end

instance (s : Shape) : Decidable s.Faithful := s.decideFaithful

/-! ## 2. Where the values of a record come from -/

/-- Each of the values was decoded from something. -/
def Fields.Sourced : (fields : Fields) → fields.Values → Prop
  | .nil, _ => True
  | .cons _ s rest, (v, vs) => (∃ j, s.decode j = .ok v) ∧ rest.Sourced vs

theorem Field.source_of_absent {f : Field} {α : Type} {decode : Json → Except Mismatch α} {v : α}
    (h : f.absent decode = .ok v) : ∃ j, decode j = .ok v := by
  unfold Field.absent at h
  split at h
  · cases h
  · exact ⟨_, h⟩
  · exact ⟨_, h⟩

theorem Field.source_of_stands {f : Field} {α : Type} {decode : Json → Except Mismatch α} {v : α}
    {members : List (String × Json)} (h : f.Stands decode members v) : ∃ j, decode j = .ok v := by
  match members with
  | [] => exact Field.source_of_absent h
  | [m] => exact ⟨m.2, h⟩
  | _ :: _ :: _ => exact h.elim

theorem Field.source_of_fromItems {f : Field} {α : Type} {decode : Json → Except Mismatch α}
    {short : Mismatch} {items : List Json} {v : α} (h : f.fromItems decode short items = .ok v) :
    ∃ j, decode j = .ok v := by
  cases items with
  | cons j items => exact ⟨j, h⟩
  | nil =>
    simp only [Field.fromItems] at h
    split at h
    · exact ⟨_, h⟩
    · cases h

namespace Fields

theorem sourced_of_stand {members : List (String × Json)} : {fields : Fields} →
    {vs : fields.Values} → fields.Stand members vs → fields.Sourced vs
  | nil, _, _ => trivial
  | cons _ _ _, (_, _), ⟨hv, hvs⟩ => ⟨Field.source_of_stands hv, sourced_of_stand hvs⟩

theorem sourced_of_decodeItems {name : String} {size given : Nat} : {fields : Fields} →
    {index : Nat} → {items : List Json} → {vs : fields.Values} →
    Fields.decodeItems name size given index fields items = .ok vs → fields.Sourced vs
  | nil, _, _, _, _ => trivial
  | cons f s rest, index, items, (v, vs), h => by
    simp only [decodeItems] at h
    split at h
    · cases h
    · rename_i hv
      split at h <;> cases h
      rename_i hvs
      exact ⟨Field.source_of_fromItems hv, sourced_of_decodeItems hvs⟩

end Fields

/-- **However a record is given**, each of its values was decoded from something. -/
theorem Shape.sourced_of_decode {name : String} {fields : Fields} (hdis : fields.Distinct)
    {j : Json} {vs : fields.Values} (h : (Shape.record name fields).decode j = .ok vs) :
    fields.Sourced vs := by
  cases j with
  | obj members => exact Fields.sourced_of_stand ((decode_obj_eq_ok_iff hdis).mp h)
  | arr items =>
    rw [Shape.decode.eq_def] at h
    exact Fields.sourced_of_decodeItems h
  | _ =>
    rw [Shape.decode.eq_def] at h
    cases h

/-! ## 3. Decoded and encoded again -/

namespace Shape

/-- A name is found at its own place, if no name occurs twice. -/
theorem variantAt?_get {variants : List String} (h : variants.Nodup)
    (i : Fin variants.length) : variantAt? variants (variants.get i) = some i := by
  induction variants with
  | nil => exact i.elim0
  | cons v vs ih =>
    cases i using Fin.cases with
    | zero =>
      show (if v == v then _ else _) = _
      rw [if_pos (beq_self_eq_true v)]
      rfl
    | succ i =>
      have hne : v ≠ vs.get i := fun heq =>
        (List.nodup_cons.mp h).1 (heq ▸ List.get_mem vs i)
      show (if v == vs.get i then _ else (variantAt? vs (vs.get i)).map Fin.succ) = _
      rw [if_neg (by simpa using hne), ih (List.nodup_cons.mp h).2]
      rfl

theorem decode_time_str (text : String) : Shape.time.decode (.str text) = decodeTime text :=
  Shape.decode.eq_def _ _

theorem decode_time_eq_ok {j : Json} {t : Timestamp} (h : Shape.time.decode j = .ok t) :
    t.Valid := by
  cases j with
  | str text =>
    rw [decode_time_str, decodeTime] at h
    split at h <;> cases h
    exact Timestamp.valid_of_parse ‹_›
  | _ =>
    rw [Shape.decode.eq_def] at h
    cases h

theorem decode_time_text {t : Timestamp} (h : t.Valid) :
    Shape.time.decode (.str t.text) = .ok t := by
  rw [decode_time_str, decodeTime, Timestamp.parse_text h]
  rfl

/-- The values of a list can be read again, if each of them can. -/
theorem forall₂_decode_encode {s : Shape} {items : List Json} {vs : List s.Value}
    (h : List.Forall₂ (fun i v => s.decode i = .ok v) items vs)
    (hread : ∀ i v, s.decode i = .ok v → s.decode (s.encode v) = .ok v) :
    List.Forall₂ (fun i v => s.decode i = .ok v) (vs.map fun v => s.encode v) vs := by
  induction h with
  | nil => exact .nil
  | cons hv _ ih => exact .cons (hread _ _ hv) ih

/-- A value of a shape can be read again, and null is what it is encoded as only if it was decoded
from null. -/
structure Rereads (s : Shape) (j : Json) (v : s.Value) : Prop where
  read : s.decode (s.encode v) = .ok v
  null : s.encode v = .null → j = .null

end Shape

mutual

/-- **What was decoded is encoded so that it decodes to the same**, if the shape is faithful. -/
theorem Shape.rereads_of_decode : (s : Shape) → s.Faithful → (j : Json) → (v : s.Value) →
    s.decode j = .ok v → s.Rereads j v
  | .text, _, j, v, h => ⟨Shape.decode_text_eq_ok_iff.mpr rfl, nofun⟩
  | .natural kind, _, j, v, h =>
    ⟨Shape.decode_natural_eq_ok_iff.mpr ⟨rfl, (Shape.decode_natural_eq_ok_iff.mp h).2⟩, nofun⟩
  | .flag, _, j, v, h => ⟨Shape.decode_flag_eq_ok_iff.mpr rfl, nofun⟩
  | .any, _, j, v, h => by
    rw [Shape.decode_any] at h
    cases h
    exact ⟨Shape.decode_any _, id⟩
  | .object, _, j, v, h => ⟨by rw [Shape.decode.eq_def, Shape.encode.eq_def], nofun⟩
  | .time, _, j, v, h => ⟨Shape.decode_time_text (Shape.decode_time_eq_ok h), nofun⟩
  | .option s, hs, j, v, h => by
    by_cases hj : j = .null
    · subst hj
      rw [Shape.decode_option_null] at h
      cases h
      exact ⟨Shape.decode_option_null s, fun _ => rfl⟩
    · obtain ⟨w, rfl, hw⟩ := (Shape.decode_option_eq_ok_iff hj).mp h
      obtain ⟨hread, hnull⟩ := Shape.rereads_of_decode s hs j w hw
      have hencode : (Shape.option s).encode (some w) = s.encode w := Shape.encode.eq_def _ _
      have hne : s.encode w ≠ .null := fun he => hj (hnull he)
      refine ⟨?_, fun he => hnull (hencode ▸ he)⟩
      rw [hencode]
      exact (Shape.decode_option_eq_ok_iff hne).mpr ⟨w, rfl, hread⟩
  | .list s, hs, j, vs, h => by
    obtain ⟨items, -, hitems⟩ := Shape.decode_list_eq_ok_iff.mp h
    have hencode : (Shape.list s).encode vs = .arr (List.map (fun v => s.encode v) vs) :=
      Shape.encode.eq_def _ _
    refine ⟨?_, fun he => by rw [hencode] at he; cases he⟩
    rw [hencode]
    refine Shape.decode_list_eq_ok_iff.mpr ⟨_, rfl, Shape.forall₂_decode_encode hitems ?_⟩
    exact fun i v hi => (Shape.rereads_of_decode s hs i v hi).read
  | .choice variants, hs, j, i, h => by
    have hencode : (Shape.choice variants).encode i = .str (variants.get i) :=
      Shape.encode.eq_def _ _
    refine ⟨?_, fun he => by rw [hencode] at he; cases he⟩
    rw [hencode, Shape.decode.eq_def]
    simp only [Shape.decodeChoice, Shape.decodeVariant, Shape.variantAt?_get hs i]
    rfl
  | .record name fields, hs, j, vs, h => by
    have hencode : (Shape.record name fields).encode vs = Json.object (fields.members vs) :=
      Shape.encode.eq_def _ _
    have hrestored := Fields.restored_of_sourced fields hs.2 vs (Shape.sourced_of_decode hs.1 h)
    refine ⟨?_, fun he => by rw [hencode] at he; cases he⟩
    rw [hencode]
    exact Shape.decode_object_members hs.1 hrestored

/-- Values that were decoded can be read again, from their absence where they are left out. -/
theorem Fields.restored_of_sourced : (fields : Fields) → fields.Faithful → (vs : fields.Values) →
    fields.Sourced vs → fields.Restored vs
  | .nil, _, _, _ => trivial
  | .cons f s rest, ⟨hf, hs, hrest⟩, (v, vs), ⟨⟨j, hj⟩, hvs⟩ => by
    obtain ⟨hread, -⟩ := Shape.rereads_of_decode s hs j v hj
    refine ⟨hread, fun homit hnull => ?_, Fields.restored_of_sourced rest hrest vs hvs⟩
    rw [hf.absent homit, ← hnull]
    exact hread

end

/-! ## 4. The types that are kept as JSON -/

/-- The types of the library whose values are written as JSON and read again. -/
inductive Recorded : (α : Type) → [Shaped α] → Prop where
  | sessionState : Recorded SessionState
  | toolCategory : Recorded ToolCategory
  | precondition : Recorded Precondition
  | transition : Recorded Transition
  | sessionInfo : Recorded SessionInfo
  | projectInfo : Recorded ProjectInfo
  | blockInfo : Recorded BlockInfo
  | exportedBlock : Recorded ExportedBlock
  | importedBlock : Recorded ImportedBlock
  | itemError : Recorded ItemError
  | batchSummary : Recorded BatchSummary
  | exportReport : Recorded ExportReport
  | importReport : Recorded ImportReport
  | responseEnvelope : Recorded ResponseEnvelope
  | sessionConfig : Recorded SessionConfig
  | loggingConfig : Recorded LoggingConfig

/-- **All of them have faithful shapes.** -/
theorem Recorded.faithful {α : Type} [Shaped α] (h : Recorded α) : (Shaped.shape α).Faithful := by
  cases h <;> decide

/-- A value of a faithful shape is encoded so that it decodes to the same. -/
theorem decode_encode_of_decode {α : Type} [Shaped α] (hs : (Shaped.shape α).Faithful) {j : Json}
    {a : α} (h : decode α j = .ok a) : decode α (encode a) = .ok a :=
  decode_eq_ok_iff.mpr (Shape.rereads_of_decode _ hs j _ (decode_eq_ok_iff.mp h)).read

/-- What a JSON value comes to when it is read and written again. -/
def rewritten (α : Type) [Shaped α] (j : Json) : Except Mismatch Json :=
  match decode α j with
  | .ok a => .ok (encode a)
  | .error m => .error m

/-- **Nothing is lost when a value is written**: it is read as the same value again, and what it was
written as is not changed by another reading. -/
theorem decode_encode_of_recorded {α : Type} [Shaped α] (hα : Recorded α) {j : Json} {a : α}
    (h : decode α j = .ok a) :
    decode α (encode a) = .ok a ∧ rewritten α j = .ok (encode a) ∧
      rewritten α (encode a) = .ok (encode a) := by
  have hread := decode_encode_of_decode hα.faithful h
  exact ⟨hread, by rw [rewritten, h], by rw [rewritten, hread]⟩

/-- A session given as a list, with a state given as an object and times in other offsets, and
without metadata. -/
def spelledSession : Json :=
  .arr [.str "first", .obj [("resource_attached", .null)], .str "plant",
    .str "2024-03-01t00:30:00.5+02:00", .str "2023-12-31 23:59:60-0000", .nat 1, .nat 0, .bool false,
    .nat 2]

theorem decode_encode_spelledSession : ∃ i : SessionInfo,
    decode SessionInfo spelledSession = .ok i ∧ decode SessionInfo (encode i) = .ok i ∧
      i.state = .resourceAttached ∧ i.createdAt.text = "2024-02-29T22:30:00.500Z" ∧
      i.lastActivity.text = "2023-12-31T23:59:60Z" ∧ i.metadata = [] :=
  ⟨_, rfl, (decode_encode_of_recorded .sessionInfo (j := spelledSession) rfl).1, rfl, by decide,
    by decide, rfl⟩

end Workbench
