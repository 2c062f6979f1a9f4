import Workbench.Proofs.Json.Rereading
import Workbench.Proofs.Shape.Decoding
import Workbench.Tool.Envelope

/-!
# Envelopes that are read again

A caller gets the text of an envelope and a mark whether the call failed.  `ofToolResult?` is what
the caller makes of the text: it is parsed as JSON and decoded as an envelope.  What comes out is
the envelope that was sent (`reread_toolResult`): null data and errors that are not there are left
out of the text and come back from their absence.

The text holds the members in the order of the fields, and a parsed object holds them in the order
of their keys; so parsing gives `Shape.encode` where `Shape.encodeInOrder` was written
(`parse_encodeInOrder`).
-/

namespace Workbench

/-! ## 1. Records -/

/-- The values of fields are written as values that can be read again. -/
def Fields.Readable : (fields : Fields) → fields.Values → Prop
  | .nil, _ => True
  | .cons _ s rest, (v, vs) => (s.encode v).Readable ∧ rest.Readable vs

theorem Fields.Readable.of_mem {m : String × Json} : {fields : Fields} → {vs : fields.Values} →
    fields.Readable vs → m ∈ fields.members vs → m.2.Readable
  | .cons f s rest, (v, vs), ⟨hv, hvs⟩, hm => by
    simp only [Fields.members] at hm
    split at hm
    · exact of_mem hvs hm
    · rcases List.mem_cons.mp hm with rfl | hm
      · exact hv
      · exact of_mem hvs hm

/-- **The text of a record is parsed as the JSON value that stands for the record.** -/
theorem Shape.parse_encodeInOrder {name : String} {fields : Fields} {vs : fields.Values}
    (h : fields.Readable vs) :
    Json.parse ((Shape.record name fields).encodeInOrder vs).pretty =
      .ok ((Shape.record name fields).encode vs) := by
  have hdepth : Json.depthMembers (fields.members vs) ≤ Json.maxDepth - 1 :=
    Json.depthMembers_le_of_forall fun m hm => Nat.le_pred_of_lt (h.of_mem hm).depth
  have hencode : (Shape.record name fields).encode vs = Json.object (fields.members vs) :=
    Shape.encode.eq_def _ _
  rw [hencode]
  exact Json.parse_pretty_obj (Json.sortedMembers_of_forall fun m hm => (h.of_mem hm).sorted)
    (Json.wholeMembers_of_forall fun m hm => (h.of_mem hm).whole)
    (Nat.lt_of_le_of_lt hdepth (by decide))

/-- A text that may be absent is read as it was written. -/
theorem Shape.decode_encode_optionText (v : Option String) :
    (Shape.option .text).decode ((Shape.option .text).encode v) = .ok v := by
  cases v with
  | none => exact Shape.decode_option_null .text
  | some s =>
    have hne : Json.str s ≠ .null := nofun
    exact (Shape.decode_option_eq_ok_iff hne).mpr ⟨s, rfl, Shape.decode_text_eq_ok_iff.mpr rfl⟩

theorem readable_encode_optionText (v : Option String) :
    ((Shape.option .text).encode v).Readable := by
  cases v with
  | none => exact Json.readable_null
  | some s => exact Json.readable_str s

/-! ## 2. Envelopes -/

namespace ResponseEnvelope

/-- The fields of an envelope. -/
def fields : Fields := .ofList
  [(.plain "success", .flag), (.plain "message", .text), (.trailing "data", .any),
    (.trailing "error", .option .text), (.trailing "error_code", .option .text)]

theorem readable_fields {e : ResponseEnvelope} (h : e.data.Readable) :
    fields.Readable (Shaped.toValue e) :=
  ⟨Json.readable_bool _, Json.readable_str _, h, readable_encode_optionText _,
    readable_encode_optionText _, trivial⟩

/-- What is left out of the text of an envelope comes back from its absence. -/
theorem restored_fields (e : ResponseEnvelope) : fields.Restored (Shaped.toValue e) := by
  have habsent (name : String) (v : Option String) (hnull : (Shape.option .text).encode v = .null) :
      (Field.trailing name).absent (fun j => (Shape.option .text).decode j) = .ok v := by
    show (Shape.option .text).decode .null = .ok v
    rw [← hnull]
    exact Shape.decode_encode_optionText v
  refine ⟨Shape.decode_flag_eq_ok_iff.mpr rfl, nofun, Shape.decode_text_eq_ok_iff.mpr rfl, nofun,
    Shape.decode_any _, fun _ hnull => ?_, Shape.decode_encode_optionText _,
    fun _ hnull => habsent "error" _ hnull, Shape.decode_encode_optionText _,
    fun _ hnull => habsent "error_code" _ hnull, trivial⟩
  have hdata : e.data = .null := hnull
  show Shape.any.decode .null = .ok e.data
  rw [hdata]
  exact Shape.decode_any .null

theorem decode_encode (e : ResponseEnvelope) : decode ResponseEnvelope (encode e) = .ok e := by
  have hdis : fields.Distinct := by decide
  exact decode_eq_ok_iff.mpr (Shape.decode_object_members hdis (restored_fields e))

/-- What a caller makes of the text of a result: it is parsed and decoded. -/
def ofText? (text : String) : Option ResponseEnvelope :=
  match Json.parse text with
  | .error _ => none
  | .ok j => (decode ResponseEnvelope j).toOption

/-- The only text in the content of a result. -/
def contentText? (result : Json) : Option String :=
  match result.get? "content" with
  | some (.arr [content]) => (content.get? "text").bind Json.str?
  | _ => none

/-- What a caller makes of a result. -/
def ofToolResult? (result : Json) : Option ResponseEnvelope := (contentText? result).bind ofText?

theorem ofText?_text {e : ResponseEnvelope} (h : e.data.Readable) : ofText? e.text = some e := by
  have hparse : Json.parse e.text = .ok (encode e) :=
    Shape.parse_encodeInOrder (readable_fields h)
  simp only [ofText?, hparse, decode_encode]
  rfl

theorem get?_toolResult (e : ResponseEnvelope) (key : String) :
    e.toolResult.get? key = Json.lookup key
      [("content", .arr [Json.object [("type", .str "text"), ("text", .str e.text)]]),
        ("isError", .bool (!e.success))] := by
  refine Json.get?_object ?_ key
  show ["content", "isError"].Nodup
  decide

theorem contentText?_toolResult (e : ResponseEnvelope) :
    contentText? e.toolResult = some e.text := by
  have hcontent : e.toolResult.get? "content" =
      some (.arr [Json.object [("type", .str "text"), ("text", .str e.text)]]) :=
    get?_toolResult e "content"
  have htext : (Json.object [("type", .str "text"), ("text", .str e.text)]).get? "text" =
      some (.str e.text) := by
    refine Json.get?_object ?_ "text"
    show ["type", "text"].Nodup
    decide
  simp only [contentText?, hcontent, htext]
  rfl

/-- **The result of a call tells its envelope.**  If the numbers in the data are integers of 64 bits
and the text is not nested deeper than can be read, the envelope that is read from the result is the
one that was sent, and the result is marked as an error exactly if the envelope is no success. -/
theorem reread_toolResult (e : ResponseEnvelope) (hsorted : e.data.Sorted) (hwhole : e.data.Whole)
    (hdepth : e.data.depth < Json.maxDepth) :
    ofToolResult? e.toolResult = some e ∧
      e.toolResult.get? "isError" = some (.bool (!e.success)) := by
  have hreadable : e.data.Readable := ⟨hsorted, hwhole, hdepth⟩
  refine ⟨?_, get?_toolResult e "isError"⟩
  rw [ofToolResult?, contentText?_toolResult, Option.bind_some]
  exact ofText?_text hreadable

/-- Data with both ends of the integers, characters that are escaped and characters of more than one
byte, empty containers and a null inside. -/
def sampleData : Json :=
  .obj [("", .obj []), ("bounds", .arr [Json.int (-2 ^ 63), Json.int (2 ^ 64 - 1)]),
    ("tab\t\"quote\"", .arr [.null, .arr [], .str "\\ \u0000 \u001f \u007f né €"])]

/-- The envelope of a success with such data is read again as it was. -/
theorem reread_sampleData :
    ofToolResult? (ok "done" sampleData).toolResult = some (ok "done" sampleData) ∧
      (ok "done" sampleData).toolResult.get? "isError" = some (.bool false) :=
  reread_toolResult (ok "done" sampleData)
    ⟨by decide, ⟨List.Pairwise.nil, trivial⟩, ⟨trivial, trivial, trivial⟩,
      ⟨trivial, trivial, trivial, trivial⟩, trivial⟩
    ⟨trivial,
      ⟨show Json.IsWhole (-2 ^ 63) by decide, show Json.IsWhole (2 ^ 64 - 1) by decide, trivial⟩,
      ⟨trivial, trivial, trivial, trivial⟩, trivial⟩
    (by decide)

end ResponseEnvelope
end Workbench
