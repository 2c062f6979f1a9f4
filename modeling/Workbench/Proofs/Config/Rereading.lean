import Workbench.CommandLine.Program
import Workbench.Proofs.Config.Layers
import Workbench.Proofs.Files.Home
import Workbench.Proofs.Shape.Spelled
import Workbench.Proofs.Text.Words

/-!
# Settings that are read as they were written

Settings that come of a document are a fixed point of all that is done to a document: no limit is
zero, the level is in lower case, the home directory has been put in, and the numbers fit.  What
they are written as in the flat layout gives the same settings again.

* `Config.Tells`: what settings are written as, with the members of each object in any order;
* `Config.Settled`: what settings have that come of a document (`Config.settled_of_parse`);
* `Config.parse_of_tells`: **settled settings are read from every text of what they are written
  as**;
* `Config.rereads_of_parse`: the statement about documents, and about what the server is given.
-/

namespace Workbench

/-! ## 1. What settings are written as -/

/-- The value is an object with the members that the record is written as, in any order. -/
def Tells {α : Type} [Shaped α] (a : α) (j : Json) : Prop :=
  match Shaped.shape α, Shaped.toValue a with
  | .record _ fields, vs => ∃ members, j = .obj members ∧ members.Perm (fields.members vs)
  | s, v => j = s.encode v

theorem SessionConfig.denotes {c : SessionConfig} (h : c.Fits) {j : Json} (hj : Tells c j) :
    (Shaped.shape SessionConfig).Denotes j (Shaped.toValue c) 1 := by
  obtain ⟨members, rfl, hperm⟩ := hj
  refine Shape.denotes_members (by decide) ?_ hperm
  exact ⟨Shape.denotes_natural _ (h .maxConcurrent), Shape.denotes_natural _ (h .idleTimeoutSecs),
    Shape.denotes_natural _ (h .sweepIntervalSecs), Shape.denotes_natural _ (h .callTimeoutSecs),
    Shape.denotes_natural _ (h .releaseTimeoutSecs), Shape.denotes_natural _ (h .maxQueueDepth),
    trivial⟩

theorem LoggingConfig.denotes (c : LoggingConfig) {j : Json} (hj : Tells c j) :
    (Shaped.shape LoggingConfig).Denotes j (Shaped.toValue c) 1 := by
  obtain ⟨members, rfl, hperm⟩ := hj
  refine Shape.denotes_members (by decide) ?_ hperm
  exact ⟨Shape.denotes_text _, trivial⟩

namespace Config

/-- The value is the document of the settings in the flat layout, with the members of each object in
any order. -/
def Tells (c : Config) (j : Json) : Prop :=
  ∃ session logging members, Workbench.Tells c.session session ∧
    Workbench.Tells c.logging logging ∧ j = .obj members ∧
    members.Perm
      [("session", session), ("export_path", .str c.exportPath.text), ("logging", logging)]

/-- The document of the settings, with the members in the order of the fields. -/
def documentInOrder (c : Config) : Json :=
  .obj [("session", (Shaped.shape SessionConfig).encodeInOrder (Shaped.toValue c.session)),
    ("export_path", .str c.exportPath.text),
    ("logging", (Shaped.shape LoggingConfig).encodeInOrder (Shaped.toValue c.logging))]

/-- The file of the document. -/
def flatFile (c : Config) : ConfigFile :=
  ⟨some c.session, some c.exportPath.text, some c.logging, none, none⟩

theorem denotes_flatFile {c : Config} (h : c.session.Fits) {j : Json} (hj : c.Tells j) :
    (Shaped.shape ConfigFile).Denotes j (Shaped.toValue c.flatFile) 2 := by
  obtain ⟨session, logging, members, hsession, hlogging, rfl, hperm⟩ := hj
  have hsession := (c.session.denotes h hsession).option
  have hpath := (Shape.denotes_text c.exportPath.text).option
  have hlogging := (c.logging.denotes hlogging).option
  refine Shape.denotes_record (by decide) (Fields.Stand.perm hperm.symm ?_) ?_
  · exact ⟨hsession.decode, hpath.decode, hlogging.decode, Shape.decode_option_null _,
      Shape.decode_option_null _, trivial⟩
  · intro m hm
    have hm := hperm.mem_iff.mp hm
    simp only [List.mem_cons, List.not_mem_nil, or_false] at hm
    rcases hm with rfl | rfl | rfl
    · exact Fields.admits_own (by decide) hsession
    · exact (Fields.admits_own (by decide) (hpath.mono (Nat.zero_le 1))).later (by decide)
    · exact ((Fields.admits_own (by decide) hlogging).later (by decide)).later (by decide)

/-- With its members in the order of their keys it is a document of the settings. -/
theorem tells_document (c : Config) : c.Tells c.document := by
  refine ⟨encode c.session, encode c.logging, _, ⟨_, rfl, ?_⟩, ⟨_, rfl, ?_⟩, rfl, ?_⟩
  · exact Json.sortMembers_perm (Fields.nodup_keys_members (by decide) _)
  · exact Json.sortMembers_perm (Fields.nodup_keys_members (by decide) _)
  · refine Json.sortMembers_perm ?_
    show ["session", "export_path", "logging"].Nodup
    decide

/-- So it is with its members in the order of the fields. -/
theorem tells_documentInOrder (c : Config) : c.Tells c.documentInOrder :=
  ⟨_, _, _, ⟨_, rfl, List.Perm.refl _⟩, ⟨_, rfl, List.Perm.refl _⟩, rfl, List.Perm.refl _⟩

end Config

/-! ## 2. Settings that come of a document -/

namespace Config

/-- The limits that must not be zero are not, exactly if the settings pass. -/
theorem validate_eq_ok_iff {c : Config} : c.validate = .ok () ↔
    c.session.maxConcurrent ≠ 0 ∧ c.session.sweepIntervalSecs ≠ 0 ∧
      c.session.callTimeoutSecs ≠ 0 := by
  unfold validate
  split
  · rename_i h
    exact iff_of_false nofun fun hn => hn.1 (beq_iff_eq.mp h)
  · rename_i hsessions
    split
    · rename_i h
      exact iff_of_false nofun fun hn => hn.2.1 (beq_iff_eq.mp h)
    · rename_i hsweeps
      split
      · rename_i h
        exact iff_of_false nofun fun hn => hn.2.2 (beq_iff_eq.mp h)
      · rename_i hcalls
        exact iff_of_true rfl ⟨fun h => hsessions (beq_iff_eq.mpr h),
          fun h => hsweeps (beq_iff_eq.mpr h), fun h => hcalls (beq_iff_eq.mpr h)⟩

/-- What all that is done to a document leaves alone. -/
structure Settled (home : Option String) (c : Config) : Prop where
  valid : c.validate = .ok ()
  fits : c.session.Fits
  path : Path.expandHome home c.exportPath.text = c.exportPath
  level : Text.asciiLower c.logging.level = c.logging.level

theorem fits_standard : SessionConfig.standard.Fits := by
  intro k
  cases k <;> decide

/-- The path that is chosen has the home directory put in. -/
theorem expandHome_chosen {home : Option String} (hhome : ∀ h ∈ home, Path.IsHome h)
    (given : Option String) :
    Path.expandHome home ((given.map (Path.expandHome home)).getD standardExportPath).text =
      (given.map (Path.expandHome home)).getD standardExportPath := by
  cases given with
  | some p => exact Path.expandHome_text hhome p
  | none =>
    show Path.expandHome home (Path.ofString "./exports").text = Path.ofString "./exports"
    rw [Path.text_ofString, Path.expandHome_of_head (by decide)]

/-- **Settings that come of a document are settled.** -/
theorem settled_of_parse {home : Option String} (hhome : ∀ h ∈ home, Path.IsHome h)
    {text : String} {c : Config} (h : parse home text = .ok c) : c.Settled home := by
  obtain ⟨file, hfile, rfl, hvalid⟩ := parse_eq_ok h
  obtain ⟨d, -, -, hflat, hnested⟩ := mirrored_documentKeys.readText hfile
  refine ⟨hvalid, ?_, expandHome_chosen hhome _, Text.asciiLower_asciiLower _⟩
  · obtain ⟨session, exportPath, logging, settings, paths⟩ := file
    cases session with
    | some s => exact hflat s rfl
    | none =>
      cases settings with
      | none => exact fits_standard
      | some settings =>
        obtain ⟨nested, _⟩ := settings
        cases nested with
        | none => exact fits_standard
        | some s => exact hnested _ rfl s rfl

/-- **Settled settings are read from every text of what they are written as.** -/
theorem parse_of_tells {home : Option String} {c : Config} (h : c.Settled home) {j : Json}
    (hj : c.Tells j) {text : String} (htext : j.Spells text.toList) :
    parse home text = .ok c := by
  have hread : readText ConfigFile text = .ok c.flatFile :=
    readText_of_spells ((denotes_flatFile h.fits hj).mono (by decide)) htext
  have hfile : ofFile home c.flatFile = c := by
    show Config.mk c.session (Path.expandHome home c.exportPath.text)
      ⟨Text.asciiLower c.logging.level⟩ = c
    rw [h.path, h.level]
  simp only [parse, parseAt, hread, hfile, h.valid]

/-- The printers write such texts. -/
theorem parse_printed {home : Option String} {c : Config} (h : c.Settled home) {j : Json}
    (hj : c.Tells j) : parse home j.compact = .ok c ∧ parse home j.pretty = .ok c := by
  have hwhole : j.Whole := (denotes_flatFile h.fits hj).whole
  refine ⟨parse_of_tells h hj ?_, parse_of_tells h hj ?_⟩
  · rw [Json.compact, String.toList_ofList]
    exact Json.spells_compact j hwhole
  · rw [Json.pretty, String.toList_ofList]
    exact Json.spells_pretty j 0 hwhole

end Config

/-! ## 3. The server -/

/-- No limit of the engine is zero that must not be. -/
structure Engine.Limited {ρ : Type} (e : Engine ρ) : Prop where
  sessions : e.registry.settings.maxConcurrent ≠ 0
  sweeps : e.registry.settings.sweepInterval.isZero = false
  calls : e.callTimeout.isZero = false

theorem Duration.isZero_ofSeconds {n : Nat} (h : n ≠ 0) : (ofSeconds n).isZero = false := by
  simp only [isZero, ofSeconds, beq_eq_false_iff_ne]
  omega

/-- **A server that waits for requests has no limit that is zero**, whatever flags it was given. -/
theorem Program.limited_of_withConfig {c : Config} {disk : Disk} {ids : Nat → String} {now : Nat}
    {command : Command} {h : Host Workspace Disk}
    (hserving : withConfig c disk ids now command = .serving h) : h.engine.Limited := by
  cases command with
  | probe path name => cases hserving
  | serve flags =>
    simp only [withConfig] at hserving
    split at hserving <;> cases hserving
    rename_i hvalid
    obtain ⟨hsessions, hsweeps, hcalls⟩ := Config.validate_eq_ok_iff.mp hvalid
    exact ⟨hsessions, Duration.isZero_ofSeconds hsweeps, Duration.isZero_ofSeconds hcalls⟩

/-! ## 4. Documents -/

namespace Config

/-- **What is read of a document can be written and read again.**  The settings pass; neither they
nor the flags of the command line bring a limit of zero to the server; and each text of what they
are written as in the flat layout is accepted and gives the same settings. -/
theorem rereads_of_parse {home : Option String} (hhome : ∀ h ∈ home, Path.IsHome h)
    {text : String} {c : Config} (h : parse home text = .ok c) :
    c.validate = .ok () ∧
    (c.session.maxConcurrent ≠ 0 ∧ c.session.sweepIntervalSecs ≠ 0 ∧
      c.session.callTimeoutSecs ≠ 0) ∧
    (∀ disk ids now command server,
      Program.withConfig c disk ids now command = .serving server → server.engine.Limited) ∧
    (∀ j text', c.Tells j → j.Spells text'.toList → parse home text' = .ok c) ∧
    ∀ j ∈ [c.document, c.documentInOrder],
      parse home j.compact = .ok c ∧ parse home j.pretty = .ok c := by
  have hsettled := settled_of_parse hhome h
  refine ⟨hsettled.valid, validate_eq_ok_iff.mp hsettled.valid,
    fun _ _ _ _ _ hserving => Program.limited_of_withConfig hserving,
    fun _ _ hj htext => parse_of_tells hsettled hj htext, fun j hj => ?_⟩
  rcases List.mem_cons.mp hj with rfl | hj
  · exact parse_printed hsettled c.tells_document
  · obtain rfl := List.mem_singleton.mp hj
    exact parse_printed hsettled c.tells_documentInOrder

/-- A document with both layouts and a path in the home directory. -/
def homeText : String :=
  "\x7b\"export_path\": \"~/exports\", \"logging\": \x7b\"level\": \"DEBUG\"\x7d, " ++
    "\"settings\": \x7b\"session\": \x7b\"timeout_seconds\": 900\x7d\x7d\x7d"

theorem rereads_homeText :
    let home := some "/home/op"
    let c : Config :=
      ⟨⟨3, 900, 300, 120, 30, 64⟩, ⟨["", "home", "op", "exports"]⟩, ⟨"debug"⟩⟩
    (∀ h ∈ home, Path.IsHome h) ∧ parse home homeText = .ok c ∧ c.validate = .ok () ∧
      parse home c.document.compact = .ok c ∧ parse home c.documentInOrder.pretty = .ok c := by
  intro home c
  have hhome : ∀ h ∈ home, Path.IsHome h := by
    intro h hh
    obtain rfl : "/home/op" = h := Option.some.inj hh
    decide
  have hparse : parse home homeText = .ok c := eq_ok_of_toOption (by decide +kernel)
  obtain ⟨hvalid, -, -, -, hprinted⟩ := rereads_of_parse hhome hparse
  exact ⟨hhome, hparse, hvalid, (hprinted _ List.mem_cons_self).1,
    (hprinted _ (List.mem_cons_of_mem _ List.mem_cons_self)).2⟩

end Config
end Workbench
