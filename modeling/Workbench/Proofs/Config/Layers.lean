import Workbench.Config.Load
import Workbench.Proofs.Shape.Mirroring

/-!
# Where settings come from

A document can give a setting in two layouts, and the command line can give it as well.  The
document is read here once more, with nothing filled in (`DocumentKeys`): that tells which keys it
has in which layout.

* `DocumentKeys.bySection` takes a setting from the flat section if there is one, and from the
  nested section only otherwise; `DocumentKeys.keyByKey` asks the flat layout and then the nested
  one for each setting on its own;
* `Config.draws_of_parse`: **settings are taken section by section**, and that is the same as key by
  key unless a flat section hides a nested key that it does not have itself
  (`DocumentKeys.Hides`).
-/

namespace Workbench

/-! ## 1. Keys -/

/-- The settings of a section for sessions. -/
inductive SessionKey where
  | maxConcurrent
  | idleTimeoutSecs
  | sweepIntervalSecs
  | callTimeoutSecs
  | releaseTimeoutSecs
  | maxQueueDepth
  deriving DecidableEq, Repr

/-- The value of a setting. -/
def SessionConfig.value (c : SessionConfig) : SessionKey → Nat
  | .maxConcurrent => c.maxConcurrent
  | .idleTimeoutSecs => c.idleTimeoutSecs
  | .sweepIntervalSecs => c.sweepIntervalSecs
  | .callTimeoutSecs => c.callTimeoutSecs
  | .releaseTimeoutSecs => c.releaseTimeoutSecs
  | .maxQueueDepth => c.maxQueueDepth

/-- The value that the command line gives to a setting. -/
def ServeFlags.value? (flags : ServeFlags) : SessionKey → Option Nat
  | .maxConcurrent => flags.maxSessions
  | .idleTimeoutSecs => flags.idleTimeoutSecs
  | .sweepIntervalSecs => flags.sweepIntervalSecs
  | .callTimeoutSecs => flags.callTimeoutSecs
  | .releaseTimeoutSecs | .maxQueueDepth => Option.none

/-- The keys that a section for sessions has, with their values. -/
structure SessionKeys where
  value? : SessionKey → Option Nat

instance : Shaped SessionKeys where
  shape := (Shaped.shape SessionConfig).keys
  toValue s := (s.value? .maxConcurrent, s.value? .idleTimeoutSecs, s.value? .sweepIntervalSecs,
    s.value? .callTimeoutSecs, s.value? .releaseTimeoutSecs, s.value? .maxQueueDepth, ())
  ofValue v := ⟨fun
    | .maxConcurrent => v.1
    | .idleTimeoutSecs => v.2.1
    | .sweepIntervalSecs => v.2.2.1
    | .callTimeoutSecs => v.2.2.2.1
    | .releaseTimeoutSecs => v.2.2.2.2.1
    | .maxQueueDepth => v.2.2.2.2.2.1⟩
  ofValue_toValue s := by
    obtain ⟨value?⟩ := s
    congr 1
    funext k
    cases k <;> rfl
  toValue_ofValue _ := rfl

namespace SessionKeys

/-- The section with what holds where it has no key. -/
def completed (s : SessionKeys) : SessionConfig where
  maxConcurrent := (s.value? .maxConcurrent).getD SessionConfig.standard.maxConcurrent
  idleTimeoutSecs := (s.value? .idleTimeoutSecs).getD SessionConfig.standard.idleTimeoutSecs
  sweepIntervalSecs := (s.value? .sweepIntervalSecs).getD SessionConfig.standard.sweepIntervalSecs
  callTimeoutSecs := (s.value? .callTimeoutSecs).getD SessionConfig.standard.callTimeoutSecs
  releaseTimeoutSecs :=
    (s.value? .releaseTimeoutSecs).getD SessionConfig.standard.releaseTimeoutSecs
  maxQueueDepth := (s.value? .maxQueueDepth).getD SessionConfig.standard.maxQueueDepth

theorem value_completed (s : SessionKeys) (k : SessionKey) :
    s.completed.value k = (s.value? k).getD (SessionConfig.standard.value k) := by
  cases k <;> rfl

end SessionKeys

/-- The key that a section for the log has, with its value. -/
structure LoggingKeys where
  level : Option String

instance : Shaped LoggingKeys where
  shape := (Shaped.shape LoggingConfig).keys
  toValue s := (s.level, ())
  ofValue v := ⟨v.1⟩
  ofValue_toValue _ := rfl
  toValue_ofValue _ := rfl

/-- The section with what holds where it has no key. -/
def LoggingKeys.completed (s : LoggingKeys) : LoggingConfig :=
  ⟨s.level.getD LoggingConfig.standard.level⟩

/-- The keys of the nested sections. -/
structure NestedKeys where
  session : Option SessionKeys
  logging : Option LoggingKeys

instance : Shaped NestedKeys where
  shape := .record "NestedSettings" (.ofList
    [(Field.section "session", .option (Shaped.shape SessionKeys)),
      (Field.section "logging", .option (Shaped.shape LoggingKeys))])
  toValue c := (c.session.map Shaped.toValue, c.logging.map Shaped.toValue, ())
  ofValue v := ⟨Option.map (fun x => Shaped.ofValue x) v.1,
    Option.map (fun x => Shaped.ofValue x) v.2.1⟩
  ofValue_toValue c := by simp only [Shaped.optionMap_ofValue_toValue]
  toValue_ofValue v := Prod.ext (Shaped.optionMap_toValue_ofValue v.1)
    (Prod.ext (Shaped.optionMap_toValue_ofValue v.2.1) rfl)

def NestedKeys.completed (s : NestedKeys) : NestedSettings :=
  ⟨s.session.map (·.completed), s.logging.map (·.completed)⟩

/-- The keys that a document has, in both layouts.  A section or a path that is null counts as one
that is not there. -/
structure DocumentKeys where
  session : Option SessionKeys
  exportPath : Option String
  logging : Option LoggingKeys
  settings : Option NestedKeys
  paths : Option NestedPaths

instance : Shaped DocumentKeys where
  shape := .record "ConfigFile" (.ofList
    [(Field.section "session", .option (Shaped.shape SessionKeys)),
      (Field.section "export_path", .option .text),
      (Field.section "logging", .option (Shaped.shape LoggingKeys)),
      (Field.section "settings", .option (Shaped.shape NestedKeys)),
      (Field.section "paths", .option (Shaped.shape NestedPaths))])
  toValue c := (c.session.map Shaped.toValue, c.exportPath, c.logging.map Shaped.toValue,
    c.settings.map Shaped.toValue, c.paths.map Shaped.toValue, ())
  ofValue v := ⟨Option.map (fun x => Shaped.ofValue x) v.1, v.2.1,
    Option.map (fun x => Shaped.ofValue x) v.2.2.1,
    Option.map (fun x => Shaped.ofValue x) v.2.2.2.1,
    Option.map (fun x => Shaped.ofValue x) v.2.2.2.2.1⟩
  ofValue_toValue c := by simp only [Shaped.optionMap_ofValue_toValue]
  toValue_ofValue v := Prod.ext (Shaped.optionMap_toValue_ofValue v.1)
    (Prod.ext rfl (Prod.ext (Shaped.optionMap_toValue_ofValue v.2.2.1)
      (Prod.ext (Shaped.optionMap_toValue_ofValue v.2.2.2.1)
        (Prod.ext (Shaped.optionMap_toValue_ofValue v.2.2.2.2.1) rfl))))

/-- The document with what holds where it has no key. -/
def DocumentKeys.completed (d : DocumentKeys) : ConfigFile :=
  ⟨d.session.map (·.completed), d.exportPath, d.logging.map (·.completed),
    d.settings.map (·.completed), d.paths⟩

/-! ## 2. What is read of a document -/

/-- All values fit into 64 bits. -/
def SessionConfig.Fits (c : SessionConfig) : Prop := ∀ k, c.value k < 2 ^ 64

/-- Numbers that were read fit. -/
theorem Field.Completes.fits {f : Field} {kind : NaturalKind} {n : Nat} {given : Option Nat}
    (h : f.Completes (fun j => (Shape.natural kind).decode j) n given) : n < 2 ^ 64 := by
  obtain ⟨j, hj⟩ := h.source
  exact (Shape.decode_natural_eq_ok_iff.mp hj).2

theorem mirrored_sessionKeys :
    Mirrored SessionConfig SessionKeys fun c s => c = s.completed ∧ c.Fits := by
  refine (Shape.mirrors_keys "SessionConfig" ?_).mono ?_
  · exact ⟨⟨_, rfl⟩, Shape.bare_natural _, ⟨_, rfl⟩, Shape.bare_natural _, ⟨_, rfl⟩,
      Shape.bare_natural _, ⟨_, rfl⟩, Shape.bare_natural _, ⟨_, rfl⟩, Shape.bare_natural _,
      ⟨_, rfl⟩, Shape.bare_natural _, trivial⟩
  · rintro ⟨a, b, c, d, e, f, _⟩ w ⟨h₁, h₂, h₃, h₄, h₅, h₆, -⟩
    refine ⟨?_, ?_⟩
    · obtain rfl : a = _ := h₁.eq_getD rfl
      obtain rfl : b = _ := h₂.eq_getD rfl
      obtain rfl : c = _ := h₃.eq_getD rfl
      obtain rfl : d = _ := h₄.eq_getD rfl
      obtain rfl : e = _ := h₅.eq_getD rfl
      obtain rfl : f = _ := h₆.eq_getD rfl
      rfl
    · rintro (_ | _ | _ | _ | _ | _)
      exacts [h₁.fits, h₂.fits, h₃.fits, h₄.fits, h₅.fits, h₆.fits]

theorem mirrored_loggingKeys : Mirrored LoggingConfig LoggingKeys fun c s => c = s.completed := by
  refine (Shape.mirrors_keys "LoggingConfig" ?_).mono ?_
  · exact ⟨⟨_, rfl⟩, Shape.bare_text, trivial⟩
  · rintro v w ⟨h, -⟩
    exact congrArg LoggingConfig.mk (h.eq_getD rfl)

theorem mirrored_nestedKeys :
    Mirrored NestedSettings NestedKeys fun n s => n = s.completed ∧ ∀ c ∈ n.session, c.Fits := by
  refine (Shape.Mirrors.record (.cons (Field.mirrors_section "session"
    mirrored_sessionKeys.option .none) (.cons (Field.mirrors_section "logging"
    mirrored_loggingKeys.option .none) .nil)) "NestedSettings" "NestedSettings").mono ?_
  rintro v w ⟨hsession, hlogging, -⟩
  have hsessionKeys := eq_map_of_rel (fun _ _ h => h.1) hsession
  have hloggingKeys := eq_map_of_rel (fun _ _ h => h) hlogging
  exact ⟨congr (congrArg NestedSettings.mk hsessionKeys) hloggingKeys,
    forall_mem_of_rel (fun _ _ h => h.2) hsession⟩

/-- **A document is read with its keys**: what is read without them is what they are completed to,
and its numbers fit. -/
theorem mirrored_documentKeys : Mirrored ConfigFile DocumentKeys fun f d =>
    f = d.completed ∧ (∀ c ∈ f.session, c.Fits) ∧ ∀ n ∈ f.settings, ∀ c ∈ n.session, c.Fits := by
  refine (Shape.Mirrors.record (.cons (Field.mirrors_section "session"
    mirrored_sessionKeys.option .none) (.cons (Field.mirrors_section "export_path"
    (Shape.Mirrors.refl _) rfl) (.cons (Field.mirrors_section "logging"
    mirrored_loggingKeys.option .none) (.cons (Field.mirrors_section "settings"
    mirrored_nestedKeys.option .none) (.cons (Field.mirrors_section "paths"
    (Shape.Mirrors.refl _) rfl) .nil))))) "ConfigFile" "ConfigFile").mono ?_
  rintro ⟨session, exportPath, logging, settings, paths, _⟩
    ⟨session', exportPath', logging', settings', paths', _⟩
    ⟨hsession, hpath, hlogging, hsettings, hpaths, -⟩
  obtain rfl : exportPath' = exportPath := hpath
  obtain rfl : paths' = paths := hpaths
  have hsessionKeys := eq_map_of_rel (fun _ _ h => h.1) hsession
  have hloggingKeys := eq_map_of_rel (fun _ _ h => h) hlogging
  have hsettingsKeys := eq_map_of_rel (fun _ _ h => h.1) hsettings
  refine ⟨?_, forall_mem_of_rel (fun _ _ h => h.2) hsession,
    forall_mem_of_rel (fun _ _ h => h.2) hsettings⟩
  show ConfigFile.mk _ _ _ _ _ = ConfigFile.mk _ _ _ _ _
  congr 1

/-! ## 3. Layers -/

/-- What the settings are taken from, under the flags of the command line: a source for the settings
of sessions, one for the level of the log and one for the path. -/
structure Sources where
  session? : SessionKey → Option Nat
  level : Option String
  exportPath : Option String

namespace DocumentKeys

/-- What the flat layout has. -/
def flat (d : DocumentKeys) : Sources :=
  ⟨fun k => d.session.bind (·.value? k), d.logging.bind (·.level), d.exportPath⟩

/-- What the nested layout has. -/
def nested (d : DocumentKeys) : Sources :=
  ⟨fun k => (d.settings.bind (·.session)).bind (·.value? k),
    (d.settings.bind (·.logging)).bind (·.level),
    (d.paths.bind (·.projectDefaults)).bind (·.exportPath)⟩

/-- Each setting on its own: what the flat layout has counts, or else what the nested layout has. -/
def keyByKey (d : DocumentKeys) : Sources :=
  ⟨fun k => d.flat.session? k <|> d.nested.session? k, d.flat.level <|> d.nested.level,
    d.flat.exportPath <|> d.nested.exportPath⟩

/-- Each section as a whole: the flat one counts if it is there, or else the nested one. -/
def bySection (d : DocumentKeys) : Sources :=
  ⟨fun k => if d.session.isSome then d.flat.session? k else d.nested.session? k,
    if d.logging.isSome then d.flat.level else d.nested.level,
    d.flat.exportPath <|> d.nested.exportPath⟩

/-- A flat section hides a key that only the nested section has, and whose value would be another
one than that which holds where nothing is set. -/
def Hides (d : DocumentKeys) (flags : ServeFlags) : Prop :=
  (d.session.isSome ∧ ∃ k, flags.value? k = none ∧ d.flat.session? k = none ∧
    ∃ n ∈ d.nested.session? k, n ≠ SessionConfig.standard.value k) ∨
  (d.logging.isSome ∧ d.flat.level = none ∧
    ∃ level ∈ d.nested.level, Text.asciiLower level ≠ LoggingConfig.standard.level)

end DocumentKeys

/-- The settings are taken from flags, then from sources, and otherwise they are those that hold
where nothing is set. -/
structure Config.Draws (c : Config) (home : Option String) (flags : ServeFlags) (s : Sources) :
    Prop where
  session : ∀ k, c.session.value k =
    (flags.value? k).getD ((s.session? k).getD (SessionConfig.standard.value k))
  exportPath : c.exportPath =
    (s.exportPath.map (Path.expandHome home)).getD Config.standardExportPath
  level : c.logging.level =
    Text.asciiLower (s.level.getD LoggingConfig.standard.level)

theorem eq_ok_of_toOption {ε α : Type} {x : Except ε α} {a : α} (h : x.toOption = some a) :
    x = .ok a := by
  cases x with
  | error e => cases h
  | ok b =>
    cases h
    rfl

namespace Config

theorem value_withFlags (c : Config) (flags : ServeFlags) (k : SessionKey) :
    (c.withFlags flags).session.value k = (flags.value? k).getD (c.session.value k) := by
  cases k <;> rfl

/-- The settings of a document are taken from it section by section. -/
theorem draws_ofFile (home : Option String) (d : DocumentKeys) (flags : ServeFlags) :
    ((ofFile home d.completed).withFlags flags).Draws home flags d.bySection where
  session := by
    intro k
    rw [value_withFlags]
    congr 1
    obtain ⟨session, exportPath, logging, settings, paths⟩ := d
    cases session with
    | some s => exact s.value_completed k
    | none =>
      cases settings with
      | none => rfl
      | some settings =>
        obtain ⟨nested, -⟩ := settings
        cases nested with
        | none => rfl
        | some s => exact s.value_completed k
  exportPath := rfl
  level := by
    obtain ⟨session, exportPath, logging, settings, paths⟩ := d
    cases logging with
    | some s => rfl
    | none =>
      cases settings with
      | none => rfl
      | some settings =>
        obtain ⟨-, nested⟩ := settings
        cases nested <;> rfl

/-- A flat value that counts as a whole section comes to the same as one that counts for itself,
unless it hides another value. -/
theorem section_eq_key_iff {α β : Type} (f : α → β) {present : Bool} {flat nested : Option α}
    {standard : α} (habsent : present = false → flat = none) :
    f ((if present then flat else nested).getD standard) =
        f ((flat <|> nested).getD standard) ↔
      ¬ (present ∧ flat = none ∧ ∃ n ∈ nested, f n ≠ f standard) := by
  cases present with
  | false =>
    rw [habsent rfl]
    simp
  | true =>
    cases flat with
    | some n => simp
    | none =>
      cases nested with
      | none => simp
      | some n => simp [eq_comm]

theorem asciiLower_standard :
    Text.asciiLower LoggingConfig.standard.level = LoggingConfig.standard.level := by
  decide

/-- **Settings that are taken section by section are taken key by key, unless a section hides
one.** -/
theorem Draws.keyByKey_iff {c : Config} {home : Option String} {flags : ServeFlags}
    {d : DocumentKeys} (h : c.Draws home flags d.bySection) :
    c.Draws home flags d.keyByKey ↔ ¬ d.Hides flags := by
  have hsession (k : SessionKey) :
      c.session.value k = (flags.value? k).getD
          ((d.keyByKey.session? k).getD (SessionConfig.standard.value k)) ↔
        ¬ (d.session.isSome ∧ d.flat.session? k = none ∧ ∃ n ∈ d.nested.session? k,
          (flags.value? k).getD n ≠ (flags.value? k).getD (SessionConfig.standard.value k)) := by
    rw [h.session k]
    refine section_eq_key_iff (fun n => (flags.value? k).getD n) fun habsent => ?_
    rw [DocumentKeys.flat, Option.isSome_eq_false_iff.mp habsent |> Option.isNone_iff_eq_none.mp]
    rfl
  have hlevel :
      c.logging.level = Text.asciiLower (d.keyByKey.level.getD LoggingConfig.standard.level) ↔
        ¬ (d.logging.isSome ∧ d.flat.level = none ∧ ∃ level ∈ d.nested.level,
          Text.asciiLower level ≠ Text.asciiLower LoggingConfig.standard.level) := by
    rw [h.level]
    refine section_eq_key_iff Text.asciiLower fun habsent => ?_
    rw [DocumentKeys.flat, Option.isSome_eq_false_iff.mp habsent |> Option.isNone_iff_eq_none.mp]
    rfl
  constructor
  · rintro hd (⟨hpresent, k, hflag, hflat, n, hn, hne⟩ | ⟨hpresent, hflat, level, hl, hne⟩)
    · refine (hsession k).mp (hd.session k) ⟨hpresent, hflat, n, hn, ?_⟩
      rw [hflag]
      exact hne
    · refine hlevel.mp hd.level ⟨hpresent, hflat, level, hl, ?_⟩
      rw [asciiLower_standard]
      exact hne
  · refine fun hn => ⟨fun k => (hsession k).mpr ?_, h.exportPath, hlevel.mpr ?_⟩
    · rintro ⟨hpresent, hflat, n, hnested, hne⟩
      cases hflag : flags.value? k with
      | some m =>
        rw [hflag] at hne
        exact hne rfl
      | none =>
        rw [hflag] at hne
        exact hn (Or.inl ⟨hpresent, k, hflag, hflat, n, hnested, hne⟩)
    · rintro ⟨hpresent, hflat, level, hl, hne⟩
      rw [asciiLower_standard] at hne
      exact hn (Or.inr ⟨hpresent, hflat, level, hl, hne⟩)

theorem parse_eq_ok {home : Option String} {text : String} {c : Config}
    (h : parse home text = .ok c) :
    ∃ file, readText ConfigFile text = .ok file ∧ c = ofFile home file ∧
      c.validate = .ok () := by
  unfold parse parseAt at h
  split at h
  · cases h
  · rename_i file hfile
    split at h <;> cases h
    exact ⟨file, hfile, rfl, ‹_›⟩

/-- **Where each setting comes from.**  A document of which settings come can be read with its keys.
Under every set of flags, a setting is that of the command line, or else that of the flat section if
there is one, or else that of the nested section, or else the one that holds where nothing is set.
That is what the keys of both layouts come to one by one, exactly if no flat section hides a
nested key. -/
theorem draws_of_parse {home : Option String} {text : String} {c : Config}
    (h : parse home text = .ok c) :
    ∃ d, readText DocumentKeys text = .ok d ∧ ∀ flags,
      (c.withFlags flags).Draws home flags d.bySection ∧
      ((c.withFlags flags).Draws home flags d.keyByKey ↔ ¬ d.Hides flags) := by
  obtain ⟨file, hfile, rfl, -⟩ := parse_eq_ok h
  obtain ⟨d, hd, rfl, -⟩ := mirrored_documentKeys.readText hfile
  exact ⟨d, hd, fun flags => ⟨draws_ofFile home d flags, (draws_ofFile home d flags).keyByKey_iff⟩⟩

/-- A document with both layouts: the flat one has two settings of sessions, the nested one has one
of them as well, and the level of the log. -/
def mixedText : String :=
  "\x7b\"session\": \x7b\"max_concurrent\": 5, \"timeout_seconds\": 60\x7d, " ++
    "\"settings\": \x7b\"session\": \x7b\"max_concurrent\": 8\x7d, " ++
      "\"logging\": \x7b\"level\": \"DEBUG\"\x7d\x7d\x7d"

theorem draws_mixedText :
    let c : Config := ⟨⟨5, 60, 300, 120, 30, 64⟩, standardExportPath, ⟨"debug"⟩⟩
    let flags : ServeFlags := ⟨none, none, some 7, none⟩
    parse none mixedText = .ok c ∧ (c.withFlags flags).session = ⟨5, 60, 7, 120, 30, 64⟩ ∧
      ∃ d, readText DocumentKeys mixedText = .ok d ∧
        (c.withFlags flags).Draws none flags d.bySection ∧
        ((c.withFlags flags).Draws none flags d.keyByKey ↔ ¬ d.Hides flags) := by
  intro c flags
  have hparse : parse none mixedText = .ok c := eq_ok_of_toOption (by decide +kernel)
  obtain ⟨d, hd, hdraws⟩ := draws_of_parse hparse
  exact ⟨hparse, rfl, d, hd, hdraws flags⟩

/-- A document whose flat section has only one setting, and whose nested section has another one. -/
def partialText : String :=
  "\x7b\"session\": \x7b\"max_concurrent\": 1\x7d, " ++
    "\"settings\": \x7b\"session\": \x7b\"idle_timeout_secs\": 900\x7d\x7d\x7d"

/-- **A flat section with some keys discards the other keys of the nested one.** -/
theorem not_draws_partialText :
    ∃ c d, parse none partialText = .ok c ∧ readText DocumentKeys partialText = .ok d ∧
      d.flat.session? .idleTimeoutSecs = none ∧ d.nested.session? .idleTimeoutSecs = some 900 ∧
      (c.withFlags .none).session.idleTimeoutSecs = 3600 ∧
      ¬ (c.withFlags .none).Draws none .none d.keyByKey := by
  have hparse : parse none partialText =
      .ok ⟨⟨1, 3600, 300, 120, 30, 64⟩, standardExportPath, LoggingConfig.standard⟩ :=
    eq_ok_of_toOption (by decide +kernel)
  obtain ⟨file, hfile, -⟩ := parse_eq_ok hparse
  obtain ⟨d, hd, -⟩ := mirrored_documentKeys.readText hfile
  have hkeys : (readText DocumentKeys partialText).toOption.map (fun d =>
      (d.flat.session? .idleTimeoutSecs, d.nested.session? .idleTimeoutSecs)) =
        some (none, some 900) := by
    decide +kernel
  rw [hd] at hkeys
  obtain ⟨hflat, hnested⟩ := Prod.mk.inj (Option.some.inj hkeys)
  refine ⟨_, d, hparse, hd, hflat, hnested, rfl, fun h => ?_⟩
  have hidle := h.session .idleTimeoutSecs
  simp only [DocumentKeys.keyByKey, hflat, hnested] at hidle
  cases hidle

end Config
end Workbench
