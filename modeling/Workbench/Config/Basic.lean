import Workbench.Files.Path
import Workbench.Shape.Basic

/-!
# Settings

The settings of the server, and the layout of the document they are read from.  The document has the
flat sections `session`, `export_path` and `logging`, and the same settings in a nested layout;
where both have a section, the flat one counts as a whole.
-/

namespace Workbench

/-! ## 1. The settings -/

/-- Limits and times of sessions. -/
structure SessionConfig where
  maxConcurrent : Nat
  /-- Zero: sessions are never closed for being idle. -/
  idleTimeoutSecs : Nat
  sweepIntervalSecs : Nat
  callTimeoutSecs : Nat
  releaseTimeoutSecs : Nat
  /-- Zero: no limit. -/
  maxQueueDepth : Nat
  deriving DecidableEq, Repr

namespace SessionConfig

/-- What holds where nothing is set. -/
def standard : SessionConfig := ⟨3, 3600, 300, 120, 30, 64⟩

instance : Shaped SessionConfig where
  shape := .record "SessionConfig" (.ofList
    [(.withDefault "max_concurrent" (Json.nat standard.maxConcurrent), .natural .size),
      (⟨"idle_timeout_secs", ["timeout_seconds"],
        .default (Json.nat standard.idleTimeoutSecs), false, none⟩, .natural .plain),
      (.withDefault "sweep_interval_secs" (Json.nat standard.sweepIntervalSecs),
        .natural .plain),
      (.withDefault "call_timeout_secs" (Json.nat standard.callTimeoutSecs), .natural .plain),
      (.withDefault "release_timeout_secs" (Json.nat standard.releaseTimeoutSecs),
        .natural .plain),
      (.withDefault "max_queue_depth" (Json.nat standard.maxQueueDepth), .natural .size)])
  toValue c := (c.maxConcurrent, c.idleTimeoutSecs, c.sweepIntervalSecs, c.callTimeoutSecs,
    c.releaseTimeoutSecs, c.maxQueueDepth, ())
  ofValue v := ⟨v.1, v.2.1, v.2.2.1, v.2.2.2.1, v.2.2.2.2.1, v.2.2.2.2.2.1⟩
  ofValue_toValue _ := rfl
  toValue_ofValue _ := rfl

end SessionConfig

/-- How much is logged. -/
structure LoggingConfig where
  level : String
  deriving DecidableEq, Repr

namespace LoggingConfig

/-- What holds where nothing is set. -/
def standard : LoggingConfig := ⟨"info"⟩

instance : Shaped LoggingConfig where
  shape := .record "LoggingConfig" (.ofList
    [(.withDefault "level" (.str standard.level), .text)])
  toValue c := (c.level, ())
  ofValue v := ⟨v.1⟩
  ofValue_toValue _ := rfl
  toValue_ofValue _ := rfl

end LoggingConfig

/-- The settings in effect. -/
structure Config where
  session : SessionConfig
  exportPath : Path
  logging : LoggingConfig
  deriving DecidableEq, Repr

namespace Config

/-- Where blocks are exported to if nothing is set. -/
def standardExportPath : Path := .ofString "./exports"

/-- What holds where nothing is set. -/
def standard : Config :=
  ⟨SessionConfig.standard, standardExportPath, LoggingConfig.standard⟩

/-- The directive that the log follows. -/
def logFilter (c : Config) : String := "tia_mcp=" ++ c.logging.level

end Config

/-! ## 2. The document -/

/-- The nested section for projects. -/
structure ProjectDefaults where
  exportPath : Option String
  deriving DecidableEq, Repr

/-- The nested section for paths. -/
structure NestedPaths where
  projectDefaults : Option ProjectDefaults
  deriving DecidableEq, Repr

/-- The nested section for settings. -/
structure NestedSettings where
  session : Option SessionConfig
  logging : Option LoggingConfig
  deriving DecidableEq, Repr

/-- The document with the sections of both layouts. -/
structure ConfigFile where
  session : Option SessionConfig
  exportPath : Option String
  logging : Option LoggingConfig
  settings : Option NestedSettings
  paths : Option NestedPaths
  deriving DecidableEq, Repr

/-- A section that may be absent. -/
def Field.section (name : String) : Field := .withDefault name .null

instance : Shaped ProjectDefaults where
  shape := .record "ProjectDefaults" (.ofList [(Field.section "export_path", .option .text)])
  toValue c := (c.exportPath, ())
  ofValue v := ⟨v.1⟩
  ofValue_toValue _ := rfl
  toValue_ofValue _ := rfl

instance : Shaped NestedPaths where
  shape := .record "NestedPaths" (.ofList
    [(Field.section "project_defaults", .option (Shaped.shape ProjectDefaults))])
  toValue c := (c.projectDefaults.map Shaped.toValue, ())
  ofValue v := ⟨Option.map (fun x => Shaped.ofValue x) v.1⟩
  ofValue_toValue c := by simp only [Shaped.optionMap_ofValue_toValue]
  toValue_ofValue v := Prod.ext (Shaped.optionMap_toValue_ofValue v.1) rfl

instance : Shaped NestedSettings where
  shape := .record "NestedSettings" (.ofList
    [(Field.section "session", .option (Shaped.shape SessionConfig)),
      (Field.section "logging", .option (Shaped.shape LoggingConfig))])
  toValue c := (c.session.map Shaped.toValue, c.logging.map Shaped.toValue, ())
  ofValue v := ⟨Option.map (fun x => Shaped.ofValue x) v.1,
    Option.map (fun x => Shaped.ofValue x) v.2.1⟩
  ofValue_toValue c := by simp only [Shaped.optionMap_ofValue_toValue]
  toValue_ofValue v := Prod.ext (Shaped.optionMap_toValue_ofValue v.1)
    (Prod.ext (Shaped.optionMap_toValue_ofValue v.2.1) rfl)

instance : Shaped ConfigFile where
  shape := .record "ConfigFile" (.ofList
    [(Field.section "session", .option (Shaped.shape SessionConfig)),
      (Field.section "export_path", .option .text),
      (Field.section "logging", .option (Shaped.shape LoggingConfig)),
      (Field.section "settings", .option (Shaped.shape NestedSettings)),
      (Field.section "paths", .option (Shaped.shape NestedPaths))])
  toValue c := (c.session.map Shaped.toValue, c.exportPath, c.logging.map Shaped.toValue,
    c.settings.map Shaped.toValue, c.paths.map Shaped.toValue, ())
  ofValue v := ⟨Option.map (fun x => Shaped.ofValue x) v.1, v.2.1,
    Option.map (fun x => Shaped.ofValue x) v.2.2.1,
    Option.map (fun x => Shaped.ofValue x) v.2.2.2.1,
    Option.map (fun x => Shaped.ofValue x) v.2.2.2.2.1⟩
  ofValue_toValue c := by simp only [Shaped.optionMap_ofValue_toValue]
  toValue_ofValue v := Prod.ext (Shaped.optionMap_toValue_ofValue v.1)
    (Prod.ext rfl (Prod.ext (Shaped.optionMap_toValue_ofValue v.2.2.1)
      (Prod.ext (Shaped.optionMap_toValue_ofValue v.2.2.2.1)
        (Prod.ext (Shaped.optionMap_toValue_ofValue v.2.2.2.2.1) rfl))))

end Workbench
