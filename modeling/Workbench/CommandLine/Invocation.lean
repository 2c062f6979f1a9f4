import Workbench.Config.Load

/-!
# Invocations

What the words of the command line ask for.  Words are read from left to right, first those of the
program and then, after the name of a command, those of the command; the first word that is wrong or
that asks for help or for the version decides.

* `CommandLine.readWords` reads the words of one level into settings;
* `Invocation.read` puts the levels together, with the fallback for `--config`.
-/

namespace Workbench
namespace CommandLine

/-! ## 1. Settings -/

/-- The settings that words can give. -/
inductive Setting where
  | config
  | maxSessions
  | idleTimeoutSecs
  | sweepIntervalSecs
  | callTimeoutSecs
  | path
  | name
  deriving DecidableEq, Repr

/-- Where words stand: before a command, or after its name. -/
inductive Level where
  | program
  | serve
  | probe
  deriving DecidableEq, Repr

namespace Level

/-- The settings of a level with their words.  The document of settings can be given anywhere. -/
def settings : Level → List (String × Setting)
  | program => [("config", .config)]
  | serve =>
    [("config", .config), ("max-sessions", .maxSessions),
      ("idle-timeout-secs", .idleTimeoutSecs), ("sweep-interval-secs", .sweepIntervalSecs),
      ("call-timeout-secs", .callTimeoutSecs)]
  | probe => [("config", .config), ("path", .path), ("name", .name)]

/-- The commands by their names. -/
def commands : List (String × Level) := [("serve", serve), ("probe", probe)]

end Level

/-- The number that a text writes: digits, perhaps after a plus, of a value below `2 ^ 64`. -/
def number? (s : String) : Option Nat :=
  let digits :=
    match s.toList with
    | '+' :: r => r
    | cs => cs
  if digits.isEmpty || !digits.all Char.isDigit then none
  else
    let n := digits.foldl (fun n c => 10 * n + (c.toNat - '0'.toNat)) 0
    if n < Nat.pow 2 64 then some n else none

/-- A value that a setting can take. -/
def Setting.accepts : Setting → String → Bool
  | config, v => v != ""
  | path, _ => true
  | name, _ => true
  | _, v => (number? v).isSome

/-- Settings with the values that were given. -/
abbrev Given := List (Setting × String)

namespace Given

/-- The value of a setting, if it was given. -/
def value? (given : Given) (s : Setting) : Option String := List.lookup s given

/-- The number of a setting, if it was given. -/
def number? (given : Given) (s : Setting) : Option Nat :=
  (given.value? s).bind CommandLine.number?

/-- Takes a setting, which can be given once. -/
def add? (given : Given) (s : Setting) (v : String) : Option Given :=
  if (given.value? s).isSome || !s.accepts v then none else some (given ++ [(s, v)])

end Given

/-! ## 2. Words -/

/-- What the words of a level come to. -/
inductive Reading where
  | fault
  | help
  | version
  | settings (given : Given)
  | command (given : Given) (level : Level) (rest : List String)
  deriving DecidableEq, Repr

/-- Help on commands: each further word has to name one. -/
def readHelp (words : List String) : Reading :=
  match words with
  | [] => .help
  | [w] => if w == "serve" || w == "probe" || w == "help" then .help else .fault
  | _ => .fault

/-- A word that names a setting: its name and, after an equals sign, its value. -/
def longWord? (w : String) : Option (String × Option String) :=
  match w.toList with
  | '-' :: '-' :: r =>
    let name := String.ofList (r.takeWhile (· != '='))
    match r.dropWhile (· != '=') with
    | _ :: v => some (name, some (String.ofList v))
    | [] => some (name, none)
  | _ => none

/-- The texts in words: the words themselves, and the values behind equals signs. -/
def texts (words : List String) : List String :=
  words.flatMap fun w =>
    match longWord? w with
    | some (_, some v) => [w, v]
    | _ => [w]

/-- A word that cannot be a value. -/
def isMarked (w : String) : Bool :=
  match w.toList with
  | '-' :: _ :: _ => true
  | _ => false

/-- A word that is neither a setting nor the value of one. -/
def readPlain (level : Level) (given : Given) (w : String) (rest : List String) : Reading :=
  match w.toList with
  | '-' :: 'h' :: _ => .help
  | '-' :: 'V' :: _ => if level = .program then .version else .fault
  | _ =>
    if level = .program then
      match Level.commands.lookup w with
      | some command => .command given command rest
      | none => if w == "help" then readHelp rest else .fault
    else .fault

/-- Reads the words of a level. -/
def readWords (level : Level) (given : Given) : List String → Reading
  | [] => .settings given
  | w :: rest =>
    if w == "--" then if rest.isEmpty then .settings given else .fault
    else
      match longWord? w with
      | none => readPlain level given w rest
      | some (name, attached) =>
        if name == "help" then if attached.isNone then .help else .fault
        else if name == "version" && level = .program then
          if attached.isNone then .version else .fault
        else
          match level.settings.lookup name with
          | none => .fault
          | some s =>
            match attached with
            | some v =>
              match given.add? s v with
              | some given => readWords level given rest
              | none => .fault
            | none =>
              match rest with
              | [] => .fault
              | v :: rest =>
                if isMarked v then .fault
                else
                  match given.add? s v with
                  | some given => readWords level given rest
                  | none => .fault

end CommandLine

/-! ## 3. Invocations -/

/-- What the program is to do. -/
inductive Command where
  | serve (flags : ServeFlags)
  /-- Opens a project and prints what it contains. -/
  | probe (path : String) (name : Option String)
  deriving DecidableEq, Repr

/-- What a command line asks for. -/
inductive Invocation where
  | fault
  | help
  | version
  | run (config : Option String) (command : Command)
  deriving DecidableEq, Repr

namespace Invocation

open CommandLine

/-- The command that settings make. -/
def command? (level : Level) (given : Given) : Option Command :=
  match level with
  | .probe => (given.value? .path).map fun path => .probe path (given.value? .name)
  | _ =>
    some (.serve ⟨given.number? .maxSessions, given.number? .idleTimeoutSecs,
      given.number? .sweepIntervalSecs, given.number? .callTimeoutSecs⟩)

/-- The fallback is consulted at each level that does not give the document, and must not be empty
there; what is given counts before it, and later before earlier. -/
def withVariable (fallback : Option String) (levels : List Given) (command : Command) :
    Invocation :=
  let values := levels.map (·.value? .config)
  if fallback == some "" && values.any Option.isNone then .fault
  else .run ((values.foldl (fun found v => v <|> found) none) <|> fallback) command

/-- What the words of a command line ask for. -/
def read (fallback : Option String) (words : List String) : Invocation :=
  match readWords .program [] words with
  | .fault => fault
  | .help => help
  | .version => version
  | .settings given => withVariable fallback [given] (.serve .none)
  | .command outer level rest =>
    match readWords level [] rest with
    | .help => help
    | .settings given =>
      match command? level given with
      | some command => withVariable fallback [outer, given] command
      | none => fault
    | _ => fault

end Invocation
end Workbench
