import Workbench.Tool.Registry

/-!
# The document of the tools

A page of text on all tools: a table for each category, with the tools in the order of their names.
-/

namespace Workbench

/-- The heading of a category. -/
def ToolCategory.title : ToolCategory → String
  | session => "Session"
  | project => "Project"
  | blocks => "Blocks"
  | discovery => "Discovery"

/-- What a table says of the needs of a tool. -/
def Precondition.label : Precondition → String
  | none => "none"
  | sessionOnly => "session"
  | sessionAndResource => "session + open project"

/-- What a table says of the effect of a tool. -/
def Transition.label : Transition → String
  | none => ""
  | attach => "attaches project"
  | detach => "detaches project"

namespace Tool

/-- A tool put in its place among tools in the order of their names. -/
def insertByName (t : ToolInfo) : List ToolInfo → List ToolInfo
  | [] => [t]
  | u :: r => if t.name < u.name then t :: u :: r else u :: insertByName t r

/-- Tools in the order of their names. -/
def sortByName (ts : List ToolInfo) : List ToolInfo := ts.foldl (fun r t => insertByName t r) []

/-- A text set off as code. -/
def code (s : String) : String := "`" ++ s ++ "`"

/-- The line of a table that is about a tool. -/
def row (t : ToolInfo) : String :=
  "| " ++ code t.name ++ " | " ++ t.precondition.label ++ " | " ++ t.onSuccess.label ++ " | " ++
    t.summary ++ " |"

/-- The lines on a category; a category without tools has none. -/
def categorySection (c : ToolCategory) : List String :=
  match sortByName (inCategory c) with
  | [] => []
  | ts =>
    ["## " ++ c.title ++ " (" ++ code c.name ++ ")", "", c.description, "",
      "| Tool | Requires | Effect | Description |",
      "|------|----------|--------|-------------|"] ++ ts.map row ++ [""]

/-- The lines before the tables. -/
def preface : List String :=
  ["# Tools", "",
    "> Auto-generated from " ++ code "src/tool_registry.rs" ++ ". Do not edit by hand.",
    "> Regenerate with: " ++ code "cargo run --bin gen_tools_doc -- docs/TOOLS.md" ++ ".", "",
    "## Workflow", "",
    "- " ++ code "tools/list" ++ " returns the full tool set (currently " ++
      toString all.length ++ " tools)",
    "- " ++ code "create_session" ++ " returns the " ++ code "id" ++
      " every other session tool takes as " ++ code "session_id",
    "- " ++ code "open_project" ++ " attaches a project; block tools require one",
    "- " ++ code "close_session" ++
      " releases the engineering connection; idle sessions are swept", ""]

/-- The lines after the tables. -/
def notes : List String :=
  ["## Notes", "",
    "- Every response is an envelope: " ++ String.intercalate ", "
      (["success", "message", "data", "error", "error_code"].map code),
    "- Calls on one session run in order; different sessions run in parallel",
    "- " ++ code "timeout_secs" ++ " bounds how long a call is awaited (1-600); " ++
      "the operation itself is not cancelled"]

/-- The document. -/
def document : String :=
  String.join ((preface ++ ToolCategory.all.flatMap categorySection ++ notes).map (· ++ "\n"))

end Tool
end Workbench
