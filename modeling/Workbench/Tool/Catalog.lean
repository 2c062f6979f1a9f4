import Workbench.Json.Printer
import Workbench.Shape.Encode
import Workbench.Tool.Envelope
import Workbench.Tool.Request
import Workbench.Tool.Search

/-!
# The catalog

The tools that tell about the tools: `Tool.catalog` lists the categories, the tools of one category,
or the tools that a query finds, and `Tool.help` gives the whole documentation of one tool.
-/

namespace Workbench
namespace Tool

/-- What a listing tells of a tool. -/
def entry (t : ToolInfo) : List (String × Json) :=
  [("name", .str t.name), ("description", .str t.summary), ("category", .str t.category.name),
    ("precondition", .str t.precondition.name)]

/-- How many tools a listing shows: the wish within limits. -/
def listingLimit (wish : Option Nat) : Nat := max 1 (min 15 (wish.getD 7))

/-- Where to go on after a listing of tools. -/
def helpHint : Json := .str "Use tool_help(name) for full documentation and examples"

/-- The tools of a category. -/
def categoryListing (c : ToolCategory) (limit : Nat) : ToolOutput :=
  let tools := (inCategory c).take limit
  ⟨toString tools.length ++ " tools in " ++ c.name,
    Json.object
      [("category", .str c.name), ("category_description", .str c.description),
        ("tools", .arr (tools.map fun t => Json.object (entry t))), ("hint", helpHint)]⟩

/-- The tools that a query finds. -/
def queryListing (query : String) (limit : Nat) : ToolOutput :=
  let tools := search query limit
  ⟨toString tools.length ++ " tools match '" ++ query ++ "'",
    Json.object
      [("query", .str query),
        ("tools", .arr (tools.map fun (t, found) =>
          Json.object (entry t ++ [("matched", Json.texts found)]))),
        ("hint", helpHint)]⟩

/-- All categories. -/
def categories : ToolOutput :=
  ⟨"Tool categories",
    Json.object
      [("categories", .arr (ToolCategory.all.map fun c =>
          Json.object
            [("category", .str c.name), ("description", .str c.description),
              ("tool_count", .nat (inCategory c).length)])),
        ("hint", .str ("Use tool_catalog(category='...') to list tools in a category, " ++
          "or tool_catalog(query='...') to search."))]⟩

/-- A category counts before a query, if it is one; a blank query is none. -/
def catalog (arguments : Json) : Except ToolError ToolOutput :=
  match parseArguments ToolCatalogRequest arguments with
  | .error e => .error e
  | .ok r =>
    let limit := listingLimit r.limit
    match r.category.bind ToolCategory.parse? with
    | some c => .ok (categoryListing c limit)
    | none =>
      match r.query.filter fun q => !Text.allBlank q with
      | some query => .ok (queryListing query limit)
      | none => .ok categories

/-- The documentation of a tool; for a name that no tool has, the tools that the name finds. -/
def help (arguments : Json) : Except ToolError ToolOutput :=
  match parseArguments ToolHelpRequest arguments with
  | .error e => .error e
  | .ok r =>
    match find? r.name with
    | some t =>
      .ok ⟨"Help for " ++ t.name,
        Json.object
          [("name", .str t.name), ("category", .str t.category.name),
            ("precondition", .str t.precondition.name), ("description", .str t.description),
            ("parameters", (schema? t.name).getD .null), ("example", .str t.sample),
            ("keywords", Json.texts t.keywords)]⟩
    | none =>
      .ok ⟨"Tool '" ++ r.name ++ "' not found",
        Json.object
          [("suggestions", Json.texts ((search r.name 3).map fun (t, _) => t.name)),
            ("hint", .str "Use tool_catalog to discover available tools")]⟩

end Tool
end Workbench
