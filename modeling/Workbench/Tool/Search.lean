import Workbench.Text.Blank
import Workbench.Text.Letters
import Workbench.Tool.Registry

/-!
# Searching the tools

A query is cut into words, and each tool gets points for each word that occurs in its name, its
summary or its category and for each keyword that a word contains or is part of.  The tools with
points are listed by falling points; among equals the order of the table stays.
-/

namespace Workbench

/-! ## 1. Categories by name -/

namespace ToolCategory

/-- The category that a text names, in any case, in the singular or the plural, or by one of a few
other words. -/
def parse? (input : String) : Option ToolCategory :=
  let normal := (Text.lower (Text.trim input)).toList.map fun c =>
    if c == '-' || c == ' ' then '_' else c
  let word := String.ofList normal
  if word == "session" || word == "sessions" then some session
  else if word == "project" || word == "projects" then some project
  else if word == "blocks" || word == "block" || word == "plc" then some blocks
  else if word == "discovery" || word == "help" || word == "catalog" then some discovery
  else none

end ToolCategory

namespace Tool

/-! ## 2. Points -/

/-- The words of a query, in lower case. -/
def queryWords (query : String) : List String := Text.words (Text.lower query)

/-- The points that a word gives a tool by its name, summary and category. -/
def wordPoints (t : ToolInfo) (word : String) : Nat :=
  (if Text.contains t.name word then 10 else 0) +
    (if Text.contains (Text.lower t.summary) word then 5 else 0) +
    (if Text.contains t.category.name word then 2 else 0)

/-- Some word contains a keyword or is part of it. -/
def hits (words : List String) (keyword : String) : Bool :=
  words.any fun w => Text.contains keyword w || Text.contains w keyword

/-- The points of a tool for the words of a query. -/
def points (words : List String) (t : ToolInfo) : Nat :=
  words.foldl (fun n word => n + wordPoints t word) 0 + 3 * t.keywords.countP (hits words)

/-- A list with one more text at its end unless it is there already. -/
def addNew (ts : List String) (t : String) : List String :=
  if ts.contains t then ts else ts ++ [t]

/-- What a word matched, besides what is known. -/
def matchWord (t : ToolInfo) (known : List String) (word : String) : List String :=
  let known := if Text.contains t.name word then addNew known "name match" else known
  if Text.contains t.category.name word then addNew known t.category.name else known

/-- What matched: the name, the category and the keywords, in the order of their finding. -/
def matched (words : List String) (t : ToolInfo) : List String :=
  (t.keywords.filter (hits words)).foldl addNew (words.foldl (matchWord t) [])

/-! ## 3. Ranking -/

/-- A list that falls in its measure, with one more element before those that are not larger. -/
def insertFalling {α : Type} (measure : α → Nat) (x : α) : List α → List α
  | [] => [x]
  | y :: r => if measure y ≤ measure x then x :: y :: r else y :: insertFalling measure x r

/-- The elements by falling measure; equal ones keep their order. -/
def sortFalling {α : Type} (measure : α → Nat) (xs : List α) : List α :=
  xs.foldr (insertFalling measure) []

/-- All tools with points for the words, by falling points. -/
def ranked (words : List String) : List ToolInfo :=
  sortFalling (points words) (all.filter fun t => 0 < points words t)

/-- The tools that match a query best, at most `limit` of them, each with what matched. -/
def search (query : String) (limit : Nat) : List (ToolInfo × List String) :=
  let words := queryWords query
  ((ranked words).take limit).map fun t => (t, matched words t)

end Tool
end Workbench
