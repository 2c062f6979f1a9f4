import Std.Time.DateTime.Timestamp
import Workbench.CommandLine.Program
import Workbench.Files.Snapshot
import Workbench.Json.Reader
import Workbench.Server.Exchange
import Workbench.Session.Identifier

/-!
# The command line

The outer layer of the programs: it takes snapshots of the file system, stores what has changed, and
carries lines between the streams and the server.  What is done with them is decided elsewhere.
-/

namespace Workbench
namespace CommandLine

/-! ## 1. The file system -/

/-- Where the entry of a key lies. -/
def location (key : Key) : IO.FS.DirEntry := ⟨"/", String.intercalate "/" key⟩

/-- The entries at and below a key.  Files that do not hold text are left out. -/
partial def readEntries (key : Key) : IO (List (Key × Entry)) := do
  let path := (location key).path
  if ← path.isDir then
    let mut found := [(key, Entry.directory)]
    for e in ← path.readDir do
      found := found ++ (← readEntries (key ++ [e.fileName]))
    return found
  else
    try
      return [(key, .file (← IO.FS.readFile path))]
    catch _ => return []

/-- What there is to know about a place: all of a directory, and of the directory around a project
file; of any other file, the file alone. -/
def readPlace (place : Key) : IO (Key × List (Key × Entry)) := do
  let path := Path.ofString (String.intercalate "/" place)
  let around := Project.isProjectFile path && !(← (location place).path.isDir)
  let key := if around then place.dropLast else place
  return (key, ← readEntries key)

/-- The disk with a place taken anew, and with the directories above it. -/
def refreshPlace (disk : Disk) (place : Key) : IO Disk := do
  let mut disk := disk
  for depth in List.range place.length do
    let above := place.take depth
    if !above.isEmpty && (disk.tree.get? above).isNone && (← (location above).path.isDir) then
      disk := { disk with tree := disk.tree.put above .directory }
  if place.isEmpty then return disk
  let (key, entries) ← readPlace place
  return if key.isEmpty then disk else disk.renew key entries

/-- The disk with places taken anew. -/
def refresh (disk : Disk) (places : List Key) : IO Disk := places.foldlM refreshPlace disk

/-- Stores what has changed. -/
def store (before after : Disk) : IO Unit :=
  for (key, entry) in before.changes after do
    let path := (location key).path
    match entry with
    | .directory => IO.FS.createDirAll path
    | .file content => IO.FS.writeFile path content

/-! ## 2. The programs -/

/-- The moment in nanoseconds. -/
def clock : IO Nat := do
  return (← Std.Time.Timestamp.now).toNanosecondsSinceUnixEpoch.val.toNat

/-- The disk as a program finds it: nothing but the places that texts name. -/
def startDisk (texts : List String) : IO Disk := do
  let here ← IO.currentDir
  let cwd := (Path.ofString here.toString).segments.filter (· != "")
  let disk : Disk := ⟨.empty, cwd, ← IO.getEnv "HOME"⟩
  refresh disk (disk.namedPlaces texts)

/-- Ends a program. -/
def finish (before : Disk) (how : ProgramEnd) : IO UInt32 := do
  store before how.disk
  (← IO.getStdout).putStr how.output
  (← IO.getStderr).putStr how.errorOutput
  return UInt32.ofNat how.exitCode

/-- Serves a client until it leaves.  The patrol is told of an interval once it has passed. -/
partial def serve (host : Host Workspace Disk) (introduced : Bool) (lastTick : Nat) :
    IO UInt32 := do
  let line ← (← IO.getStdin).getLine
  if line.isEmpty then
    let how := if introduced then Program.leave host else Program.abandoned host
    finish host.surroundings how
  else
    match (Json.parse line).toOption.bind ClientMessage.ofJson? with
    | none => serve host introduced lastTick
    | some message =>
      let named := host.surroundings.namedPlaces message.params.innerTexts
      let before ← refresh host.surroundings (Program.places host ++ named)
      let now ← clock
      let host := { host with surroundings := before }
      let host := host.apply (.pass ⟨now - host.engine.registry.now⟩)
      let due := host.engine.registry.settings.sweepInterval.nanos ≤ now - lastTick
      let host := if due then host.tick else host
      let (host, reply) := message.answer host
      let host := host.rest
      store before host.surroundings
      match reply with
      | none => pure ()
      | some j =>
        let output ← IO.getStdout
        output.putStrLn j.compact
        output.flush
      serve host (introduced || message.isIntroduction) (if due then now else lastTick)

/-- The program that writes the document of the tools. -/
def writeTools (words : List String) : IO UInt32 := do
  let disk ← startDisk (texts words)
  finish disk (Program.writeDocument words disk)

end CommandLine
end Workbench

open Workbench in
/-- The server. -/
def main (words : List String) : IO UInt32 := do
  let fallback ← IO.getEnv "TIA_MCP_CONFIG"
  let named := Config.defaultFile.text :: fallback.toList ++ CommandLine.texts words
  let disk ← CommandLine.startDisk named
  let seed := (← IO.getRandomBytes 16).toList.foldl (fun n b => 256 * n + b.toNat) 0
  let now ← CommandLine.clock
  match Program.start words fallback disk (Identifier.text seed) now with
  | .ended how => CommandLine.finish disk how
  | .serving host => CommandLine.serve host false now
