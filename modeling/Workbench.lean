import Workbench.CommandLine.Program
import Workbench.Main
import Workbench.Proofs.Worker.History
import Workbench.Server.Exchange
import Workbench.Proofs.Worker.Answers
import Workbench.Proofs.Engine.Change
import Workbench.Proofs.Engine.Step
import Workbench.Proofs.Engine.Trace
import Workbench.Proofs.Session.Capacity
import Workbench.Proofs.Session.Dealing
import Workbench.Proofs.Session.Account
import Workbench.Proofs.Session.Latecomers
import Workbench.Proofs.Session.Closing
import Workbench.Proofs.Session.LastRelease
import Workbench.Proofs.Project.Opening
import Workbench.Proofs.Session.Attachment
import Workbench.Proofs.Session.LoneCalls
import Workbench.Proofs.Session.Knowledge
import Workbench.Proofs.Session.Stopping
import Workbench.Proofs.Files.Walking
import Workbench.Proofs.Files.Writing
import Workbench.Proofs.Project.Listing
import Workbench.Proofs.Project.Export
import Workbench.Proofs.Files.Names
import Workbench.Proofs.Project.Locating
import Workbench.Proofs.Files.Copying
import Workbench.Proofs.Project.Sources
import Workbench.Proofs.Project.Import
import Workbench.Proofs.Session.Remembering
import Workbench.Proofs.Session.Tally
import Workbench.Proofs.Session.Sweeping
import Workbench.Proofs.Session.Calls
import Workbench.Proofs.Session.Faults
import Workbench.Proofs.Session.Starting
import Workbench.Proofs.Files.Alike
import Workbench.Proofs.Project.Times
import Workbench.Proofs.Tool.Deadlines
import Workbench.Proofs.Worker.Continuing
import Workbench.Proofs.Session.Surroundings
import Workbench.Proofs.Session.Bench
import Workbench.Proofs.Project.Errors
import Workbench.Proofs.Session.Patience
import Workbench.Proofs.Worker.InHand
import Workbench.Proofs.Reference.Machine
import Workbench.Proofs.Reference.Mirror
import Workbench.Proofs.Reference.Serving
import Workbench.Proofs.Reference.Keeping
import Workbench.Proofs.Reference.Rounds
import Workbench.Proofs.Reference.Completing
import Workbench.Proofs.Json.Members
import Workbench.Proofs.Shape.Decoding
import Workbench.Proofs.Shape.Schemas
import Workbench.Proofs.Shape.Arguments
import Workbench.Proofs.Tool.Requests
import Workbench.Proofs.Tool.Addresses
import Workbench.Proofs.Session.Addressees
import Workbench.Proofs.Json.Words
import Workbench.Proofs.Json.Rereading
import Workbench.Proofs.Tool.Envelopes
import Workbench.Proofs.Engine.Erasing
import Workbench.Proofs.Session.Rejections
import Workbench.Proofs.Session.Labels
import Workbench.Proofs.Time.Rereading
import Workbench.Proofs.Shape.Rereading
import Workbench.Proofs.Config.Layers
import Workbench.Proofs.Config.Rereading
import Workbench.Proofs.Project.Scanning
import Workbench.Proofs.Project.Failing
import Workbench.Proofs.Project.Unsaved
import Workbench.Proofs.Files.Entries
import Workbench.Proofs.Project.Blocks
import Workbench.Proofs.Files.Making
import Workbench.Proofs.Project.Confinement
import Workbench.Proofs.Worker.Trace
import Workbench.Proofs.Worker.Counting
import Workbench.Proofs.Worker.Refusing
import Workbench.Proofs.Worker.Course
import Workbench.Proofs.Engine.Hosting
import Workbench.Proofs.Engine.Crew
import Workbench.Proofs.Session.Activity
import Workbench.Proofs.Text.Words
import Workbench.Proofs.Tool.Searching
import Workbench.Proofs.Project.Batches
import Workbench.Proofs.Files.Parents
import Workbench.Proofs.Project.Stores
import Workbench.Proofs.Files.Descending
import Workbench.Proofs.Project.Imported
import Workbench.Proofs.Project.FirstFile
import Workbench.Proofs.Tool.Tilde
