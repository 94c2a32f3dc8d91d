import LineScript.Main
import LineScript.Proofs.Run.Execution
import LineScript.Proofs.Run.Course
import LineScript.Proofs.Run.DepthFirst
import LineScript.Proofs.Run.Failure
import LineScript.Proofs.Run.Finish
import LineScript.Proofs.Run.Approval
import LineScript.Proofs.Run.Origin
import LineScript.Proofs.Run.Handing
import LineScript.Proofs.Run.Recognition
import LineScript.Proofs.Run.Transient
import LineScript.Proofs.Run.Nesting
import LineScript.Proofs.Run.Macros
import LineScript.Proofs.Run.Comments
import LineScript.Proofs.Run.Cache
import LineScript.Proofs.Library.Unfolding
import LineScript.Proofs.CommandLine.Interleaving
import LineScript.Proofs.CommandLine.Loading
import LineScript.Proofs.Run.InStep
import LineScript.Proofs.Run.Swapping
import LineScript.Proofs.Run.Order
import LineScript.Proofs.Run.Independence
import LineScript.Proofs.Run.Retries
import LineScript.Proofs.Run.Handlers
import LineScript.Proofs.CommandLine.Sequence
import LineScript.Proofs.CommandLine.Seeding
import LineScript.Proofs.CommandLine.Reports
import LineScript.Proofs.Run.Termination
import LineScript.Proofs.Action.Rows
import LineScript.Proofs.Action.Templates
import LineScript.Proofs.Session.Dereferencing
import LineScript.Proofs.Run.Assignments
import LineScript.Proofs.Run.Pauses
import LineScript.Proofs.Run.Commands
import LineScript.Proofs.Script.Rebuilding
import LineScript.Proofs.CommandLine.Splitting
import LineScript.Proofs.Session.Settings
