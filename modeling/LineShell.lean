import LineShell.Text.Quoted
import LineShell.CommandLine
import LineShell.Config.Reader
import LineShell.CommandError
import LineShell.Builtin.Arity
import LineShell.Files.Walk
import LineShell.World
import LineShell.Log.Event
import LineShell.Sink
import LineShell.Source
import LineShell.Repl
import LineShell.World.Fresh
import LineShell.Programs.System
import LineShell.Main
import LineShell.Proofs.Output.Acceptance
import LineShell.Proofs.Input.Arrivals
import LineShell.Proofs.Action.Rules
import LineShell.Proofs.Dispatch.Frame
import LineShell.Proofs.Dispatch.Mirror
import LineShell.Proofs.Loop.Ending
import LineShell.Proofs.Input.Pieces
import LineShell.Proofs.Loop.Answers
import LineShell.Proofs.Loop.Conversation
import LineShell.Proofs.Loop.Script
import LineShell.Proofs.Dispatch.Demands
import LineShell.Proofs.Loop.Words
import LineShell.Proofs.Loop.ErrorPolicy
import LineShell.Proofs.Dispatch.Drained
import LineShell.Proofs.Loop.Lockstep
import LineShell.Proofs.Loop.Order
import LineShell.Proofs.Text.Lines
import LineShell.Proofs.Text.Digits
import LineShell.Proofs.Text.Trim
import LineShell.Proofs.Config.Grammar
import LineShell.Proofs.Files.Walk
import LineShell.Proofs.Files.Change
import LineShell.Proofs.Builtin.Performance
import LineShell.Proofs.Builtin.Effects
import LineShell.Proofs.Dispatch.Children
import LineShell.Proofs.Dispatch.LostWords
import LineShell.Proofs.Dispatch.Target
import LineShell.Proofs.Dispatch.Course
import LineShell.Proofs.Config.Written
import LineShell.Proofs.Programs.Launches
import LineShell.Proofs.Text.Words
import LineShell.Proofs.Application.Arguments
import LineShell.Proofs.Text.Utf8
import LineShell.Proofs.Application.ExitCode
import LineShell.Proofs.Dispatch.Reaping
import LineShell.Proofs.Files.Routes
import LineShell.Proofs.Files.Entries
import LineShell.Proofs.Builtin.Copying
import LineShell.Proofs.Builtin.Listing
import LineShell.Proofs.Builtin.Deleting
import LineShell.Proofs.Text.Shown
import LineShell.Proofs.Builtin.Catalogue
import LineShell.Proofs.Builtin.Details
import LineShell.Proofs.Builtin.Moving
import LineShell.Proofs.Builtin.Journey
import LineShell.Proofs.Resolution.Candidates
import LineShell.Proofs.Resolution.FirstMatch
import LineShell.Proofs.Dispatch.Nearby
import LineShell.Proofs.Builtin.Registering
import LineShell.Proofs.Builtin.Arguments
import LineShell.Proofs.Builtin.Gate
import LineShell.Proofs.Time.Calendar
import LineShell.Proofs.Time.Stamp
import LineShell.Proofs.Log.Lines
import LineShell.Proofs.Log.Bracketed
import LineShell.Proofs.Loop.Record
import LineShell.Proofs.Loop.Unheeded
import LineShell.Proofs.Application.Verbosity
