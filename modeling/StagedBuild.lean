import StagedBuild.Build.Artifact
import StagedBuild.Build.Event
import StagedBuild.Build.Result
import StagedBuild.Build.Run
import StagedBuild.CommandLine.Options
import StagedBuild.CommandLine.Request
import StagedBuild.Console.Capture
import StagedBuild.Console.Shell
import StagedBuild.Console.Transcript
import StagedBuild.Duration
import StagedBuild.FileTree.Basic
import StagedBuild.FileTree.Change
import StagedBuild.FileTree.Walk
import StagedBuild.Footprint
import StagedBuild.Invocation
import StagedBuild.IoError.Basic
import StagedBuild.IoError.Errno
import StagedBuild.IoError.Kind
import StagedBuild.Main
import StagedBuild.Manifest.Basic
import StagedBuild.Manifest.Schema
import StagedBuild.Number.Binary64
import StagedBuild.Number.Shortest
import StagedBuild.Path
import StagedBuild.Process.Execute
import StagedBuild.Process.Relay
import StagedBuild.Process.Resolve
import StagedBuild.Process.Stream
import StagedBuild.Program
import StagedBuild.Project.Basic
import StagedBuild.Project.Build
import StagedBuild.Project.Clean
import StagedBuild.Proofs.Build.Attempt
import StagedBuild.Proofs.Build.Commit
import StagedBuild.Proofs.Build.CommitOrder
import StagedBuild.Proofs.Build.Companion
import StagedBuild.Proofs.Build.Confinement
import StagedBuild.Proofs.Build.ExitCode
import StagedBuild.Proofs.Build.FailedAttempt
import StagedBuild.Proofs.Build.FirstFailure
import StagedBuild.Proofs.Build.History
import StagedBuild.Proofs.Build.Hushing
import StagedBuild.Proofs.Build.LastSuccess
import StagedBuild.Proofs.Build.Leftovers
import StagedBuild.Proofs.Build.Milestones
import StagedBuild.Proofs.Build.NameCheck
import StagedBuild.Proofs.Build.OwnArtifacts
import StagedBuild.Proofs.Build.Plan
import StagedBuild.Proofs.Build.Progress
import StagedBuild.Proofs.Build.Relaying
import StagedBuild.Proofs.Build.Remains
import StagedBuild.Proofs.Build.Repetition
import StagedBuild.Proofs.Build.Residue
import StagedBuild.Proofs.Build.StagedAgreement
import StagedBuild.Proofs.Build.Staging
import StagedBuild.Proofs.Build.Upkeep
import StagedBuild.Proofs.CommandLine.Silence
import StagedBuild.Proofs.FileTree.Agreement
import StagedBuild.Proofs.FileTree.Effect
import StagedBuild.Proofs.FileTree.Entry
import StagedBuild.Proofs.FileTree.Journal
import StagedBuild.Proofs.FileTree.Listing
import StagedBuild.Proofs.FileTree.Locate
import StagedBuild.Proofs.FileTree.Removal
import StagedBuild.Proofs.FileTree.Walk
import StagedBuild.Proofs.FileTree.Way
import StagedBuild.Proofs.Manifest.Acceptance
import StagedBuild.Proofs.Manifest.Names
import StagedBuild.Proofs.Manifest.Placement
import StagedBuild.Proofs.Manifest.RoundTrip
import StagedBuild.Proofs.Manifest.Selection
import StagedBuild.Proofs.Path.Absolute
import StagedBuild.Proofs.Path.Length
import StagedBuild.Proofs.Path.Parent
import StagedBuild.Proofs.Path.Place
import StagedBuild.Proofs.Path.Segments
import StagedBuild.Proofs.Process.Account
import StagedBuild.Proofs.Process.Capture
import StagedBuild.Proofs.Process.Cause
import StagedBuild.Proofs.Process.Discipline
import StagedBuild.Proofs.Process.Interleaving
import StagedBuild.Proofs.Process.LineLoop
import StagedBuild.Proofs.Process.Offering
import StagedBuild.Proofs.Process.Precedence
import StagedBuild.Proofs.Process.Relay
import StagedBuild.Proofs.Process.Session
import StagedBuild.Proofs.Program.Cleaning
import StagedBuild.Proofs.Program.Companions
import StagedBuild.Proofs.Program.Confinement
import StagedBuild.Proofs.Program.CurrentDirectory
import StagedBuild.Proofs.Program.Discovery
import StagedBuild.Proofs.Program.ExitCode
import StagedBuild.Proofs.Program.Lookup
import StagedBuild.Proofs.Program.Overrides
import StagedBuild.Proofs.Program.Quiet
import StagedBuild.Proofs.Program.Rejection
import StagedBuild.Proofs.Program.Relaying
import StagedBuild.Proofs.Program.Undoing
import StagedBuild.Proofs.Text.Decoding
import StagedBuild.Proofs.Text.Fields
import StagedBuild.Proofs.Text.Lines
import StagedBuild.Rehearsal.Script
import StagedBuild.Rehearsal.Stage
import StagedBuild.Rehearsal.Stub
import StagedBuild.Target
import StagedBuild.Text.Blank
import StagedBuild.Text.Fields
import StagedBuild.Text.Invisible
import StagedBuild.Text.Lines
import StagedBuild.Text.Quoted
import StagedBuild.Text.Utf8
import StagedBuild.Toml.Document
import StagedBuild.Toml.Reader
import StagedBuild.Toml.Scalar
import StagedBuild.Toml.Section
import StagedBuild.Toml.Value
