import FunctionBundler.Arch
import FunctionBundler.Archive
import FunctionBundler.Archive.Bootstrap
import FunctionBundler.Archive.Zip
import FunctionBundler.Archive.Zip.Read
import FunctionBundler.Base64
import FunctionBundler.Bits
import FunctionBundler.Bytes
import FunctionBundler.Closure
import FunctionBundler.Command
import FunctionBundler.CommandLine
import FunctionBundler.CommandLine.Arguments
import FunctionBundler.CommandLine.Console
import FunctionBundler.Deflate
import FunctionBundler.Deflate.Block
import FunctionBundler.Deflate.PrefixCode
import FunctionBundler.Deflate.Token
import FunctionBundler.Deploy.Options
import FunctionBundler.Deploy.Plan
import FunctionBundler.Deploy.Reconcile
import FunctionBundler.Deploy.Remote
import FunctionBundler.Digest.Crc32
import FunctionBundler.Digest.Sha256
import FunctionBundler.Double
import FunctionBundler.Entry
import FunctionBundler.Entry.Packaging
import FunctionBundler.Environment
import FunctionBundler.Environment.Container
import FunctionBundler.Environment.Operation
import FunctionBundler.Environment.Query
import FunctionBundler.Failure
import FunctionBundler.Files
import FunctionBundler.Files.Access
import FunctionBundler.JsonText
import FunctionBundler.JsonText.Number
import FunctionBundler.Library
import FunctionBundler.Library.Listing
import FunctionBundler.Library.Package
import FunctionBundler.Main
import FunctionBundler.Manifest
import FunctionBundler.Manifest.File
import FunctionBundler.Parameters
import FunctionBundler.Path
import FunctionBundler.Path.Extension
import FunctionBundler.Path.Normal
import FunctionBundler.Program
import FunctionBundler.Proofs.Archive.Assembly
import FunctionBundler.Proofs.Archive.Command
import FunctionBundler.Proofs.Archive.Copies
import FunctionBundler.Proofs.Archive.Layout
import FunctionBundler.Proofs.Archive.Libraries
import FunctionBundler.Proofs.Archive.Loader
import FunctionBundler.Proofs.Archive.Naming
import FunctionBundler.Proofs.Archive.Order
import FunctionBundler.Proofs.Archive.Reproduction
import FunctionBundler.Proofs.Base64.Canonical
import FunctionBundler.Proofs.Base64.RoundTrip
import FunctionBundler.Proofs.Codec.Faults
import FunctionBundler.Proofs.Codec.Fields
import FunctionBundler.Proofs.Codec.Grammar
import FunctionBundler.Proofs.Codec.Positions
import FunctionBundler.Proofs.Codec.Prolonged
import FunctionBundler.Proofs.Codec.RoundTrip
import FunctionBundler.Proofs.CommandLine.Process
import FunctionBundler.Proofs.CommandLine.Size
import FunctionBundler.Proofs.CommandLine.Status
import FunctionBundler.Proofs.Deploy.Convergence
import FunctionBundler.Proofs.Deploy.Conversation
import FunctionBundler.Proofs.Deploy.InFlight
import FunctionBundler.Proofs.Deploy.Permits
import FunctionBundler.Proofs.Deploy.Plan
import FunctionBundler.Proofs.Deploy.Preview
import FunctionBundler.Proofs.Deploy.Reconcile
import FunctionBundler.Proofs.Deploy.Routing
import FunctionBundler.Proofs.Deploy.Stability
import FunctionBundler.Proofs.Digest.Hex
import FunctionBundler.Proofs.Entry.Account
import FunctionBundler.Proofs.Entry.Metadata
import FunctionBundler.Proofs.Entry.Result
import FunctionBundler.Proofs.Entry.Stages
import FunctionBundler.Proofs.Environment.Container
import FunctionBundler.Proofs.Environment.Mount
import FunctionBundler.Proofs.Environment.Removal
import FunctionBundler.Proofs.Fallible
import FunctionBundler.Proofs.Files.Names
import FunctionBundler.Proofs.Files.Places
import FunctionBundler.Proofs.Files.Rooted
import FunctionBundler.Proofs.JsonText.Numeral
import FunctionBundler.Proofs.JsonText.Series
import FunctionBundler.Proofs.JsonText.Skipping
import FunctionBundler.Proofs.JsonText.Spelling
import FunctionBundler.Proofs.Library.Listing
import FunctionBundler.Proofs.Library.Members
import FunctionBundler.Proofs.Library.Package
import FunctionBundler.Proofs.Library.Sysroot
import FunctionBundler.Proofs.Manifest.RoundTrip
import FunctionBundler.Proofs.Manifest.Spelling
import FunctionBundler.Proofs.Parameters.Fields
import FunctionBundler.Proofs.Parameters.Name
import FunctionBundler.Proofs.Path.Order
import FunctionBundler.Proofs.Path.Parent
import FunctionBundler.Proofs.Path.Pieces
import FunctionBundler.Proofs.Path.Place
import FunctionBundler.Proofs.Path.Rebasing
import FunctionBundler.Proofs.Path.Siblings
import FunctionBundler.Proofs.Program.Trace
import FunctionBundler.Proofs.Run.Announcements
import FunctionBundler.Proofs.Run.Archives
import FunctionBundler.Proofs.Run.Changes
import FunctionBundler.Proofs.Run.Course
import FunctionBundler.Proofs.Run.InFlight
import FunctionBundler.Proofs.Run.Isolation
import FunctionBundler.Proofs.Run.Lifecycle
import FunctionBundler.Proofs.Run.Packaging
import FunctionBundler.Proofs.Run.Progress
import FunctionBundler.Proofs.Run.Succession
import FunctionBundler.Proofs.Run.Termination
import FunctionBundler.Proofs.Settings.Acceptance
import FunctionBundler.Proofs.Settings.Credentials
import FunctionBundler.Proofs.Settings.Precedence
import FunctionBundler.Proofs.Task.Halting
import FunctionBundler.Proofs.Task.Runs
import FunctionBundler.Proofs.Task.Traffic
import FunctionBundler.Proofs.Text.Lines
import FunctionBundler.Proofs.Text.Order
import FunctionBundler.Proofs.Value.Normal
import FunctionBundler.Run
import FunctionBundler.Run.Schedule
import FunctionBundler.Run.Trace
import FunctionBundler.Settings
import FunctionBundler.Settings.Profile
import FunctionBundler.Task
import FunctionBundler.Task.Pool
import FunctionBundler.Text.Blank
import FunctionBundler.Text.Extending
import FunctionBundler.Text.Quoted
import FunctionBundler.Text.Repair
import FunctionBundler.Text.Unassigned
import FunctionBundler.Toml
import FunctionBundler.Toml.Scalar
import FunctionBundler.Value
import FunctionBundler.Value.Codec
