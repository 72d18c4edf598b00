import TableMigration.Text.Split
import TableMigration.Text.Cased
import TableMigration.Text.LowercaseRuns
import TableMigration.Text.Lowercase
import TableMigration.Text.Printable
import TableMigration.Text.Utf8
import TableMigration.Ordered
import TableMigration.Action
import TableMigration.Progress
import TableMigration.Plan
import TableMigration.Stage
import TableMigration.Task
import TableMigration.Path
import TableMigration.FileSystem
import TableMigration.FileSystem.Tree
import TableMigration.FileSystem.Disk
import TableMigration.Gate
import TableMigration.Failover
import TableMigration.RowCount
import TableMigration.Dispatch
import TableMigration.Dispatch.Policy
import TableMigration.Validation
import TableMigration.Validation.Fixed
import TableMigration.Report
import TableMigration.Scheduler
import TableMigration.Heartbeat
import TableMigration.Toml.Item
import TableMigration.Toml.Scalar
import TableMigration.Toml.Quoted
import TableMigration.Toml.Document
import TableMigration.Settings
import TableMigration.Settings.Reading
import TableMigration.Mapping
import TableMigration.Error
import TableMigration.Script.Tree
import TableMigration.Script.Run
import TableMigration.LogLevel
import TableMigration.Arguments
import TableMigration.Shell.Command
import TableMigration.Shell.Reader
import TableMigration.Shell.Reading
import TableMigration.Shell.Arithmetic
import TableMigration.Shell.Pattern
import TableMigration.Shell.Session
import TableMigration.Shell.Expansion
import TableMigration.Shell.Condition
import TableMigration.Shell.Printing
import TableMigration.Shell.Utility.Basic
import TableMigration.Shell.Utility.Lines
import TableMigration.Shell.Utility.Sorting
import TableMigration.Shell.Utility.Regex
import TableMigration.Shell.Utility.Search
import TableMigration.Shell.Utility.LineEditor
import TableMigration.Shell.Utility.Files
import TableMigration.Shell.Utility.Hosts
import TableMigration.Shell.Utility.Running
import TableMigration.Shell.Utility.Finding
import TableMigration.Shell.Utility.Lookup
import TableMigration.Shell.Process
import TableMigration.Shell.Builtin
import TableMigration.Shell.Run
import TableMigration.Preview
import TableMigration.Program
import TableMigration.Main
import TableMigration.Proofs.Lists
import TableMigration.Proofs.Encoding
import TableMigration.Proofs.Aggregate
import TableMigration.Proofs.Stages
import TableMigration.Proofs.Tasks
import TableMigration.Proofs.Seeding
import TableMigration.Proofs.Moves
import TableMigration.Proofs.Rounds
import TableMigration.Proofs.Runs
import TableMigration.Proofs.Exchanges
import TableMigration.Proofs.Ceiling
import TableMigration.Proofs.DependencyOrder
import TableMigration.Proofs.FinalResult
import TableMigration.Proofs.Recording
import TableMigration.Proofs.Endings
import TableMigration.Proofs.Stores
import TableMigration.Proofs.Restarts
import TableMigration.Proofs.Reopening
import TableMigration.Proofs.Faultless
import TableMigration.Proofs.Handles
import TableMigration.Proofs.Turns
import TableMigration.Proofs.Liveness
import TableMigration.Proofs.Prompt
import TableMigration.Proofs.Advances
import TableMigration.Proofs.Levels
import TableMigration.Proofs.Tracking
import TableMigration.Proofs.Histories
import TableMigration.Proofs.Snapshots
import TableMigration.Proofs.Reports
import TableMigration.Proofs.Policies
import TableMigration.Proofs.Once
import TableMigration.Proofs.WholeStages
import TableMigration.Proofs.Ledger
import TableMigration.Proofs.Alone
import TableMigration.Proofs.Independence
import TableMigration.Proofs.Finished
import TableMigration.Proofs.Faults
import TableMigration.Proofs.Conclusions
import TableMigration.Proofs.InFlight
import TableMigration.Proofs.Jobs
import TableMigration.Proofs.Counting
import TableMigration.Proofs.Generation
import TableMigration.Proofs.Paths
import TableMigration.Proofs.Layout
import TableMigration.Proofs.Modes
import TableMigration.Proofs.TableNames
import TableMigration.Proofs.Admission
import TableMigration.Proofs.Scripted
import TableMigration.Proofs.Acceptance
import TableMigration.Proofs.ScriptRounds
import TableMigration.Proofs.Overlooked
import TableMigration.Proofs.LostRecords
import TableMigration.Proofs.MappingGrammar
import TableMigration.Proofs.MappedTables
import TableMigration.Proofs.Spelling
import TableMigration.Proofs.UnitEndings
import TableMigration.Proofs.Verdicts
import TableMigration.Proofs.PrintedCounts
import TableMigration.Proofs.WordSplitting
import TableMigration.Proofs.ShellReading
import TableMigration.Proofs.CommandLines
import TableMigration.Proofs.UsableSettings
import TableMigration.Proofs.Coherence
