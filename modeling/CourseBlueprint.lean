import CourseBlueprint.Action
import CourseBlueprint.Assignment
import CourseBlueprint.Category
import CourseBlueprint.Command.Edit
import CourseBlueprint.Command.Enrollment
import CourseBlueprint.Command.Inspection
import CourseBlueprint.Command.Locking
import CourseBlueprint.Command.Lookup
import CourseBlueprint.Command.Sync
import CourseBlueprint.CommandLine.Answer
import CourseBlueprint.CommandLine.Arguments
import CourseBlueprint.Content
import CourseBlueprint.Deployment
import CourseBlueprint.Deployment.Layers
import CourseBlueprint.Deployment.Variables
import CourseBlueprint.Dict
import CourseBlueprint.Digest.Sha1
import CourseBlueprint.Failure
import CourseBlueprint.Item
import CourseBlueprint.Json.Document
import CourseBlueprint.Json.Number
import CourseBlueprint.Json.Reader
import CourseBlueprint.Json.Record
import CourseBlueprint.Json.Value
import CourseBlueprint.Main
import CourseBlueprint.Migration
import CourseBlueprint.NameSet
import CourseBlueprint.Preload
import CourseBlueprint.Report
import CourseBlueprint.Report.Document
import CourseBlueprint.Report.Lines
import CourseBlueprint.Request
import CourseBlueprint.Restrictions
import CourseBlueprint.Save
import CourseBlueprint.Save.Divergence
import CourseBlueprint.Save.Locks
import CourseBlueprint.Save.Reconciliation
import CourseBlueprint.Schema
import CourseBlueprint.Settings
import CourseBlueprint.Store.Basic
import CourseBlueprint.Store.Directory
import CourseBlueprint.Store.FileTree
import CourseBlueprint.Store.Memory
import CourseBlueprint.Store.Records
import CourseBlueprint.Store.Tables
import CourseBlueprint.Summary
import CourseBlueprint.Tag
import CourseBlueprint.Tag.Rows
import CourseBlueprint.Text.Blank
import CourseBlueprint.Text.Decimal
import CourseBlueprint.Text.Hex
import CourseBlueprint.Text.Printable
import CourseBlueprint.Text.Quoted
import CourseBlueprint.Text.Style
import CourseBlueprint.Timestamp
import CourseBlueprint.Toml.Literal
import CourseBlueprint.Toml.Reader
import CourseBlueprint.Toml.Tree
import CourseBlueprint.Uuid
import CourseBlueprint.Uuid.Derived
import CourseBlueprint.Proofs.Json.Grammar
import CourseBlueprint.Proofs.Json.Reader
import CourseBlueprint.Proofs.Json.Layout
import CourseBlueprint.Proofs.Json.Meaning
import CourseBlueprint.Proofs.Json.RoundTrip
import CourseBlueprint.Proofs.Timestamp
import CourseBlueprint.Proofs.Uuid
import CourseBlueprint.Proofs.Action
import CourseBlueprint.Proofs.Store.Directory
import CourseBlueprint.Proofs.Store.TableFiles
import CourseBlueprint.Proofs.Store.Basic
import CourseBlueprint.Proofs.Store.Records
import CourseBlueprint.Proofs.Save.Locks
import CourseBlueprint.Proofs.Save.Reconciliation
import CourseBlueprint.Proofs.Save.Stages
import CourseBlueprint.Proofs.Item
import CourseBlueprint.Proofs.Save.FailedWrite
import CourseBlueprint.Proofs.Save.Recording
import CourseBlueprint.Proofs.Save.ChildTags
import CourseBlueprint.Proofs.Save.Retries
import CourseBlueprint.Proofs.Save.ImportLocks
import CourseBlueprint.Proofs.Save.SurvivingEdit
import CourseBlueprint.Proofs.Save.Deletions
import CourseBlueprint.Proofs.Store.Evolution
import CourseBlueprint.Proofs.Save.Evolution
import CourseBlueprint.Proofs.Store.Changes
import CourseBlueprint.Proofs.Store.Soundness
import CourseBlueprint.Proofs.Store.Twins
import CourseBlueprint.Proofs.Command.Sync
import CourseBlueprint.Proofs.Command.Evolution
import CourseBlueprint.Proofs.Command.Copies
import CourseBlueprint.Proofs.Command.EditLocks
import CourseBlueprint.Proofs.Command.Moves
import CourseBlueprint.Proofs.Command.Frames
import CourseBlueprint.Proofs.Command.Soundness
import CourseBlueprint.Proofs.Command.Resync
import CourseBlueprint.Proofs.Command.LockHistory
import CourseBlueprint.Proofs.Command.DryRun
import CourseBlueprint.Proofs.Command.Deletions
import CourseBlueprint.Proofs.Command.DeletionFlag
import CourseBlueprint.Proofs.Store.Tidy
import CourseBlueprint.Proofs.Command.Rewriting
import CourseBlueprint.Proofs.Command.Idempotence
import CourseBlueprint.Proofs.Settings
import CourseBlueprint.Proofs.Command.Convergence
import CourseBlueprint.Proofs.Command.Undeletion
import CourseBlueprint.Proofs.Command.EditOutcome
import CourseBlueprint.Proofs.Preload
import CourseBlueprint.Proofs.Save.LockQueries
import CourseBlueprint.Proofs.Command.Summaries
import CourseBlueprint.Proofs.Store.Atomicity
import CourseBlueprint.Proofs.Save.Atomicity
import CourseBlueprint.Proofs.Command.Failures
import CourseBlueprint.Proofs.Concurrency.Script
import CourseBlueprint.Proofs.Concurrency.View
import CourseBlueprint.Proofs.Concurrency.Commands
import CourseBlueprint.Proofs.Concurrency.Calls
import CourseBlueprint.Proofs.Concurrency.Steps
import CourseBlueprint.Proofs.Concurrency.Serializable
import CourseBlueprint.Proofs.Save.ReconciliationEffect
import CourseBlueprint.Proofs.Save.KeptLocks
import CourseBlueprint.Proofs.Command.NamedRows
import CourseBlueprint.Proofs.Command.Writing
import CourseBlueprint.Proofs.Isolation.Portions
import CourseBlueprint.Proofs.Isolation.Saving
import CourseBlueprint.Proofs.Isolation.Commands
import CourseBlueprint.Proofs.Isolation.Parts
import CourseBlueprint.Proofs.Isolation.Requests
import CourseBlueprint.Proofs.Store.Merging
import CourseBlueprint.Proofs.Save.Scopes
import CourseBlueprint.Proofs.Save.Contested
import CourseBlueprint.Proofs.Save.UserSaves
import CourseBlueprint.Proofs.PendingChanges
import CourseBlueprint.Proofs.Layers
import CourseBlueprint.Proofs.Store.Calls
import CourseBlueprint.Proofs.Store.Writable
import CourseBlueprint.Proofs.Save.ImportedRows
import CourseBlueprint.Proofs.Save.Importing
import CourseBlueprint.Proofs.Save.ImportOrder
import CourseBlueprint.Proofs.Command.Looking
import CourseBlueprint.Proofs.Save.Bystanders
import CourseBlueprint.Proofs.Command.InternalFailures
import CourseBlueprint.Proofs.Assignment
import CourseBlueprint.Proofs.Tag.MigrationIds
import CourseBlueprint.Proofs.Registry
import CourseBlueprint.Proofs.Command.KeptColumns
