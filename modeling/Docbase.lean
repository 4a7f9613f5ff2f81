import Docbase.Json.Extended
import Docbase.Memory.Backend
import Docbase.Repository
import Docbase.Server.Heap
import Docbase.StoreChoice
import Docbase.Transaction
import Docbase.Proofs.Action
import Docbase.Proofs.Failing
import Docbase.Proofs.Recording
import Docbase.Proofs.Fields
import Docbase.Proofs.Settings
import Docbase.Proofs.Path
import Docbase.Proofs.Text.Quoted
import Docbase.Proofs.Text.Words
import Docbase.Proofs.Double.Shortest
import Docbase.Proofs.Double.Text
import Docbase.Proofs.Sorting
import Docbase.Proofs.StableSorting
import Docbase.Proofs.Value.Proper
import Docbase.Proofs.Filter
import Docbase.Proofs.Filter.Rewriting
import Docbase.Proofs.Value.Order
import Docbase.Proofs.Value.Ordinary
import Docbase.Proofs.Value.Scalar
import Docbase.Proofs.Value.Fieldwise
import Docbase.Proofs.Value.Shown
import Docbase.Proofs.Value.Entries
import Docbase.Proofs.Identity
import Docbase.Proofs.Query.Where
import Docbase.Proofs.Query.Read
import Docbase.Proofs.Query.Plan
import Docbase.Proofs.Query.Join
import Docbase.Proofs.Pipeline.Draft
import Docbase.Proofs.Pipeline.Run
import Docbase.Proofs.Pipeline.Keyed
import Docbase.Proofs.Pipeline.Lookup
import Docbase.Proofs.Pipeline.Readable
import Docbase.Proofs.Pipeline.Failures
import Docbase.Proofs.Pipeline.Projection
import Docbase.Proofs.Pipeline.Sharing
import Docbase.Proofs.Pipeline.Unshared
import Docbase.Proofs.Pipeline.Places
import Docbase.Proofs.Pipeline.Traced
import Docbase.Proofs.Pipeline.Inclusion
import Docbase.Proofs.Pipeline.Sort
import Docbase.Proofs.Pipeline.Written
import Docbase.Proofs.Pipeline.AddedFields
import Docbase.Proofs.Pipeline.Spared
import Docbase.Proofs.Pipeline.Aliases
import Docbase.Proofs.Pipeline.Joined
import Docbase.Proofs.Memory.Collection
import Docbase.Proofs.Memory.Contents
import Docbase.Proofs.Memory.Bulk
import Docbase.Proofs.Memory.Run
import Docbase.Proofs.Memory.Everywhere
import Docbase.Proofs.Memory.Consistency
import Docbase.Proofs.Memory.Rollback
import Docbase.Proofs.Memory.Overlap
import Docbase.Proofs.Memory.Backend
import Docbase.Proofs.Memory.Records
import Docbase.Proofs.Memory.Identified
import Docbase.Proofs.Memory.Located
import Docbase.Proofs.Memory.Tables
import Docbase.Proofs.Memory.Indexes
import Docbase.Proofs.Memory.Data
import Docbase.Proofs.Query.Grammar
import Docbase.Proofs.Memory.Patches
import Docbase.Proofs.Memory.SharedLists
import Docbase.Proofs.Memory.Progress
import Docbase.Proofs.Memory.WholeUpdate
import Docbase.Proofs.Memory.Intake
import Docbase.Proofs.Memory.Repeated
import Docbase.Proofs.Memory.Assigned
import Docbase.Proofs.Memory.Failed
import Docbase.Proofs.Memory.UniqueValues
import Docbase.Proofs.Repository.Frame
import Docbase.Proofs.Repository.Reading
import Docbase.Proofs.Memory.Reads
import Docbase.Proofs.Repository.Paging
import Docbase.Proofs.Repository.Identifiers
import Docbase.Proofs.Repository.Restriction
import Docbase.Proofs.Repository.Shape
import Docbase.Proofs.Repository.Beside
import Docbase.Proofs.Repository.SelectedPages
import Docbase.Proofs.Repository.Requests
import Docbase.Proofs.Repository.Lifetime
import Docbase.Proofs.Repository.Selection
import Docbase.Proofs.Repository.Clause
import Docbase.Proofs.Repository.JoinConditions
import Docbase.Proofs.Repository.Single
import Docbase.Proofs.Repository.Agreement
import Docbase.Proofs.Memory.ByValue
import Docbase.Proofs.Repository.Insertion
import Docbase.Proofs.Repository.InTurn
import Docbase.Proofs.Repository.RoundTrip
import Docbase.Proofs.Repository.Reported
import Docbase.Proofs.Repository.Executable
import Docbase.Proofs.Transaction.Executor
import Docbase.Proofs.Transaction.AllOrNothing
import Docbase.Proofs.Transaction.Calls
import Docbase.Proofs.UniqueField.Ensure
import Docbase.Proofs.UniqueField.Dialogue
import Docbase.Proofs.Repository.Guarded
import Docbase.Proofs.UniqueField.Client
import Docbase.Proofs.UniqueField.Race
import Docbase.Proofs.Memory.Rejections
import Docbase.Proofs.Server.Store
import Docbase.Proofs.Server.Bulk
import Docbase.Proofs.Server.Connection
import Docbase.Proofs.Server.Conversion
import Docbase.Proofs.Server.InPlace
import Docbase.Proofs.Server.Answers
