import DurableAgent.Library.OrderedDict
import DurableAgent.Library.TransitionSystem
import DurableAgent.Python.Value
import DurableAgent.Capability.Policy
import DurableAgent.Jobs.Store
import DurableAgent.Jobs.Submission
import DurableAgent.Jobs.Worker
import DurableAgent.Jobs.Cancellation
import DurableAgent.Jobs.Activity
import DurableAgent.Graph.Reducers
import DurableAgent.Graph.State
import DurableAgent.Graph.Nodes
import DurableAgent.Graph.Edges
import DurableAgent.Graph.Thread
import DurableAgent.Graph.Control
import DurableAgent.Graph.Calls
import DurableAgent.Graph.Termination
import DurableAgent.Graph.Approval
import DurableAgent.Graph.Recovery
import DurableAgent.Graph.JobActivity
import DurableAgent.Graph.Delivery
import DurableAgent.Graph.Review
import DurableAgent.Graph.Requests
import DurableAgent.Graph.Gate
import DurableAgent.Graph.Answers
import DurableAgent.Graph.AuditLog
import DurableAgent.Graph.JobEndings
import DurableAgent.Graph.Bookkeeping
import DurableAgent.Jobs.Retry
import DurableAgent.Mcp.Client
import DurableAgent.Mcp.Shutdown
import DurableAgent.Mcp.Responses
import DurableAgent.Context.Models
import DurableAgent.Library.WhileLoop
import DurableAgent.Runtime.Models
import DurableAgent.Runtime.Loop
import DurableAgent.Runtime.Calls
import DurableAgent.Runtime.Bounds
import DurableAgent.Runtime.Trajectory
import DurableAgent.Runtime.Transcript
import DurableAgent.Runtime.ToolTrace
import DurableAgent.Runtime.AsyncExecutor
import DurableAgent.Library.Delimited
import DurableAgent.Runtime.Rendering
import DurableAgent.Context.Assembler
import DurableAgent.Context.Accounts
import DurableAgent.Library.UniqueTable
import DurableAgent.Python.Text
import DurableAgent.Memory.Episodes
import DurableAgent.Memory.ReadYourWrites
import DurableAgent.Memory.Namespaces
import DurableAgent.Context.Pruning
import DurableAgent.Context.Budget
import DurableAgent.Context.Positions
import DurableAgent.Runtime.ModelMessages
import DurableAgent.Python.Case
import DurableAgent.Memory.Policy
import DurableAgent.Runtime.Batches
import DurableAgent.Runtime.Concurrency
import DurableAgent.Runtime.BatchReports
import DurableAgent.Tools.IdempotencyWriter
import DurableAgent.Library.DictUpdates
import DurableAgent.Graph.Merging
import DurableAgent.Python.Slices
import DurableAgent.Retrieval.Models
import DurableAgent.Retrieval.Chunker
import DurableAgent.Python.Unicode
import DurableAgent.Retrieval.Tokenizer
import DurableAgent.Library.Ranking
import DurableAgent.Library.Arithmetic
import DurableAgent.Library.Tally
import DurableAgent.Library.Rounding
import DurableAgent.Python.FilledSet
import DurableAgent.Retrieval.Bm25
import DurableAgent.Retrieval.Bm25Tables
import DurableAgent.Library.FallibleSteps
import DurableAgent.Retrieval.Bm25Search
import DurableAgent.Retrieval.Refitting
import DurableAgent.Retrieval.FittedSearch
import DurableAgent.Retrieval.ExhaustiveBm25
import DurableAgent.Retrieval.SetOrders
import DurableAgent.Retrieval.Fusion
import DurableAgent.Retrieval.VectorIndex
import DurableAgent.Skills.Models
import DurableAgent.Skills.Selector
import DurableAgent.Skills.Matching
import DurableAgent.Graph.ThreadKeys
import DurableAgent.Skills.Loader
import DurableAgent.Skills.Discovery
import DurableAgent.Skills.Winner
import DurableAgent.Skills.DirectoryOrder
import DurableAgent.Library.Simulation
import DurableAgent.Library.Potential
import DurableAgent.Graph.Service
import DurableAgent.Graph.ServiceJobs
import DurableAgent.Jobs.Progress
import DurableAgent.Retrieval.Ingestion
import DurableAgent.Retrieval.Pipeline
import DurableAgent.Runtime.Evidence
import DurableAgent.Runtime.FakeProvider
import DurableAgent.Api.Runs
import DurableAgent.Api.Tickets
import DurableAgent.Api.Settling
import DurableAgent.Memory.Condenser
import DurableAgent.Memory.Recall
import DurableAgent.Library.SymbolicLinks
import DurableAgent.Tools.ScriptRunner
import DurableAgent.Tools.Confinement
import DurableAgent.Mcp.Bridge
import DurableAgent.Graph.Persistence
import DurableAgent.Graph.Restart
import DurableAgent.Retrieval.Embeddings
import DurableAgent.Graph.Quiescence
