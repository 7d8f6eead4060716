import BrewDB.Common.BTreeMap
import BrewDB.Common.Arrow
import BrewDB.Common.TwoIndex
import BrewDB.Common.CheckedPut
import BrewDB.Common.TextList
import BrewDB.Common.ExceptState
import BrewDB.Common.Transition
import BrewDB.Common.Mpsc
import BrewDB.Common.Bag
import BrewDB.Common.SparseList
import BrewDB.Common.Kleene
import BrewDB.Common.AsciiCase
import BrewDB.Storage.Scan
import BrewDB.Storage.TableEngine
import BrewDB.Storage.PaimonSplit
import BrewDB.Storage.PaimonPredicate
import BrewDB.Storage.SplitReading
import BrewDB.Storage.PaimonWriter
import BrewDB.Planner.Schema
import BrewDB.Planner.LogicalPlan
import BrewDB.Planner.Exchange
import BrewDB.Planner.Fragment
import BrewDB.Planner.Rewrite
import BrewDB.Planner.FragmentTree
import BrewDB.Planner.Reassembly
import BrewDB.Planner.ScanSplits
import BrewDB.Planner.Ast
import BrewDB.Planner.FromClause
import BrewDB.Planner.FromPicture
import BrewDB.Planner.TableNames
import BrewDB.Planner.LexicalScope
import BrewDB.Planner.TableScoping
import BrewDB.Runtime.ExecutionGraph
import BrewDB.Runtime.Scheduler
import BrewDB.Runtime.Exchange
import BrewDB.Runtime.Channels
import BrewDB.Planner.Constructed
import BrewDB.Runtime.Routing
import BrewDB.Runtime.ExchangeBuffer
import BrewDB.Execution.RemoteScan
import BrewDB.Execution.Executor
import BrewDB.Execution.Query
import BrewDB.Execution.Invariants
import BrewDB.Execution.Delivery
import BrewDB.Execution.Outcome
import BrewDB.Execution.Isolation
import BrewDB.Semantics.Relational
import BrewDB.Semantics.Distributed
import BrewDB.Semantics.Regions
import BrewDB.Semantics.Deployment
import BrewDB.Semantics.Agreement
import BrewDB.Catalog.Path
import BrewDB.Catalog.PaimonSchema
import BrewDB.Catalog.Store
import BrewDB.Catalog.Managed
import BrewDB.Catalog.Operations
import BrewDB.Catalog.InStep
import BrewDB.Catalog.Creation
import BrewDB.Catalog.Concurrent
import BrewDB.Catalog.Service
import BrewDB.Planner.CreateTable
import BrewDB.Planner.DeclaredTable
import BrewDB.Storage.EngineSchema
import BrewDB.Common.RoundRobin
import BrewDB.Common.NewestVersion
import BrewDB.Runtime.RowRouting
import BrewDB.Runtime.LocalFragment
import BrewDB.Storage.WorkUnits
import BrewDB.Storage.MergedScan
import BrewDB.Storage.SequenceNumbers
import BrewDB.Common.ByteCodec
import BrewDB.Frontend.Wire
import BrewDB.Frontend.Reading
import BrewDB.Frontend.Connection
import BrewDB.Planner.Command
import BrewDB.Planner.Ddl
import BrewDB.Execution.Command
import BrewDB.Frontend.RowShape
import BrewDB.Select.QueryPlan
import BrewDB.Select.DistinctOn
import BrewDB.Select.Rebase
import BrewDB.Select.OrderBy
import BrewDB.Select.JoinCondition
import BrewDB.Select.Interval
import BrewDB.Select.BindExpr
import BrewDB.Select.Names
import BrewDB.Storage.TemporalLiteral
import BrewDB.Common.Layers
import BrewDB.Common.Checked
import BrewDB.Frontend.Decoding
import BrewDB.Frontend.Offsets
import BrewDB.Frontend.Startup
import BrewDB.Frontend.CellText
import BrewDB.Execution.Statements
import BrewDB.Execution.DdlFlags
import BrewDB.Execution.DatabaseNames
import BrewDB.Config.ConfigSet
import BrewDB.Config.Layering
import BrewDB.Common.Stream
import BrewDB.Frontend.Session
import BrewDB.Frontend.Dialogue
import BrewDB.Config.Loader
import BrewDB.Config.Views
import BrewDB.Catalog.Bootstrap
import BrewDB.Server.Start
import BrewDB.Runtime.ExchangeDrain
import BrewDB.Common.Quoting
import BrewDB.Parser.StringLiterals
import BrewDB.Common.Climbing
import BrewDB.Parser.Expression
import BrewDB.Parser.Grouping
import BrewDB.Execution.WriteStatement
