import BrewDB.Planner.Fragment

/-!
# Execution graphs

Reference: `brewdb-execution/src/runtime/execution_graph.rs`, `runtime/fragment.rs` and the channel
descriptors of `runtime/exchange.rs`.

The query context is carried along unread and left out.
-/

namespace BrewDB

/-- The id of one exchange channel (`u32` newtype). -/
abbrev ExchangeId := ℕ

/-- One channel: from one instance of the source fragment to one instance of the target fragment. -/
structure ExchangeChannelDescriptor where
  exchangeId : ExchangeId
  sourceFragmentId : PlanFragmentId
  targetFragmentId : PlanFragmentId
  sourceInstanceId : Uuid
  targetInstanceId : Uuid
  sourceWorkerId : Uuid
  sourceEndpoint : String
  targetWorkerId : Uuid
  targetEndpoint : String
  scope : ExchangeScope
  exchangeType : ExchangeType
  partitioningScheme : PartitioningScheme
deriving DecidableEq, Repr

/-- A fragment to be executed. -/
structure ExecutionFragment where
  fragment : PlanFragment

/-- `fragment_id`. -/
def ExecutionFragment.fragmentId (f : ExecutionFragment) : PlanFragmentId := f.fragment.fragmentId

/-- One instance of a fragment on one worker. -/
structure FragmentInstance where
  instanceId : Uuid
  executionFragment : ExecutionFragment
  workerId : Uuid
  endpoint : String
  tableScanSplit : Option TableScanSplit
  tableCatalogs : List TableCatalogEntry
  exchangeInputs : List ExchangeChannelDescriptor
  exchangeOutputs : List ExchangeChannelDescriptor

namespace FragmentInstance

/-- An instance as the scheduler leaves it, without its channels. -/
def scheduled (instanceId : Uuid) (executionFragment : ExecutionFragment) (workerId : Uuid)
    (endpoint : String) (tableScanSplit : Option TableScanSplit) : FragmentInstance :=
  ⟨instanceId, executionFragment, workerId, endpoint, tableScanSplit, [], [], []⟩

/-- `fragment_id`. -/
def fragmentId (inst : FragmentInstance) : PlanFragmentId := inst.executionFragment.fragmentId

end FragmentInstance

/-- The fragments of a query and their instances. -/
structure ExecutionGraph where
  fragments : List ExecutionFragment
  instances : List FragmentInstance

/-- `from_plan_fragments`. -/
def ExecutionGraph.fromPlanFragments (fragments : List PlanFragment) : ExecutionGraph :=
  ⟨fragments.map ExecutionFragment.mk, []⟩

end BrewDB
