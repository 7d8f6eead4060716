import BrewDB.Planner.LogicalPlan

/-!
# Exchange nodes and remote sources

Reference: `brewdb-planner/src/distributed/exchange.rs`.
-/

namespace BrewDB

/-- Whether an exchange stays on one worker. -/
inductive ExchangeScope where
  | localScope
  | remoteScope
deriving DecidableEq, Repr

/-- How an exchange distributes its rows over the target instances. -/
inductive ExchangeType where
  | gather
  | repartition
  | replicate
deriving DecidableEq, Repr

/-- Partition keys and the column layout of an exchange. -/
structure PartitioningScheme where
  partitionKeys : List Column
  outputLayout : List Column
deriving DecidableEq, Repr

namespace PartitioningScheme

/-- One partition. -/
def single : PartitioningScheme := ⟨[], []⟩

/-- Partitioning by the hash of the keys. -/
def hash (partitionKeys : List Column) : PartitioningScheme := ⟨partitionKeys, []⟩

/-- `with_output_layout`. -/
def withOutputLayout (scheme : PartitioningScheme) (outputLayout : List Column) :
    PartitioningScheme :=
  { scheme with outputLayout := outputLayout }

end PartitioningScheme

/-- An edge of the fragment graph. -/
structure ExchangeNode where
  sourceFragmentId : PlanFragmentId
  targetFragmentId : PlanFragmentId
  scope : ExchangeScope
  exchangeType : ExchangeType
  partitioningScheme : PartitioningScheme
deriving DecidableEq, Repr

namespace ExchangeNode

/-- All rows to the target. -/
def gather (source target : PlanFragmentId) : ExchangeNode :=
  ⟨source, target, .remoteScope, .gather, .single⟩

/-- Rows spread over the target instances by key. -/
def repartition (source target : PlanFragmentId) (scheme : PartitioningScheme) : ExchangeNode :=
  ⟨source, target, .remoteScope, .repartition, scheme⟩

/-- All rows to every target instance. -/
def replicate (source target : PlanFragmentId) : ExchangeNode :=
  ⟨source, target, .remoteScope, .replicate, .single⟩

end ExchangeNode

/-- `RemoteSourceNode::plan`: the placeholder for the output of one other fragment. -/
def RemoteSourceNode.plan (sourceFragmentId : PlanFragmentId) (schema : DFSchema) : LogicalPlan :=
  .remoteSource [sourceFragmentId] schema

end BrewDB
