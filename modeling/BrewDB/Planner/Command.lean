import BrewDB.Planner.CreateTable

/-!
# Commands

Reference: `brewdb-planner/src/logical/command.rs` and `plan.rs`.

A planned statement whose root is a command is executed by the coordinator itself; anything else is cut into
fragments. The root also decides the command tag and whether rows are returned.
-/

namespace BrewDB.Catalog

/-- `Show`. -/
inductive Show where
  | catalogs
  | databases (catalogName : String)
  | tables (catalogName databaseName : String)
deriving DecidableEq, Repr

/-- `Ddl`. -/
inductive Ddl where
  | createDatabase (catalogName databaseName : String)
  | dropDatabase (catalogName databaseName : String)
deriving DecidableEq, Repr

/-- `LogicalPlanNode`: the nodes DataFusion does not have. -/
inductive LogicalPlanNode where
  | show (node : Show)
  | ddl (node : Ddl)
deriving DecidableEq, Repr

/-- DataFusion's `DropTable`. -/
structure DropTable where
  name : BrewDB.TablePath
  ifExists : Bool

/-- DataFusion's `DdlStatement`. -/
inductive DdlStatement where
  | createExternalTable (statement : CreateExternalTable)
  | dropTable (statement : DropTable)
  | other

/-- DataFusion's `SetVariable`. -/
structure SetVariable where
  name : String
  value : String
deriving DecidableEq, Repr

/-- A logical plan by its root. Nodes that are no commands come with their schema. -/
inductive RootPlan where
  | explain (schema : List Field)
  | dml
  | ddl (statement : DdlStatement)
  /-- An extension node, if it is one of BrewDB's. -/
  | extension (node : Option LogicalPlanNode)
  | statement (statement : SetVariable)
  | other (schema : List Field)

/-- `CommandPlan`. -/
inductive CommandPlan where
  | ddl (statement : DdlStatement)
  | extension (node : LogicalPlanNode)
  | statement (statement : SetVariable)

namespace RootPlan

/-- `command_plan`. -/
def commandPlan : RootPlan → Option CommandPlan
  | .ddl stmt => some (.ddl stmt)
  | .extension node => node.map .extension
  | .statement stmt => some (.statement stmt)
  | _ => none

/-- `command_tag_for_extension`. -/
def commandTagForExtension : LogicalPlanNode → String
  | .show .catalogs => "SHOW CATALOGS"
  | .show (.databases _) => "SHOW DATABASES"
  | .show (.tables _ _) => "SHOW TABLES"
  | .ddl (.createDatabase _ _) => "CREATE DATABASE"
  | .ddl (.dropDatabase _ _) => "DROP DATABASE"

/-- `command_tag`, as text. -/
def commandTag : RootPlan → String
  | .explain _ => "EXPLAIN"
  | .dml => "INSERT"
  | .ddl (.createExternalTable _) => "CREATE TABLE"
  | .ddl (.dropTable _) => "DROP TABLE"
  | .ddl .other => "DDL"
  | .extension node => (node.map commandTagForExtension).getD "EXTENSION"
  | .statement _ => "STATEMENT"
  | .other _ => "SELECT"

/-- `returns_rows_for_extension`. -/
def returnsRowsForExtension : LogicalPlanNode → Bool
  | .show _ => true
  | .ddl _ => false

/-- `returns_rows`. -/
def returnsRows : RootPlan → Bool
  | .dml => false
  | .ddl _ => false
  | .extension node => node.any returnsRowsForExtension
  | .statement _ => false
  | .explain _ => true
  | .other _ => true

/-- The output schema of a plan that returns rows. BrewDB's own nodes have an empty one. -/
def schema : RootPlan → List Field
  | .explain schema => schema
  | .other schema => schema
  | _ => []

end RootPlan

end BrewDB.Catalog
