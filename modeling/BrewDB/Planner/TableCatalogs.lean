import BrewDB.Planner.Fragment

/-!
# The tables of a statement

Reference: `collect_table_catalogs` of `brewdb-planner/src/distributed/fragment.rs`.

Every worker is handed the tables of the whole statement, in the order the plan names them. A table that is named
twice is listed once, where it is named first; the target of a write comes before the tables of its input.
-/

namespace BrewDB

/-- The table of BrewDB's logical source (`downcast_ref::<DefaultTableSource>`). -/
def TableSource.defaultTable : TableSource → Option TableCatalogEntry
  | .default table => some table
  | _ => none

/-- `push_table_catalog`. -/
def pushTableCatalog (tables : List TableCatalogEntry) : Option TableCatalogEntry → List TableCatalogEntry
  | none => tables
  | some table =>
      if tables.any fun existing => existing.tableId = table.tableId then tables else tables ++ [table]

mutual
/-- `collect_table_catalogs_into`. -/
def collectTableCatalogsInto : LogicalPlan → List TableCatalogEntry → List TableCatalogEntry
  | .tableScan scan, tables => pushTableCatalog tables scan.source.defaultTable
  | .other (.dml _ target _) inputs, tables =>
      collectInputsTableCatalogsInto inputs (pushTableCatalog tables target.defaultTable)
  | .unary _ input, tables => collectTableCatalogsInto input tables
  | .union inputs _, tables => collectInputsTableCatalogsInto inputs tables
  | .aggregate _ input, tables => collectTableCatalogsInto input tables
  | .join _ left right, tables => collectTableCatalogsInto right (collectTableCatalogsInto left tables)
  | .remoteSource _ _, tables => tables
  | .other _ inputs, tables => collectInputsTableCatalogsInto inputs tables

/-- The loop over a node's inputs. -/
def collectInputsTableCatalogsInto : List LogicalPlan → List TableCatalogEntry → List TableCatalogEntry
  | [], tables => tables
  | p :: ps, tables => collectInputsTableCatalogsInto ps (collectTableCatalogsInto p tables)
end

/-- `collect_table_catalogs`. -/
def collectTableCatalogs (root : LogicalPlan) : List TableCatalogEntry := collectTableCatalogsInto root []

/-! ## What is collected -/

/-- The tables a node names itself. -/
def OtherNode.targetTables : OtherNode → List TableCatalogEntry
  | .dml _ target _ => target.defaultTable.toList
  | _ => []

namespace LogicalPlan

mutual
/-- The tables of the logical sources of a plan, in traversal order. -/
def sourceTables : LogicalPlan → List TableCatalogEntry
  | tableScan scan => scan.source.defaultTable.toList
  | unary _ input => sourceTables input
  | union inputs _ => allSourceTables inputs
  | aggregate _ input => sourceTables input
  | join _ left right => sourceTables left ++ sourceTables right
  | remoteSource _ _ => []
  | other node inputs => node.targetTables ++ allSourceTables inputs

/-- The tables of all inputs. -/
def allSourceTables : List LogicalPlan → List TableCatalogEntry
  | [] => []
  | p :: ps => sourceTables p ++ allSourceTables ps
end

end LogicalPlan

/-- One table after another. -/
def pushTableCatalogs (tables new : List TableCatalogEntry) : List TableCatalogEntry :=
  new.foldl (fun tables table => pushTableCatalog tables (some table)) tables

theorem pushTableCatalog_eq (tables : List TableCatalogEntry) (table : Option TableCatalogEntry) :
    pushTableCatalog tables table = pushTableCatalogs tables table.toList := by
  cases table <;> rfl

theorem pushTableCatalogs_append (tables first rest : List TableCatalogEntry) :
    pushTableCatalogs tables (first ++ rest) = pushTableCatalogs (pushTableCatalogs tables first) rest :=
  List.foldl_append

/-- The inputs of a node are collected one after another. -/
theorem collectInputs_eq_push {ps : List LogicalPlan}
    (h : ∀ p ∈ ps, ∀ tables, collectTableCatalogsInto p tables = pushTableCatalogs tables p.sourceTables)
    (tables : List TableCatalogEntry) :
    collectInputsTableCatalogsInto ps tables = pushTableCatalogs tables (LogicalPlan.allSourceTables ps) := by
  induction ps generalizing tables with
  | nil => rfl
  | cons p ps ih =>
      rw [List.forall_mem_cons] at h
      rw [collectInputsTableCatalogsInto, h.1, ih h.2, LogicalPlan.allSourceTables, pushTableCatalogs_append]

/-- Collecting pushes the tables of the plan in the order it names them. -/
theorem collectTableCatalogsInto_eq_push (p : LogicalPlan) (tables : List TableCatalogEntry) :
    collectTableCatalogsInto p tables = pushTableCatalogs tables p.sourceTables := by
  induction p generalizing tables with
  | tableScan scan => rw [collectTableCatalogsInto, pushTableCatalog_eq, LogicalPlan.sourceTables]
  | unary node input ih => rw [collectTableCatalogsInto, ih, LogicalPlan.sourceTables]
  | union inputs schema ih =>
      rw [collectTableCatalogsInto, collectInputs_eq_push ih, LogicalPlan.sourceTables]
  | aggregate agg input ih => rw [collectTableCatalogsInto, ih, LogicalPlan.sourceTables]
  | join j left right ihl ihr =>
      rw [collectTableCatalogsInto, ihl, ihr, LogicalPlan.sourceTables, pushTableCatalogs_append]
  | remoteSource ids schema => rw [collectTableCatalogsInto, LogicalPlan.sourceTables]; rfl
  | other node inputs ih =>
      rw [LogicalPlan.sourceTables, pushTableCatalogs_append]
      cases node with
      | dml tableName target schema =>
          rw [collectTableCatalogsInto, collectInputs_eq_push ih, pushTableCatalog_eq]
          rfl
      | emptyRelation | values | node =>
          rw [collectTableCatalogsInto, collectInputs_eq_push ih]
          · rfl
          · nofun

/-- Nothing else is collected. -/
theorem mem_of_mem_pushTableCatalogs {tables new : List TableCatalogEntry} {table : TableCatalogEntry}
    (h : table ∈ pushTableCatalogs tables new) : table ∈ tables ∨ table ∈ new := by
  induction new generalizing tables with
  | nil => exact .inl h
  | cons first rest ih =>
      have hpush : table ∈ pushTableCatalog tables (some first) ∨ table ∈ rest := ih h
      rcases hpush with hpushed | hrest
      · rw [pushTableCatalog] at hpushed
        split at hpushed
        · exact .inl hpushed
        · rcases List.mem_append.mp hpushed with hold | hfirst
          · exact .inl hold
          · exact .inr (List.mem_singleton.mp hfirst ▸ List.mem_cons_self)
      · exact .inr (List.mem_cons_of_mem _ hrest)

/-- What is listed stays in its place. -/
theorem prefix_pushTableCatalogs (tables new : List TableCatalogEntry) : tables <+: pushTableCatalogs tables new := by
  induction new generalizing tables with
  | nil => exact List.prefix_rfl
  | cons first rest ih =>
      refine List.IsPrefix.trans ?_ (ih (pushTableCatalog tables (some first)))
      rw [pushTableCatalog]
      split
      · exact List.prefix_rfl
      · exact List.prefix_append _ _

/-- Every collected table is one of the plan. -/
theorem mem_sourceTables_of_collect {p : LogicalPlan} {table : TableCatalogEntry}
    (h : table ∈ collectTableCatalogs p) : table ∈ p.sourceTables := by
  rw [collectTableCatalogs, collectTableCatalogsInto_eq_push] at h
  exact (mem_of_mem_pushTableCatalogs h).resolve_left List.not_mem_nil

/-- The target of a write at the top of a plan is listed first. -/
theorem collectTableCatalogs_write (tableName : TableReference) (target : TableCatalogEntry) (schema : DFSchema)
    (inputs : List LogicalPlan) : ∃ rest,
    collectTableCatalogs (.other (.dml tableName (.default target) schema) inputs) = target :: rest := by
  have hpush : collectTableCatalogs (.other (.dml tableName (.default target) schema) inputs) =
      pushTableCatalogs [target] (LogicalPlan.allSourceTables inputs) := by
    rw [collectTableCatalogs, collectTableCatalogsInto_eq_push, LogicalPlan.sourceTables, pushTableCatalogs_append]
    rfl
  obtain ⟨rest, hrest⟩ := prefix_pushTableCatalogs [target] (LogicalPlan.allSourceTables inputs)
  exact ⟨rest, hpush.trans hrest.symm⟩

end BrewDB
