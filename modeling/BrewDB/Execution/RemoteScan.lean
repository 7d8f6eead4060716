import BrewDB.Common.ExceptState
import BrewDB.Runtime.ExecutionGraph

/-!
# Remote sources on a worker

Reference: `remote_source_single_qualifier` and `LocalFragmentExecutor::materialize_exchange_inputs` of
`brewdb-execution/src/execution/executor.rs`.

Before a worker plans its fragment, every remote source is replaced by a scan of the exchange stream.
The scan takes the Arrow fields of the source and one qualifier for all of them, so it answers the
references of the fragment only if the source had one qualifier and no name twice.
-/

namespace BrewDB

/-! ## Resolving a reference -/

namespace DFSchema

/-- The names of the fields, in order. -/
def names (schema : DFSchema) : List String := schema.asArrow.map Field.name

/-- The position a reference resolves to: a qualified one needs the exact qualifier and name, an
unqualified one the only field of its name. -/
def resolve (schema : DFSchema) (column : Column) : Option ℕ :=
  match column.relation with
  | some relation =>
      schema.qualifiedFields.findIdx? fun f => f.1 = some relation && f.2.name = column.name
  | none =>
      if schema.names.count column.name = 1 then schema.names.findIdx? (· = column.name) else none

/-- Every reference that resolves in the one schema resolves to the same position in the other. -/
def Keeps (schema schema' : DFSchema) : Prop :=
  ∀ column i, schema.resolve column = some i → schema'.resolve column = some i

theorem Keeps.refl (schema : DFSchema) : Keeps schema schema := fun _ _ h => h

/-- All fields under one qualifier. -/
def qualifiedBy (qualifier : TableReference) (fields : List Field) : DFSchema :=
  ⟨fields.map fun f => (some qualifier, f)⟩

/-- `DFSchema::try_from_qualified_schema`: a name may not occur twice. -/
def tryFromQualifiedSchema (qualifier : TableReference) (fields : List Field) :
    Except String DFSchema :=
  if (fields.map Field.name).Nodup then .ok (qualifiedBy qualifier fields)
  else .error "Schema error: Schema contains duplicate qualified field name"

/-- At most one qualifier occurs. -/
def OneQualifier (schema : DFSchema) : Prop :=
  ∀ f ∈ schema.qualifiedFields, ∀ g ∈ schema.qualifiedFields, ∀ q r,
    f.1 = some q → g.1 = some r → q = r

end DFSchema

/-! ## The replacement -/

/-- The loop of `remote_source_single_qualifier`, with the qualifier found so far. -/
def singleQualifierFrom : Option TableReference → List (Option TableReference × Field) →
    Option TableReference
  | qualifier, [] => qualifier
  | qualifier, (none, _) :: rest => singleQualifierFrom qualifier rest
  | some existing, (some fieldQualifier, _) :: rest =>
      if existing ≠ fieldQualifier then none else singleQualifierFrom (some existing) rest
  | none, (some fieldQualifier, _) :: rest => singleQualifierFrom (some fieldQualifier) rest

/-- `remote_source_single_qualifier`. -/
def remoteSourceSingleQualifier (schema : DFSchema) : Option TableReference :=
  singleQualifierFrom none schema.qualifiedFields

/-- The exchanges of one source fragment, in the order of the inputs. -/
def exchangeIdsOf (exchangeInputs : List ExchangeChannelDescriptor) (sourceFragmentId : PlanFragmentId) :
    Except String (List ExchangeId) :=
  match exchangeInputs.filter (·.sourceFragmentId = sourceFragmentId) with
  | [] => .error s!"Error during planning: exchange input for fragment PlanFragmentId({sourceFragmentId}) is missing"
  | channels => .ok (channels.map (·.exchangeId))

/-- The name a remote source is scanned under. -/
def fragmentTableName (sourceFragmentId : PlanFragmentId) : TableReference :=
  .bare s!"__brewdb_fragment_{sourceFragmentId}"

/-- `LogicalPlanBuilder::scan` of a stream. -/
def scanExchangeStream (tableName : TableReference) (fields : List Field)
    (exchangeIds : List ExchangeId) : Except String LogicalPlan := do
  let projectedSchema ← DFSchema.tryFromQualifiedSchema tableName fields
  return .tableScan ⟨tableName, .exchangeStream fields exchangeIds, none, [], none, projectedSchema⟩

/-- `LogicalPlanBuilder::alias`. -/
def aliasPlan (qualifier : TableReference) (plan : LogicalPlan) : Except String LogicalPlan := do
  let schema ← DFSchema.tryFromQualifiedSchema qualifier plan.schema.asArrow
  return .unary (.subqueryAlias qualifier schema) plan

/-- What a remote source becomes. -/
def materializeRemoteSource (exchangeInputs : List ExchangeChannelDescriptor)
    (sourceFragmentIds : List PlanFragmentId) (schema : DFSchema) : Except String LogicalPlan := do
  let exchangeIds ← sourceFragmentIds.mapM (exchangeIdsOf exchangeInputs)
  match sourceFragmentIds with
  | [] => .error "index out of bounds: the len is 0 but the index is 0"
  | first :: _ =>
      let scan ← scanExchangeStream (fragmentTableName first) schema.asArrow exchangeIds.flatten
      match remoteSourceSingleQualifier schema with
      | some qualifier => aliasPlan qualifier scan
      | none => return scan

mutual
/-- `materialize_exchange_inputs`. The nodes above a remote source keep their own fields. -/
def materializeExchangeInputs (exchangeInputs : List ExchangeChannelDescriptor) :
    LogicalPlan → Except String LogicalPlan
  | .tableScan scan => .ok (.tableScan scan)
  | .unary node input => do return .unary node (← materializeExchangeInputs exchangeInputs input)
  | .union inputs schema => do return .union (← materializeInputs exchangeInputs inputs) schema
  | .aggregate agg input => do return .aggregate agg (← materializeExchangeInputs exchangeInputs input)
  | .join j left right => do
      let left ← materializeExchangeInputs exchangeInputs left
      let right ← materializeExchangeInputs exchangeInputs right
      return .join j left right
  | .remoteSource ids schema => materializeRemoteSource exchangeInputs ids schema
  | .other node inputs => do return .other node (← materializeInputs exchangeInputs inputs)

/-- The inputs of a node, one by one. -/
def materializeInputs (exchangeInputs : List ExchangeChannelDescriptor) :
    List LogicalPlan → Except String (List LogicalPlan)
  | [] => .ok []
  | input :: inputs => do
      let input ← materializeExchangeInputs exchangeInputs input
      let inputs ← materializeInputs exchangeInputs inputs
      return input :: inputs
end

/-! ## The references of a plan -/

/-- The column references of some expressions. -/
def Expr.columnsOf (exprs : List Expr) : List Column := exprs.flatMap Expr.columnOccurrences

/-- The column references of a node with one input. -/
def UnaryNode.columns : UnaryNode → List Column
  | .projection expr _ => Expr.columnsOf expr
  | .filter predicate => predicate.columnOccurrences
  | .subqueryAlias _ _ => []
  | .sort expr _ => Expr.columnsOf (expr.map (·.expr))
  | .limit skip fetch => Expr.columnsOf (skip.toList ++ fetch.toList)
  | .repartition (.roundRobinBatch _) => []
  | .repartition (.hash exprs _) => Expr.columnsOf exprs
  | .repartition (.distributeBy exprs) => Expr.columnsOf exprs
  | .window windowExpr _ => Expr.columnsOf windowExpr
  | .distinctAll => []
  | .distinctOn onExpr selectExpr sortExpr _ =>
      Expr.columnsOf (onExpr ++ selectExpr ++ (sortExpr.getD []).map (·.expr))

/-- A reference with the schemas it may resolve in: that of the input, or those of both sides of a
join. -/
abbrev Site := Column × List DFSchema

mutual
/-- The references of a plan, every one with the schemas of the inputs of its node. -/
def LogicalPlan.sites : LogicalPlan → List Site
  | .tableScan _ => []
  | .unary node input => node.columns.map (·, [input.schema]) ++ sites input
  | .union inputs _ => sitesOfInputs inputs
  | .aggregate agg input =>
      (Expr.columnsOf (agg.groupExpr ++ agg.aggrExpr)).map (·, [input.schema]) ++ sites input
  | .join j left right =>
      (Expr.columnsOf (j.onKeys.map Prod.fst)).map (·, [left.schema]) ++
        (Expr.columnsOf (j.onKeys.map Prod.snd)).map (·, [right.schema]) ++
        (Expr.columnsOf j.filter.toList).map (·, [left.schema, right.schema]) ++
        sites left ++ sites right
  | .remoteSource _ _ => []
  | .other _ inputs => sitesOfInputs inputs

/-- The references of all inputs. -/
def LogicalPlan.sitesOfInputs : List LogicalPlan → List Site
  | [] => []
  | input :: inputs => sites input ++ sitesOfInputs inputs
end

/-- Every reference resolves. -/
def LogicalPlan.Plans (plan : LogicalPlan) : Prop :=
  ∀ site ∈ plan.sites, ∃ schema ∈ site.2, (schema.resolve site.1).isSome

instance (plan : LogicalPlan) : Decidable plan.Plans :=
  inferInstanceAs (Decidable (∀ site ∈ plan.sites, ∃ schema ∈ site.2, (schema.resolve site.1).isSome))

/-- The same references, each in schemas that keep it. -/
def SitesKept (sites sites' : List Site) : Prop :=
  List.Forall₂ (fun site site' => site.1 = site'.1 ∧ List.Forall₂ DFSchema.Keeps site.2 site'.2)
    sites sites'

/-- A worker that keeps the references can plan the fragment. -/
theorem LogicalPlan.Plans.of_sitesKept {plan plan' : LogicalPlan} (h : plan.Plans)
    (hkept : SitesKept plan.sites plan'.sites) : plan'.Plans := by
  intro site' hsite'
  obtain ⟨site, hsite, hcolumn, hschemas⟩ := ForallTwo.exists_left hkept hsite'
  obtain ⟨schema, hschema, hresolves⟩ := h site hsite
  obtain ⟨i, hi⟩ := Option.isSome_iff_exists.mp hresolves
  obtain ⟨schema', hschema', hkeeps⟩ := ForallTwo.exists_right hschemas hschema
  exact ⟨schema', hschema', Option.isSome_iff_exists.mpr ⟨i, hcolumn ▸ hkeeps _ i hi⟩⟩

/-! ## One remote source -/

namespace DFSchema

variable {schema : DFSchema} {qualifier relation : TableReference} {name : String} {i : ℕ}

@[simp] theorem asArrow_qualifiedBy (fields : List Field) : (qualifiedBy qualifier fields).asArrow = fields := by
  simp [asArrow, qualifiedBy, Function.comp_def]

/-- A qualified reference resolves to a field with its qualifier and name. -/
theorem exists_of_resolve_qualified (h : schema.resolve ⟨some relation, name⟩ = some i) :
    ∃ f, schema.qualifiedFields[i]? = some f ∧ f.1 = some relation ∧ f.2.name = name := by
  obtain ⟨hi, hmatch, -⟩ := List.findIdx?_eq_some_iff_getElem.mp h
  refine ⟨schema.qualifiedFields[i], List.getElem?_eq_getElem hi, ?_⟩
  simpa using hmatch

/-- A field with a qualifier can be referred to. -/
theorem exists_resolve_of_mem {f : Option TableReference × Field} (hf : f ∈ schema.qualifiedFields)
    (hrelation : f.1 = some relation) : ∃ i, schema.resolve ⟨some relation, f.2.name⟩ = some i := by
  rw [← Option.isSome_iff_exists, resolve, List.findIdx?_isSome, List.any_eq_true]
  exact ⟨f, hf, by simp [hrelation]⟩

/-- Unqualified references see the names only. -/
theorem resolve_unqualified_congr {schema' : DFSchema} (h : schema.names = schema'.names) :
    schema.resolve ⟨none, name⟩ = schema'.resolve ⟨none, name⟩ := by
  simp only [resolve, h]

/-- Where no name occurs twice, a reference with the common qualifier resolves to the field of its name. -/
theorem resolve_qualifiedBy {fields : List Field} (hnames : (fields.map Field.name).Nodup)
    {f : Field} (hf : fields[i]? = some f) :
    (qualifiedBy qualifier fields).resolve ⟨some qualifier, f.name⟩ = some i := by
  obtain ⟨hi, rfl⟩ := List.getElem?_eq_some_iff.mp hf
  refine List.findIdx?_eq_some_iff_getElem.mpr ⟨by simpa [qualifiedBy] using hi, ?_, ?_⟩
  · simp [qualifiedBy]
  · intro j hj hmatch
    have hjlt : j < fields.length := hj.trans hi
    have hname : fields[j].name = fields[i].name := by simpa [qualifiedBy] using hmatch
    refine List.nodup_iff_getElem?_ne_getElem?.mp hnames j i hj (by simpa using hi) ?_
    simp [hjlt, hi, hname]

end DFSchema

/-- With the qualifier found, nothing else is. -/
theorem singleQualifierFrom_some {qualifier : TableReference}
    {fields : List (Option TableReference × Field)} (h : ∀ f ∈ fields, ∀ r, f.1 = some r → r = qualifier) :
    singleQualifierFrom (some qualifier) fields = some qualifier := by
  induction fields with
  | nil => rfl
  | cons f fields ih =>
      obtain ⟨relation, field⟩ := f
      have hrest := ih fun g hg => h g (List.mem_cons_of_mem _ hg)
      cases relation with
      | none => exact hrest
      | some relation =>
          have hrelation := h (some relation, field) List.mem_cons_self relation rfl
          rw [singleQualifierFrom, hrelation, if_neg (by simp), hrest]

/-- A qualifier that is the only one is found. -/
theorem singleQualifierFrom_none {qualifier : TableReference}
    {fields : List (Option TableReference × Field)} (h : ∀ f ∈ fields, ∀ r, f.1 = some r → r = qualifier)
    (hmem : ∃ f ∈ fields, f.1 = some qualifier) : singleQualifierFrom none fields = some qualifier := by
  induction fields with
  | nil => simp at hmem
  | cons f fields ih =>
      obtain ⟨relation, field⟩ := f
      cases relation with
      | none =>
          obtain ⟨g, hg, hqualifier⟩ := hmem
          rcases List.mem_cons.mp hg with rfl | hg
          · cases hqualifier
          · exact ih (fun g hg => h g (List.mem_cons_of_mem _ hg)) ⟨g, hg, hqualifier⟩
      | some relation =>
          have hrelation := h (some relation, field) List.mem_cons_self relation rfl
          rw [singleQualifierFrom, hrelation]
          exact singleQualifierFrom_some fun g hg => h g (List.mem_cons_of_mem _ hg)

/-- The fragments have exchange inputs. -/
def Wired (exchangeInputs : List ExchangeChannelDescriptor) (sourceFragmentIds : List PlanFragmentId) :
    Prop :=
  sourceFragmentIds ≠ [] ∧
    ∀ id ∈ sourceFragmentIds, ∃ channel ∈ exchangeInputs, channel.sourceFragmentId = id

/-- A fragment with a channel has its exchanges. -/
theorem exists_exchangeIdsOf_iff {exchangeInputs : List ExchangeChannelDescriptor}
    {sourceFragmentId : PlanFragmentId} :
    (∃ ids, exchangeIdsOf exchangeInputs sourceFragmentId = .ok ids) ↔
      ∃ channel ∈ exchangeInputs, channel.sourceFragmentId = sourceFragmentId := by
  unfold exchangeIdsOf
  cases hchannels : exchangeInputs.filter (·.sourceFragmentId = sourceFragmentId) with
  | nil =>
      have hnone := List.filter_eq_nil_iff.mp hchannels
      simpa using hnone
  | cons channel channels =>
      have hmem : channel ∈ exchangeInputs.filter (·.sourceFragmentId = sourceFragmentId) := by
        simp [hchannels]
      have hchannel := List.mem_filter.mp hmem
      simp only [Except.ok.injEq, exists_eq', true_iff]
      exact ⟨channel, hchannel.1, by simpa using hchannel.2⟩

/-- The scan of a remote source has its Arrow fields, with no name twice, under one qualifier: that of
the source if it has a single one. It refers to no column. -/
theorem schema_of_materializeRemoteSource {exchangeInputs : List ExchangeChannelDescriptor}
    {sourceFragmentIds : List PlanFragmentId} {schema : DFSchema} {plan : LogicalPlan}
    (h : materializeRemoteSource exchangeInputs sourceFragmentIds schema = .ok plan) :
    Wired exchangeInputs sourceFragmentIds ∧ schema.names.Nodup ∧ plan.sites = [] ∧
      ∃ qualifier, plan.schema = .qualifiedBy qualifier schema.asArrow ∧
        ∀ single, remoteSourceSingleQualifier schema = some single → qualifier = single := by
  obtain ⟨exchangeIds, hexchangeIds, h⟩ := ExceptRun.bind_eq_ok.mp h
  have hwired : ∀ id ∈ sourceFragmentIds, ∃ channel ∈ exchangeInputs, channel.sourceFragmentId = id := by
    intro id hid
    obtain ⟨ids, -, hids⟩ := ForallTwo.exists_right (ExceptRun.mapM_eq_ok.mp hexchangeIds) hid
    exact exists_exchangeIdsOf_iff.mp ⟨ids, hids⟩
  cases sourceFragmentIds with
  | nil => cases h
  | cons first rest =>
      obtain ⟨scan, hscan, h⟩ := ExceptRun.bind_eq_ok.mp h
      obtain ⟨projectedSchema, hprojected, hscan⟩ := ExceptRun.bind_eq_ok.mp hscan
      obtain rfl := ExceptRun.pure_eq_ok.mp hscan
      unfold DFSchema.tryFromQualifiedSchema at hprojected
      split at hprojected
      next hnames =>
        obtain rfl := Except.ok.inj hprojected
        refine ⟨⟨by simp, hwired⟩, hnames, ?_⟩
        cases hsingle : remoteSourceSingleQualifier schema with
        | none =>
            simp only [hsingle] at h
            obtain rfl := ExceptRun.pure_eq_ok.mp h
            exact ⟨rfl, _, rfl, by simp⟩
        | some qualifier =>
            simp only [hsingle] at h
            obtain ⟨aliased, haliased, h⟩ := ExceptRun.bind_eq_ok.mp h
            obtain rfl := ExceptRun.pure_eq_ok.mp h
            refine ⟨rfl, qualifier, ?_, by simp⟩
            simp only [LogicalPlan.schema, DFSchema.asArrow_qualifiedBy, DFSchema.tryFromQualifiedSchema,
              if_pos hnames] at haliased
            exact (Except.ok.inj haliased).symm
      next => cases hprojected

/-- A wired source whose names differ is materialized. -/
theorem exists_materializeRemoteSource {exchangeInputs : List ExchangeChannelDescriptor}
    {sourceFragmentIds : List PlanFragmentId} {schema : DFSchema}
    (hwired : Wired exchangeInputs sourceFragmentIds) (hnames : schema.names.Nodup) :
    ∃ plan, materializeRemoteSource exchangeInputs sourceFragmentIds schema = .ok plan := by
  obtain ⟨exchangeIds, hexchangeIds⟩ :=
    ExceptRun.exists_mapM_eq_ok fun id hid => exists_exchangeIdsOf_iff.mpr (hwired.2 id hid)
  have hqualified : ∀ qualifier, DFSchema.tryFromQualifiedSchema qualifier schema.asArrow =
      .ok (.qualifiedBy qualifier schema.asArrow) := fun _ => if_pos hnames
  cases sourceFragmentIds with
  | nil => exact absurd rfl hwired.1
  | cons first rest =>
      have hscan : ∃ plan, scanExchangeStream (fragmentTableName first) schema.asArrow
          exchangeIds.flatten = .ok plan ∧ plan.schema.asArrow = schema.asArrow := by
        rw [scanExchangeStream, hqualified]
        exact ⟨_, rfl, by simp [LogicalPlan.schema]⟩
      obtain ⟨scan, hscan, harrow⟩ := hscan
      simp only [materializeRemoteSource, hexchangeIds, ExceptRun.bind_eq_ok, Except.ok.injEq,
        exists_eq_left', hscan]
      cases remoteSourceSingleQualifier schema with
      | none => exact ⟨scan, rfl⟩
      | some qualifier =>
          simp only [aliasPlan, harrow, hqualified]
          exact ⟨_, rfl⟩

/-- The replacement of a remote source keeps its references exactly when its fragments are wired, no
name occurs twice, and its qualified fields have one qualifier. -/
theorem keeps_materializeRemoteSource_iff {exchangeInputs : List ExchangeChannelDescriptor}
    {sourceFragmentIds : List PlanFragmentId} {schema : DFSchema} :
    (∃ plan, materializeRemoteSource exchangeInputs sourceFragmentIds schema = .ok plan ∧
        schema.Keeps plan.schema) ↔
      Wired exchangeInputs sourceFragmentIds ∧ schema.names.Nodup ∧ schema.OneQualifier := by
  constructor
  · rintro ⟨plan, hplan, hkeeps⟩
    obtain ⟨hwired, hnames, -, qualifier, hschema, -⟩ := schema_of_materializeRemoteSource hplan
    refine ⟨hwired, hnames, ?_⟩
    -- Whatever qualifier can be referred to is that of the scan.
    have hthe : ∀ f ∈ schema.qualifiedFields, ∀ r, f.1 = some r → r = qualifier := by
      intro f hf r hr
      obtain ⟨i, hi⟩ := DFSchema.exists_resolve_of_mem hf hr
      have hi' := hkeeps _ i hi
      rw [hschema] at hi'
      obtain ⟨f', hf', hrelation, -⟩ := DFSchema.exists_of_resolve_qualified hi'
      have hmem := List.mem_of_getElem? hf'
      simp only [DFSchema.qualifiedBy, List.mem_map] at hmem
      obtain ⟨field, -, rfl⟩ := hmem
      exact (Option.some.inj hrelation).symm
    intro f hf g hg q r hq hr
    rw [hthe f hf q hq, hthe g hg r hr]
  · rintro ⟨hwired, hnames, hone⟩
    obtain ⟨plan, hplan⟩ := exists_materializeRemoteSource hwired hnames
    obtain ⟨-, -, -, qualifier, hschema, hsingle⟩ := schema_of_materializeRemoteSource hplan
    refine ⟨plan, hplan, ?_⟩
    rw [hschema]
    intro column i hi
    obtain ⟨relation, name⟩ := column
    cases relation with
    | none =>
        rw [← hi]
        exact DFSchema.resolve_unqualified_congr (by simp [DFSchema.names])
    | some relation =>
        obtain ⟨f, hf, hrelation, rfl⟩ := DFSchema.exists_of_resolve_qualified hi
        have hmem := List.mem_of_getElem? hf
        have hfound : remoteSourceSingleQualifier schema = some relation :=
          singleQualifierFrom_none (fun g hg r hr => hone g hg f hmem r relation hr hrelation)
            ⟨f, hmem, hrelation⟩
        rw [hsingle relation hfound]
        exact DFSchema.resolve_qualifiedBy hnames (by simp [DFSchema.asArrow, hf])

/-! ## A whole fragment -/

/-- A remote source that can be replaced: its fragments are wired, no name occurs twice, and its
qualified fields have one qualifier. -/
def Replaceable (exchangeInputs : List ExchangeChannelDescriptor)
    (source : List PlanFragmentId × DFSchema) : Prop :=
  Wired exchangeInputs source.1 ∧ source.2.names.Nodup ∧ source.2.OneQualifier

/-- The references of one node. -/
theorem sitesKept_map (columns : List Column) {schemas schemas' : List DFSchema}
    (h : List.Forall₂ DFSchema.Keeps schemas schemas') :
    SitesKept (columns.map (·, schemas)) (columns.map (·, schemas')) := by
  refine List.forall₂_map_left_iff.mpr (List.forall₂_map_right_iff.mpr (List.forall₂_same.mpr ?_))
  intro column _
  exact ⟨rfl, h⟩

theorem SitesKept.append {sites sites' rest rest' : List Site} (h : SitesKept sites sites')
    (hrest : SitesKept rest rest') : SitesKept (sites ++ rest) (sites' ++ rest') :=
  List.rel_append h hrest

/-- The nodes with one input pass on what their input keeps. -/
theorem UnaryNode.keeps_schema {schema schema' : DFSchema} (node : UnaryNode) (h : schema.Keeps schema') :
    (node.schema schema).Keeps (node.schema schema') := by
  cases node with
  | filter predicate => exact h
  | sort expr fetch => exact h
  | limit skip fetch => exact h
  | repartition scheme => exact h
  | distinctAll => exact h
  | projection expr schema => exact .refl _
  | subqueryAlias aliasName schema => exact .refl _
  | window windowExpr schema => exact .refl _
  | distinctOn onExpr selectExpr sortExpr schema => exact .refl _

/-- The inputs of a node are replaced one by one. -/
theorem materializeInputs_sitesKept {exchangeInputs : List ExchangeChannelDescriptor}
    {inputs : List LogicalPlan}
    (h : ∀ input ∈ inputs, ∃ input', materializeExchangeInputs exchangeInputs input = .ok input' ∧
      input.schema.Keeps input'.schema ∧ SitesKept input.sites input'.sites) :
    ∃ inputs', materializeInputs exchangeInputs inputs = .ok inputs' ∧
      SitesKept (LogicalPlan.sitesOfInputs inputs) (LogicalPlan.sitesOfInputs inputs') := by
  induction inputs with
  | nil => exact ⟨[], rfl, .nil⟩
  | cons input inputs ih =>
      obtain ⟨input', hinput', -, hsites⟩ := h input List.mem_cons_self
      obtain ⟨inputs', hinputs', hrest⟩ := ih fun p hp => h p (List.mem_cons_of_mem _ hp)
      refine ⟨input' :: inputs', ?_, hsites.append hrest⟩
      rw [materializeInputs, hinput', hinputs']
      rfl

/-- If every remote source is replaceable, the plan is materialized and keeps its references. -/
theorem materializeExchangeInputs_sitesKept {exchangeInputs : List ExchangeChannelDescriptor}
    (plan : LogicalPlan) (h : ∀ source ∈ plan.remoteSources, Replaceable exchangeInputs source) :
    ∃ plan', materializeExchangeInputs exchangeInputs plan = .ok plan' ∧
      plan.schema.Keeps plan'.schema ∧ SitesKept plan.sites plan'.sites := by
  induction plan with
  | tableScan scan => exact ⟨.tableScan scan, rfl, .refl _, .nil⟩
  | unary node input ih =>
      obtain ⟨input', hinput', hschema, hsites⟩ := ih h
      refine ⟨.unary node input', ?_, node.keeps_schema hschema,
        (sitesKept_map _ (.cons hschema .nil)).append hsites⟩
      rw [materializeExchangeInputs, hinput']
      rfl
  | union inputs schema ih =>
      rw [LogicalPlan.remoteSources, LogicalPlan.allRemoteSources_eq_flatMap] at h
      obtain ⟨inputs', hinputs', hsites⟩ := materializeInputs_sitesKept fun input hinput =>
        ih input hinput fun source hsource => h source (List.mem_flatMap.mpr ⟨input, hinput, hsource⟩)
      refine ⟨.union inputs' schema, ?_, .refl _, hsites⟩
      rw [materializeExchangeInputs, hinputs']
      rfl
  | aggregate agg input ih =>
      obtain ⟨input', hinput', hschema, hsites⟩ := ih h
      refine ⟨.aggregate agg input', ?_, .refl _, (sitesKept_map _ (.cons hschema .nil)).append hsites⟩
      rw [materializeExchangeInputs, hinput']
      rfl
  | join j left right ihl ihr =>
      rw [LogicalPlan.remoteSources] at h
      obtain ⟨left', hleft', hleftSchema, hleftSites⟩ :=
        ihl fun source hsource => h source (List.mem_append_left _ hsource)
      obtain ⟨right', hright', hrightSchema, hrightSites⟩ :=
        ihr fun source hsource => h source (List.mem_append_right _ hsource)
      refine ⟨.join j left' right', ?_, .refl _, ?_⟩
      · rw [materializeExchangeInputs, hleft', hright']
        rfl
      · have honKeys := (sitesKept_map (Expr.columnsOf (j.onKeys.map Prod.fst)) (.cons hleftSchema .nil)).append
          (sitesKept_map (Expr.columnsOf (j.onKeys.map Prod.snd)) (.cons hrightSchema .nil))
        have hfilter := sitesKept_map (Expr.columnsOf j.filter.toList)
          (.cons hleftSchema (.cons hrightSchema .nil))
        exact ((honKeys.append hfilter).append hleftSites).append hrightSites
  | remoteSource ids schema =>
      have hsource := h (ids, schema) (by simp [LogicalPlan.remoteSources])
      obtain ⟨plan, hplan, hkeeps⟩ := keeps_materializeRemoteSource_iff.mpr hsource
      obtain ⟨-, -, hsites, -⟩ := schema_of_materializeRemoteSource hplan
      exact ⟨plan, hplan, hkeeps, hsites ▸ .nil⟩
  | other node inputs ih =>
      rw [LogicalPlan.remoteSources, LogicalPlan.allRemoteSources_eq_flatMap] at h
      obtain ⟨inputs', hinputs', hsites⟩ := materializeInputs_sitesKept fun input hinput =>
        ih input hinput fun source hsource => h source (List.mem_flatMap.mpr ⟨input, hinput, hsource⟩)
      refine ⟨.other node inputs', ?_, .refl _, hsites⟩
      rw [materializeExchangeInputs, hinputs']
      rfl

/-- A remote source is replaced by a scan that keeps every reference exactly when it is replaceable, and
a fragment all of whose remote sources are replaceable plans on the worker with the same references. -/
theorem materializeExchangeInputs_keeps_iff (exchangeInputs : List ExchangeChannelDescriptor) :
    (∀ ids schema, (∃ plan, materializeExchangeInputs exchangeInputs (.remoteSource ids schema) = .ok plan ∧
        schema.Keeps plan.schema) ↔ Replaceable exchangeInputs (ids, schema)) ∧
      ∀ plan : LogicalPlan, (∀ source ∈ plan.remoteSources, Replaceable exchangeInputs source) → plan.Plans →
        ∃ plan', materializeExchangeInputs exchangeInputs plan = .ok plan' ∧
          SitesKept plan.sites plan'.sites ∧ plan'.Plans := by
  refine ⟨fun ids schema => keeps_materializeRemoteSource_iff, fun plan hsources hplans => ?_⟩
  obtain ⟨plan', hplan', -, hsites⟩ := materializeExchangeInputs_sitesKept plan hsources
  exact ⟨plan', hplan', hsites, hplans.of_sitesKept hsites⟩

namespace Sample

/-- A channel from an instance of fragment 1 to the instance above it. -/
def sourceChannel : ExchangeChannelDescriptor :=
  ⟨0, 1, 0, 11, 10, 21, "w1:9000", 20, "w0:9000", .remoteScope, .gather, .single⟩

/-- The names of the customers, who come from fragment 1 with this schema. -/
def namesOver (schema : DFSchema) : LogicalPlan :=
  .unary (.projection [.column ⟨some (.bare "customers"), "name"⟩]
    ⟨[(some (.bare "customers"), ⟨"name", .utf8, true⟩)]⟩) (.remoteSource [1] schema)

def customersSchema : DFSchema :=
  ⟨[(some (.bare "customers"), ⟨"id", .int64, false⟩), (some (.bare "customers"), ⟨"name", .utf8, true⟩)]⟩

end Sample

/-- A fragment above a scan of one table plans on the worker. -/
theorem materializeExchangeInputs_keeps_customers :
    ∃ plan, materializeExchangeInputs [Sample.sourceChannel] (Sample.namesOver Sample.customersSchema) =
      .ok plan ∧ plan.Plans := by
  have hsources : ∀ source ∈ (Sample.namesOver Sample.customersSchema).remoteSources,
      Replaceable [Sample.sourceChannel] source := by
    intro source hsource
    obtain rfl : source = ([1], Sample.customersSchema) := by
      simpa [Sample.namesOver, LogicalPlan.remoteSources] using hsource
    refine ⟨⟨by simp, by simp [Sample.sourceChannel]⟩, by decide, ?_⟩
    simp [DFSchema.OneQualifier, Sample.customersSchema]
  obtain ⟨plan, hplan, -, hplans⟩ := (materializeExchangeInputs_keeps_iff [Sample.sourceChannel]).2
    (Sample.namesOver Sample.customersSchema) hsources (by decide)
  exact ⟨plan, hplan, hplans⟩

namespace Sample

/-- The output of a join of orders and customers. -/
def joinedSchema : DFSchema :=
  ⟨[(some (.bare "orders"), ⟨"customer_id", .int64, false⟩), (some (.bare "customers"), ⟨"name", .utf8, true⟩)]⟩

end Sample

/-- After a join there are two qualifiers: the scan takes neither, and the fragment above, which planned,
does not plan on the worker. -/
theorem not_keeps_joinedSchema :
    Sample.joinedSchema.resolve ⟨some (.bare "customers"), "name"⟩ = some 1 ∧
      (Sample.namesOver Sample.joinedSchema).Plans ∧
      (∃ plan, materializeExchangeInputs [Sample.sourceChannel] (.remoteSource [1] Sample.joinedSchema) =
          .ok plan ∧ plan.schema.resolve ⟨some (.bare "customers"), "name"⟩ = none) ∧
      ∃ plan, materializeExchangeInputs [Sample.sourceChannel] (Sample.namesOver Sample.joinedSchema) =
        .ok plan ∧ ¬ plan.Plans := by
  refine ⟨by decide, by decide, ⟨_, rfl, ?_⟩, ⟨_, rfl, ?_⟩⟩
  · decide +kernel
  · decide +kernel

end BrewDB
