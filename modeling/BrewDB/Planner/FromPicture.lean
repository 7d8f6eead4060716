import BrewDB.Planner.FromClause

/-!
# When the binder's picture of a `FROM` clause is right

Table by table the visible fields are the columns of the plan, or fewer. So for a clause without semi and
anti joins the two lists agree exactly when they agree for every table: a base table under an alias or
an unquoted name, a CTE under its own column names, a derived table with a column list. A semi or anti
join drops one side from the plan but not from the picture.
-/

namespace BrewDB

open AsciiCase

/-! ## Agreement -/

/-- The field and the column have the same qualifier and name, up to ASCII case. -/
def Pictures (field : VisibleField) (column : Column) : Prop :=
  Option.Rel (fun qualifier (relation : TableReference) => Same qualifier relation.toString)
    field.qualifier column.relation ∧ Same field.name column.name

/-- The visible fields are the columns of the schema, in order. -/
def FromAgrees (visible : List VisibleField) (schema : DFSchema) : Prop :=
  List.Forall₂ Pictures visible schema.columns

/-- At most as many fields as columns, and the right ones exactly under a condition. -/
structure Reads (visible : List VisibleField) (columns : List Column) (condition : Prop) : Prop where
  length_le : visible.length ≤ columns.length
  agrees_iff : List.Forall₂ Pictures visible columns ↔ condition

theorem Reads.congr {visible : List VisibleField} {columns : List Column} {condition condition' : Prop}
    (h : Reads visible columns condition) (hiff : condition ↔ condition') :
    Reads visible columns condition' :=
  ⟨h.length_le, h.agrees_iff.trans hiff⟩

/-- Side by side, nothing makes up for what is missing. -/
theorem Reads.append {visible visible' : List VisibleField} {columns columns' : List Column}
    {condition condition' : Prop} (h : Reads visible columns condition)
    (h' : Reads visible' columns' condition') :
    Reads (visible ++ visible') (columns ++ columns') (condition ∧ condition') := by
  have hle := h.length_le
  have hle' := h'.length_le
  refine ⟨by simp only [List.length_append]; omega, ?_⟩
  rw [← h.agrees_iff, ← h'.agrees_iff]
  constructor
  · intro hall
    have htotal := hall.length_eq
    simp only [List.length_append] at htotal
    have hlength : visible.length = columns.length := by omega
    have htake := List.forall₂_take_append _ _ _ hall
    have hdrop := List.forall₂_drop_append _ _ _ hall
    rw [← hlength, List.take_left] at htake
    rw [← hlength, List.drop_left] at hdrop
    exact ⟨htake, hdrop⟩
  · rintro ⟨hfirst, hsecond⟩
    exact List.rel_append hfirst hsecond

/-- Nothing visible. -/
theorem Reads.nil (columns : List Column) : Reads [] columns (columns = []) :=
  ⟨by simp, List.forall₂_nil_left_iff⟩

/-- The same names under two qualifiers. -/
theorem Reads.names {α : Type} {qualifier : String} {relation : TableReference} (name : α → String)
    (items : List α) :
    Reads (items.map fun item => ⟨some qualifier, name item⟩)
      (items.map fun item => ⟨some relation, name item⟩)
      (items = [] ∨ Same qualifier relation.toString) := by
  refine ⟨by simp, ?_⟩
  rw [List.forall₂_map_left_iff, List.forall₂_map_right_iff, List.forall₂_same]
  constructor
  · intro hall
    rcases items with _ | ⟨item, items⟩
    · exact .inl rfl
    · obtain ⟨hqualifier, -⟩ := hall item List.mem_cons_self
      cases hqualifier with
      | some hsame => exact .inr hsame
  · rintro (rfl | hsame)
    · simp
    · intro item _
      exact ⟨.some hsame, .refl _⟩

/-! ## What is pictured -/

/-- An alias that DataFusion reads back as written, up to ASCII case. -/
def ReadsBack {Q : Type} (env : FromEnv Q) (name : Ident) : Prop :=
  Same name.value (env.parseReference name.value).toString

/-- No part of the name is quoted. -/
def ObjectName.Unquoted (name : ObjectName) : Prop :=
  ∀ part ∈ name.parts, ∀ ident, part = .identifier ident → ident.quoteStyle = none

variable {Q : Type} (env : FromEnv Q) (ctx : QueryPlannerContext)

/-- A CTE under its own column names, and under a qualifier that is read back. -/
def PicturedCte (name : ObjectName) (cte : CtePlan) : Option TableAlias → Prop
  | none => Same name.toString (env.parseReference cte.name.value).toString
  | some tableAlias => ReadsBack env tableAlias.name ∧ (tableAlias.columns = [] ∨
      List.Forall₂ Same (cte.fields.map Field.name) (tableAlias.columns.map (·.name.value)))

/-- A named table is pictured: a CTE as above, and a base table that has an alias or an unquoted name. -/
def PicturedTable (name : ObjectName) (tableAlias : Option TableAlias) : Prop :=
  match ctx.cte name with
  | .error _ => True
  | .ok (some cte) => cte.fields = [] ∨ PicturedCte env name cte tableAlias
  | .ok none => (∀ table, ctx.resolveTable name = .ok table → table.fields = []) ∨
      tableAlias.isSome ∨ name.Unquoted

/-- A derived table is pictured if it has a column list (or no columns). -/
def PicturedDerived (subquery : Q) (tableAlias : Option TableAlias) : Prop :=
  (∀ schema, env.planQuery subquery = .ok schema → schema.qualifiedFields = []) ∨
    ∃ a, tableAlias = some a ∧ a.columns ≠ [] ∧ ReadsBack env a.name

mutual
/-- Every table of a factor is pictured. -/
def PicturedFactor : TableFactor Q → Prop
  | .table name tableAlias _ => PicturedTable env ctx name tableAlias
  | .derived _ subquery tableAlias _ => PicturedDerived env subquery tableAlias
  | .nestedJoin relation joins _ => PicturedFactor relation ∧ PicturedJoins joins
  | .other _ => True

/-- Every joined table is pictured. -/
def PicturedJoins : List (AstJoin Q) → Prop
  | [] => True
  | .mk relation _ _ _ :: joins => PicturedFactor relation ∧ PicturedJoins joins
end

/-- A join that keeps the columns of both sides. -/
def JoinKind.keepsSides : JoinKind → Bool
  | .semi => false
  | .leftSemi => false
  | .rightSemi => false
  | .anti => false
  | .leftAnti => false
  | .rightAnti => false
  | _ => true

mutual
/-- No semi and no anti join in a factor. -/
def TableFactor.KeepsSides : TableFactor Q → Prop
  | .table _ _ _ => True
  | .derived _ _ _ _ => True
  | .nestedJoin relation joins _ => relation.KeepsSides ∧ joinsKeepSides joins
  | .other _ => True

/-- No semi and no anti join among these. -/
def joinsKeepSides : List (AstJoin Q) → Prop
  | [] => True
  | .mk relation _ kind _ :: joins =>
      relation.KeepsSides ∧ kind.keepsSides = true ∧ joinsKeepSides joins
end

/-- Every table of the clause is pictured. -/
def PicturedFrom (select : Select Q) : Prop :=
  ∀ table ∈ select.fromTables, PicturedFactor env ctx table.relation ∧ PicturedJoins env ctx table.joins

/-- No semi and no anti join in the clause. -/
def Select.KeepsSides (select : Select Q) : Prop :=
  ∀ table ∈ select.fromTables, table.relation.KeepsSides ∧ joinsKeepSides table.joins

/-! ## Printed names -/

namespace Ident

/-- Escaping only adds characters. -/
theorem length_le_escapeQuoted (quote previous : Char) (chars : List Char) :
    chars.length ≤ (escapeQuoted quote previous chars).length := by
  fun_induction escapeQuoted quote previous chars with
  | case1 => simp
  | case2 rest ih => simpa using ih
  | case3 => simp
  | case4 previous _ rest ih => simpa using ih
  | case5 previous _ next rest hnext ih =>
      simp only [List.length_cons] at ih ⊢
      omega
  | case6 => simpa

theorem same_tableReferencePart (ident : Ident) : Same ident.tableReferencePart ident.value := by
  unfold tableReferencePart
  split
  · exact .refl _
  · exact same_toLower _

/-- An unquoted identifier is printed as it is. -/
theorem toString_of_unquoted {ident : Ident} (h : ident.quoteStyle = none) :
    ident.toString = ident.value := by
  rw [toString, h]

/-- A quoted identifier is printed with its quotes, which makes it longer. -/
theorem length_lt_of_quoted {ident : Ident} (h : ident.quoteStyle ≠ none) :
    ident.tableReferencePart.length < ident.toString.length := by
  rw [(same_tableReferencePart ident).length_eq]
  unfold toString
  split
  next hnone => exact absurd hnone h
  next =>
    rw [String.length_append, String.length_append]
    have hone : "[".length = 1 := by decide
    omega
  next quote _ _ =>
    have hescaped := length_le_escapeQuoted quote (Char.ofNat 0) ident.value.toList
    rw [String.length_toList] at hescaped
    rw [String.length_append, String.length_append, String.length_ofList, String.length_singleton]
    omega

theorem length_le_toString (ident : Ident) : ident.tableReferencePart.length ≤ ident.toString.length := by
  by_cases h : ident.quoteStyle = none
  · rw [toString_of_unquoted h, (same_tableReferencePart ident).length_eq]
  · exact (length_lt_of_quoted h).le

end Ident

/-- A name whose parts have texts is made of identifiers. -/
theorem idents_of_identTexts {text : Ident → String} {parts : List ObjectNamePart} {texts : List String}
    (h : identTexts text parts = .ok texts) :
    ∃ idents : List Ident, parts = idents.map .identifier ∧ texts = idents.map text := by
  have hall := ExceptRun.mapM_eq_ok.mp h
  clear h
  induction hall with
  | nil => exact ⟨[], rfl, rfl⟩
  | @cons part _ rest texts hpart _ ih =>
      obtain ⟨idents, rfl, rfl⟩ := ih
      cases part with
      | function _ => cases hpart
      | identifier ident =>
          obtain rfl := Except.ok.inj hpart
          exact ⟨ident :: idents, rfl, rfl⟩

/-- A scan without alias has one to three identifiers for its name. -/
theorem idents_of_tableReferenceForScan {name : ObjectName} {reference : TableReference}
    (h : QueryPlannerContext.tableReferenceForScan name none = .ok reference) :
    ∃ idents, name = .ofIdents idents ∧
      reference.toString = ".".intercalate (idents.map Ident.tableReferencePart) := by
  obtain ⟨parts, hparts, h⟩ := ExceptRun.bind_eq_ok.mp h
  obtain ⟨idents, hname, rfl⟩ := idents_of_identTexts hparts
  refine ⟨idents, congrArg ObjectName.mk hname, ?_⟩
  rcases idents with _ | ⟨a, _ | ⟨b, _ | ⟨c, _ | ⟨d, idents⟩⟩⟩⟩
  · cases h
  · obtain rfl := ExceptRun.pure_eq_ok.mp h
    rfl
  · obtain rfl := ExceptRun.pure_eq_ok.mp h
    rfl
  · obtain rfl := ExceptRun.pure_eq_ok.mp h
    rfl
  · cases h

/-- Texts that are the same one by one are the same joined. -/
theorem same_intercalate {texts texts' : List String} (h : List.Forall₂ Same texts texts') :
    Same (".".intercalate texts) (".".intercalate texts') := by
  induction h with
  | nil => exact .refl _
  | @cons text text' rest rest' hhead htail ih =>
      cases htail with
      | nil => simpa using hhead
      | cons hnext hrest =>
          simp only [String.intercalate_cons_cons] at ih ⊢
          exact (hhead.append (.refl _)).append ih

theorem length_intercalate (texts : List String) :
    (".".intercalate texts).length = (texts.map String.length).sum + (texts.length - 1) := by
  induction texts with
  | nil => rfl
  | cons text rest ih =>
      cases rest with
      | nil => simp
      | cons next rest =>
          have hdot : ".".length = 1 := by decide
          rw [String.intercalate_cons_cons, String.length_append, String.length_append, ih, hdot]
          simp only [List.map_cons, List.sum_cons, List.length_cons]
          omega

/-- The name a table is scanned under is its printed name, up to ASCII case, exactly if no part is quoted. -/
theorem same_toString_iff_unquoted {name : ObjectName} {reference : TableReference}
    (h : QueryPlannerContext.tableReferenceForScan name none = .ok reference) :
    Same name.toString reference.toString ↔ name.Unquoted := by
  obtain ⟨idents, rfl, hreference⟩ := idents_of_tableReferenceForScan h
  have hprinted : (ObjectName.ofIdents idents).toString = ".".intercalate (idents.map Ident.toString) := by
    simp [ObjectName.toString, ObjectName.ofIdents, Function.comp_def, ObjectNamePart.toString]
  have hunquoted : (ObjectName.ofIdents idents).Unquoted ↔ ∀ ident ∈ idents, ident.quoteStyle = none := by
    simp [ObjectName.Unquoted, ObjectName.ofIdents]
  rw [hprinted, hreference, hunquoted]
  constructor
  · -- A quote would make the printed name longer than the other.
    intro hsame
    by_contra hquoted
    obtain ⟨ident, hident⟩ := not_forall.mp hquoted
    obtain ⟨hmem, hstyle⟩ := Classical.not_imp.mp hident
    have hlength := hsame.length_eq
    rw [length_intercalate, length_intercalate] at hlength
    have hlt : ((idents.map Ident.tableReferencePart).map String.length).sum <
        ((idents.map Ident.toString).map String.length).sum := by
      rw [List.map_map, List.map_map]
      exact List.sum_lt_sum _ _ (fun i _ => i.length_le_toString)
        ⟨ident, hmem, Ident.length_lt_of_quoted hstyle⟩
    simp only [List.length_map] at hlength
    omega
  · intro hall
    refine same_intercalate (List.forall₂_map_left_iff.mpr (List.forall₂_map_right_iff.mpr
      (List.forall₂_same.mpr fun ident hident => ?_)))
    rw [Ident.toString_of_unquoted (hall ident hident)]
    exact (Ident.same_tableReferencePart ident).symm

/-! ## One table -/

section

variable {env : FromEnv Q} {ctx : QueryPlannerContext}

theorem columns_map_some (relation : TableReference) (fields : List Field) :
    (DFSchema.mk (fields.map fun f => (some relation, f))).columns =
      fields.map fun f => ⟨some relation, f.name⟩ := by
  simp [DFSchema.columns, Function.comp_def]

theorem checked_eq_ok {schema schema' : DFSchema} (h : env.checked schema = .ok schema') :
    schema' = schema := by
  obtain ⟨-, -, h⟩ := ExceptRun.bind_eq_ok.mp h
  exact (ExceptRun.pure_eq_ok.mp h).symm

/-- Renamed fields have the new names. -/
theorem names_zipWith {fields : List (Option TableReference × Field)} {columns : List TableAliasColumnDef}
    (h : columns.length = fields.length) :
    (DFSchema.mk (fields.zipWith (fun f column => (none, { f.2 with name := column.name.value }))
      columns)).asArrow.map Field.name = columns.map (·.name.value) := by
  induction columns generalizing fields with
  | nil => simp [DFSchema.asArrow]
  | cons column columns ih =>
      cases fields with
      | nil => simp at h
      | cons f fields =>
          have hrest := @ih fields (by simpa using h)
          simp only [DFSchema.asArrow, List.zipWith_cons_cons, List.map_cons] at hrest ⊢
          rw [hrest]

/-- Under an alias, the columns have the names of its list, or their own if it has none. -/
theorem columns_of_applyTableAlias {input schema : DFSchema} {tableAlias : TableAlias}
    (h : env.applyTableAlias input tableAlias = .ok schema) :
    (tableAlias.columns = [] ∧ schema.columns = (env.uniqueFields input.asArrow).map fun f =>
        ⟨some (env.parseReference tableAlias.name.value), f.name⟩) ∨
      (tableAlias.columns ≠ [] ∧ tableAlias.columns.length = input.qualifiedFields.length ∧
        schema.columns = tableAlias.columns.map fun column =>
          ⟨some (env.parseReference tableAlias.name.value), column.name.value⟩) := by
  obtain ⟨renamed, hrenamed, h⟩ := ExceptRun.bind_eq_ok.mp h
  obtain rfl := ExceptRun.pure_eq_ok.mp h
  rw [columns_map_some]
  unfold FromEnv.applyColumnAliases at hrenamed
  split at hrenamed
  next hnone =>
    obtain rfl := Except.ok.inj hrenamed
    exact .inl ⟨hnone, rfl⟩
  next hsome =>
    refine .inr ⟨hsome, ?_⟩
    split at hrenamed
    · cases hrenamed
    · split at hrenamed
      · cases hrenamed
      next hlength =>
        split at hrenamed
        next hnodup =>
          obtain rfl := Except.ok.inj hrenamed
          have hlength : tableAlias.columns.length = input.qualifiedFields.length := not_not.mp hlength
          refine ⟨hlength, ?_⟩
          have hnames := names_zipWith hlength
          rw [env.uniqueFields_of_nodup]
          · have hcolumns := congrArg (List.map fun name =>
              (⟨some (env.parseReference tableAlias.name.value), name⟩ : Column)) hnames
            rwa [List.map_map, List.map_map] at hcolumns
          · rwa [hnames]
        · cases hrenamed

/-- The fields of a CTE against the names of an alias list. -/
theorem Reads.renamed {qualifier : String} {relation : TableReference} {fields : List Field}
    {columns : List TableAliasColumnDef} (hlength : columns.length = fields.length) :
    Reads (VisibleField.under qualifier fields) (columns.map fun column => ⟨some relation, column.name.value⟩)
      (fields = [] ∨ Same qualifier relation.toString ∧
        List.Forall₂ Same (fields.map Field.name) (columns.map (·.name.value))) := by
  refine ⟨by simp [VisibleField.under, hlength], ?_⟩
  simp only [VisibleField.under, List.forall₂_map_left_iff, List.forall₂_map_right_iff]
  constructor
  · intro hall
    cases hall with
    | nil => exact .inl rfl
    | cons hfirst hrest =>
        obtain ⟨hqualifier, hname⟩ := hfirst
        cases hqualifier with
        | some hsame => exact .inr ⟨hsame, .cons hname (hrest.imp fun _ _ h => h.2)⟩
  · rintro (rfl | ⟨hsame, hall⟩)
    · rw [List.length_eq_zero_iff.mp hlength]
      exact .nil
    · exact hall.imp fun _ _ hname => ⟨.some hsame, hname⟩

/-- A named table is read right exactly if it is pictured. -/
theorem reads_table {name : ObjectName} {tableAlias : Option TableAlias} {schema : DFSchema}
    (h : env.buildTableFactor ctx (.table name tableAlias none) = .ok schema) :
    ∃ visible, visibleFieldsForTableFactor ctx (.table name tableAlias none : TableFactor Q) = .ok visible ∧
      Reads visible schema.columns (PicturedTable env ctx name tableAlias) := by
  simp only [FromEnv.buildTableFactor, ExceptRun.bind_eq_ok] at h
  obtain ⟨found, hfound, h⟩ := h
  cases found with
  | none =>
      simp only [ExceptRun.bind_eq_ok] at h
      obtain ⟨table, htable, reference, hreference, h⟩ := h
      obtain rfl := checked_eq_ok h
      refine ⟨_, by simp only [visibleFieldsForTableFactor, hfound, htable]; rfl, ?_⟩
      rw [columns_map_some]
      refine (Reads.names Field.name table.fields).congr ?_
      have hfields : (∀ t, ctx.resolveTable name = .ok t → t.fields = []) ↔ table.fields = [] := by
        simp [htable]
      simp only [PicturedTable, hfound, hfields]
      refine or_congr_right ?_
      cases tableAlias with
      | none => simpa using same_toString_iff_unquoted hreference
      | some tableAlias =>
          obtain rfl := ExceptRun.pure_eq_ok.mp hreference
          simpa [TableReference.toString] using (Ident.same_tableReferencePart tableAlias.name).symm
  | some cte =>
      refine ⟨_, by simp only [visibleFieldsForTableFactor, hfound]; rfl, ?_⟩
      simp only [PicturedTable, hfound]
      cases tableAlias with
      | none =>
          obtain rfl := ExceptRun.pure_eq_ok.mp h
          rw [FromEnv.cteSchema, columns_map_some]
          exact Reads.names Field.name cte.fields
      | some tableAlias =>
          have hfields : (env.cteSchema cte).asArrow = cte.fields := by
            simp [FromEnv.cteSchema, DFSchema.asArrow, Function.comp_def]
          rcases columns_of_applyTableAlias h with ⟨hnone, hcolumns⟩ | ⟨hsome, hlength, hcolumns⟩
          · rw [hcolumns, hfields, env.uniqueFields_of_nodup _ cte.nodup]
            refine (Reads.names Field.name cte.fields).congr ?_
            simp [PicturedCte, ReadsBack, hnone]
          · rw [hcolumns]
            have hlength : tableAlias.columns.length = cte.fields.length := by
              rw [hlength, FromEnv.cteSchema, List.length_map]
            refine (Reads.renamed hlength).congr ?_
            simp [PicturedCte, ReadsBack, hsome]

/-- A derived table is read right exactly if it is pictured. -/
theorem reads_derived {lateral : Bool} {subquery : Q} {tableAlias : Option TableAlias}
    {sample : Option String} {schema : DFSchema}
    (h : env.buildTableFactor ctx (.derived lateral subquery tableAlias sample) = .ok schema) :
    ∃ visible, visibleFieldsForTableFactor ctx (.derived lateral subquery tableAlias sample) =
        .ok visible ∧ Reads visible schema.columns (PicturedDerived env subquery tableAlias) := by
  simp only [FromEnv.buildTableFactor] at h
  split at h
  · cases h
  · obtain ⟨input, hinput, h⟩ := ExceptRun.bind_eq_ok.mp h
    have hempty : (∀ s, env.planQuery subquery = .ok s → s.qualifiedFields = []) ↔
        input.qualifiedFields = [] := by
      simp [hinput]
    cases tableAlias with
    | none =>
        obtain rfl := ExceptRun.pure_eq_ok.mp h
        refine ⟨[], rfl, (Reads.nil _).congr ?_⟩
        simp [PicturedDerived, hempty, DFSchema.columns]
    | some tableAlias =>
        refine ⟨_, rfl, ?_⟩
        rcases columns_of_applyTableAlias h with ⟨hnone, hcolumns⟩ | ⟨hsome, hlength, hcolumns⟩
        · rw [hcolumns, hnone]
          refine (Reads.nil _).congr ?_
          have hlength := env.length_uniqueFields input.asArrow
          rw [List.map_eq_nil_iff, ← List.length_eq_zero_iff, hlength, PicturedDerived, hempty]
          simp [DFSchema.asArrow, hnone]
        · rw [hcolumns]
          have hnonempty : input.qualifiedFields ≠ [] := by
            intro hnil
            rw [hnil, List.length_nil, List.length_eq_zero_iff] at hlength
            exact hsome hlength
          have hiff : PicturedDerived env subquery (some tableAlias) ↔ ReadsBack env tableAlias.name := by
            simp [PicturedDerived, hempty, hnonempty, hsome]
          refine (Reads.names (fun column : TableAliasColumnDef => column.name.value) tableAlias.columns).congr ?_
          rw [hiff, or_iff_right hsome]
          rfl

/-! ## Joins -/

theorem columns_nullable (fields : List (Option TableReference × Field)) :
    (DFSchema.mk (FromEnv.nullable fields)).columns = (DFSchema.mk fields).columns := by
  simp [FromEnv.nullable, DFSchema.columns, Function.comp_def]

theorem columns_append (fields fields' : List (Option TableReference × Field)) :
    (DFSchema.mk (fields ++ fields')).columns = (DFSchema.mk fields).columns ++ (DFSchema.mk fields').columns := by
  simp [DFSchema.columns]

/-- The columns of both sides, unless the join drops one. -/
theorem columns_of_joinSchema {joinType : JoinType} {left right schema : DFSchema}
    (h : env.joinSchema joinType left right = .ok schema)
    (hkeeps : joinType = .inner ∨ joinType = .left ∨ joinType = .right ∨ joinType = .full) :
    schema.columns = left.columns ++ right.columns := by
  rcases hkeeps with rfl | rfl | rfl | rfl
  · rw [checked_eq_ok h, columns_append]
  · rw [checked_eq_ok h, columns_append, columns_nullable]
  · rw [checked_eq_ok h, columns_append, columns_nullable]
  · rw [checked_eq_ok h, columns_append, columns_nullable, columns_nullable]

theorem keeps_of_bindJoinOperator {kind : JoinKind} {joinType : JoinType}
    (h : FromEnv.bindJoinOperator kind = .ok joinType) (hkeeps : kind.keepsSides = true) :
    joinType = .inner ∨ joinType = .left ∨ joinType = .right ∨ joinType = .full := by
  cases kind <;> cases h <;> simp_all [JoinKind.keepsSides]

theorem columns_of_buildJoin {left right schema : DFSchema} {kind : JoinKind}
    {constraint : AstJoinConstraint Q} (h : env.buildJoin left right kind constraint = .ok schema)
    (hkeeps : kind.keepsSides = true) : schema.columns = left.columns ++ right.columns := by
  unfold FromEnv.buildJoin at h
  split at h
  · exact columns_of_joinSchema h (.inl rfl)
  · obtain ⟨joinType, hjoinType, h⟩ := ExceptRun.bind_eq_ok.mp h
    have hsides := keeps_of_bindJoinOperator hjoinType hkeeps
    cases constraint with
    | onExpr expr =>
        obtain ⟨-, -, h⟩ := ExceptRun.bind_eq_ok.mp h
        exact columns_of_joinSchema h hsides
    | usingColumns columns =>
        simp only [FromEnv.buildJoinWithConstraint, ExceptRun.bind_eq_ok] at h
        obtain ⟨keys, -, -, -, h⟩ := h
        exact columns_of_joinSchema h hsides
    | natural =>
        simp only [FromEnv.buildJoinWithConstraint] at h
        split at h
        · exact columns_of_joinSchema h (.inl rfl)
        · obtain ⟨-, -, h⟩ := ExceptRun.bind_eq_ok.mp h
          exact columns_of_joinSchema h hsides
    | absent => exact columns_of_joinSchema h hsides

mutual
/-- A factor is read right exactly if all its tables are pictured. -/
theorem reads_factor : (factor : TableFactor Q) → ∀ {schema : DFSchema},
    env.buildTableFactor ctx factor = .ok schema →
    ∃ visible, visibleFieldsForTableFactor ctx factor = .ok visible ∧
      (factor.KeepsSides → Reads visible schema.columns (PicturedFactor env ctx factor))
  | .table name tableAlias (some _), _, h => by
      simp [FromEnv.buildTableFactor] at h
  | .table name tableAlias none, _, h => by
      obtain ⟨visible, hvisible, hreads⟩ := reads_table h
      exact ⟨visible, hvisible, fun _ => by rwa [PicturedFactor]⟩
  | .derived lateral subquery tableAlias sample, _, h => by
      obtain ⟨visible, hvisible, hreads⟩ := reads_derived h
      exact ⟨visible, hvisible, fun _ => by rwa [PicturedFactor]⟩
  | .nestedJoin relation joins tableAlias, _, h => by
      simp only [FromEnv.buildTableFactor] at h
      split at h
      · cases h
      · obtain ⟨input, hinput, h⟩ := ExceptRun.bind_eq_ok.mp h
        obtain ⟨visible, hvisible, hreads⟩ := reads_factor relation hinput
        obtain ⟨visible', hvisible', hreads'⟩ := reads_joins joins h
        refine ⟨visible ++ visible', ?_, fun hkeeps => ?_⟩
        · simp only [visibleFieldsForTableFactor, hvisible, hvisible']
          rfl
        · rw [TableFactor.KeepsSides] at hkeeps
          obtain ⟨rest, hrest, hreadsRest⟩ := hreads' hkeeps.2
          rw [hrest, PicturedFactor]
          exact (hreads hkeeps.1).append hreadsRest
  | .other text, _, h => by
      simp [FromEnv.buildTableFactor] at h

/-- The joined tables add columns that are read right exactly if the tables are pictured. -/
theorem reads_joins : (joins : List (AstJoin Q)) → ∀ {left schema : DFSchema},
    env.buildJoins ctx left joins = .ok schema →
    ∃ visible, visibleFieldsForJoins ctx joins = .ok visible ∧
      (joinsKeepSides joins → ∃ rest, schema.columns = left.columns ++ rest ∧
        Reads visible rest (PicturedJoins env ctx joins))
  | [], left, schema, h => by
      rw [FromEnv.buildJoins] at h
      obtain rfl := Except.ok.inj h
      refine ⟨[], by rw [visibleFieldsForJoins], fun _ => ⟨[], by simp, ?_⟩⟩
      rw [PicturedJoins]
      exact (Reads.nil []).congr (by simp)
  | .mk relation isGlobal kind constraint :: joins, left, schema, h => by
      simp only [FromEnv.buildJoins, ExceptRun.bind_eq_ok] at h
      obtain ⟨right, hright, joined, hjoined, h⟩ := h
      obtain ⟨visible, hvisible, hreads⟩ := reads_factor relation hright
      obtain ⟨visible', hvisible', hreads'⟩ := reads_joins joins h
      refine ⟨visible ++ visible', ?_, fun hkeeps => ?_⟩
      · simp only [visibleFieldsForJoins, hvisible, hvisible']
        rfl
      · rw [joinsKeepSides] at hkeeps
        obtain ⟨rest, hrest, hreadsRest⟩ := hreads' hkeeps.2.2
        refine ⟨right.columns ++ rest, ?_, ?_⟩
        · rw [hrest, columns_of_buildJoin hjoined hkeeps.2.1, List.append_assoc]
        · rw [PicturedJoins]
          exact (hreads hkeeps.1).append hreadsRest
end

/-- A table with its joins. -/
theorem reads_tableWithJoins {table : TableWithJoins Q} {schema : DFSchema}
    (h : env.buildTableWithJoins ctx table = .ok schema) :
    ∃ visible, visibleFieldsForTableWithJoins ctx table = .ok visible ∧
      (table.relation.KeepsSides ∧ joinsKeepSides table.joins → Reads visible schema.columns
        (PicturedFactor env ctx table.relation ∧ PicturedJoins env ctx table.joins)) := by
  obtain ⟨input, hinput, h⟩ := ExceptRun.bind_eq_ok.mp h
  obtain ⟨visible, hvisible, hreads⟩ := reads_factor table.relation hinput
  obtain ⟨visible', hvisible', hreads'⟩ := reads_joins table.joins h
  refine ⟨visible ++ visible', ?_, fun hkeeps => ?_⟩
  · simp only [visibleFieldsForTableWithJoins, hvisible, hvisible']
    rfl
  · obtain ⟨rest, hrest, hreadsRest⟩ := hreads' hkeeps.2
    rw [hrest]
    exact (hreads hkeeps.1).append hreadsRest

/-- The cross joins of a comma list append the columns. -/
theorem columns_of_crossJoinAll {input schema : DFSchema} {inputs : List DFSchema}
    (h : env.crossJoinAll input inputs = .ok schema) :
    schema.columns = input.columns ++ inputs.flatMap DFSchema.columns := by
  induction inputs generalizing input with
  | nil =>
      obtain rfl := Except.ok.inj h
      simp
  | cons next inputs ih =>
      obtain ⟨joined, hjoined, h⟩ := ExceptRun.bind_eq_ok.mp h
      rw [ih h, columns_of_joinSchema hjoined (.inl rfl)]
      simp

/-- The visible fields of a clause the planner accepts are the columns of its plan exactly if every table
is pictured, unless there is a semi or anti join. -/
theorem visibleFieldsForSelect_agrees_iff {select : Select Q} {schema : DFSchema}
    (h : env.buildFromInput ctx select = .ok schema) :
    ∃ visible, visibleFieldsForSelect ctx select = .ok visible ∧
      (select.KeepsSides → (FromAgrees visible schema ↔ PicturedFrom env ctx select)) := by
  obtain ⟨inputs, hinputs, h⟩ := ExceptRun.bind_eq_ok.mp h
  have hall := ExceptRun.mapM_eq_ok.mp hinputs
  have hread : ∀ {tables : List (TableWithJoins Q)} {inputs : List DFSchema},
      List.Forall₂ (fun table input => env.buildTableWithJoins ctx table = .ok input) tables inputs →
      ∃ visible, tables.mapM (visibleFieldsForTableWithJoins ctx) = .ok visible ∧
        ((∀ table ∈ tables, table.relation.KeepsSides ∧ joinsKeepSides table.joins) →
          Reads visible.flatten (inputs.flatMap DFSchema.columns) (∀ table ∈ tables,
            PicturedFactor env ctx table.relation ∧ PicturedJoins env ctx table.joins)) := by
    intro tables inputs hall
    induction hall with
    | nil => exact ⟨[], rfl, fun _ => (Reads.nil []).congr (by simp)⟩
    | cons hhead _ ih =>
        obtain ⟨visible, hvisible, hreads⟩ := reads_tableWithJoins hhead
        obtain ⟨rest, hrest, hreadsRest⟩ := ih
        refine ⟨visible :: rest, ?_, fun hkeeps => ?_⟩
        · rw [List.mapM_cons, hvisible, hrest]
          rfl
        · rw [List.forall_mem_cons] at hkeeps
          rw [List.flatten_cons, List.flatMap_cons, List.forall_mem_cons]
          exact (hreads hkeeps.1).append (hreadsRest hkeeps.2)
  obtain ⟨visible, hvisible, hreads⟩ := hread hall
  have hcolumns : schema.columns = inputs.flatMap DFSchema.columns := by
    cases inputs with
    | nil =>
        obtain rfl := ExceptRun.pure_eq_ok.mp h
        rfl
    | cons input inputs => rw [columns_of_crossJoinAll h, List.flatMap_cons]
  refine ⟨visible.flatten, ?_, fun hkeeps => ?_⟩
  · simp only [visibleFieldsForSelect, hvisible]
    rfl
  · rw [FromAgrees, hcolumns]
    exact (hreads hkeeps).agrees_iff

end

/-! ## Samples -/

namespace Sample

def unquoted (value : String) : Ident := ⟨value, none⟩

def quoted (value : String) : Ident := ⟨value, some '"'⟩

def tableIn (database table : String) (tableId : Uuid) : TableCatalogEntry :=
  ⟨tableId, ⟨"managed", database, table⟩⟩

/-- Two tables of one database. -/
def shop : QueryPlannerContext where
  tables := [⟨tableIn "shop" "Orders" 1, [⟨"id", .int64, false⟩]⟩,
    ⟨tableIn "shop" "customers" 2, [⟨"id", .int64, false⟩, ⟨"name", .utf8, true⟩]⟩]
  ctes := []

/-- The one nested query is `SELECT id FROM customers`. -/
def shopEnv : FromEnv Unit where
  planQuery _ := .ok ⟨[(some (.bare "customers"), ⟨"id", .int64, false⟩)]⟩
  bindOn _ _ _ := .ok ()
  bindUsing _ _ _ := .ok ()
  parseReference text := .bare text.toLower
  uniqueFields fields := fields
  uniqueFields_of_nodup _ _ := rfl
  length_uniqueFields _ := rfl
  checkNames _ := .ok ()

/-- A `SELECT` of everything from these tables. -/
def selectFrom {Q : Type} (fromTables : List (TableWithJoins Q)) : Select Q where
  distinct := none
  top := none
  projection := [.wildcard none]
  exclude := none
  into := none
  fromTables := fromTables
  selection := none
  groupBy := .expressions [] []
  having := none
  valueTableMode := none
  prewhere := none
  lateralViews := []
  connectBy := []
  clusterBy := []
  distributeBy := []
  sortBy := []
  namedWindow := []
  qualify := none

def named {Q : Type} (name : Ident) (tableAlias : Option TableAlias) : TableFactor Q :=
  .table (.ofIdents [name]) tableAlias none

/-- `FROM "Orders" AS o LEFT JOIN customers USING (id)`. -/
def leftJoined : Select Unit :=
  selectFrom [⟨named (quoted "Orders") (some ⟨unquoted "o", []⟩),
    [.mk (named (unquoted "customers") none) false .left (.usingColumns [.ofIdents [unquoted "id"]])]⟩]

/-- `FROM "Orders"`. -/
def quotedTable : Select Unit := selectFrom [⟨named (quoted "Orders") none, []⟩]

/-- `FROM (SELECT id FROM customers) AS c`. -/
def derivedTable : Select Unit := selectFrom [⟨.derived false () (some ⟨unquoted "c", []⟩) none, []⟩]

/-- `FROM customers LEFT SEMI JOIN "Orders" AS o USING (id)`. -/
def semiJoined : Select Unit :=
  selectFrom [⟨named (unquoted "customers") none,
    [.mk (named (quoted "Orders") (some ⟨unquoted "o", []⟩)) false .leftSemi
      (.usingColumns [.ofIdents [unquoted "id"]])]⟩]

end Sample

/-- A left join of a quoted table under an alias and an unquoted table. -/
theorem visibleFieldsForSelect_agrees_leftJoined :
    ∃ schema visible, Sample.shopEnv.buildFromInput Sample.shop Sample.leftJoined = .ok schema ∧
      visibleFieldsForSelect Sample.shop Sample.leftJoined = .ok visible ∧ visible.length = 3 ∧
      FromAgrees visible schema := by
  have hbuilt : ∃ schema, Sample.shopEnv.buildFromInput Sample.shop Sample.leftJoined = .ok schema :=
    ⟨_, rfl⟩
  obtain ⟨schema, hschema⟩ := hbuilt
  obtain ⟨visible, hvisible, hagrees⟩ := visibleFieldsForSelect_agrees_iff hschema
  refine ⟨schema, visible, hschema, hvisible, ?_, (hagrees ?_).mpr ?_⟩
  · obtain rfl := Except.ok.inj hvisible
    rfl
  · simp [Select.KeepsSides, Sample.leftJoined, Sample.selectFrom, Sample.named, TableFactor.KeepsSides,
      joinsKeepSides, JoinKind.keepsSides]
  · have hcte : ∀ ident, Sample.shop.cte ⟨[.identifier ident]⟩ = .ok none := fun _ => rfl
    simp [PicturedFrom, Sample.leftJoined, Sample.selectFrom, Sample.named, PicturedFactor, PicturedJoins,
      PicturedTable, hcte, ObjectName.Unquoted, ObjectName.ofIdents, Sample.unquoted]

/-- A quoted name, a derived table without column list and a semi join are pictured wrong. -/
theorem not_visibleFieldsForSelect_agrees :
    (∃ schema visible, Sample.shopEnv.buildFromInput Sample.shop Sample.quotedTable = .ok schema ∧
        visibleFieldsForSelect Sample.shop Sample.quotedTable = .ok visible ∧ ¬ FromAgrees visible schema) ∧
      (∃ schema visible, Sample.shopEnv.buildFromInput Sample.shop Sample.derivedTable = .ok schema ∧
        visibleFieldsForSelect Sample.shop Sample.derivedTable = .ok visible ∧ ¬ FromAgrees visible schema) ∧
      ∃ schema visible, Sample.shopEnv.buildFromInput Sample.shop Sample.semiJoined = .ok schema ∧
        visibleFieldsForSelect Sample.shop Sample.semiJoined = .ok visible ∧ ¬ FromAgrees visible schema := by
  refine ⟨⟨_, _, rfl, rfl, fun h => ?_⟩, ⟨_, _, rfl, rfl, fun h => ?_⟩, ⟨_, _, rfl, rfl, fun h => ?_⟩⟩
  · obtain ⟨⟨hsame⟩, -⟩ := List.forall₂_cons.mp h |>.1
    exact absurd hsame (by decide +kernel)
  · exact absurd h.length_eq (by decide)
  · exact absurd h.length_eq (by decide)

end BrewDB
