import BrewDB.Planner.FromPicture
import BrewDB.Planner.LexicalScope

/-!
# Binding statements lexically

In well-scoped queries the first pass gathers the base table names it should and restores its state, so
the planner looks names up among the tables they designate. Together with the agreement of the readings
this gives the lexical reading of whole statements. Conversely, a statement that is bound to its meaning
is well scoped, unless an expression declares a name again that is declared around it.
-/

namespace BrewDB

variable {Q : Type}

/-! ## The first pass -/

namespace Mentioned

variable {registry : FunctionRegistry}

/-- A name is met as a table or in a nested query. -/
theorem mem_items {inQuery : Q → List String → List ObjectName} {scope : List String}
    {l : List (NameItem Q)} {name : ObjectName} (h : name ∈ items inQuery scope l) :
    (.table name ∈ l ∧ ∀ cteName, cteNameFromObjectName name = .ok (some cteName) → cteName ∉ scope) ∨
      ∃ query, (.nested query ∈ l ∨ .inExpr query ∈ l) ∧ name ∈ inQuery query scope := by
  have hcons : ∀ {item : NameItem Q} {l : List (NameItem Q)},
      ((.table name ∈ l ∧ ∀ cteName, cteNameFromObjectName name = .ok (some cteName) → cteName ∉ scope) ∨
        ∃ query, (.nested query ∈ l ∨ .inExpr query ∈ l) ∧ name ∈ inQuery query scope) →
      ((.table name ∈ item :: l ∧
          ∀ cteName, cteNameFromObjectName name = .ok (some cteName) → cteName ∉ scope) ∨
        ∃ query, (.nested query ∈ item :: l ∨ .inExpr query ∈ item :: l) ∧ name ∈ inQuery query scope) := by
    rintro item l (⟨htable, hscope⟩ | ⟨query, hquery, hname⟩)
    · exact .inl ⟨List.mem_cons_of_mem _ htable, hscope⟩
    · exact .inr ⟨query, hquery.imp (List.mem_cons_of_mem _) (List.mem_cons_of_mem _), hname⟩
  induction l with
  | nil => cases h
  | cons item l ih =>
      cases item with
      | table other =>
          rw [items] at h
          split at h
          next cteName hcteName =>
            split_ifs at h with hscope
            · exact hcons (ih h)
            · rcases List.mem_cons.mp h with rfl | h
              · refine .inl ⟨List.mem_cons_self, fun cteName' hcteName' => ?_⟩
                rw [hcteName] at hcteName'
                cases hcteName'
                exact hscope
              · exact hcons (ih h)
          next hcteName =>
            rcases List.mem_cons.mp h with rfl | h
            · exact .inl ⟨List.mem_cons_self, fun cteName' hcteName' => absurd hcteName' (hcteName cteName')⟩
            · exact hcons (ih h)
      | nested q =>
          rw [items] at h
          rcases List.mem_append.mp h with h | h
          · exact .inr ⟨q, .inl List.mem_cons_self, h⟩
          · exact hcons (ih h)
      | inExpr q =>
          rw [items] at h
          rcases List.mem_append.mp h with h | h
          · exact .inr ⟨q, .inr List.mem_cons_self, h⟩
          · exact hcons (ih h)
      | reject error => exact hcons (ih h)

theorem scopeAfter_eq (l : List (Cte Q)) (scope : List String) :
    scopeAfter l scope = (l.map Cte.cteName).reverse ++ scope := by
  induction l generalizing scope with
  | nil => rfl
  | cons cte l ih =>
      show scopeAfter l (cte.cteName :: scope) = _
      rw [ih, List.map_cons, List.reverse_cons, List.append_assoc]
      rfl

end Mentioned

namespace Reading

variable {registry : FunctionRegistry} {designate : ObjectName → Except PlannerError QueryTable}

/-- The names of a `WITH` clause designate tables. -/
theorem withTables_mentioned {n : ℕ}
    {readQuery : Query n → CteScope → Except PlannerError (List BoundTable)}
    {inQuery : Query n → List String → List ObjectName} {scope : CteScope}
    (hquery : ∀ query scope bound, readQuery query scope = .ok bound →
      ∀ name ∈ inQuery query (scopeNames scope), ∃ table, designate name = .ok table)
    {l : List (Cte (Query n))} {declared : CteScope} {r : List BoundTable × CteScope}
    (h : (lexical designate).withTables readQuery scope l declared = .ok r) :
    ∀ name ∈ Mentioned.withClause inQuery l (scopeNames (declared ++ scope)),
      ∃ table, designate name = .ok table := by
  induction l generalizing declared r with
  | nil => simp [Mentioned.withClause]
  | cons cte l ih =>
      simp only [withTables] at h
      split_ifs at h
      simp only [ExceptRun.bind_eq_ok] at h
      obtain ⟨reads, hreads, rest, hrest, -⟩ := h
      intro name hname
      rw [Mentioned.withClause] at hname
      rcases List.mem_append.mp hname with hname | hname
      · exact hquery _ _ _ hreads name hname
      · exact ih hrest name hname

/-- If a query has a meaning, the names the first pass should gather designate tables. -/
theorem query_mentioned (n : ℕ) (q : Query n) (scope : CteScope) (bound : List BoundTable)
    (h : (lexical designate).query registry n q scope = .ok bound) :
    ∀ name ∈ Mentioned.query n q (scopeNames scope), ∃ table, designate name = .ok table := by
  induction n generalizing scope bound with
  | zero => exact nomatch q
  | succ n ih =>
      have hsupported := query_supported h
      obtain ⟨ctes, hctes, -, hsupported⟩ := hsupported
      simp only [query, ExceptRun.bind_eq_ok] at h
      obtain ⟨ctes', hctes', ⟨withBound, declared⟩, hwith, rest, hitems, -⟩ := h
      rw [hctes] at hctes'
      cases hctes'
      intro name hname
      rw [Mentioned.query, hctes] at hname
      rcases List.mem_append.mp hname with hname | hname
      · exact withTables_mentioned ih hwith name hname
      · have hscope : Mentioned.scopeAfter ctes (scopeNames scope) = scopeNames (declared ++ scope) := by
          have hnames := withTables_names hwith
          rw [List.map_nil, List.append_nil] at hnames
          rw [Mentioned.scopeAfter_eq, ← hnames]
          exact List.map_append.symm
        rw [hscope] at hname
        obtain ⟨htable, hnested, hexpr, -⟩ := items_mem hitems
        have hplanned := Supported.mem_planned registry hsupported
        rcases Mentioned.mem_items hname with ⟨hmem, hcte⟩ | ⟨query, hmem, hname⟩
        · obtain ⟨table, hbound⟩ := htable name (hplanned hmem)
          simp only [bindTableName, ExceptRun.bind_eq_ok] at hbound
          obtain ⟨cteName, hcteName, hbound⟩ := hbound
          have hnone : (cteName.bind fun cteName => (declared ++ scope).find? (·.1 = cteName)) = none := by
            cases cteName with
            | none => rfl
            | some cteName => exact find_eq_none.mpr (hcte cteName hcteName)
          rw [hnone] at hbound
          simp only [ExceptRun.bind_eq_ok] at hbound
          obtain ⟨base, hbase, -⟩ := hbound
          exact ⟨base, hbase⟩
        · rcases hmem with hmem | hmem
          · obtain ⟨bound, hbound⟩ := hnested query (hplanned hmem)
            exact ih _ _ _ hbound name hname
          · obtain ⟨bound, hbound⟩ := hexpr query (hplanned hmem)
            exact ih _ _ _ hbound name hname

end Reading

namespace Mentioned

variable {registry : FunctionRegistry} {table : Place → ObjectName → Prop}

/-- Nested queries leave the CTE names in scope as they were, so the first pass gathers the names one by
one. -/
theorem collectItems_eq {collectQuery : Q → CollectedNames → Except PlannerError CollectedNames}
    {inQuery : Q → List String → List ObjectName} {scope : List String} {l : List (NameItem Q)}
    (hquery : ∀ query, .nested query ∈ l ∨ .inExpr query ∈ l → ∀ names,
      collectQuery query ⟨names, scope.toFinset⟩ = .ok ⟨names ++ inQuery query scope, scope.toFinset⟩)
    (htable : ∀ name, .table name ∈ l → ∃ cteName, cteNameFromObjectName name = .ok cteName)
    (hreject : ∀ error, .reject error ∉ l) (names : List ObjectName) :
    collectItems collectQuery l ⟨names, scope.toFinset⟩ =
      .ok ⟨names ++ items inQuery scope l, scope.toFinset⟩ := by
  induction l generalizing names with
  | nil => simp [collectItems, items]
  | cons item l ih =>
      have htail := ih (fun query h => hquery query (h.imp (List.mem_cons_of_mem _) (List.mem_cons_of_mem _)))
        (fun name h => htable name (List.mem_cons_of_mem _ h))
        (fun error h => hreject error (List.mem_cons_of_mem _ h))
      cases item with
      | table name =>
          obtain ⟨cteName, hcteName⟩ := htable name List.mem_cons_self
          cases cteName with
          | none => simp [collectItems, items, hcteName, htail, bind, Except.bind]
          | some cteName =>
              by_cases hscope : cteName ∈ scope
              · simp [collectItems, items, hcteName, htail, hscope, bind, Except.bind]
              · simp [collectItems, items, hcteName, htail, hscope, bind, Except.bind]
      | nested q =>
          simp [collectItems, items, hquery q (.inl List.mem_cons_self), htail, bind, Except.bind]
      | inExpr q =>
          simp [collectItems, items, hquery q (.inr List.mem_cons_self), htail, bind, Except.bind]
      | reject error => exact absurd List.mem_cons_self (hreject error)

theorem collectWith_eq {collectQuery : Q → CollectedNames → Except PlannerError CollectedNames}
    {inQuery : Q → List String → List ObjectName} {queryScoped : Q → Place → Prop} {taken : List String}
    {l : List (Cte Q)}
    (hquery : ∀ cte ∈ l, ∀ place, queryScoped cte.query place → ∀ names,
      collectQuery cte.query ⟨names, place.names.toFinset⟩ =
        .ok ⟨names ++ inQuery cte.query place.names, place.names.toFinset⟩)
    {place : Place} (hscoped : Scoped.WithClause queryScoped taken l place) (names : List ObjectName) :
    collectWith collectQuery l ⟨names, place.names.toFinset⟩ =
      .ok ⟨names ++ withClause inQuery l place.names, (scopeAfter l place.names).toFinset⟩ := by
  induction l generalizing place names with
  | nil => simp [collectWith, withClause, scopeAfter]
  | cons cte l ih =>
      obtain ⟨-, hcte, hrest⟩ := hscoped
      have htail := ih (fun cte h => hquery cte (List.mem_cons_of_mem _ h)) hrest
        (names ++ inQuery cte.query place.names)
      have hdeclare : (place.declare cte.cteName).names = cte.cteName :: place.names := rfl
      rw [hdeclare, List.toFinset_cons] at htail
      rw [collectWith, hquery cte List.mem_cons_self place hcte]
      show collectWith collectQuery l _ = _
      rw [htail, withClause, List.append_assoc]
      rfl

theorem not_mem_of_withClause {queryScoped : Q → Place → Prop} {taken : List String} {l : List (Cte Q)}
    {place : Place} (h : Scoped.WithClause queryScoped taken l place) :
    ∀ name ∈ l.map Cte.cteName, name ∉ taken := by
  induction l generalizing place with
  | nil => simp
  | cons cte l ih =>
      obtain ⟨hname, -, hrest⟩ := h
      exact List.forall_mem_cons.mpr ⟨hname, ih hrest⟩

theorem foldl_erase (l : List String) (s : Finset String) : l.foldl Finset.erase s = s \ l.toFinset := by
  induction l generalizing s with
  | nil => simp
  | cons name l ih =>
      rw [List.foldl_cons, ih, List.toFinset_cons, Finset.sdiff_insert, Finset.erase_sdiff_comm]

/-- In a well-scoped query the first pass gathers the names it should, and restores its state. -/
theorem collectQuery_eq (n : ℕ) (q : Query n) (place : Place) (hsupported : Supported.InQuery registry n q)
    (hscoped : Scoped.InQuery registry Place.names table n q place) (names : List ObjectName) :
    collectQueryTableNames n q ⟨names, place.names.toFinset⟩ =
      .ok ⟨names ++ query n q place.names, place.names.toFinset⟩ := by
  induction n generalizing place names with
  | zero => exact nomatch q
  | succ n ih =>
      obtain ⟨ctes, hctes, hsupportedCtes, hsupported⟩ := hsupported
      obtain ⟨hwith, hitems⟩ := hscoped ctes hctes
      have hplanned := Supported.mem_planned registry hsupported
      have hafter : (Scoped.afterWith ctes place).names = scopeAfter ctes place.names := by
        rw [Reading.afterWith_eq, scopeAfter_eq, Place.names, Place.names, List.append_assoc]
      have hcollected : ∀ names, collectItems (collectQueryTableNames n) q.body.collected
          ⟨names, (scopeAfter ctes place.names).toFinset⟩ =
            .ok ⟨names ++ items (query n) (scopeAfter ctes place.names) q.body.collected,
              (scopeAfter ctes place.names).toFinset⟩ := by
        refine collectItems_eq ?_ ?_ ?_
        · intro query hquery names
          rw [← hafter]
          rcases hquery with hquery | hquery
          · exact ih query _ (hsupported _ (hplanned hquery)) (hitems _ (hplanned hquery)) names
          · exact ih query (Scoped.afterWith ctes place).enterExpr (hsupported _ (hplanned hquery))
              (hitems _ (hplanned hquery)) names
        · exact fun name hname => hsupported _ (hplanned hname)
        · exact fun error herror => hsupported _ (hplanned herror)
      have hctesEq := collectWith_eq
        (fun cte hcte place hplace names => ih cte.query place (hsupportedCtes cte hcte) hplace names) hwith
        names
      rw [collectQueryTableNames, query, hctes]
      simp only [bind, Except.bind, hctesEq, hcollected, pure, Except.pure, List.append_assoc]
      congr 2
      rw [foldl_erase, scopeAfter_eq, List.toFinset_append, List.toFinset_reverse]
      have hdisjoint : Disjoint (ctes.map Cte.cteName).toFinset place.names.toFinset := by
        rw [List.disjoint_toFinset_iff_disjoint]
        exact fun name hname => not_mem_of_withClause hwith name hname
      exact Finset.union_sdiff_cancel_left hdisjoint

end Mentioned

/-! ## The tables of the statement -/

section Tables

variable {catalog : TableCatalog} {session : PlanningSession}

theorem TableCatalog.mem_of_resolveTable {name : ObjectName} {table : QueryTable}
    (h : catalog.resolveTable session name = .ok table) : table ∈ catalog.tables := by
  simp only [TableCatalog.resolveTable, ExceptRun.bind_eq_ok] at h
  obtain ⟨path, -, h⟩ := h
  rw [TableCatalog.getTable] at h
  split at h
  next found hfound =>
    cases h
    exact List.mem_of_find?_eq_some hfound
  next => cases h

/-- Each table is kept once. -/
theorem mem_dedupeTables {tables : List QueryTable} (htables : ∀ table ∈ tables, table ∈ catalog.tables)
    {seen : List Uuid} {table : QueryTable} :
    table ∈ dedupeTables tables seen ↔ table ∈ tables ∧ table.entry.tableId ∉ seen := by
  induction tables generalizing seen with
  | nil => simp [dedupeTables]
  | cons head tables ih =>
      obtain ⟨hhead, hrest⟩ := List.forall_mem_cons.mp htables
      have hid : ∀ other ∈ tables, other.entry.tableId = head.entry.tableId → other = head := fun other hother heq =>
        List.inj_on_of_nodup_map catalog.nodup_tableId (hrest other hother) hhead heq
      rw [dedupeTables]
      split_ifs with hseen
      · rw [ih hrest, List.mem_cons]
        constructor
        · rintro ⟨hmem, hnew⟩
          exact ⟨.inr hmem, hnew⟩
        · rintro ⟨rfl | hmem, hnew⟩
          · exact absurd hseen hnew
          · exact ⟨hmem, hnew⟩
      · rw [List.mem_cons, ih hrest, List.mem_cons, List.mem_cons, not_or]
        constructor
        · rintro (rfl | ⟨hmem, -, hnew⟩)
          · exact ⟨.inl rfl, hseen⟩
          · exact ⟨.inr hmem, hnew⟩
        · rintro ⟨rfl | hmem, hnew⟩
          · exact .inl rfl
          · by_cases heq : table.entry.tableId = head.entry.tableId
            · exact .inl (hid table hmem heq)
            · exact .inr ⟨hmem, heq, hnew⟩

theorem nodup_dedupeTables (tables : List QueryTable) (seen : List Uuid) :
    (dedupeTables tables seen).Nodup ∧ ∀ table ∈ dedupeTables tables seen, table.entry.tableId ∉ seen := by
  induction tables generalizing seen with
  | nil => simp [dedupeTables]
  | cons head tables ih =>
      rw [dedupeTables]
      split_ifs with hseen
      · exact ih seen
      · obtain ⟨hnodup, hnew⟩ := ih (head.entry.tableId :: seen)
        refine ⟨List.nodup_cons.mpr ⟨fun hmem => hnew head hmem List.mem_cons_self, hnodup⟩, ?_⟩
        exact List.forall_mem_cons.mpr ⟨hseen, fun table htable h =>
          hnew table htable (List.mem_cons_of_mem _ h)⟩

/-- A list without duplicates has a single member of a kind just when it filters to that one. -/
theorem filter_eq_singleton {α : Type} {l : List α} (hl : l.Nodup) {p : α → Bool} {a : α} :
    l.filter p = [a] ↔ ∀ b, b ∈ l ∧ p b ↔ b = a := by
  constructor
  · intro h b
    rw [← List.mem_filter, h, List.mem_singleton]
  · intro h
    have hmem : ∀ b, b ∈ l.filter p ↔ b ∈ [a] := fun b => by rw [List.mem_filter, h, List.mem_singleton]
    exact List.perm_singleton.mp ((List.perm_ext_iff_of_nodup (hl.filter p) (List.nodup_singleton a)).mpr hmem)

/-- A name is found among the tables of the statement just when one of them ends with it. -/
theorem resolveTable_eq_ok {tables : List QueryTable} (htables : tables.Nodup) {name : ObjectName}
    {table : QueryTable} :
    QueryPlannerContext.resolveTable ⟨tables, []⟩ name = .ok table ↔
      ∀ other, (other ∈ tables ∧
        ∃ parts, objectNameParts name = .ok parts ∧ other.entry.path.endsWith parts) ↔ other = table := by
  simp only [QueryPlannerContext.resolveTable, ExceptRun.bind_eq_ok]
  constructor
  · rintro ⟨parts, hparts, h⟩
    split at h
    next => cases h
    next found hfound =>
      cases h
      simp only [hparts, Except.ok.injEq, exists_eq_left']
      exact (filter_eq_singleton htables).mp hfound
    next => cases h
  · intro h
    obtain ⟨-, parts, hparts, -⟩ := (h table).mpr rfl
    refine ⟨parts, hparts, ?_⟩
    simp only [hparts, Except.ok.injEq, exists_eq_left'] at h
    rw [(filter_eq_singleton htables).mpr h]

/-- The tables of the statement are those its names designate. -/
theorem mem_dedupeTables_mapM {mentioned : List ObjectName} {tables : List QueryTable}
    (htables : mentioned.mapM (catalog.resolveTable session) = .ok tables) (table : QueryTable) :
    table ∈ dedupeTables tables [] ↔
      ∃ other ∈ mentioned, catalog.resolveTable session other = .ok table := by
  have hforall := ExceptRun.mapM_eq_ok.mp htables
  have hcatalog : ∀ table ∈ tables, table ∈ catalog.tables := by
    intro table htable
    obtain ⟨other, -, hresolve⟩ := ForallTwo.exists_left hforall htable
    exact TableCatalog.mem_of_resolveTable hresolve
  rw [mem_dedupeTables hcatalog]
  constructor
  · rintro ⟨htable, -⟩
    exact ForallTwo.exists_left hforall htable
  · rintro ⟨other, hother, hresolve⟩
    obtain ⟨table', htable', hresolve'⟩ := ForallTwo.exists_right hforall hother
    rw [hresolve] at hresolve'
    cases hresolve'
    exact ⟨htable', List.not_mem_nil⟩

/-- The planner finds the designated table if that is the only one that fits. -/
theorem resolveTable_same {mentioned : List ObjectName} {tables : List QueryTable}
    (htables : mentioned.mapM (catalog.resolveTable session) = .ok tables) {name : ObjectName}
    (h : DesignatedAmong (catalog.resolveTable session) mentioned name) :
    ExceptRun.SameOk (QueryPlannerContext.resolveTable ⟨dedupeTables tables [], []⟩ name)
      (catalog.resolveTable session name) := by
  intro table
  rw [resolveTable_eq_ok (nodup_dedupeTables tables []).1]
  simp only [mem_dedupeTables_mapM htables]
  constructor
  · intro hone
    exact (h table).mp ((hone table).mpr rfl)
  · intro hdesignate other
    rw [h other, hdesignate, Except.ok.injEq]
    exact eq_comm

/-- If the planner finds the designated table, it is the only one that fits. -/
theorem designatedAmong_of_resolveTable {mentioned : List ObjectName} {tables : List QueryTable}
    (htables : mentioned.mapM (catalog.resolveTable session) = .ok tables) {name : ObjectName}
    {table : QueryTable}
    (hresolve : QueryPlannerContext.resolveTable ⟨dedupeTables tables [], []⟩ name = .ok table)
    (hdesignate : catalog.resolveTable session name = .ok table) :
    DesignatedAmong (catalog.resolveTable session) mentioned name := by
  rw [resolveTable_eq_ok (nodup_dedupeTables tables []).1] at hresolve
  simp only [mem_dedupeTables_mapM htables] at hresolve
  intro other
  rw [hresolve other, hdesignate, Except.ok.injEq]
  exact eq_comm

end Tables

/-! ## Statements -/

/-- A well-scoped statement is bound just as the lexical reading says, and rejected when that gives its
names no meaning. -/
theorem bindQueryStatement_same (registry : FunctionRegistry) (catalog : TableCatalog)
    (session : PlanningSession) {n : ℕ} (query : Query n) (h : WellScoped registry catalog session query) :
    ExceptRun.SameOk (bindQueryStatement registry catalog session query)
      (lexicalTables registry catalog session query) := by
  -- a query with either reading is supported, so that the first pass gathers the names it should
  have hcollect : Supported.InQuery registry n query →
      collectQueryTableNames n query ⟨[], ∅⟩ = .ok ⟨Mentioned.query n query [], ∅⟩ := fun hsupported =>
    Mentioned.collectQuery_eq n query ⟨[], []⟩ hsupported h []
  intro bound
  simp only [bindQueryStatement, resolveQueryTables, lexicalTables, ExceptRun.bind_eq_ok, ExceptRun.pure_eq_ok]
  constructor
  · rintro ⟨-, ⟨state, hstate, tables, htables, rfl⟩, ⟨bound', ctes⟩, hplan, rfl⟩
    rw [Reading.planQuery_eq, ExceptRun.map_eq_ok] at hplan
    obtain ⟨bound'', hplan, hpair⟩ := hplan
    cases hpair
    rw [hcollect (Reading.query_supported hplan)] at hstate
    cases hstate
    exact (Reading.query_same (fun name => resolveTable_same htables) n query [] [] h bound').mp hplan
  · intro hlexical
    obtain ⟨tables, htables⟩ := ExceptRun.exists_mapM_eq_ok (Reading.query_mentioned n query [] bound hlexical)
    have hplan := (Reading.query_same (fun name => resolveTable_same htables) n query [] [] h bound).mpr hlexical
    refine ⟨_, ⟨_, hcollect (Reading.query_supported hlexical), tables, htables, rfl⟩, (bound, []), ?_, rfl⟩
    rw [Reading.planQuery_eq, hplan]
    rfl

/-! ## Only well-scoped statements are bound so -/

namespace Reading

variable {registry : FunctionRegistry} {reading reading' : Reading}

/-- How many tables a reading binds does not depend on the reading. -/
theorem items_length {read read' : Q → CteScope → Except PlannerError (List BoundTable)}
    (hquery : ∀ query scope scope' bound bound', read query scope = .ok bound →
      read' query scope' = .ok bound' → bound.length = bound'.length)
    {scope scope' : CteScope} {l : List (NameItem Q)} {bound bound' : List BoundTable}
    (h : reading.items read scope l = .ok bound) (h' : reading'.items read' scope' l = .ok bound') :
    bound.length = bound'.length := by
  induction l generalizing bound bound' with
  | nil =>
      cases h
      cases h'
      rfl
  | cons item l ih =>
      cases item with
      | table name =>
          simp only [items, ExceptRun.bind_eq_ok, ExceptRun.pure_eq_ok] at h h'
          obtain ⟨table, -, rest, hrest, rfl⟩ := h
          obtain ⟨table', -, rest', hrest', rfl⟩ := h'
          rw [List.length_cons, List.length_cons, ih hrest hrest']
      | nested q =>
          simp only [items, ExceptRun.bind_eq_ok, ExceptRun.pure_eq_ok] at h h'
          obtain ⟨nested, hnested, rest, hrest, rfl⟩ := h
          obtain ⟨nested', hnested', rest', hrest', rfl⟩ := h'
          rw [List.length_append, List.length_append, ih hrest hrest', hquery _ _ _ _ _ hnested hnested']
      | inExpr q =>
          simp only [items, ExceptRun.bind_eq_ok, ExceptRun.pure_eq_ok] at h h'
          obtain ⟨nested, hnested, rest, hrest, rfl⟩ := h
          obtain ⟨nested', hnested', rest', hrest', rfl⟩ := h'
          rw [List.length_append, List.length_append, ih hrest hrest', hquery _ _ _ _ _ hnested hnested']
      | reject error => cases h

theorem withTables_length {n : ℕ} {read : Query n → CteScope → Except PlannerError (List BoundTable)}
    {scope : CteScope} {l : List (Cte (Query n))} {declared : CteScope} {r : List BoundTable × CteScope}
    (h : reading.withTables read scope l declared = .ok r) : r.1.length = l.length := by
  induction l generalizing declared r with
  | nil =>
      cases h
      rfl
  | cons cte l ih =>
      simp only [withTables] at h
      split_ifs at h
      simp only [ExceptRun.bind_eq_ok, ExceptRun.pure_eq_ok] at h
      obtain ⟨reads, -, rest, hrest, rfl⟩ := h
      rw [List.length_cons, List.length_cons, ih hrest]

theorem query_length (n : ℕ) (q : Query n) (scope scope' : CteScope) (bound bound' : List BoundTable)
    (h : reading.query registry n q scope = .ok bound) (h' : reading'.query registry n q scope' = .ok bound') :
    bound.length = bound'.length := by
  induction n generalizing scope scope' bound bound' with
  | zero => exact nomatch q
  | succ n ih =>
      simp only [query, ExceptRun.bind_eq_ok, ExceptRun.pure_eq_ok] at h h'
      obtain ⟨ctes, hctes, r, hwith, rest, hitems, rfl⟩ := h
      obtain ⟨ctes', hctes', r', hwith', rest', hitems', rfl⟩ := h'
      rw [hctes] at hctes'
      cases hctes'
      rw [List.length_append, List.length_append, withTables_length hwith, withTables_length hwith',
        items_length ih hitems hitems']

variable {tables : List QueryTable} {designate : ObjectName → Except PlannerError QueryTable}

/-- The tables in a scope are CTEs. -/
def CtesOnly (scope : CteScope) : Prop := ∀ entry ∈ scope, ∃ name query reads, entry.2 = .cte name query reads

/-- The planner looks up what the session designates. -/
def Agreed (tables : List QueryTable) (designate : ObjectName → Except PlannerError QueryTable)
    (name : ObjectName) : Prop :=
  ∃ table, QueryPlannerContext.resolveTable ⟨tables, []⟩ name = .ok table ∧ designate name = .ok table

theorem tableScoped_of_same {ctes hidden : CteScope} (hhidden : CtesOnly hidden) {name : ObjectName}
    {table : BoundTable} (h : bindTableName (planner tables).resolveBase ctes name = .ok table)
    (h' : bindTableName (lexical designate).resolveBase (ctes ++ hidden) name = .ok table) :
    TableScoped (Agreed tables designate) ⟨scopeNames ctes, scopeNames hidden⟩ name := by
  simp only [bindTableName, ExceptRun.bind_eq_ok] at h h'
  obtain ⟨cteName, hname, h⟩ := h
  obtain ⟨cteName', hname', h'⟩ := h'
  rw [hname] at hname'
  cases hname'
  rw [TableScoped, hname]
  cases cteName with
  | none =>
      simp only [Option.bind_none, ExceptRun.bind_eq_ok, ExceptRun.pure_eq_ok] at h h'
      obtain ⟨base, hbase, rfl⟩ := h
      obtain ⟨base', hbase', heq⟩ := h'
      cases heq
      exact ⟨base, hbase, hbase'⟩
  | some cteName =>
      by_cases hvisible : cteName ∈ scopeNames ctes
      · exact .inl hvisible
      · simp only [Option.bind_some, List.find?_append, find_eq_none.mpr hvisible, Option.none_or,
          ExceptRun.bind_eq_ok, ExceptRun.pure_eq_ok] at h h'
        obtain ⟨base, hbase, rfl⟩ := h
        cases hfind : hidden.find? (·.1 = cteName) with
        | some entry =>
            -- the lexical reading gives a CTE here, the planner a base table
            rw [hfind] at h'
            obtain ⟨cte, query, reads, hentry⟩ := hhidden entry (List.mem_of_find?_eq_some hfind)
            have heq : entry.2 = .base base := ExceptRun.pure_eq_ok.mp h'
            rw [hentry] at heq
            cases heq
        | none =>
            rw [hfind] at h'
            simp only [ExceptRun.bind_eq_ok, ExceptRun.pure_eq_ok] at h'
            obtain ⟨base', hbase', heq⟩ := h'
            cases heq
            exact .inr ⟨find_eq_none.mp hfind, base, hbase, hbase'⟩

theorem ctesOnly_append {scope rest : CteScope} (h : CtesOnly scope) (hrest : CtesOnly rest) :
    CtesOnly (scope ++ rest) :=
  fun entry hentry => (List.mem_append.mp hentry).elim (h entry) (hrest entry)

theorem items_scoped {queryFresh queryScoped : Q → Place → Prop}
    {planned read : Q → CteScope → Except PlannerError (List BoundTable)}
    (hlength : ∀ query scope scope' bound bound', planned query scope = .ok bound →
      read query scope' = .ok bound' → bound.length = bound'.length)
    (hquery : ∀ query ctes hidden, CtesOnly ctes → CtesOnly hidden →
      queryFresh query ⟨scopeNames ctes, scopeNames hidden⟩ → ∀ bound, planned query ctes = .ok bound →
        read query (ctes ++ hidden) = .ok bound → queryScoped query ⟨scopeNames ctes, scopeNames hidden⟩)
    {ctes hidden : CteScope} (hctes : CtesOnly ctes) (hhidden : CtesOnly hidden) {l : List (NameItem Q)}
    (hfresh : ∀ item ∈ l,
      Scoped.Item (fun _ _ => True) queryFresh ⟨scopeNames ctes, scopeNames hidden⟩ item)
    {bound : List BoundTable} (h : (planner tables).items planned ctes l = .ok bound)
    (h' : (lexical designate).items read (ctes ++ hidden) l = .ok bound) :
    ∀ item ∈ l, Scoped.Item (TableScoped (Agreed tables designate)) queryScoped
      ⟨scopeNames ctes, scopeNames hidden⟩ item := by
  induction l generalizing bound with
  | nil => simp
  | cons item l ih =>
      obtain ⟨hitem, hrestFresh⟩ := List.forall_mem_cons.mp hfresh
      cases item with
      | table name =>
          simp only [items, ExceptRun.bind_eq_ok, ExceptRun.pure_eq_ok] at h h'
          obtain ⟨table, htable, rest, hrest, rfl⟩ := h
          obtain ⟨table', htable', rest', hrest', heq⟩ := h'
          cases heq
          exact List.forall_mem_cons.mpr
            ⟨tableScoped_of_same hhidden htable htable', ih hrestFresh hrest hrest'⟩
      | nested q =>
          simp only [items, ExceptRun.bind_eq_ok, ExceptRun.pure_eq_ok] at h h'
          obtain ⟨nested, hnested, rest, hrest, rfl⟩ := h
          obtain ⟨nested', hnested', rest', hrest', heq⟩ := h'
          obtain ⟨rfl, rfl⟩ := List.append_inj heq (hlength _ _ _ _ _ hnested hnested').symm
          exact List.forall_mem_cons.mpr
            ⟨hquery q ctes hidden hctes hhidden hitem _ hnested hnested', ih hrestFresh hrest hrest'⟩
      | inExpr q =>
          simp only [items, ExceptRun.bind_eq_ok, ExceptRun.pure_eq_ok] at h h'
          obtain ⟨nested, hnested, rest, hrest, rfl⟩ := h
          obtain ⟨nested', hnested', rest', hrest', heq⟩ := h'
          obtain ⟨rfl, rfl⟩ := List.append_inj heq (hlength _ _ _ _ _ hnested hnested').symm
          have hplace : (⟨scopeNames ctes, scopeNames hidden⟩ : Place).enterExpr =
              ⟨scopeNames [], scopeNames (ctes ++ hidden)⟩ := by
            have hmap : scopeNames (ctes ++ hidden) = scopeNames ctes ++ scopeNames hidden := List.map_append
            rw [hmap]
            rfl
          refine List.forall_mem_cons.mpr ⟨?_, ih hrestFresh hrest hrest'⟩
          simp only [Scoped.Item, hplace] at hitem ⊢
          exact hquery q [] (ctes ++ hidden) (by simp [CtesOnly]) (ctesOnly_append hctes hhidden) hitem _
            hnested hnested'
      | reject error => cases h

theorem withTables_scoped {n : ℕ} {queryFresh queryScoped : Query n → Place → Prop}
    {planned read : Query n → CteScope → Except PlannerError (List BoundTable)}
    (hquery : ∀ query ctes hidden, CtesOnly ctes → CtesOnly hidden →
      queryFresh query ⟨scopeNames ctes, scopeNames hidden⟩ → ∀ bound, planned query ctes = .ok bound →
        read query (ctes ++ hidden) = .ok bound → queryScoped query ⟨scopeNames ctes, scopeNames hidden⟩)
    {ctes hidden : CteScope} (hctes : CtesOnly ctes) (hhidden : CtesOnly hidden)
    {l : List (Cte (Query n))} {declared : CteScope} (hdeclared : CtesOnly declared)
    (hfresh : Scoped.WithClause queryFresh (scopeNames hidden) l
      ⟨scopeNames (declared ++ ctes), scopeNames hidden⟩)
    {bound : List BoundTable} {after after' : CteScope}
    (h : (planner tables).withTables planned ctes l declared = .ok (bound, after))
    (h' : (lexical designate).withTables read (ctes ++ hidden) l declared = .ok (bound, after')) :
    Scoped.WithClause queryScoped (scopeNames ctes ++ scopeNames hidden) l
        ⟨scopeNames (declared ++ ctes), scopeNames hidden⟩ ∧
      after' = after ∧ CtesOnly after := by
  induction l generalizing declared bound with
  | nil =>
      cases h
      cases h'
      exact ⟨trivial, rfl, hdeclared⟩
  | cons cte l ih =>
      have htaken := withTables_taken h (fun declared => List.subset_append_right declared ctes) cte
        List.mem_cons_self
      obtain ⟨hname, hcte, hrestFresh⟩ := hfresh
      simp only [withTables] at h h'
      split_ifs at h h'
      simp only [ExceptRun.bind_eq_ok, ExceptRun.pure_eq_ok] at h h'
      obtain ⟨reads, hreads, ⟨rest, restAfter⟩, hrest, heq⟩ := h
      cases heq
      obtain ⟨reads', hreads', ⟨rest', restAfter'⟩, hrest', heq⟩ := h'
      -- the same CTE was bound, so its query was read the same
      cases heq
      rw [← List.append_assoc] at hreads'
      have hdeclared' : CtesOnly ((cte.cteName, .cte cte.cteName ⟨n, cte.query⟩ reads) :: declared) :=
        List.forall_mem_cons.mpr ⟨⟨_, _, _, rfl⟩, hdeclared⟩
      obtain ⟨hscoped, hafter⟩ := ih hdeclared' hrestFresh hrest hrest'
      refine ⟨⟨?_, ?_, hscoped⟩, hafter⟩
      · rw [List.mem_append, not_or]
        exact ⟨htaken, hname⟩
      · exact hquery cte.query (declared ++ ctes) hidden (ctesOnly_append hdeclared hctes) hhidden hcte _ hreads
          hreads'

/-- If both readings give the same tables, the query is well scoped. -/
theorem query_scoped (n : ℕ) (q : Query n) (ctes hidden : CteScope) (hctes : CtesOnly ctes)
    (hhidden : CtesOnly hidden)
    (hfresh : Scoped.InQuery registry Place.hidden (fun _ _ => True) n q
      ⟨scopeNames ctes, scopeNames hidden⟩) (bound : List BoundTable)
    (h : (planner tables).query registry n q ctes = .ok bound)
    (h' : (lexical designate).query registry n q (ctes ++ hidden) = .ok bound) :
    Scoped.InQuery registry Place.names (TableScoped (Agreed tables designate)) n q
      ⟨scopeNames ctes, scopeNames hidden⟩ := by
  induction n generalizing ctes hidden bound with
  | zero => exact nomatch q
  | succ n ih =>
      simp only [query, ExceptRun.bind_eq_ok, ExceptRun.pure_eq_ok] at h h'
      obtain ⟨cteTables, hcteTables, ⟨withBound, after⟩, hwith, rest, hitems, rfl⟩ := h
      obtain ⟨cteTables', hcteTables', ⟨withBound', after'⟩, hwith', rest', hitems', heq⟩ := h'
      rw [hcteTables] at hcteTables'
      cases hcteTables'
      have hlength : withBound'.length = withBound.length :=
        (withTables_length hwith').trans (withTables_length hwith).symm
      obtain ⟨rfl, rfl⟩ := List.append_inj heq hlength
      obtain ⟨hfreshWith, hfreshItems⟩ := hfresh cteTables hcteTables
      obtain ⟨hscopedWith, rfl, hafter⟩ :=
        withTables_scoped ih hctes hhidden (by simp [CtesOnly]) hfreshWith hwith hwith'
      intro ctes' hctes'
      rw [hcteTables] at hctes'
      cases hctes'
      refine ⟨hscopedWith, ?_⟩
      have hnames : scopeNames (after' ++ ctes) = (cteTables.map Cte.cteName).reverse ++ scopeNames ctes := by
        have hdeclared := withTables_names hwith
        rw [List.map_nil, List.append_nil] at hdeclared
        rw [← hdeclared]
        exact List.map_append
      rw [afterWith_eq, ← hnames] at hfreshItems ⊢
      rw [← List.append_assoc] at hitems'
      exact items_scoped (fun query scope scope' bound bound' => query_length n query scope scope' bound bound')
        ih (ctesOnly_append hafter hctes) hhidden hfreshItems hitems hitems'

end Reading

namespace Scoped

variable {registry : FunctionRegistry} {outer : Place → List String}

theorem withClause_mono {queryScoped queryScoped' : Q → Place → Prop} {taken : List String}
    (hquery : ∀ query place, queryScoped query place → queryScoped' query place) {l : List (Cte Q)}
    {place : Place} (h : WithClause queryScoped taken l place) : WithClause queryScoped' taken l place := by
  induction l generalizing place with
  | nil => trivial
  | cons cte l ih =>
      obtain ⟨hname, hcte, hrest⟩ := h
      exact ⟨hname, hquery _ _ hcte, ih hrest⟩

theorem inQuery_mono {table table' : Place → ObjectName → Prop}
    (htable : ∀ place name, table place name → table' place name) (n : ℕ) (q : Query n) (place : Place)
    (h : InQuery registry outer table n q place) : InQuery registry outer table' n q place := by
  induction n generalizing place with
  | zero => exact nomatch q
  | succ n ih =>
      intro ctes hctes
      obtain ⟨hwith, hitems⟩ := h ctes hctes
      refine ⟨withClause_mono ih hwith, fun item hitem => ?_⟩
      have hscoped := hitems item hitem
      cases item with
      | table name => exact htable _ _ hscoped
      | nested q => exact ih q _ hscoped
      | inExpr q => exact ih q _ hscoped
      | reject error => trivial

end Scoped

theorem TableScoped.mono {base base' : ObjectName → Prop} (hbase : ∀ name, base name → base' name)
    (place : Place) (name : ObjectName) (h : TableScoped base place name) : TableScoped base' place name := by
  rw [TableScoped] at h ⊢
  split
  next cteName hname =>
    rw [hname] at h
    exact h.imp_right fun h => ⟨h.1, hbase name h.2⟩
  next hname =>
    rw [hname] at h
    exact hbase name h
  next => trivial

/-- A statement whose names have a meaning is bound to it only if it is well scoped. -/
theorem wellScoped_of_same {registry : FunctionRegistry} {catalog : TableCatalog}
    {session : PlanningSession} {n : ℕ} {query : Query n} (hfresh : HiddenNamesFresh registry query)
    {bound : List BoundTable} (h : bindQueryStatement registry catalog session query = .ok bound)
    (hlexical : lexicalTables registry catalog session query = .ok bound) :
    WellScoped registry catalog session query := by
  simp only [bindQueryStatement, resolveQueryTables, ExceptRun.bind_eq_ok, ExceptRun.pure_eq_ok] at h
  obtain ⟨-, ⟨state, hstate, tables, htables, rfl⟩, ⟨bound', ctes⟩, hplan, rfl⟩ := h
  rw [Reading.planQuery_eq, ExceptRun.map_eq_ok] at hplan
  obtain ⟨bound'', hplan, hpair⟩ := hplan
  cases hpair
  have hnil : Reading.CtesOnly [] := by simp [Reading.CtesOnly]
  have hscoped := Reading.query_scoped n query [] [] hnil hnil hfresh bound' hplan hlexical
  -- so the first pass gathered the names it should have
  have hcollect := Mentioned.collectQuery_eq n query ⟨[], []⟩ (Reading.query_supported hplan) hscoped []
  have hstate' : collectQueryTableNames n query ⟨[], ∅⟩ = .ok ⟨Mentioned.query n query [], ∅⟩ := hcollect
  rw [hstate'] at hstate
  cases hstate
  refine Scoped.inQuery_mono (TableScoped.mono ?_) n query _ hscoped
  rintro name ⟨table, hresolve, hdesignate⟩
  exact designatedAmong_of_resolveTable htables hresolve hdesignate

/-- Well-scoped statements are bound as the lexical reading says, and rejected when it gives some name no
meaning. A statement with a meaning, in which expressions declare no name that is declared around them,
has to be well scoped for that. -/
theorem bindQueryStatement_lexical_iff (registry : FunctionRegistry) (catalog : TableCatalog)
    (session : PlanningSession) {n : ℕ} (query : Query n) :
    (WellScoped registry catalog session query →
      ExceptRun.SameOk (bindQueryStatement registry catalog session query)
        (lexicalTables registry catalog session query)) ∧
    (HiddenNamesFresh registry query →
      (∃ bound, lexicalTables registry catalog session query = .ok bound) →
      ExceptRun.SameOk (bindQueryStatement registry catalog session query)
        (lexicalTables registry catalog session query) → WellScoped registry catalog session query) := by
  refine ⟨bindQueryStatement_same registry catalog session query, ?_⟩
  rintro hfresh ⟨bound, hlexical⟩ hsame
  exact wellScoped_of_same hfresh ((hsame bound).mpr hlexical) hlexical

/-! ## Samples -/

namespace Sample

/-- A query that is just this `SELECT`. -/
def plainQuery {Q : Type} (select : Select Q) : QueryOver Q where
  withClause := none
  body := .select select
  orderBy := none
  limitClause := none
  fetch := none
  locks := []
  forClause := none
  settings := none
  formatClause := none
  pipeOperators := []

/-- The tables `customers` and `orders` of one database, and `orders` of another. -/
def shops : TableCatalog where
  tables := [⟨tableIn "shop" "customers" 1, []⟩, ⟨tableIn "shop" "orders" 2, []⟩,
    ⟨tableIn "archive" "orders" 3, []⟩]
  nodup_path := by decide
  nodup_tableId := by decide

def shopSession : PlanningSession := ⟨"managed", "shop"⟩

def noFunctions : FunctionRegistry := ⟨fun _ => none, fun _ => none⟩

/-- `SELECT * FROM name`. -/
def selectAll (n : ℕ) (name : String) : Query (n + 1) :=
  plainQuery (selectFrom [⟨named (unquoted name) none, []⟩])

/-- `WITH name AS (SELECT * FROM customers)`. -/
def withCustomers (n : ℕ) (name : String) : With (Query (n + 1)) :=
  ⟨false, [⟨⟨unquoted name, []⟩, selectAll n "customers", none⟩]⟩

/-- `WITH c AS (SELECT * FROM customers) SELECT * FROM orders WHERE EXISTS (SELECT * FROM c)`. -/
def cteInExpression : Query 2 :=
  { plainQuery { selectFrom [⟨named (unquoted "orders") none, []⟩] with
      selection := some (.existsSubquery (selectAll 0 "c") false) } with
    withClause := some (withCustomers 0 "c") }

/-- `SELECT * FROM orders ORDER BY (SELECT * FROM customers)`. -/
def tableInOrderBy : Query 2 :=
  { plainQuery (selectFrom [⟨named (unquoted "orders") none, []⟩]) with
    orderBy := some ⟨.expressions [⟨.subquery (selectAll 0 "customers"), ⟨none, none⟩, none⟩], none⟩ }

/-- `WITH c AS (SELECT * FROM customers) SELECT * FROM (WITH c AS (SELECT * FROM customers) SELECT * FROM c)`. -/
def shadowedCte : Query 3 :=
  { plainQuery (selectFrom [⟨.derived false
      ({ plainQuery (selectFrom [⟨named (unquoted "c") none, []⟩]) with
        withClause := some (withCustomers 0 "c") } : QueryOver (Query 1)) none none, []⟩]) with
    withClause := some (withCustomers 1 "c") }

/-- `SELECT * FROM orders CROSS JOIN archive.orders`. -/
def sameLastPart : Query 1 :=
  plainQuery (selectFrom [⟨named (unquoted "orders") none,
    [.mk (.table (.ofIdents [unquoted "archive", unquoted "orders"]) none none) false .crossJoin .absent]⟩])

/-- `SELECT * FROM archive.orders ORDER BY (SELECT * FROM orders)`. -/
def otherTable : Query 2 :=
  { plainQuery (selectFrom [⟨.table (.ofIdents [unquoted "archive", unquoted "orders"]) none none, []⟩]) with
    orderBy := some ⟨.expressions [⟨.subquery (selectAll 0 "orders"), ⟨none, none⟩, none⟩], none⟩ }

/-- `WITH c AS (SELECT * FROM customers) SELECT * FROM orders CROSS JOIN c`. -/
def cteAndTable : Query 2 :=
  { plainQuery (selectFrom [⟨named (unquoted "orders") none,
      [.mk (named (unquoted "c") none) false .crossJoin .absent]⟩]) with
    withClause := some (withCustomers 0 "c") }

def customersCte : BoundTable :=
  .cte "c" ⟨1, selectAll 0 "customers"⟩
    [.base ⟨tableIn "shop" "customers" 1, []⟩, .base ⟨tableIn "shop" "customers" 1, []⟩]

def ordersOf (database : String) (tableId : Uuid) : BoundTable := .base ⟨tableIn database "orders" tableId, []⟩

end Sample

example : WellScoped Sample.noFunctions Sample.shops Sample.shopSession Sample.cteAndTable := by
  have hfresh : HiddenNamesFresh Sample.noFunctions Sample.cteAndTable := by
    intro ctes hctes
    cases hctes
    refine ⟨⟨List.not_mem_nil, ?_, trivial⟩, ?_⟩
    · intro ctes hctes
      cases hctes
      exact ⟨trivial, fun item hitem => by
        cases item with
        | nested q => exact nomatch q
        | inExpr q => exact nomatch q
        | _ => trivial⟩
    · intro item hitem
      simp only [QueryOver.planned, Sample.cteAndTable] at hitem
      fin_cases hitem <;> trivial
  have hbound : bindQueryStatement Sample.noFunctions Sample.shops Sample.shopSession Sample.cteAndTable =
      .ok [Sample.customersCte, Sample.ordersOf "shop" 2, Sample.customersCte, Sample.ordersOf "shop" 2,
        Sample.customersCte] := by with_unfolding_all rfl
  exact wellScoped_of_same hfresh hbound (by with_unfolding_all rfl)

/-- Statements with a meaning that the planner rejects: a CTE used in an expression, a table in `ORDER BY`
alone, a name declared again in a derived table, and two tables with the same last part. In the last
statement it takes the table of another database. -/
theorem not_bindQueryStatement_lexical :
    ((lexicalTables Sample.noFunctions Sample.shops Sample.shopSession Sample.cteInExpression).isOk ∧
      bindQueryStatement Sample.noFunctions Sample.shops Sample.shopSession Sample.cteInExpression =
        .error (.invalidPlan "table `c` is not available in query scope")) ∧
    ((lexicalTables Sample.noFunctions Sample.shops Sample.shopSession Sample.tableInOrderBy).isOk ∧
      bindQueryStatement Sample.noFunctions Sample.shops Sample.shopSession Sample.tableInOrderBy =
        .error (.invalidPlan "table `customers` is not available in query scope")) ∧
    ((lexicalTables Sample.noFunctions Sample.shops Sample.shopSession Sample.shadowedCte).isOk ∧
      bindQueryStatement Sample.noFunctions Sample.shops Sample.shopSession Sample.shadowedCte =
        .error (.invalidPlan "WITH query name `c` specified more than once")) ∧
    ((lexicalTables Sample.noFunctions Sample.shops Sample.shopSession Sample.sameLastPart).isOk ∧
      bindQueryStatement Sample.noFunctions Sample.shops Sample.shopSession Sample.sameLastPart =
        .error (.invalidPlan "table `orders` is ambiguous in query scope")) ∧
    lexicalTables Sample.noFunctions Sample.shops Sample.shopSession Sample.otherTable =
      .ok [Sample.ordersOf "archive" 3, Sample.ordersOf "shop" 2, Sample.ordersOf "shop" 2,
        Sample.ordersOf "archive" 3] ∧
    bindQueryStatement Sample.noFunctions Sample.shops Sample.shopSession Sample.otherTable =
      .ok [Sample.ordersOf "archive" 3, Sample.ordersOf "archive" 3, Sample.ordersOf "archive" 3,
        Sample.ordersOf "archive" 3] := by
  refine ⟨⟨?_, ?_⟩, ⟨?_, ?_⟩, ⟨?_, ?_⟩, ⟨?_, ?_⟩, ?_, ?_⟩
  all_goals with_unfolding_all rfl

end BrewDB
