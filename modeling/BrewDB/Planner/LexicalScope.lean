import BrewDB.Planner.TableNames

/-!
# Table names follow lexical scoping

The lexical reading of a query binds a table name to the CTE of that name that was declared last, among
those of the queries the name stands in, and to the table the session designates by it if there is none.
`bindQueryStatement` walks a statement twice with states of its own. It gives the lexical reading as long
as names are declared once, CTEs are not used from within expressions, and among the tables the first
pass finds only the designated one ends with the name.
-/

namespace BrewDB

variable {Q : Type}

/-! ## Readings of a query -/

/-- How table names are looked up. -/
structure Reading where
  resolveBase : ObjectName → Except PlannerError QueryTable
  /-- The CTEs a subquery of an expression sees. -/
  enterExpr : CteScope → CteScope
  /-- The CTEs whose names may not be declared, given those of the same `WITH` clause and those around. -/
  taken : CteScope → CteScope → CteScope

namespace Reading

/-- Scopes are nested, and a clause declares a name once. -/
def lexical (designate : ObjectName → Except PlannerError QueryTable) : Reading where
  resolveBase := designate
  enterExpr scope := scope
  taken declared _ := declared

/-- What `planQuery` amounts to. -/
def planner (tables : List QueryTable) : Reading where
  resolveBase := QueryPlannerContext.resolveTable ⟨tables, []⟩
  enterExpr _ := []
  taken declared scope := declared ++ scope

variable (registry : FunctionRegistry) (reading : Reading)

/-- The tables of what a query consists of. -/
def items (readQuery : Q → CteScope → Except PlannerError (List BoundTable)) (scope : CteScope) :
    List (NameItem Q) → Except PlannerError (List BoundTable)
  | [] => .ok []
  | .table name :: rest => do
      let table ← bindTableName reading.resolveBase scope name
      return table :: (← items readQuery scope rest)
  | .nested query :: rest => do
      let nested ← readQuery query scope
      return nested ++ (← items readQuery scope rest)
  | .inExpr query :: rest => do
      let nested ← readQuery query (reading.enterExpr scope)
      return nested ++ (← items readQuery scope rest)
  | .reject error :: _ => .error error

/-- The tables of a `WITH` clause in `scope`, `declared` being those before. -/
def withTables {n : ℕ} (readQuery : Query n → CteScope → Except PlannerError (List BoundTable))
    (scope : CteScope) : List (Cte (Query n)) → CteScope → Except PlannerError (List BoundTable × CteScope)
  | [], declared => .ok ([], declared)
  | cte :: rest, declared => do
      if cte.fromName.isSome then .error (.unsupportedPlan "unsupported CTE shape")
      else if (reading.taken declared scope).any (·.1 = cte.cteName) then
        .error (.invalidPlan ("WITH query name `" ++ cte.cteName ++ "` specified more than once"))
      else
        let reads ← readQuery cte.query (declared ++ scope)
        let bound := .cte cte.cteName ⟨n, cte.query⟩ reads
        let (bounds, declared) ← withTables readQuery scope rest ((cte.cteName, bound) :: declared)
        return (bound :: bounds, declared)

/-- The tables of a query. -/
def query : (n : ℕ) → Query n → CteScope → Except PlannerError (List BoundTable)
  | 0, q, _ => nomatch q
  | n + 1, q, scope => do
      let cteTables ← QueryOver.cteTables q
      let (ctes, declared) ← reading.withTables (query n) scope cteTables []
      return ctes ++ (← reading.items (query n) (declared ++ scope) (QueryOver.planned registry q))

end Reading

/-- What a statement means to a session: a table name is the CTE of that name declared last around it, or
else the table the session designates by it. -/
def lexicalTables (registry : FunctionRegistry) (catalog : TableCatalog) (session : PlanningSession) {n : ℕ}
    (query : Query n) : Except PlannerError (List BoundTable) :=
  (Reading.lexical (catalog.resolveTable session)).query registry n query []

/-! ## When the planner gives that reading -/

/-- Names of a scope, innermost first: those the planner looks up, and those beyond the expression it is
in. -/
structure Place where
  visible : List String
  hidden : List String

namespace Place

def names (place : Place) : List String := place.visible ++ place.hidden

/-- One more name. -/
def declare (place : Place) (name : String) : Place := { place with visible := name :: place.visible }

/-- Inside an expression. -/
def enterExpr (place : Place) : Place := ⟨[], place.names⟩

end Place

/-- The name is a CTE of the expression it stands in, or it is no CTE at all and the base table it should
be. -/
def TableScoped (base : ObjectName → Prop) (place : Place) (name : ObjectName) : Prop :=
  match cteNameFromObjectName name with
  | .ok (some cteName) => cteName ∈ place.visible ∨ cteName ∉ place.hidden ∧ base name
  | .ok none => base name
  | .error _ => True

namespace Scoped

variable (registry : FunctionRegistry) (outer : Place → List String) (table : Place → ObjectName → Prop)

/-- The tables that an item names are as they should be. -/
def Item (queryScoped : Q → Place → Prop) (place : Place) : NameItem Q → Prop
  | .table name => table place name
  | .nested query => queryScoped query place
  | .inExpr query => queryScoped query place.enterExpr
  | .reject _ => True

/-- A `WITH` clause declares none of the names `taken`. -/
def WithClause (queryScoped : Q → Place → Prop) (taken : List String) : List (Cte Q) → Place → Prop
  | [], _ => True
  | cte :: rest, place =>
      cte.cteName ∉ taken ∧ queryScoped cte.query place ∧
        WithClause queryScoped taken rest (place.declare cte.cteName)

/-- The place after a `WITH` clause. -/
def afterWith (ctes : List (Cte Q)) (place : Place) : Place :=
  ctes.foldl (fun place cte => place.declare cte.cteName) place

/-- Throughout a query, `WITH` clauses declare no name of `outer`, and names of tables are as `table`
says. -/
def InQuery : (n : ℕ) → Query n → Place → Prop
  | 0, query, _ => nomatch query
  | n + 1, query, place => ∀ ctes, QueryOver.cteTables query = .ok ctes →
      WithClause (InQuery n) (outer place) ctes place ∧
        ∀ item ∈ QueryOver.planned registry query, Item table (InQuery n) (afterWith ctes place) item

end Scoped

namespace Mentioned

/-- The names that are no CTEs, in what the first walk meets. -/
def items (inQuery : Q → List String → List ObjectName) (scope : List String) :
    List (NameItem Q) → List ObjectName
  | [] => []
  | .table name :: rest =>
      match cteNameFromObjectName name with
      | .ok (some cteName) =>
          if cteName ∈ scope then items inQuery scope rest else name :: items inQuery scope rest
      | _ => name :: items inQuery scope rest
  | .nested query :: rest => inQuery query scope ++ items inQuery scope rest
  | .inExpr query :: rest => inQuery query scope ++ items inQuery scope rest
  | .reject _ :: rest => items inQuery scope rest

def withClause (inQuery : Q → List String → List ObjectName) : List (Cte Q) → List String → List ObjectName
  | [], _ => []
  | cte :: rest, scope => inQuery cte.query scope ++ withClause inQuery rest (cte.cteName :: scope)

/-- The names after a `WITH` clause. -/
def scopeAfter (ctes : List (Cte Q)) (scope : List String) : List String :=
  ctes.foldl (fun scope cte => cte.cteName :: scope) scope

/-- The base table names of a query outside `ORDER BY`, `LIMIT`, `DISTINCT ON`, join conditions and
`VALUES`. -/
def query : (n : ℕ) → Query n → List String → List ObjectName
  | 0, q, _ => nomatch q
  | n + 1, q, scope =>
      match QueryOver.cteTables q with
      | .ok ctes => withClause (query n) ctes scope ++ items (query n) (scopeAfter ctes scope) q.body.collected
      | .error _ => []

end Mentioned

/-- Of the tables that names of the list designate, only the one `name` designates ends with it. -/
def DesignatedAmong (designate : ObjectName → Except PlannerError QueryTable) (mentioned : List ObjectName)
    (name : ObjectName) : Prop :=
  ∀ table, (∃ other ∈ mentioned, designate other = .ok table) ∧
      (∃ parts, objectNameParts name = .ok parts ∧ table.entry.path.endsWith parts) ↔
    designate name = .ok table

/-- The condition on statements. -/
def WellScoped (registry : FunctionRegistry) (catalog : TableCatalog) (session : PlanningSession) {n : ℕ}
    (query : Query n) : Prop :=
  Scoped.InQuery registry Place.names
    (TableScoped (DesignatedAmong (catalog.resolveTable session) (Mentioned.query n query []))) n query ⟨[], []⟩

/-- No `WITH` clause within an expression declares a name that is declared around the expression. -/
def HiddenNamesFresh (registry : FunctionRegistry) {n : ℕ} (query : Query n) : Prop :=
  Scoped.InQuery registry Place.hidden (fun _ _ => True) n query ⟨[], []⟩

/-! ## The planner restores its scope -/

namespace Reading

variable {registry : FunctionRegistry} (tables : List QueryTable)

/-- A nested query leaves the scope as it was, so the items are read one by one in the same scope. -/
theorem planItems_eq {plan : Q → CteScope → Except PlannerError (List BoundTable × CteScope)}
    {readQuery : Q → CteScope → Except PlannerError (List BoundTable)}
    (hplan : ∀ query ctes, plan query ctes = (readQuery query ctes).map (·, ctes)) (l : List (NameItem Q))
    (ctes : CteScope) :
    planItems tables plan l ctes = ((planner tables).items readQuery ctes l).map (·, ctes) := by
  induction l with
  | nil => rfl
  | cons item l ih =>
      cases item with
      | table name =>
          simp only [planItems, items, ih]
          show (bindTableName (planner tables).resolveBase ctes name >>= _) = _
          cases bindTableName (planner tables).resolveBase ctes name with
          | error error => rfl
          | ok table => cases (planner tables).items readQuery ctes l <;> rfl
      | nested query =>
          simp only [planItems, items, hplan]
          cases readQuery query ctes with
          | error error => rfl
          | ok bound =>
              simp only [Except.map, bind, Except.bind, ih]
              cases (planner tables).items readQuery ctes l <;> rfl
      | inExpr query =>
          simp only [planItems, items, ih, hplan]
          show _ = Except.map _ (readQuery query [] >>= _)
          cases readQuery query [] with
          | error error => rfl
          | ok bound => cases (planner tables).items readQuery ctes l <;> rfl
      | reject error => rfl

theorem planWithClause_eq {n : ℕ}
    {plan : Query n → CteScope → Except PlannerError (List BoundTable × CteScope)}
    {readQuery : Query n → CteScope → Except PlannerError (List BoundTable)}
    (hplan : ∀ query ctes, plan query ctes = (readQuery query ctes).map (·, ctes))
    (l : List (Cte (Query n))) (scope declared : CteScope) :
    planWithClause plan l (declared ++ scope) =
      ((planner tables).withTables readQuery scope l declared).map fun r => (r.1, r.2 ++ scope) := by
  induction l generalizing declared with
  | nil => rfl
  | cons cte l ih =>
      simp only [planWithClause, withTables, hplan]
      have htaken : (planner tables).taken declared scope = declared ++ scope := rfl
      rw [htaken]
      split_ifs with hfrom hany
      · rfl
      · rfl
      · cases readQuery cte.query (declared ++ scope) with
        | error error => rfl
        | ok reads =>
            have hrest := ih ((cte.cteName, .cte cte.cteName ⟨n, cte.query⟩ reads) :: declared)
            simp only [List.cons_append] at hrest
            simp only [Except.map, bind, Except.bind, hrest]
            cases (planner tables).withTables readQuery scope l
              ((cte.cteName, .cte cte.cteName ⟨n, cte.query⟩ reads) :: declared) <;> rfl

/-- The names a `WITH` clause declares, and that the planner takes none that is declared around it. -/
theorem withTables_names {reading : Reading} {n : ℕ}
    {readQuery : Query n → CteScope → Except PlannerError (List BoundTable)} {scope : CteScope}
    {l : List (Cte (Query n))} {declared declared' : CteScope} {bound : List BoundTable}
    (h : reading.withTables readQuery scope l declared = .ok (bound, declared')) :
    declared'.map Prod.fst = (l.map Cte.cteName).reverse ++ declared.map Prod.fst := by
  induction l generalizing declared bound with
  | nil =>
      cases h
      rfl
  | cons cte l ih =>
      simp only [withTables] at h
      split_ifs at h
      simp only [ExceptRun.bind_eq_ok] at h
      obtain ⟨reads, -, ⟨bounds, declared''⟩, hrest, hpair⟩ := h
      cases hpair
      rw [ih hrest, List.map_cons, List.map_cons, List.reverse_cons, List.append_assoc, List.singleton_append]

theorem withTables_taken {reading : Reading} {n : ℕ}
    {readQuery : Query n → CteScope → Except PlannerError (List BoundTable)} {scope : CteScope}
    {l : List (Cte (Query n))} {declared declared' : CteScope} {bound : List BoundTable}
    (h : reading.withTables readQuery scope l declared = .ok (bound, declared'))
    (htaken : ∀ declared, scope ⊆ reading.taken declared scope) :
    ∀ cte ∈ l, cte.cteName ∉ scope.map Prod.fst := by
  induction l generalizing declared bound with
  | nil => simp
  | cons cte l ih =>
      simp only [withTables] at h
      split_ifs at h with hfrom hany
      simp only [ExceptRun.bind_eq_ok] at h
      obtain ⟨reads, -, ⟨bounds, declared''⟩, hrest, hpair⟩ := h
      cases hpair
      refine List.forall_mem_cons.mpr ⟨?_, ih hrest⟩
      intro hmem
      obtain ⟨entry, hentry, hname⟩ := List.mem_map.mp hmem
      exact hany (List.any_eq_true.mpr ⟨entry, htaken declared hentry, by simpa using hname⟩)

/-- `planQuery` leaves the CTEs in scope as they were. -/
theorem planQuery_eq (n : ℕ) (q : Query n) (ctes : CteScope) :
    planQuery registry tables n q ctes = ((planner tables).query registry n q ctes).map (·, ctes) := by
  induction n generalizing ctes with
  | zero => exact nomatch q
  | succ n ih =>
      simp only [planQuery, query]
      cases QueryOver.cteTables q with
      | error error => rfl
      | ok cteTables =>
          have hwith := planWithClause_eq tables ih cteTables ctes []
          rw [List.nil_append] at hwith
          simp only [bind, Except.bind, hwith]
          cases hread : (planner tables).withTables ((planner tables).query registry n) ctes cteTables [] with
          | error error => rfl
          | ok r =>
              obtain ⟨bound, declared⟩ := r
              simp only [Except.map, planItems_eq tables ih]
              cases (planner tables).items ((planner tables).query registry n) (declared ++ ctes)
                (QueryOver.planned registry q) with
              | error error => rfl
              | ok rest =>
                  have hnames := withTables_names hread
                  have hfresh := withTables_taken hread fun declared => List.subset_append_right declared ctes
                  simp only [pure, Except.pure]
                  congr 2
                  have hdeclared : declared.filter (fun cte => cte.1 ∉ cteTables.map Cte.cteName) = [] := by
                    refine List.filter_eq_nil_iff.mpr fun entry hentry => ?_
                    have hmem : entry.1 ∈ declared.map Prod.fst := List.mem_map_of_mem hentry
                    rw [hnames, List.map_nil, List.append_nil, List.mem_reverse] at hmem
                    simpa using hmem
                  have hscope : ctes.filter (fun cte => cte.1 ∉ cteTables.map Cte.cteName) = ctes := by
                    refine List.filter_eq_self.mpr fun entry hentry => ?_
                    rw [decide_eq_true_eq]
                    intro hmem
                    obtain ⟨cte, hcte, hname⟩ := List.mem_map.mp hmem
                    exact hfresh cte hcte (hname ▸ List.mem_map_of_mem hentry)
                  rw [List.filter_append, hdeclared, hscope, List.nil_append]

end Reading

/-! ## The planner's reading is the lexical one -/

namespace Reading

open ExceptRun (SameOk)

variable {registry : FunctionRegistry} {tables : List QueryTable}
variable {designate : ObjectName → Except PlannerError QueryTable} {base : ObjectName → Prop}

/-- The names of a scope. -/
def scopeNames (scope : CteScope) : List String := scope.map Prod.fst

theorem find_eq_none {scope : CteScope} {name : String} :
    scope.find? (·.1 = name) = none ↔ name ∉ scopeNames scope := by
  rw [List.find?_eq_none, scopeNames, List.mem_map]
  constructor
  · rintro h ⟨entry, hentry, rfl⟩
    exact h entry hentry (by simp)
  · intro h entry hentry hname
    exact h ⟨entry, hentry, by simpa using hname⟩

theorem find_isSome {scope : CteScope} {name : String} (h : name ∈ scopeNames scope) :
    ∃ entry, scope.find? (·.1 = name) = some entry := by
  cases hfind : scope.find? (·.1 = name) with
  | none => exact absurd h (find_eq_none.mp hfind)
  | some entry => exact ⟨entry, rfl⟩

/-- A name that is a CTE of the expression it stands in, or none at all, is bound the same. -/
theorem bindTableName_same
    (hbase : ∀ name, base name →
      SameOk (QueryPlannerContext.resolveTable ⟨tables, []⟩ name) (designate name))
    {ctes hidden : CteScope} {name : ObjectName}
    (h : TableScoped base ⟨scopeNames ctes, scopeNames hidden⟩ name) :
    SameOk (bindTableName (planner tables).resolveBase ctes name)
      (bindTableName (lexical designate).resolveBase (ctes ++ hidden) name) := by
  rw [TableScoped] at h
  simp only [bindTableName]
  refine SameOk.bind (SameOk.refl _) fun cteName hname => ?_
  rw [hname] at h
  cases cteName with
  | none => exact (hbase name h).bind fun _ _ => SameOk.refl _
  | some cteName =>
      simp only [Option.bind_some]
      rw [List.find?_append]
      by_cases hvisible : cteName ∈ scopeNames ctes
      · obtain ⟨entry, hentry⟩ := find_isSome hvisible
        rw [hentry]
        exact SameOk.refl _
      · obtain ⟨hhidden, hname⟩ := h.resolve_left hvisible
        rw [find_eq_none.mpr hvisible, Option.none_or, find_eq_none.mpr hhidden]
        exact (hbase name hname).bind fun _ _ => SameOk.refl _

theorem items_same
    (hbase : ∀ name, base name →
      SameOk (QueryPlannerContext.resolveTable ⟨tables, []⟩ name) (designate name))
    {queryScoped : Q → Place → Prop}
    {planned read : Q → CteScope → Except PlannerError (List BoundTable)}
    (hquery : ∀ query ctes hidden, queryScoped query ⟨scopeNames ctes, scopeNames hidden⟩ →
      SameOk (planned query ctes) (read query (ctes ++ hidden)))
    {ctes hidden : CteScope} (l : List (NameItem Q))
    (h : ∀ item ∈ l, Scoped.Item (TableScoped base) queryScoped ⟨scopeNames ctes, scopeNames hidden⟩ item) :
    SameOk ((planner tables).items planned ctes l)
      ((lexical designate).items read (ctes ++ hidden) l) := by
  induction l with
  | nil => exact SameOk.refl _
  | cons item l ih =>
      obtain ⟨hitem, hrest⟩ := List.forall_mem_cons.mp h
      have htail := (ih hrest)
      cases item with
      | table name =>
          exact (bindTableName_same hbase hitem).bind fun _ _ => htail.bind fun _ _ => SameOk.refl _
      | nested query =>
          exact (hquery query ctes hidden hitem).bind fun _ _ => htail.bind fun _ _ => SameOk.refl _
      | inExpr query =>
          have hplace : queryScoped query ⟨scopeNames [], scopeNames (ctes ++ hidden)⟩ := by
            have hmap : scopeNames (ctes ++ hidden) = scopeNames ctes ++ scopeNames hidden := List.map_append
            rw [hmap]
            exact hitem
          exact (hquery query [] (ctes ++ hidden) hplace).bind fun _ _ => htail.bind fun _ _ => SameOk.refl _
      | reject error => exact SameOk.refl _

theorem withTables_same {n : ℕ} {queryScoped : Query n → Place → Prop}
    {planned read : Query n → CteScope → Except PlannerError (List BoundTable)}
    (hquery : ∀ query ctes hidden, queryScoped query ⟨scopeNames ctes, scopeNames hidden⟩ →
      SameOk (planned query ctes) (read query (ctes ++ hidden)))
    {ctes hidden : CteScope} (l : List (Cte (Query n))) (declared : CteScope)
    (h : Scoped.WithClause queryScoped (scopeNames ctes ++ scopeNames hidden) l
      ⟨scopeNames (declared ++ ctes), scopeNames hidden⟩) :
    SameOk ((planner tables).withTables planned ctes l declared)
      ((lexical designate).withTables read (ctes ++ hidden) l declared) := by
  induction l generalizing declared with
  | nil => exact SameOk.refl _
  | cons cte l ih =>
      obtain ⟨hname, hcte, hrest⟩ := h
      -- names around the clause are not declared again, so only those of the clause itself count
      have htaken : (declared ++ ctes).any (·.1 = cte.cteName) = declared.any (·.1 = cte.cteName) := by
        have hctes : ctes.any (·.1 = cte.cteName) = false := by
          refine List.any_eq_false.mpr fun entry hentry heq => hname (List.mem_append_left _ ?_)
          exact List.mem_map.mpr ⟨entry, hentry, by simpa using heq⟩
        rw [List.any_append, hctes, Bool.or_false]
      simp only [withTables]
      rw [show (planner tables).taken declared ctes = declared ++ ctes from rfl, htaken]
      show SameOk _ (if _ then _ else if declared.any _ then _ else _)
      split_ifs
      · exact SameOk.refl _
      · exact SameOk.refl _
      · rw [← List.append_assoc]
        refine (hquery cte.query (declared ++ ctes) hidden hcte).bind fun reads _ => ?_
        have htail := ih ((cte.cteName, .cte cte.cteName ⟨n, cte.query⟩ reads) :: declared) hrest
        exact htail.bind fun _ _ => SameOk.refl _

theorem afterWith_eq (l : List (Cte Q)) (place : Place) :
    Scoped.afterWith l place = ⟨(l.map Cte.cteName).reverse ++ place.visible, place.hidden⟩ := by
  induction l generalizing place with
  | nil => rfl
  | cons cte l ih =>
      show Scoped.afterWith l (place.declare cte.cteName) = _
      rw [ih, List.map_cons, List.reverse_cons, List.append_assoc]
      rfl

/-- In a well-scoped query the planner binds every name as the lexical reading does. -/
theorem query_same
    (hbase : ∀ name, base name →
      SameOk (QueryPlannerContext.resolveTable ⟨tables, []⟩ name) (designate name))
    (n : ℕ) (q : Query n) (ctes hidden : CteScope)
    (h : Scoped.InQuery registry Place.names (TableScoped base) n q ⟨scopeNames ctes, scopeNames hidden⟩) :
    SameOk ((planner tables).query registry n q ctes)
      ((lexical designate).query registry n q (ctes ++ hidden)) := by
  induction n generalizing ctes hidden with
  | zero => exact nomatch q
  | succ n ih =>
      simp only [query]
      refine SameOk.bind (SameOk.refl _) fun cteTables hcteTables => ?_
      obtain ⟨hwith, hitems⟩ := h cteTables hcteTables
      refine (withTables_same ih cteTables [] hwith).bind fun declared hdeclared => ?_
      rw [afterWith_eq] at hitems
      have hnames : scopeNames (declared.2 ++ ctes) = (cteTables.map Cte.cteName).reverse ++ scopeNames ctes := by
        have := withTables_names hdeclared
        rw [List.map_nil, List.append_nil] at this
        rw [← this]
        exact List.map_append
      rw [← hnames] at hitems
      rw [← List.append_assoc]
      exact (items_same hbase ih _ hitems).bind fun _ _ => SameOk.refl _

end Reading

/-! ## What both readings reject -/

namespace Supported

variable (registry : FunctionRegistry)

/-- The item is no rejection. -/
def Item (querySupported : Q → Prop) : NameItem Q → Prop
  | .table name => ∃ cteName, cteNameFromObjectName name = .ok cteName
  | .nested query => querySupported query
  | .inExpr query => querySupported query
  | .reject _ => False

/-- Nothing in the query is rejected for its shape. -/
def InQuery : (n : ℕ) → Query n → Prop
  | 0, query => nomatch query
  | n + 1, query => ∃ ctes, QueryOver.cteTables query = .ok ctes ∧ (∀ cte ∈ ctes, InQuery n cte.query) ∧
      ∀ item ∈ QueryOver.planned registry query, Item (InQuery n) item

/-- What the first pass meets is met again. -/
theorem mem_planned {n : ℕ} {query : QueryOver (Query n)}
    (h : ∀ item ∈ query.planned registry, Item (InQuery registry n) item) :
    query.body.collected ⊆ query.planned registry :=
  query.covers registry fun _ herror => h _ herror

end Supported

namespace Reading

variable {registry : FunctionRegistry} {reading : Reading}

/-- A reading of several items is one of each. -/
theorem items_mem {readQuery : Q → CteScope → Except PlannerError (List BoundTable)} {scope : CteScope}
    {l : List (NameItem Q)} {bound : List BoundTable} (h : reading.items readQuery scope l = .ok bound) :
    (∀ name, .table name ∈ l → ∃ table, bindTableName reading.resolveBase scope name = .ok table) ∧
      (∀ query, .nested query ∈ l → ∃ bound, readQuery query scope = .ok bound) ∧
      (∀ query, .inExpr query ∈ l → ∃ bound, readQuery query (reading.enterExpr scope) = .ok bound) ∧
      ∀ error, .reject error ∉ l := by
  induction l generalizing bound with
  | nil => simp
  | cons item l ih =>
      cases item with
      | table name =>
          simp only [items, ExceptRun.bind_eq_ok] at h
          obtain ⟨table, htable, rest, hrest, -⟩ := h
          have htail := ih hrest
          simp only [List.mem_cons, reduceCtorEq, false_or, NameItem.table.injEq]
          refine ⟨?_, htail.2⟩
          rintro name (rfl | hname)
          · exact ⟨table, htable⟩
          · exact htail.1 name hname
      | nested q =>
          simp only [items, ExceptRun.bind_eq_ok] at h
          obtain ⟨table, htable, rest, hrest, -⟩ := h
          have htail := ih hrest
          simp only [List.mem_cons, reduceCtorEq, false_or, NameItem.nested.injEq]
          refine ⟨htail.1, ?_, htail.2.2⟩
          rintro query (rfl | hquery)
          · exact ⟨table, htable⟩
          · exact htail.2.1 query hquery
      | inExpr q =>
          simp only [items, ExceptRun.bind_eq_ok] at h
          obtain ⟨table, htable, rest, hrest, -⟩ := h
          have htail := ih hrest
          simp only [List.mem_cons, reduceCtorEq, false_or, NameItem.inExpr.injEq]
          refine ⟨htail.1, htail.2.1, ?_, htail.2.2.2⟩
          rintro query (rfl | hquery)
          · exact ⟨table, htable⟩
          · exact htail.2.2.1 query hquery
      | reject error => cases h

theorem withTables_mem {n : ℕ} {readQuery : Query n → CteScope → Except PlannerError (List BoundTable)}
    {scope : CteScope} {l : List (Cte (Query n))} {declared : CteScope} {r : List BoundTable × CteScope}
    (h : reading.withTables readQuery scope l declared = .ok r) :
    ∀ cte ∈ l, ∃ scope' bound, readQuery cte.query scope' = .ok bound := by
  induction l generalizing declared r with
  | nil => simp
  | cons cte l ih =>
      simp only [withTables] at h
      split_ifs at h
      simp only [ExceptRun.bind_eq_ok] at h
      obtain ⟨reads, hreads, rest, hrest, -⟩ := h
      exact List.forall_mem_cons.mpr ⟨⟨_, reads, hreads⟩, ih hrest⟩

/-- A query that has a reading is supported. -/
theorem query_supported {n : ℕ} {q : Query n} {scope : CteScope} {bound : List BoundTable}
    (h : reading.query registry n q scope = .ok bound) : Supported.InQuery registry n q := by
  induction n generalizing scope bound with
  | zero => exact nomatch q
  | succ n ih =>
      simp only [query, ExceptRun.bind_eq_ok] at h
      obtain ⟨ctes, hctes, r, hwith, rest, hitems, -⟩ := h
      refine ⟨ctes, hctes, ?_, ?_⟩
      · intro cte hcte
        obtain ⟨scope', reads, hreads⟩ := withTables_mem hwith cte hcte
        exact ih hreads
      · obtain ⟨htable, hnested, hexpr, hreject⟩ := items_mem hitems
        intro item hitem
        cases item with
        | table name =>
            obtain ⟨table, hbound⟩ := htable name hitem
            simp only [bindTableName, ExceptRun.bind_eq_ok] at hbound
            obtain ⟨cteName, hcteName, -⟩ := hbound
            exact ⟨cteName, hcteName⟩
        | nested q =>
            obtain ⟨bound, hbound⟩ := hnested q hitem
            exact ih hbound
        | inExpr q =>
            obtain ⟨bound, hbound⟩ := hexpr q hitem
            exact ih hbound
        | reject error => exact hreject error hitem

end Reading

end BrewDB
