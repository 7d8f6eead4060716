import BrewDB.Planner.LogicalPlan

/-!
# Catalog paths

Reference: `brewdb-catalog/src/path.rs` and `errors.rs`.

Paths are made of segments that are not empty and hold no dot, so that the printed path tells the segments
apart. The store keeps entries under printed paths.
-/

namespace BrewDB.Catalog

/-- `CatalogError`, as far as the catalog modules raise it. -/
inductive CatalogError where
  | invalidPath (kind value : String)
  | catalogNotFound (catalog : String)
  | databaseNotFound (catalog database : String)
  | tableNotFound (catalog database table : String)
  | catalogNotRegistered (catalog : String)
  | catalogBackend (backend message : String)
  | unsupportedSchemaType (backend typeName : String)
  | catalogFormatMismatch (catalog expected actual : String)
  | duplicateCatalog (catalog : String)
  | duplicateDatabase (catalog database : String)
  | duplicateTable (catalog database table : String)
deriving DecidableEq, Repr

/-- `Display`. -/
def CatalogError.toString : CatalogError → String
  | .invalidPath kind value => "invalid " ++ kind ++ " path segment: `" ++ value ++ "`"
  | .catalogNotFound catalog => "catalog not found: `" ++ catalog ++ "`"
  | .databaseNotFound catalog database => "database not found: `" ++ catalog ++ "." ++ database ++ "`"
  | .tableNotFound catalog database table =>
      "table not found: `" ++ catalog ++ "." ++ database ++ "." ++ table ++ "`"
  | .catalogNotRegistered catalog => "catalog implementation is not registered: `" ++ catalog ++ "`"
  | .catalogBackend backend message => "catalog backend `" ++ backend ++ "` error: " ++ message
  | .unsupportedSchemaType backend typeName =>
      "unsupported schema type from `" ++ backend ++ "`: `" ++ typeName ++ "`"
  | .catalogFormatMismatch catalog expected actual => "table format mismatch for catalog `" ++ catalog ++
      "`: expected `" ++ expected ++ "`, got `" ++ actual ++ "`"
  | .duplicateCatalog catalog => "catalog already exists: `" ++ catalog ++ "`"
  | .duplicateDatabase catalog database => "database already exists: `" ++ catalog ++ "." ++ database ++ "`"
  | .duplicateTable catalog database table =>
      "table already exists: `" ++ catalog ++ "." ++ database ++ "." ++ table ++ "`"

/-- A part of a path. -/
structure Segment where
  value : String
  nonempty : value ≠ ""
  noDot : '.' ∉ value.toList
deriving DecidableEq, Repr

theorem Segment.ext {s t : Segment} (h : s.value = t.value) : s = t := by
  cases s
  cases t
  cases h
  rfl

/-- `normalize_segment`. -/
def normalizeSegment (kind value : String) : Except CatalogError Segment :=
  if h : value ≠ "" ∧ '.' ∉ value.toList then .ok ⟨value, h.1, h.2⟩ else .error (.invalidPath kind value)

/-- A valid segment is the string itself. -/
theorem value_of_normalizeSegment {kind value : String} {segment : Segment}
    (h : normalizeSegment kind value = .ok segment) : segment.value = value := by
  rw [normalizeSegment] at h
  split_ifs at h
  cases h
  rfl

theorem normalizeSegment_value (kind : String) (segment : Segment) :
    normalizeSegment kind segment.value = .ok segment := by
  rw [normalizeSegment, dif_pos ⟨segment.nonempty, segment.noDot⟩]

/-- `CatalogPath`. -/
structure CatalogPath where
  catalog : Segment
deriving DecidableEq, Repr

/-- `DatabasePath`. -/
structure DatabasePath where
  catalog : Segment
  database : Segment
deriving DecidableEq, Repr

/-- `TablePath`. -/
structure TablePath where
  catalog : Segment
  database : Segment
  table : Segment
deriving DecidableEq, Repr

/-- `CatalogPath::new`. -/
def CatalogPath.new (catalog : String) : Except CatalogError CatalogPath := do
  return ⟨← normalizeSegment "catalog" catalog⟩

/-- `DatabasePath::new`. -/
def DatabasePath.new (catalog database : String) : Except CatalogError DatabasePath := do
  return ⟨← normalizeSegment "catalog" catalog, ← normalizeSegment "database" database⟩

/-- `TablePath::new`. -/
def TablePath.new (catalog database table : String) : Except CatalogError TablePath := do
  return ⟨← normalizeSegment "catalog" catalog, ← normalizeSegment "database" database,
    ← normalizeSegment "table" table⟩

/-- `Display`. -/
def CatalogPath.toString (path : CatalogPath) : String := path.catalog.value

def DatabasePath.toString (path : DatabasePath) : String := path.catalog.value ++ "." ++ path.database.value

def TablePath.toString (path : TablePath) : String :=
  path.catalog.value ++ "." ++ path.database.value ++ "." ++ path.table.value

/-- `TablePath::database_path`. -/
def TablePath.databasePath (path : TablePath) : DatabasePath := ⟨path.catalog, path.database⟩

/-! ## Printed paths -/

/-- The first dot ends the first segment. -/
theorem Segment.append_dot_inj {s t : Segment} {rest rest' : String}
    (h : s.value ++ "." ++ rest = t.value ++ "." ++ rest') : s = t ∧ rest = rest' := by
  have hlist : s.value.toList ++ '.' :: rest.toList = t.value.toList ++ '.' :: rest'.toList := by
    have := congrArg String.toList h
    simpa [String.toList_append] using this
  have hsplit : ∀ (a : Segment) (b : String),
      (a.value.toList ++ '.' :: b.toList).takeWhile (· ≠ '.') = a.value.toList ∧
        (a.value.toList ++ '.' :: b.toList).dropWhile (· ≠ '.') = '.' :: b.toList := by
    intro a b
    have hall : ∀ c ∈ a.value.toList, decide (c ≠ '.') = true := fun c hc => by
      rw [decide_eq_true_eq]
      exact fun heq => a.noDot (heq ▸ hc)
    constructor
    · rw [List.takeWhile_append_of_pos hall, List.takeWhile_cons_of_neg (by simp), List.append_nil]
    · rw [List.dropWhile_append_of_pos hall, List.dropWhile_cons_of_neg (by simp)]
  have hfirst : s.value.toList = t.value.toList := by
    rw [← (hsplit s rest).1, ← (hsplit t rest').1, hlist]
  have hrest : rest.toList = rest'.toList := by
    have := (hsplit s rest).2
    rw [hlist, (hsplit t rest').2] at this
    exact (List.cons.inj this).2.symm
  exact ⟨Segment.ext (String.toList_inj.mp hfirst), String.toList_inj.mp hrest⟩

theorem CatalogPath.toString_injective : Function.Injective CatalogPath.toString := by
  rintro ⟨s⟩ ⟨t⟩ h
  exact congrArg CatalogPath.mk (Segment.ext h)

theorem DatabasePath.toString_injective : Function.Injective DatabasePath.toString := by
  rintro ⟨c, d⟩ ⟨c', d'⟩ h
  obtain ⟨hc, hd⟩ := Segment.append_dot_inj (s := c) (t := c') h
  rw [DatabasePath.mk.injEq]
  exact ⟨hc, Segment.ext hd⟩

/-- Paths that are printed alike are the same. -/
theorem TablePath.toString_injective : Function.Injective TablePath.toString := by
  rintro ⟨c, d, t⟩ ⟨c', d', t'⟩ h
  have hassoc : ∀ (c d t : Segment), c.value ++ "." ++ d.value ++ "." ++ t.value =
      c.value ++ "." ++ (d.value ++ "." ++ t.value) := fun c d t => by simp only [String.append_assoc]
  simp only [TablePath.toString, hassoc] at h
  obtain ⟨hc, h⟩ := Segment.append_dot_inj h
  obtain ⟨hd, ht⟩ := Segment.append_dot_inj h
  rw [TablePath.mk.injEq]
  exact ⟨hc, hd, Segment.ext ht⟩

end BrewDB.Catalog
