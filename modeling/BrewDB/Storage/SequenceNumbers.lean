import BrewDB.Storage.MergedScan
import BrewDB.Storage.PaimonWriter

/-!
# Sequence numbers of an insert

Reference: `PaimonTableProvider::insert_into` of `brewdb-storage/src/paimon/table_provider.rs` and
`write_partition` of `brewdb-storage/src/paimon/writer.rs`.

Every partition of the input has a writer of its own. Paimon's writers number the rows of a bucket from the
largest number committed before the statement, each for itself.
-/

namespace BrewDB

/-! ## The plan of an insert -/

/-- The input of an insert: its schema and its partitions. -/
structure InputPlan where
  schema : List Field
  partitions : ℕ
  execute : Fin partitions → Except String (List (Except String RecordBatch))

/-- DataFusion's `InsertOp`. -/
inductive InsertOp where
  | append
  | overwrite
  | replace
deriving DecidableEq, Repr

/-- The display form of `InsertOp`. -/
def InsertOp.toString : InsertOp → String
  | .append => "Insert Into"
  | .overwrite => "Insert Overwrite"
  | .replace => "Replace Into"

/-- What an insert uses of a Paimon table. Every call of `newWrite` makes another writer. -/
structure WritableTable (P : CommitFormat) where
  schema : List Field
  /-- `logically_equivalent_names_and_types`. -/
  logicallyEquivalent : List Field → List Field → Except String Unit
  Writer : Type
  newWrite : ℕ → Except String Writer
  writeArrowBatch : Writer → RecordBatch → Except String Writer
  prepareCommit : Writer → Except String (List (CommitMessage P))
  commit : List (CommitMessage P) → Except String Unit

namespace WritableTable

variable {P : CommitFormat} (table : WritableTable P)

/-- `PaimonSinkExec` on one partition of its input. -/
def sinkExec (input : InputPlan) (i : Fin input.partitions) : PartitionSink P where
  Writer := table.Writer
  newWrite := table.newWrite i
  execute := input.execute i
  writeArrowBatch := table.writeArrowBatch
  prepareCommit := table.prepareCommit

/-- `insert_into`: the commit operator over the gathered sinks. -/
def insertInto (input : InputPlan) (insertOp : InsertOp) : Except String (PaimonInsert P) :=
  if insertOp ≠ .append then
    .error ("This feature is not implemented: " ++ insertOp.toString ++
      " is not implemented for Paimon tables")
  else
    match table.logicallyEquivalent input.schema table.schema with
    | .error e => .error e
    | .ok () => .ok ⟨input.partitions, table.sinkExec input, table.commit⟩

end WritableTable

/-! ## Numbered rows -/

/-- The rows of a partition's input. -/
def PartitionSink.rows {P : CommitFormat} (sink : PartitionSink P) : List Row :=
  match sink.execute with
  | .ok data => data.flatMap fun
      | .ok batch => batch.rows
      | .error _ => []
  | .error _ => []

/-- How Paimon keeps the rows of a primary-key table. -/
structure KeyedRows (P : CommitFormat) where
  key : Row → Row
  Bucket : Type
  decideBucket : DecidableEq Bucket
  /-- The bucket of a key. -/
  bucket : Row → Bucket
  versions : P.DataFile → List PaimonTable.RowVersion
  /-- The largest number of a bucket before the statement. -/
  committed : Bucket → ℤ
  /-- Whether a writer that was given these rows keeps the one at an index. -/
  keeps : List Row → ℕ → Bool

namespace KeyedRows

open PaimonTable (RowVersion)

variable {P : CommitFormat} (keyed : KeyedRows P)

instance : DecidableEq keyed.Bucket := keyed.decideBucket

/-- Number rows, counting in every bucket from `next`. -/
def number (next : keyed.Bucket → ℤ) : List Row → List RowVersion
  | [] => []
  | row :: rows =>
      let bucket := keyed.bucket (keyed.key row)
      ⟨keyed.key row, next bucket, some row⟩ ::
        number (Function.update next bucket (next bucket + 1)) rows

/-- What a writer leaves of the rows it was given. -/
def written (rows : List Row) : List RowVersion :=
  ((keyed.number (fun bucket => keyed.committed bucket + 1) rows).zipIdx.filter fun version =>
    keyed.keeps rows version.2).map Prod.fst

/-- The rows of commit messages. -/
def versionsOf (messages : List (CommitMessage P)) : List RowVersion :=
  messages.flatMap fun message => message.newFiles.flatMap keyed.versions

/-- Writers number their rows for themselves, and put all they keep into the files of their messages. -/
def NumbersRows (table : WritableTable P) : Prop :=
  ∀ (input : InputPlan) (i : Fin input.partitions) (rowCount : UInt64) (messages : List (CommitMessage P)),
    (table.sinkExec input i).writePartition = .ok (rowCount, messages) →
      (keyed.versionsOf messages).Perm (keyed.written (table.sinkExec input i).rows)

/-- No two versions have key and number in common. -/
def Ranked (versions : List RowVersion) : Prop :=
  versions.Pairwise fun a b => ¬ (a.key = b.key ∧ a.sequenceNumber = b.sequenceNumber)

/-- The number of rows in front of an index that share the bucket of its row. -/
def ordinal (rows : List Row) (index : ℕ) (row : Row) : ℕ :=
  ((rows.take index).filter fun earlier =>
    keyed.bucket (keyed.key earlier) = keyed.bucket (keyed.key row)).length

/-- Of two rows with one key, kept in different partitions, one comes later in its bucket. -/
def KeysApart (insert : PaimonInsert P) : Prop :=
  ∀ i j, i ≠ j → ∀ index index' row row',
    (insert.sink i).rows[index]? = some row → keyed.keeps (insert.sink i).rows index = true →
    (insert.sink j).rows[index']? = some row' → keyed.keeps (insert.sink j).rows index' = true →
    keyed.key row = keyed.key row' →
      keyed.ordinal (insert.sink i).rows index row ≠ keyed.ordinal (insert.sink j).rows index' row'

variable {keyed}

/-- The version at an index. -/
theorem getElem?_number (next : keyed.Bucket → ℤ) (rows : List Row) (index : ℕ) :
    (keyed.number next rows)[index]? = (rows[index]?).map fun row =>
      ⟨keyed.key row, next (keyed.bucket (keyed.key row)) + keyed.ordinal rows index row, some row⟩ := by
  induction rows generalizing next index with
  | nil => simp [number]
  | cons first rows ih =>
      cases index with
      | zero => simp [number, ordinal]
      | succ index =>
          rw [number, List.getElem?_cons_succ, List.getElem?_cons_succ, ih]
          cases hrow : rows[index]? with
          | none => rfl
          | some row =>
              simp only [Option.map_some, Option.some.injEq, RowVersion.mk.injEq, true_and, and_true]
              by_cases hbucket : keyed.bucket (keyed.key first) = keyed.bucket (keyed.key row)
              · have hordinal : keyed.ordinal (first :: rows) (index + 1) row =
                    keyed.ordinal rows index row + 1 := by
                  simp [ordinal, hbucket]
                rw [hordinal, hbucket, Function.update_self]
                push_cast
                omega
              · have hordinal : keyed.ordinal (first :: rows) (index + 1) row =
                    keyed.ordinal rows index row := by
                  simp [ordinal, hbucket]
                rw [hordinal, Function.update_of_ne (Ne.symm hbucket)]

/-- Numbers of a bucket start at `next`. -/
theorem le_of_mem_number {next : keyed.Bucket → ℤ} {rows : List Row} {version : RowVersion}
    (h : version ∈ keyed.number next rows) : next (keyed.bucket version.key) ≤ version.sequenceNumber := by
  obtain ⟨index, hindex⟩ := List.mem_iff_getElem?.mp h
  rw [getElem?_number, Option.map_eq_some_iff] at hindex
  obtain ⟨row, -, rfl⟩ := hindex
  simp

/-- One writer never gives a number twice in a bucket. -/
theorem ranked_number (next : keyed.Bucket → ℤ) (rows : List Row) : Ranked (keyed.number next rows) := by
  induction rows generalizing next with
  | nil => exact .nil
  | cons row rows ih =>
      refine List.pairwise_cons.mpr ⟨fun later hlater => ?_, ih _⟩
      rintro ⟨hkey, hnumber⟩
      have hle := le_of_mem_number hlater
      rw [← hkey, Function.update_self, ← hnumber] at hle
      exact absurd hle (not_le.mpr (lt_add_one _))

theorem ranked_written (rows : List Row) : Ranked (keyed.written rows) := by
  have hsub := (List.filter_sublist
    (p := fun version => keyed.keeps rows version.2)
    (l := (keyed.number (fun bucket => keyed.committed bucket + 1) rows).zipIdx)).map Prod.fst
  rw [List.zipIdx_map_fst] at hsub
  exact (ranked_number _ _).sublist hsub

/-- What a writer leaves: rows it keeps, with their places in their buckets. -/
theorem mem_written {rows : List Row} {version : RowVersion} :
    version ∈ keyed.written rows ↔ ∃ index row, rows[index]? = some row ∧ keyed.keeps rows index = true ∧
      version = ⟨keyed.key row,
        keyed.committed (keyed.bucket (keyed.key row)) + 1 + keyed.ordinal rows index row, some row⟩ := by
  simp only [written, List.mem_map, List.mem_filter, List.mem_zipIdx_iff_getElem?, Prod.exists,
    exists_and_right, exists_eq_right]
  constructor
  · rintro ⟨index, hindex, hkeeps⟩
    rw [getElem?_number, Option.map_eq_some_iff] at hindex
    obtain ⟨row, hrow, rfl⟩ := hindex
    exact ⟨index, row, hrow, hkeeps, rfl⟩
  · rintro ⟨index, row, hrow, hkeeps, rfl⟩
    refine ⟨index, ?_, hkeeps⟩
    rw [getElem?_number, hrow]
    rfl

/-- A plan for an insert writes every partition of the input with a writer of its own. -/
theorem insertInto_eq_ok {table : WritableTable P} {input : InputPlan} {insertOp : InsertOp}
    {insert : PaimonInsert P} (h : table.insertInto input insertOp = .ok insert) :
    insert = ⟨input.partitions, table.sinkExec input, table.commit⟩ := by
  rw [WritableTable.insertInto] at h
  split at h
  · cases h
  · split at h
    · cases h
    · exact (Except.ok.inj h).symm

/-- The messages of a partition that was written hold what its writer leaves. -/
theorem versionsOf_prepared {table : WritableTable P} (hnumbers : keyed.NumbersRows table)
    {input : InputPlan} {i : Fin input.partitions} (h : (table.sinkExec input i).Succeeded) :
    (keyed.versionsOf (table.sinkExec input i).prepared).Perm
      (keyed.written (table.sinkExec input i).rows) := by
  obtain ⟨batch, hbatch⟩ := h
  obtain ⟨⟨rowCount, messages⟩, hwritten, -⟩ := ExceptRun.bind_eq_ok.mp hbatch
  have hprepared : (table.sinkExec input i).prepared = messages := by
    rw [PartitionSink.prepared, hwritten]
  rw [hprepared]
  exact hnumbers input i rowCount messages hwritten

theorem ranked_perm {versions versions' : List RowVersion} (h : versions.Perm versions') :
    Ranked versions ↔ Ranked versions' :=
  h.pairwise_iff fun {_ _} hab => fun hba => hab ⟨hba.1.symm, hba.2.symm⟩

/-- Where all partitions come together: they must not collide with one another. -/
theorem ranked_flatMap_written (insert : PaimonInsert P) :
    Ranked ((List.finRange insert.partitions).flatMap fun i => keyed.written (insert.sink i).rows) ↔
      keyed.KeysApart insert := by
  rw [Ranked, List.pairwise_flatMap]
  constructor
  · rintro ⟨-, hapart⟩ i j hij index index' row row' hrow hkeeps hrow' hkeeps' hkey hordinal
    have hsymm : ∀ i j : Fin insert.partitions, i ≠ j →
        ∀ a ∈ keyed.written (insert.sink i).rows, ∀ b ∈ keyed.written (insert.sink j).rows,
          ¬ (a.key = b.key ∧ a.sequenceNumber = b.sequenceNumber) := by
      intro i j hij a ha b hb hab
      rcases lt_or_gt_of_ne hij with hlt | hlt
      · exact (List.pairwise_iff_getElem.mp hapart i j (by simp) (by simp) hlt) a (by simpa using ha) b
          (by simpa using hb) hab
      · exact (List.pairwise_iff_getElem.mp hapart j i (by simp) (by simp) hlt) b (by simpa using hb) a
          (by simpa using ha) ⟨hab.1.symm, hab.2.symm⟩
    refine hsymm i j hij _ (mem_written.mpr ⟨index, row, hrow, hkeeps, rfl⟩) _
      (mem_written.mpr ⟨index', row', hrow', hkeeps', rfl⟩) ⟨hkey, ?_⟩
    simp only [hkey, hordinal]
  · intro hapart
    refine ⟨fun i _ => ranked_written _, ?_⟩
    refine (List.nodup_finRange _).imp fun {i j} hij a ha b hb => ?_
    rintro ⟨hkey, hnumber⟩
    obtain ⟨index, row, hrow, hkeeps, rfl⟩ := mem_written.mp ha
    obtain ⟨index', row', hrow', hkeeps', rfl⟩ := mem_written.mp hb
    have hkey : keyed.key row = keyed.key row' := hkey
    refine hapart i j hij index index' row row' hrow hkeeps hrow' hkeeps' hkey ?_
    simp only [hkey] at hnumber
    omega

end KeyedRows

/-- What an insert commits has no two versions of a key with one number just when its partitions keep the
keys apart; a later read then finds one newest version of every key, in whatever order the files come. -/
theorem PaimonInsert.ranked_commit_iff {P : CommitFormat} {keyed : KeyedRows P} {table : WritableTable P}
    (hnumbers : keyed.NumbersRows table) {input : InputPlan} {insertOp : InsertOp} {insert : PaimonInsert P}
    (hinsert : table.insertInto input insertOp = .ok insert) {actions : List insert.Action}
    {s : insert.State} (h : Transition.exec insert.step insert.init actions = some s)
    {messages : List (CommitMessage P)} (hcommit : messages ∈ s.commits) :
    (KeyedRows.Ranked (keyed.versionsOf messages) ↔ keyed.KeysApart insert) ∧
      (keyed.KeysApart insert → ∀ versions, (keyed.versionsOf messages).Perm versions → ∀ key,
        Versions.newest PaimonTable.RowVersion.key PaimonTable.RowVersion.sequenceNumber
            (keyed.versionsOf messages) key =
          Versions.newest PaimonTable.RowVersion.key PaimonTable.RowVersion.sequenceNumber versions key) := by
  have hexact : CommitsExactlyWhen insert.AllSucceeded s :=
    commitsExactlyWhen_of_invariant (Transition.invariant_of_exec invariant_step invariant_init h)
  have hall := hexact.onlyWhen (List.ne_nil_of_mem hcommit)
  obtain rfl := KeyedRows.insertInto_eq_ok hinsert
  have hiff : KeyedRows.Ranked (keyed.versionsOf messages) ↔
      keyed.KeysApart ⟨input.partitions, table.sinkExec input, table.commit⟩ := by
    rw [← KeyedRows.ranked_flatMap_written]
    refine KeyedRows.ranked_perm ?_
    refine ((hexact.everything messages hcommit).flatMap_right _).trans ?_
    rw [preparedBy, List.flatMap_assoc]
    exact List.Perm.flatMap_left _ fun i _ => KeyedRows.versionsOf_prepared hnumbers (hall.2 i)
  refine ⟨hiff, fun hapart versions hperm key => ?_⟩
  exact Versions.newest_of_perm hperm (hiff.mpr hapart) key

/-! ## Two partitions, one row each -/

namespace Sample

/-- Three data files, each with its one row. -/
def oneRowFiles : List (String × Row) :=
  [("data-7-old.parquet", [.integer 7, .string "old"]), ("data-7-new.parquet", [.integer 7, .string "new"]),
    ("data-8.parquet", [.integer 8, .string "other"])]

/-- The text of a message about one file. -/
def oneFileTextOf (name : String) : String :=
  "[\x7b\"bucket\":0,\"deleted_files\":[],\"new_files\":[\"" ++ name ++
    "\"],\"new_index_files\":[],\"partition\":[]\x7d]"

def oneFileJson (name : String) : Json :=
  .object [("partition", .bytes []), ("bucket", .number 0), ("new_files", .strings [name]),
    ("new_index_files", .strings []), ("deleted_files", .strings [])]

/-- A format for messages about one of these files. -/
def oneRowFormat : CommitFormat where
  DataFile := String
  IndexFile := String
  Json := Json
  partition := commitFormat.partition
  bucket := commitFormat.bucket
  dataFiles := commitFormat.dataFiles
  indexFiles := commitFormat.indexFiles
  object := commitFormat.object
  get := commitFormat.get
  get_object := commitFormat.get_object
  toText
    | [] => .ok "[]"
    | [.object [("partition", .bytes []), ("bucket", .number 0), ("new_files", .strings [name]),
        ("new_index_files", .strings []), ("deleted_files", .strings [])]] =>
        if name ∈ oneRowFiles.map Prod.fst then .ok (oneFileTextOf name) else .error "unsupported"
    | _ => .error "unsupported"
  fromText text :=
    if text = "[]" then .ok []
    else
      match (oneRowFiles.map Prod.fst).find? (oneFileTextOf · = text) with
      | some name => .ok [oneFileJson name]
      | none => .error "unsupported"
  fromText_toText := by
    intro values text h
    split at h
    · obtain rfl := Except.ok.inj h
      rfl
    · split at h
      · rename_i name hname
        obtain rfl := Except.ok.inj h
        have hfind : ∀ name ∈ oneRowFiles.map Prod.fst, oneFileTextOf name ≠ "[]" ∧
            (oneRowFiles.map Prod.fst).find? (oneFileTextOf · = oneFileTextOf name) = some name := by
          decide +kernel
        obtain ⟨hne, hfound⟩ := hfind name hname
        rw [if_neg hne, hfound]
        rfl
      · cases h
    · cases h

/-- A table whose writers collect their rows, and can write one. -/
def oneRowTable : WritableTable oneRowFormat where
  schema := [⟨"id", .int64, false⟩, ⟨"name", .utf8, true⟩]
  logicallyEquivalent _ _ := .ok ()
  Writer := List Row
  newWrite _ := .ok []
  writeArrowBatch written batch := .ok (written ++ batch.rows)
  prepareCommit
    | [] => .ok []
    | [row] =>
        match oneRowFiles.find? (·.2 = row) with
        | some file => .ok [⟨[], 0, [file.1], [], []⟩]
        | none => .error "unsupported"
    | _ => .error "unsupported"
  commit _ := .ok ()

/-- All rows are in one bucket, which was empty before. -/
def oneBucket : KeyedRows oneRowFormat where
  key row := row.take 1
  Bucket := Unit
  decideBucket := inferInstance
  bucket _ := ()
  versions (file : String) := (oneRowFiles.lookup file).toList.map fun row => ⟨row.take 1, 1, some row⟩
  committed _ := 0
  keeps _ _ := true

/-- The loop hands all rows to the writer. -/
theorem rows_of_writeBatches {input : InputPlan} {i : Fin input.partitions} {written written' : List Row}
    {rowCount rowCount' : UInt64} {data : List (Except String RecordBatch)}
    (h : (oneRowTable.sinkExec input i).writeBatches written rowCount data = .ok (rowCount', written')) :
    written' = written ++ data.flatMap fun
      | .ok batch => batch.rows
      | .error _ => [] := by
  induction data generalizing written rowCount with
  | nil =>
      obtain ⟨-, hrows⟩ := Prod.mk.inj (Except.ok.inj h)
      exact hrows.symm.trans (List.append_nil written).symm
  | cons item data ih =>
      simp only [PartitionSink.writeBatches, ExceptRun.bind_eq_ok] at h
      obtain ⟨batch, rfl, next, hnext, h⟩ := h
      obtain rfl : written ++ batch.rows = next := Except.ok.inj hnext
      rw [ih h]
      simp

theorem oneBucket_numbersRows : oneBucket.NumbersRows oneRowTable := by
  intro input i rowCount messages h
  obtain ⟨writer, hwriter, h⟩ := ExceptRun.bind_eq_ok.mp h
  obtain ⟨data, hdata, h⟩ := ExceptRun.bind_eq_ok.mp h
  obtain ⟨⟨written, rows⟩, hbatches, h⟩ := ExceptRun.bind_eq_ok.mp h
  obtain ⟨messages', hmessages, h⟩ := ExceptRun.bind_eq_ok.mp h
  obtain ⟨-, rfl⟩ := Prod.mk.inj (ExceptRun.pure_eq_ok.mp h)
  obtain rfl : [] = writer := Except.ok.inj hwriter
  have hrows : (oneRowTable.sinkExec input i).rows = rows := by
    rw [PartitionSink.rows, hdata, rows_of_writeBatches hbatches]
    rfl
  rw [hrows]
  have hmessages : oneRowTable.prepareCommit rows = .ok messages' := hmessages
  clear hbatches hrows
  rcases rows with - | ⟨row, - | ⟨_, _⟩⟩
  · obtain rfl := Except.ok.inj hmessages
    rfl
  · simp only [oneRowTable] at hmessages
    split at hmessages
    · rename_i file hfile
      obtain rfl := Except.ok.inj hmessages
      obtain rfl : file.2 = row := by simpa using List.find?_some hfile
      have hversions : ∀ file ∈ oneRowFiles, oneBucket.versions file.1 = oneBucket.written [file.2] := by
        decide +kernel
      rw [← hversions file (List.mem_of_find?_eq_some hfile)]
      have hone : oneBucket.versionsOf [⟨[], 0, [file.1], [], []⟩] = oneBucket.versions file.1 := by
        rw [KeyedRows.versionsOf, List.flatMap_singleton]
        exact List.flatMap_singleton ..
      rw [hone]
    · cases hmessages
  · cases hmessages

/-- Two partitions, each with one row. -/
def twoRows (first second : Row) : InputPlan where
  schema := oneRowTable.schema
  partitions := 2
  execute i := .ok [.ok ⟨oneRowTable.schema, [if i.1 = 0 then first else second]⟩]

/-- The insert of two rows. -/
def insertOfTwo (first second : Row) : PaimonInsert oneRowFormat :=
  ⟨2, oneRowTable.sinkExec (twoRows first second), oneRowTable.commit⟩

/-- A run of it. -/
def oneThenTwo (first second : Row) : List (insertOfTwo first second).Action :=
  let one : Fin (insertOfTwo first second).partitions := ⟨0, Nat.two_pos⟩
  let two : Fin (insertOfTwo first second).partitions := ⟨1, Nat.one_lt_two⟩
  [.work one, .work one, .work one, .send one, .receive, .work two, .work two, .work two, .send two,
    .receive, .close]

end Sample

namespace PaimonInsert

/-- Two keys. -/
theorem ranked_commit_iff_twoKeys :
    ∃ s messages, Transition.exec (Sample.insertOfTwo [.integer 7, .string "old"]
        [.integer 8, .string "other"]).step (init _)
        (Sample.oneThenTwo [.integer 7, .string "old"] [.integer 8, .string "other"]) = some s ∧
      messages ∈ s.commits ∧
      (KeyedRows.Ranked (Sample.oneBucket.versionsOf messages) ↔
        Sample.oneBucket.KeysApart (Sample.insertOfTwo [.integer 7, .string "old"]
          [.integer 8, .string "other"])) := by
  refine ⟨_, [⟨[], 0, ["data-7-old.parquet"], [], []⟩, ⟨[], 0, ["data-8.parquet"], [], []⟩], rfl,
    List.mem_singleton.mpr rfl, ?_⟩
  exact (@ranked_commit_iff _ _ _ Sample.oneBucket_numbersRows
    (Sample.twoRows [.integer 7, .string "old"] [.integer 8, .string "other"]) .append _ rfl
    (Sample.oneThenTwo [.integer 7, .string "old"] [.integer 8, .string "other"]) _ rfl _
    (List.mem_singleton.mpr rfl)).1

/-- Two rows with one key, in two partitions: both are number 1. -/
theorem not_ranked_commit_twoVersions :
    Sample.oneBucket.NumbersRows Sample.oneRowTable ∧
      Sample.oneRowTable.insertInto (Sample.twoRows [.integer 7, .string "old"] [.integer 7, .string "new"])
        .append = .ok (Sample.insertOfTwo [.integer 7, .string "old"] [.integer 7, .string "new"]) ∧
      ∃ s messages, Transition.exec (Sample.insertOfTwo [.integer 7, .string "old"]
          [.integer 7, .string "new"]).step (init _)
          (Sample.oneThenTwo [.integer 7, .string "old"] [.integer 7, .string "new"]) = some s ∧
        messages ∈ s.commits ∧ ¬ KeyedRows.Ranked (Sample.oneBucket.versionsOf messages) := by
  refine ⟨Sample.oneBucket_numbersRows, rfl, _,
    [⟨[], 0, ["data-7-old.parquet"], [], []⟩, ⟨[], 0, ["data-7-new.parquet"], [], []⟩], rfl,
    List.mem_singleton.mpr rfl, ?_⟩
  rw [KeyedRows.Ranked]
  decide +kernel

end PaimonInsert

end BrewDB
