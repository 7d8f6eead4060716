import BrewDB.Execution.Command
import BrewDB.Frontend.Connection

/-!
# The announced columns

Reference: `SqlRequestHandler for BrewDbServer` of `brewdb-bin/src/server.rs` and `write_query_result` of
`brewdb-frontend/src/pgwire.rs`.

The server takes the columns of a response from its first batch, and announces none if there is none.
-/

namespace BrewDB.PgWire

open BrewDB.Bytes BrewDB.Catalog

variable (text : ArrowText)

/-- The server's response to an execution. -/
def serverResult (handle : QueryExecutionHandle) : SqlExecutionResult where
  response :=
    if handle.returnsRows then
      .ofQuery handle.commandTag (UInt64.ofNat (handle.output.map RecordBatch.numRows).sum)
        ((handle.output.head?.map (batchFields text)).getD [])
    else .ofCommand handle.commandTag
  batches := handle.output

/-- The columns of a plan, as a response announces them. -/
def planFields (root : RootPlan) : List ResultField :=
  root.schema.map fun field => ⟨field.name, text.dataType field.dataType⟩

/-- A response that starts with these columns, announces nothing else, and keeps to their number. -/
structure Announces (fields : List ResultField) (frames : List Frame) : Prop where
  first : frames.head? = some (rowDescription fields)
  once : ∀ frame ∈ frames.tail, frame.messageType ≠ 'T'.toUInt8
  rows : ∀ frame ∈ frames, frame.messageType = 'D'.toUInt8 →
    ∃ texts, frame = dataRow texts ∧ texts.length = fields.length

variable {text}

/-- The frames of a response with columns, and of one without. -/
theorem writeQueryResult_serverResult (handle : QueryExecutionHandle) :
    writeQueryResult text (serverResult text handle).response handle.output =
      (if (handle.output.head?.map (batchFields text)).getD [] ≠ [] then
          [rowDescription ((handle.output.head?.map (batchFields text)).getD [])] else []) ++
        (allTexts text handle.output).map dataRow ++ [commandComplete handle.commandTag] := by
  have hfields : announcedFields text (serverResult text handle).response handle.output =
      (handle.output.head?.map (batchFields text)).getD [] := by
    rw [announcedFields, serverResult]
    by_cases hreturns : handle.returnsRows = true
    · simp only [if_pos hreturns, QueryResultOutput.ofQuery]
      split
      · rfl
      · rfl
    · simp only [if_neg hreturns, QueryResultOutput.ofCommand]
      exact if_neg (not_not_intro rfl)
  have htag : (serverResult text handle).response.commandTag = handle.commandTag := by
    rw [serverResult]
    split
    · rfl
    · rfl
  rw [writeQueryResult, hfields, htag]

/-- Behind the columns there are rows, and the end of the command. -/
theorem announces_of_batches {fields : List ResultField} {batches : List RecordBatch} (hfields : fields ≠ [])
    (hbatches : ∀ batch ∈ batches, batchFields text batch = fields) (commandTag : String) :
    Announces fields ((if fields ≠ [] then [rowDescription fields] else []) ++
      (allTexts text batches).map dataRow ++ [commandComplete commandTag]) := by
  have hlength : ∀ texts ∈ allTexts text batches, texts.length = fields.length := by
    intro texts htexts
    obtain ⟨batch, hbatch, htexts⟩ := List.mem_flatMap.mp htexts
    obtain ⟨row, -, rfl⟩ := List.mem_map.mp htexts
    rw [length_rowTexts, ← hbatches batch hbatch, batchFields, List.length_map]
  rw [if_pos hfields]
  refine ⟨rfl, ?_, ?_⟩
  · intro frame hframe
    rw [List.append_assoc, List.singleton_append, List.tail_cons, List.mem_append, List.mem_map,
      List.mem_singleton] at hframe
    rcases hframe with ⟨texts, -, rfl⟩ | rfl
    · rw [messageType_dataRow]
      decide
    · rw [messageType_commandComplete]
      decide
  · intro frame hframe htype
    rw [List.mem_append, List.mem_append, List.mem_map, List.mem_singleton, List.mem_singleton] at hframe
    rcases hframe with (rfl | ⟨texts, htexts, rfl⟩) | rfl
    · rw [messageType_rowDescription] at htype
      exact absurd htype (by decide)
    · exact ⟨texts, rfl, hlength texts htexts⟩
    · rw [messageType_commandComplete] at htype
      exact absurd htype (by decide)

/-- A response without columns announces nothing. -/
theorem not_announces_nil {rows : List (List (Option String))} {commandTag : String}
    (fields : List ResultField) : ¬ Announces fields (rows.map dataRow ++ [commandComplete commandTag]) := by
  intro h
  have hfirst := h.first
  cases rows with
  | nil =>
      have htype := congrArg Frame.messageType (Option.some.inj hfirst)
      rw [messageType_commandComplete, messageType_rowDescription] at htype
      exact absurd htype (by decide)
  | cons texts rows =>
      have htype := congrArg Frame.messageType (Option.some.inj hfirst)
      rw [messageType_dataRow, messageType_rowDescription] at htype
      exact absurd htype (by decide)

/-- The number of columns can be read off a description. -/
theorem eq_nil_of_rowDescription {fields : List ResultField}
    (h : rowDescription fields = rowDescription []) : fields = [] := by
  cases fields with
  | nil => rfl
  | cons field fields =>
      have hlength := congrArg (fun frame => frame.payload.length) h
      simp [rowDescription, encodeField] at hlength

/-- A `SHOW` answers with one batch of one column. -/
theorem output_of_show {service : CatalogService} {node : Show} {handle : QueryExecutionHandle}
    (h : executeShow service node = .ok handle) :
    ∃ commandTag column values, handle = buildShowHandle commandTag column values := by
  cases node with
  | catalogs => exact ⟨_, _, _, (Except.ok.inj h).symm⟩
  | databases catalogName =>
      obtain ⟨databases, -, rfl⟩ := ExceptRun.map_eq_ok.mp h
      exact ⟨_, _, _, rfl⟩
  | tables catalogName databaseName =>
      obtain ⟨tables, -, rfl⟩ := ExceptRun.map_eq_ok.mp h
      exact ⟨_, _, _, rfl⟩

/-- The response to a statement that returns rows announces the columns of its plan just when the plan has
columns, runs as fragments, and they send a batch. -/
theorem announces_plan_iff {text : ArrowText} {root : RootPlan} (hrows : root.returnsRows = true)
    (rules : PaimonRules) (faults : Faults) (uuid : Uuid) (service : CatalogService)
    {fragments : Except ExecutionError (List RecordBatch)}
    (hfragments : ∀ batches, fragments = .ok batches →
      ∀ batch ∈ batches, batchFields text batch = planFields text root)
    {handle : QueryExecutionHandle}
    (h : (executePlanned rules faults uuid fragments service root).1 = .ok handle) :
    Announces (planFields text root)
        (writeQueryResult text (serverResult text handle).response (serverResult text handle).batches) ↔
      root.commandPlan = none ∧ fragments ≠ .ok [] ∧ root.schema ≠ [] := by
  have hframes := @writeQueryResult_serverResult text handle
  rw [show (serverResult text handle).batches = handle.output from rfl, hframes]
  rw [executePlanned] at h
  cases hcommand : root.commandPlan with
  | some command =>
      -- The only commands that return rows are `SHOW`s, and their plans have no columns.
      refine iff_of_false (fun hannounces => ?_) (fun hnone => absurd hnone.1 (by simp))
      cases root with
      | explain schema => cases hcommand
      | dml => cases hcommand
      | ddl statement => cases hrows
      | statement statement => cases hrows
      | other schema => cases hcommand
      | extension node =>
          cases node with
          | none => cases hrows
          | some node =>
              cases node with
              | ddl node => cases hrows
              | «show» node =>
                  obtain rfl := Option.some.inj hcommand
                  obtain ⟨commandTag, column, values, rfl⟩ := output_of_show h
                  have hfirst := hannounces.first
                  have hdescription := eq_nil_of_rowDescription (Option.some.inj hfirst)
                  cases hdescription
  | none =>
      rw [hcommand] at h
      obtain ⟨batches, rfl, rfl⟩ := ExceptRun.map_eq_ok.mp h
      simp only [hrows, if_true, true_and]
      have hbatches := hfragments batches rfl
      cases batches with
      | nil =>
          refine iff_of_false (fun hannounces => ?_) (fun hnone => hnone.1 rfl)
          exact @not_announces_nil [] root.commandTag _ hannounces
      | cons batch batches =>
          have hhead : (((batch :: batches).head?.map (batchFields text)).getD []) = planFields text root :=
            hbatches batch List.mem_cons_self
          rw [hhead]
          by_cases hschema : root.schema = []
          · have hfields : planFields text root = [] := by
              rw [planFields, hschema]
              rfl
            rw [hfields]
            refine iff_of_false (fun hannounces => ?_) (fun hnone => hnone.2 hschema)
            exact not_announces_nil _ hannounces
          · have hfields : planFields text root ≠ [] := by
              rw [planFields, ne_eq, List.map_eq_nil_iff]
              exact hschema
            refine iff_of_true (announces_of_batches hfields hbatches _) ⟨?_, hschema⟩
            simp

/-- A query of two columns. -/
def Sample.namedPlan : RootPlan := .other [⟨"id", .int64, false⟩, ⟨"name", .utf8, true⟩]

theorem announces_plan_iff_named :
    Announces (planFields Sample.arrowText Sample.namedPlan)
      (writeQueryResult Sample.arrowText
        (serverResult Sample.arrowText ⟨"SELECT", true, Sample.namedBatches⟩).response Sample.namedBatches) := by
  have hbatches : ∀ batches, (.ok Sample.namedBatches : Except ExecutionError _) = .ok batches →
      ∀ batch ∈ batches, batchFields Sample.arrowText batch = planFields Sample.arrowText Sample.namedPlan := by
    intro batches h
    obtain rfl := Except.ok.inj h
    decide
  refine (@announces_plan_iff _ Sample.namedPlan rfl .plain .none 0 (.fresh ⟨.empty⟩) _ hbatches
    ⟨"SELECT", true, Sample.namedBatches⟩ rfl).mpr ⟨rfl, ?_, by decide⟩
  intro h
  cases h

/-- The same query with no batch to show: no columns are announced. -/
theorem not_announces_plan_noBatch :
    ∃ handle, (executePlanned .plain .none 0 (.ok []) (.fresh ⟨.empty⟩) Sample.namedPlan).1 = .ok handle ∧
      writeQueryResult Sample.arrowText (serverResult Sample.arrowText handle).response
        (serverResult Sample.arrowText handle).batches = [commandComplete "SELECT"] ∧
      ¬ Announces (planFields Sample.arrowText Sample.namedPlan) [commandComplete "SELECT"] :=
  ⟨⟨"SELECT", true, []⟩, rfl, rfl, @not_announces_nil [] "SELECT" _⟩

end BrewDB.PgWire
