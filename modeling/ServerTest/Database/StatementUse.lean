import ServerTest.Database.Operations

/-!
# Using a statement

What a caller does with an `SQLStatement`: construct it, set its parameters, run it, walk over its
rows. The two guarantees a caller counts on are stated here, that the parameters set are the
parameters sent and that the rows read are the rows the server returned, together with how much of
each the code provides.

Both stop early. The parameter storage is allocated inside `Execute`, so a setter called before it
has nothing to write to; and the size of the result array is taken from a `MYSQL_RES` that carries
no rows, so the first row fetched is written outside it.
-/

set_option autoImplicit false

namespace ServerTest.Database

open Lib

namespace SQLStatement

/-! ## Parameters -/

/-- The last call that set index `i`. -/
def lastSetter (calls : List (UInt8 × SQLOperationParams.Setter)) (i : Nat) :
    Option SQLOperationParams.Setter :=
  (calls.reverse.find? fun c => c.1.toNat = i).map (·.2)

/-- The setters run, and every bind a run then hands to `mysql_stmt_bind_param` carries the value
last set for its index. -/
def ParametersSent (model : DataModel) (o : Outcomes) (db : SQLDatabase) (schemaIndex : UInt32)
    (text : Bytes) (around : Nat → UInt8) (k : Nat)
    (calls : List (UInt8 × SQLOperationParams.Setter)) : Prop :=
  ∃ params, (new schemaIndex text).params.callAll around calls = .ok params ∧
    ∀ status st' db' log,
      { new schemaIndex text with params := params }.execute model o db =
        .ok (status, st', db', log) →
      ∀ binds data, MysqlCall.stmtBindParam binds data ∈ log →
        ∀ i < k, ∀ setter, lastSetter calls i = some setter →
          ∃ bind, binds[i]? = some bind ∧ setter.CarriedBy data bind

/-- The first setter called on a new statement faults, so no sequence of them returns. -/
theorem callAll_new (schemaIndex : UInt32) (text : Bytes) (around : Nat → UInt8)
    {calls : List (UInt8 × SQLOperationParams.Setter)} (hne : calls ≠ []) :
    ∃ fault, (new schemaIndex text).params.callAll around calls = .error fault := by
  cases calls with
  | nil => exact absurd rfl hne
  | cons c rest =>
    obtain ⟨fault, hfault⟩ := c.2.call_unallocated around c.1 (p := .new) rfl rfl
    refine ⟨fault, ?_⟩
    show (c.2.call around .new c.1 >>= fun p => rest.foldlM _ p) = _
    rw [hfault]
    rfl

/-- **No parameter is ever sent.** For every statement, every `k ≥ 1` and every sequence of setter
calls that sets all indices below `k`, the guarantee fails. -/
theorem parameters_never_sent (model : DataModel) (o : Outcomes) (db : SQLDatabase)
    (schemaIndex : UInt32) (text : Bytes) (around : Nat → UInt8) (k : Nat) (hk : 1 ≤ k)
    (calls : List (UInt8 × SQLOperationParams.Setter))
    (hset : ∀ i < k, ∃ c ∈ calls, c.1.toNat = i) :
    ¬ ParametersSent model o db schemaIndex text around k calls := by
  intro h
  obtain ⟨params, hcalls, -⟩ := h
  obtain ⟨c, hc, -⟩ := hset 0 hk
  obtain ⟨fault, hfault⟩ := callAll_new schemaIndex text around (List.ne_nil_of_mem hc)
  rw [hfault] at hcalls
  cases hcalls

theorem parameters_never_sent_select :
    ¬ ParametersSent .LP64 Operation.acceptAll Operation.samplePool 0 (ascii "SELECT ?")
      (fun _ => 0) 1 [(0, .uint32 7)] := by
  refine parameters_never_sent _ _ _ _ _ _ 1 (Nat.le_refl 1) _ fun i hi => ?_
  exact ⟨(0, .uint32 7), by simp, by simp; omega⟩

/-- `SetUInt32(0, 7)` on a new `SELECT ?` writes through a null pointer. -/
theorem not_parametersSent_select :
    ¬ ParametersSent .LP64 Operation.acceptAll Operation.samplePool 0 (ascii "SELECT ?")
      (fun _ => 0) 1 [(0, .uint32 7)] := by
  intro h
  obtain ⟨params, hcalls, -⟩ := h
  obtain ⟨fault, hfault⟩ := callAll_new 0 (ascii "SELECT ?") (fun _ => 0)
    (List.cons_ne_nil ((0 : UInt8), SQLOperationParams.Setter.uint32 7) [])
  rw [hfault] at hcalls
  cases hcalls

/-- Reading a result hands over no parameters. -/
theorem stmtBindParam_notMem_readCalls (o : Outcomes) (res : MysqlRes) (binds : List MysqlBind)
    (data : List Word) : MysqlCall.stmtBindParam binds data ∉ readCalls o res := by
  unfold readCalls
  split <;> simp

/-- The queries of a run hand over binds only in `InitPreparedStatement`. -/
theorem query_binds {o : Outcomes} {st st' : SQLStatement} {mySql : Option MYSQL}
    {progress : Progress} {log : List MysqlCall} (h : st.query o mySql = .ok (progress, st', log))
    {binds : List MysqlBind} {data : List Word}
    (hmem : MysqlCall.stmtBindParam binds data ∈ log) :
    ∃ status st₁ calls, st.initPreparedStatement o mySql [] = .ok (status, st₁, calls) ∧
      MysqlCall.stmtBindParam binds data ∈ calls := by
  unfold query at h
  split at h
  · -- The raw branch sends its text and nothing else.
    unfold queryRaw at h
    split at h
    · cases h
    · simp only at h
      split at h <;> cases h <;> simp at hmem
  · obtain ⟨⟨status, st₁, calls⟩, hinit, h⟩ := bind_returns.mp h
    refine ⟨status, st₁, calls, hinit, ?_⟩
    obtain ⟨done, -, h⟩ := bind_returns.mp h
    simp only at h
    split at h
    · cases h
      simpa using hmem
    · split at h <;> cases h <;> simpa using hmem

/-- Nor would it help to set them on storage left by an earlier run: what a run hands over is always
the storage it has just zeroed. -/
theorem binds_sent_are_zero {model : DataModel} {o : Outcomes} {st st' : SQLStatement}
    {db db' : SQLDatabase} {status : Status} {log : List MysqlCall}
    (h : st.execute model o db = .ok (status, st', db', log)) {binds : List MysqlBind}
    {data : List Word} (hmem : MysqlCall.stmtBindParam binds data ∈ log) :
    binds = List.replicate o.stmtParamCount.toNat .zero := by
  obtain ⟨-, handle, ref, taken, -, h⟩ := execute_returns h
  obtain ⟨progress, st₁, calls, hq, hlog⟩ := executeOn_log h
  have hquery : MysqlCall.stmtBindParam binds data ∈ calls := by
    rcases hlog with rfl | ⟨res, rfl⟩
    · exact hmem
    · exact (List.mem_append.mp hmem).resolve_right
        (stmtBindParam_notMem_readCalls o res binds data)
  obtain ⟨status₂, st₂, calls₂, hinit, hmem⟩ := query_binds hq hquery
  cases ho : o.stmtInit with
  | false =>
    simp only [initPreparedStatement, ho] at hinit
    cases hinit
  | true =>
    obtain ⟨status₃, st₃, calls₃, hinit₃, -, -, -, hbinds⟩ := initPreparedStatement_eq st handle ho
    rw [hinit₃] at hinit
    cases hinit
    exact (hbinds binds data hmem).2

/-! ## Results -/

/-- A result of non-`NULL` integer columns: at least one of them, and every row complete. -/
structure IntegerResult (model : DataModel) (fields : List MysqlField) (rows : List Row) : Prop where
  nonempty : fields ≠ []
  fieldCount : fields.length < 2 ^ 32
  rowCount : rows.length < 2 ^ 64
  integer : ∀ f ∈ fields, f.type ∈
    [EnumFieldTypes.TINY, .SHORT, .YEAR, .INT24, .LONG, .LONGLONG]
  cells : ∀ row ∈ rows, ∀ i f, fields[i]? = some f →
    ∃ v, cellAt row i = some v ∧ v.length = fetchWidth model f.type

/-- A server and a libmariadb for which everything succeeds. The `MYSQL_RES` of
`mysql_store_result` counts the rows; the one of `mysql_stmt_result_metadata` has none. -/
def answering (fields : List MysqlField) (rows : List Row) (paramCount : UInt32)
    (junk : Nat → Nat → UInt8) : Outcomes where
  realQuery := true
  storeResult := some ⟨fields, UInt64.ofNat rows.length⟩
  stmtInit := true
  stmtPrepare := true
  stmtParamCount := paramCount
  stmtAttrSet := true
  stmtBindParam := true
  stmtExecute := true
  stmtStoreResult := true
  stmtResultMetadata := some ⟨fields, 0⟩
  fieldCount := UInt32.ofNat fields.length
  stmtBindResult := true
  rows := rows
  stmtFetch := true
  stmtFreeResult := true
  junk := junk

/-- The result set shows exactly these rows: `GetNextRowOfResultSet` is true once for each, and
after the `k`-th time the getters read row `k`. -/
structure Reproduced (rs : SQLOperationResultSet) (fields : List MysqlField) (rows : List Row) :
    Prop where
  rowCount : rs.rowCount.toNat = rows.length
  fieldCount : rs.fieldCount.toNat = fields.length
  walked : ∀ n, rs.rowsWalked n = min n rows.length
  value : ∀ k row, rows[k]? = some row → ∀ (c : UInt8) v, c.toNat < fields.length →
    cellAt row c.toNat = some v →
    (rs.advance (k + 1)).getResultUInt64 c = .ok (SQLOperationResultSet.wordValue v)

/-- A run of a new statement stays inside its allocations, and if it returns `OK` its result set
shows the rows the server returned. -/
def Reproduces (model : DataModel) (db : SQLDatabase) (schemaIndex : UInt32) (text : Bytes)
    (fields : List MysqlField) (rows : List Row) (paramCount : UInt32)
    (junk : Nat → Nat → UInt8) : Prop :=
  ∃ status st db' log, (new schemaIndex text).execute model
      (answering fields rows paramCount junk) db = .ok (status, st, db', log) ∧
    (status = .OK → Reproduced st.resultSet fields rows)

/-- A row fetched into an empty allocation has nowhere to go. -/
theorem fetchLoop_empty {cols : List Column} (hne : cols ≠ []) (row : Row) (rows : List Row) :
    ∃ fault, fetchLoop cols 0 (row :: rows) = .error fault := by
  cases hloop : fetchLoop cols 0 (row :: rows) with
  | error fault => exact ⟨fault, rfl⟩
  | ok stores =>
    obtain ⟨s, hfold, -⟩ := bind_returns.mp hloop
    obtain ⟨s₁, hstep, -⟩ := bind_returns.mp hfold
    obtain ⟨buffers, -, hstep⟩ := bind_returns.mp hstep
    obtain ⟨stores₁, hcopy, -⟩ := bind_returns.mp hstep
    cases cols with
    | nil => exact absurd rfl hne
    | cons col cols =>
      obtain ⟨stores₂, hcell, -⟩ := bind_returns.mp hcopy
      obtain ⟨slot, -, hcell⟩ := bind_returns.mp hcell
      simp at hcell

theorem bindFields_ne_nil (model : DataModel) (junk : Nat → Nat → UInt8) {fields : List MysqlField}
    (hne : fields ≠ []) : bindFields model junk fields ≠ [] := by
  intro h
  exact hne (by simpa [bindFields] using h)

/-- The field count of an integer result is not zero after the conversion to `uint32`. -/
theorem IntegerResult.fieldCount_ne {model : DataModel} {fields : List MysqlField}
    {rows : List Row} (h : IntegerResult model fields rows) :
    UInt32.ofNat fields.length ≠ 0 ∧ (UInt32.ofNat fields.length).toNat = fields.length := by
  have hlen : (UInt32.ofNat fields.length).toNat = fields.length := by
    rw [UInt32.toNat_ofNat']
    exact Nat.mod_eq_of_lt h.fieldCount
  refine ⟨fun hzero => ?_, hlen⟩
  rw [hzero] at hlen
  exact h.nonempty (List.eq_nil_of_length_eq_zero (by simpa using hlen.symm))

/-- The raw path reads `PreparedStatement`, which nothing has assigned. -/
theorem readResult_indeterminate (model : DataModel) (o : Outcomes) (res : MysqlRes)
    {st : SQLStatement} (hptr : st.preparedStatement = .indeterminate)
    (hcount : UInt32.ofNat res.fields.length ≠ 0) :
    st.readResult model o res = .error .wildPointer := by
  simp [readResult, hcount, hptr, StatementHandle.use, bind, Except.bind]

/-- The prepared path, when everything succeeds, comes to its metadata with a fresh handle. -/
theorem query_succeeds (o : Outcomes) {st : SQLStatement} (handle : MYSQL)
    (hraw : st.isStatementRawString = false) (hinit : o.stmtInit = true)
    (hprep : o.stmtPrepare = true) (hexec : o.stmtExecute = true)
    (hstore : o.stmtStoreResult = true) :
    ∃ st₁ calls, st.query o (some handle) = .ok (.result o.stmtResultMetadata, st₁, calls) ∧
      st₁.isStatementRawString = false ∧ st₁.resultSet = st.resultSet ∧
      st₁.preparedStatement = .live false := by
  obtain ⟨status, st₁, calls, hrun, hraw₁, hrs, hptr, -⟩ := initPreparedStatement_eq st handle hinit
  rw [hprep, if_pos rfl] at hptr
  refine ⟨st₁, calls ++ [.stmtExecute true, .stmtStoreResult true,
    .stmtResultMetadata (o.delivered o.stmtResultMetadata)], ?_, hraw₁.trans hraw, hrs, hptr⟩
  simp [query, hraw, hrun, queryPrepared, hptr, StatementHandle.use, hexec, hstore, bind,
    Except.bind, pure, Except.pure]

/-- With a fresh handle and metadata that counts no rows, `ResultSetData` is empty. -/
theorem readResult_metadata (model : DataModel) (o : Outcomes) {fields : List MysqlField}
    {st : SQLStatement} (hptr : st.preparedStatement = .live false)
    (hcount : UInt32.ofNat fields.length ≠ 0) :
    st.readResult model o ⟨fields, 0⟩ = do
      let cols := bindFields model o.junk fields
      let stores ← fetchLoop cols 0 o.landed
      return { st with
        resultSet := { st.resultSet with
          fieldCount := UInt32.ofNat fields.length
          rowCount := 0
          fieldBinds := some (cols.map (·.bind))
          rowData := some (UInt32.ofNat fields.length).toNat
          resultSetData := some (applyStores 0 stores) }
        preparedStatement := .live o.stmtBindResult } := by
  simp [readResult, hcount, hptr, StatementHandle.use, bind, Except.bind]

theorem rowsWalked_zero {rs : SQLOperationResultSet} (h : rs.rowCount = 0) (n : Nat) :
    rs.rowsWalked n = 0 := by
  apply SQLOperationResultSet.rowsWalked_of_stop
  simp [SQLOperationResultSet.getNextRowOfResultSet, h]

/-- On the raw path every run with a result faults. -/
theorem execute_raw_faults {model : DataModel} {db : SQLDatabase} {schemaIndex : UInt32}
    {text : Bytes} {fields : List MysqlField} {rows : List Row} {paramCount : UInt32}
    {junk : Nat → Nat → UInt8} (hres : IntegerResult model fields rows)
    (hlive : db.OffersLive (new schemaIndex text).schemaIndex.toNat)
    (htext : text.contains 63 = false) :
    (new schemaIndex text).execute model (answering fields rows paramCount junk) db =
      .error .wildPointer := by
  obtain ⟨handle, ref, taken, -, hrun⟩ :=
    execute_live model (answering fields rows paramCount junk) hlive
  have hraw : (new schemaIndex text).isStatementRawString = true := by
    show (!text.contains 63) = true
    rw [htext]
    rfl
  have hquery : (new schemaIndex text).query (answering fields rows paramCount junk)
      (some handle) = .ok (.result (some ⟨fields, UInt64.ofNat rows.length⟩),
        new schemaIndex text, [.realQuery text true, .storeResult true]) := by
    simp only [query, hraw, queryRaw, answering]
    rfl
  have hread : (new schemaIndex text).readResult model (answering fields rows paramCount junk)
      ⟨fields, UInt64.ofNat rows.length⟩ = .error .wildPointer :=
    readResult_indeterminate model _ _ rfl hres.fieldCount_ne.1
  rw [hrun]
  simp only [executeOn, hquery, hread, bind, Except.bind]

theorem applyStores_empty (stores : List (UInt32 × Slot)) : applyStores 0 stores = [] := by
  unfold applyStores
  induction stores with
  | nil => rfl
  | cons s rest ih => exact ih

/-- On the prepared path a run with a result is its fetch loop into an empty array. -/
theorem execute_prepared_eq {model : DataModel} {db : SQLDatabase} {schemaIndex : UInt32}
    {text : Bytes} {fields : List MysqlField} {rows : List Row} (paramCount : UInt32)
    (junk : Nat → Nat → UInt8) (hres : IntegerResult model fields rows)
    (hlive : db.OffersLive (new schemaIndex text).schemaIndex.toNat)
    (htext : text.contains 63 = true) :
    ∃ st log, (new schemaIndex text).execute model (answering fields rows paramCount junk) db =
        (do let _ ← fetchLoop (bindFields model junk fields) 0 rows
            return (.OK, st, db, log)) ∧
      st.resultSet.rowCount = 0 ∧ st.resultSet.fieldCount = UInt32.ofNat fields.length := by
  obtain ⟨handle, ref, taken, hleased, hrun⟩ :=
    execute_live model (answering fields rows paramCount junk) hlive
  have hraw : (new schemaIndex text).isStatementRawString = false := by
    show (!text.contains 63) = false
    rw [htext]
    rfl
  obtain ⟨st₁, calls, hquery, hraw₁, hrs, hptr⟩ :=
    query_succeeds (answering fields rows paramCount junk) handle hraw rfl rfl rfl rfl
  have hlanded : (answering fields rows paramCount junk).landed = rows := rfl
  have hread := readResult_metadata model (answering fields rows paramCount junk) hptr
    hres.fieldCount_ne.1
  simp only [applyStores_empty, hlanded] at hread
  let rs : SQLOperationResultSet := { st₁.resultSet with
    fieldCount := UInt32.ofNat fields.length
    rowCount := 0
    fieldBinds := some ((bindFields model junk fields).map (·.bind))
    rowData := some (UInt32.ofNat fields.length).toNat
    resultSetData := some [] }
  refine ⟨{ st₁ with resultSet := rs, preparedStatement := .null, operationStatus := .Success },
    calls ++ readCalls (answering fields rows paramCount junk) ⟨fields, 0⟩, ?_, rfl, rfl⟩
  rw [hrun]
  simp only [answering] at hread hquery ⊢
  cases hloop : fetchLoop (bindFields model junk fields) 0 rows with
  | error fault =>
    simp only [hloop, bind, Except.bind] at hread
    simp only [executeOn, hquery, hread, bind, Except.bind]
  | ok stores =>
    simp only [hloop, bind, Except.bind, pure, Except.pure] at hread
    simp only [executeOn, hquery, hread, hraw₁, hleased.freed, bind, Except.bind, pure, Except.pure]
    rfl

/-- **When a query result is reproduced.** For a result of integer columns and a live connection:
exactly when the statement takes the prepared path and the result has no rows at all. -/
theorem reproduces_iff (model : DataModel) (db : SQLDatabase) (schemaIndex : UInt32) (text : Bytes)
    (fields : List MysqlField) (rows : List Row) (paramCount : UInt32) (junk : Nat → Nat → UInt8)
    (hres : IntegerResult model fields rows)
    (hlive : db.OffersLive (new schemaIndex text).schemaIndex.toNat) :
    Reproduces model db schemaIndex text fields rows paramCount junk ↔
      text.contains 63 = true ∧ rows = [] := by
  cases htext : text.contains 63 with
  | false =>
    constructor
    · intro h
      obtain ⟨status, st, db', log, hexec, -⟩ := h
      rw [execute_raw_faults hres hlive htext] at hexec
      cases hexec
    · intro h
      exact absurd h.1 (by simp)
  | true =>
    obtain ⟨st, log, hrun, hrows, hfields⟩ :=
      execute_prepared_eq paramCount junk hres hlive htext
    constructor
    · intro h
      obtain ⟨status, st', db', log', hexec, -⟩ := h
      refine ⟨rfl, ?_⟩
      cases rows with
      | nil => rfl
      | cons row rows =>
        obtain ⟨fault, hloop⟩ :=
          fetchLoop_empty (bindFields_ne_nil model junk hres.nonempty) row rows
        rw [hrun, hloop] at hexec
        cases hexec
    · intro h
      obtain ⟨-, rfl⟩ := h
      refine ⟨.OK, st, db, log, hrun, fun _ => ⟨by rw [hrows]; rfl, ?_, fun n => ?_, ?_⟩⟩
      · rw [hfields]
        exact hres.fieldCount_ne.2
      · rw [rowsWalked_zero hrows]
        simp
      · intro k row hrow
        simp at hrow

/-- One `LONG` column and no rows. -/
theorem reproduces_no_rows :
    Reproduces .LP64 Operation.samplePool 0 (ascii "SELECT ?") [⟨.LONG, false, false, 0⟩] [] 1
      (fun _ _ => 0) := by
  refine (reproduces_iff _ _ _ _ _ _ _ _ ⟨by simp, by simp, by simp, by simp, by simp⟩
    ⟨⟨some 0, [], SQLDatabase.sampleInfo.toSQLConnectionInfo, true⟩, 0, rfl, rfl⟩).mpr ⟨?_, rfl⟩
  decide

/-- One `LONG` column and the single row 42: the row is written at index 0 of an array of length
0. -/
theorem not_reproduces_one_row :
    ¬ Reproduces .LP64 Operation.samplePool 0 (ascii "SELECT ?") [⟨.LONG, false, false, 0⟩]
      [[some [42, 0, 0, 0]]] 1 (fun _ _ => 0) := by
  intro h
  obtain ⟨status, st, db, log, hexec, -⟩ := h
  have hfault : (new 0 (ascii "SELECT ?")).execute .LP64
      (answering [⟨.LONG, false, false, 0⟩] [[some [42, 0, 0, 0]]] 1 fun _ _ => 0)
      Operation.samplePool = .error .outOfBounds := rfl
  rw [hfault] at hexec
  cases hexec

end SQLStatement

end ServerTest.Database
