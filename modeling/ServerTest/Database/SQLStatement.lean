import ServerTest.Database.SQLOperationBase
import ServerTest.Database.FetchLoop

/-!
# Statements

`SQLStatement.{h,cpp}`. What the server and libmariadb answer during one run is data: an `Outcomes`,
one field per call the code makes. Every theorem about `execute` is for all of them.

`PreparedStatement` is not initialised by the constructors, is set by a successful
`InitPreparedStatement`, and is null only after a prepared run reached its end. `Execute` ignores
what `InitPreparedStatement` returns and, for a raw statement, dereferences the pointer all the
same; `useHandle` is where such a run goes wrong.

`delete PreparedStatement` is not modelled: it frees with `delete` what libmariadb took from `calloc`
and leaves it in the connection's list of statements, and every result on a run that reaches the end
of the prepared path assumes that this does no harm.
-/

set_option autoImplicit false

namespace ServerTest.Database

open Lib

/-- A `MYSQL_STMT*`; for a live one, its `bind_result_done`. A handle left by an earlier run belongs to
the connection of that run, which the run has kept. -/
inductive StatementHandle where
  | indeterminate
  | null
  | live (bindResultDone : Bool)
  deriving DecidableEq, Repr

/-- Any call that dereferences the handle. -/
def StatementHandle.use : StatementHandle → Except Fault Bool
  | .indeterminate => .error .wildPointer
  | .null => .error .nullPointer
  | .live bindResultDone => .ok bindResultDone

structure SQLStatement where
  params : SQLOperationParams
  resultSet : SQLOperationResultSet
  operationStatus : SQLOperationStatus
  schemaIndex : UInt16
  isStatementRawString : Bool
  preparedStatement : StatementHandle
  rawStringStatement : Bytes
  deriving DecidableEq, Repr

/-- A `MYSQL_RES` as far as it is looked at. -/
structure MysqlRes where
  fields : List MysqlField
  numRows : UInt64

/-- What every call of one run returns. `rows` are the rows `mysql_stmt_fetch` delivers before it
returns anything but success or truncation, and `stmtFetch` is whether that was the end of the data
or an error; `junk` fills the column blocks. -/
structure Outcomes where
  realQuery : Bool
  storeResult : Option MysqlRes
  stmtInit : Bool
  stmtPrepare : Bool
  stmtParamCount : UInt32
  stmtAttrSet : Bool
  stmtBindParam : Bool
  stmtExecute : Bool
  stmtStoreResult : Bool
  stmtResultMetadata : Option MysqlRes
  fieldCount : UInt32
  stmtBindResult : Bool
  rows : List Row
  stmtFetch : Bool
  stmtFreeResult : Bool
  junk : Nat → Nat → UInt8

/-- The rows as they reach the bound memory. Where `mysql_stmt_bind_result` has failed
`mthd_stmt_fetch_to_bind` has nothing to do, and `mysql_stmt_fetch` returns 0 for each row all the
same. -/
def Outcomes.landed (o : Outcomes) : List Row :=
  if o.stmtBindResult then o.rows else o.rows.map fun _ => []

/-- A null result is a failure only where there should have been one. -/
def Outcomes.delivered (o : Outcomes) (res : Option MysqlRes) : Bool :=
  res.isSome || o.fieldCount = 0

/-- The calls of a run that can fail. -/
inductive MysqlCall where
  | realQuery (text : Bytes) (succeeded : Bool)
  | storeResult (succeeded : Bool)
  | stmtInit (succeeded : Bool)
  | stmtPrepare (text : Bytes) (succeeded : Bool)
  | stmtAttrSet (succeeded : Bool)
  | stmtBindParam (binds : List MysqlBind) (data : List Word)
  | stmtExecute (succeeded : Bool)
  | stmtStoreResult (succeeded : Bool)
  | stmtResultMetadata (succeeded : Bool)
  | stmtBindResult (succeeded : Bool)
  | stmtFetch (succeeded : Bool)
  | stmtFreeResult (succeeded : Bool)
  deriving DecidableEq, Repr

/-- Whether a call of the run with these answers succeeded. -/
def MysqlCall.succeeded (o : Outcomes) : MysqlCall → Bool
  | .stmtBindParam _ _ => o.stmtBindParam
  | .realQuery _ ok | .storeResult ok | .stmtInit ok | .stmtPrepare _ ok | .stmtAttrSet ok
  | .stmtExecute ok | .stmtStoreResult ok | .stmtResultMetadata ok | .stmtBindResult ok
  | .stmtFetch ok | .stmtFreeResult ok => ok

namespace SQLStatement

/-- `SQLStatement(uint32, const char*)`. The schema index is narrowed to `uint16`. -/
def new (schemaIndex : UInt32) (text : Bytes) : SQLStatement where
  params := .new
  resultSet := .new
  operationStatus := .Running
  schemaIndex := schemaIndex.toUInt16
  isStatementRawString := !text.contains 63
  preparedStatement := .indeterminate
  rawStringStatement := text

/-- `InitPreparedStatement`. Both `mysql_stmt_init` of a null connection and `mysql_stmt_prepare`
of a null statement dereference their argument. -/
def initPreparedStatement (o : Outcomes) (mySql : Option MYSQL) (st : SQLStatement)
    (calls : List MysqlCall) : Except Fault (Status × SQLStatement × List MysqlCall) :=
  match mySql, o.stmtInit with
  | none, _ => .error .nullPointer
  | some _, false => .error .nullPointer
  | some _, true =>
    let calls := calls ++ [.stmtInit true, .stmtPrepare st.rawStringStatement o.stmtPrepare]
    if !o.stmtPrepare then
      .ok (.FAILED, { st with operationStatus := .Failed }, calls)
    else
      let params := st.params.initializeParamMemory o.stmtParamCount
      let st := { st with preparedStatement := .live false, params := params }
      let calls := calls ++ [.stmtAttrSet o.stmtAttrSet]
      if o.stmtParamCount ≠ 0 then
        .ok (.OK, st, calls ++
          [.stmtBindParam (params.paramBinds.getD []) (params.paramData.getD [])])
      else .ok (.OK, st, calls)

/-- How far `Execute` got by the time it asks whether there is a result: it has returned `FAILED`
already, or it goes on with a `MYSQL_RES*`. -/
inductive Progress where
  | failed
  | result (res : Option MysqlRes)

def queryRaw (o : Outcomes) (mySql : Option MYSQL) (st : SQLStatement) :
    Except Fault (Progress × SQLStatement × List MysqlCall) :=
  match mySql with
  | none => .error .nullPointer
  | some _ =>
    let calls := [.realQuery st.rawStringStatement o.realQuery]
    if !o.realQuery then .ok (.failed, { st with operationStatus := .Failed }, calls)
    else .ok (.result o.storeResult, st, calls ++ [.storeResult (o.delivered o.storeResult)])

/-- The prepared branch after `InitPreparedStatement`, on whatever handle there is then. -/
def queryPrepared (o : Outcomes) (st : SQLStatement) (calls : List MysqlCall) :
    Except Fault (Progress × SQLStatement × List MysqlCall) := do
  let _ ← st.preparedStatement.use
  let failed := { st with operationStatus := .Failed }
  let calls := calls ++ [.stmtExecute o.stmtExecute]
  if !o.stmtExecute then return (.failed, failed, calls)
  let calls := calls ++ [.stmtStoreResult o.stmtStoreResult]
  if !o.stmtStoreResult then return (.failed, failed, calls)
  let calls := calls ++ [.stmtResultMetadata (o.delivered o.stmtResultMetadata)]
  return (.result o.stmtResultMetadata, st, calls)

def query (o : Outcomes) (mySql : Option MYSQL) (st : SQLStatement) :
    Except Fault (Progress × SQLStatement × List MysqlCall) :=
  if st.isStatementRawString then st.queryRaw o mySql
  else do
    let (_, st, calls) ← st.initPreparedStatement o mySql []
    st.queryPrepared o calls

/-- `ResultSetData` after the assignments the fetch loop made to it. -/
def applyStores (length : Nat) (stores : List (UInt32 × Slot)) : List (Option Slot) :=
  stores.foldl (fun data s => data.set s.1.toNat (some s.2)) (List.replicate length none)

/-- From `mysql_num_fields` to `mysql_stmt_free_result`. -/
def readResult (model : DataModel) (o : Outcomes) (res : MysqlRes) (st : SQLStatement) :
    Except Fault SQLStatement := do
  let fieldCount := UInt32.ofNat res.fields.length
  let rs := { st.resultSet with fieldCount := fieldCount, rowCount := res.numRows }
  if fieldCount = 0 then return { st with resultSet := rs }
  let bindResultDone ← st.preparedStatement.use
  if bindResultDone then
    -- `delete[]` of addresses inside the statement.
    .error .wildPointer
  else
    let cols := bindFields model o.junk res.fields
    let length := (res.numRows * fieldCount.toUInt64).toNat
    let stores ← fetchLoop cols length o.landed
    let rs := { rs with
      fieldBinds := some (cols.map (·.bind))
      rowData := some fieldCount.toNat
      resultSetData := some (applyStores length stores) }
    return { st with resultSet := rs, preparedStatement := .live o.stmtBindResult }

/-- The calls of `readResult`: one fetch for each row, and the one that ends the loop. -/
def readCalls (o : Outcomes) (res : MysqlRes) : List MysqlCall :=
  if UInt32.ofNat res.fields.length = 0 then []
  else .stmtBindResult o.stmtBindResult :: List.replicate o.rows.length (.stmtFetch true) ++
    [.stmtFetch o.stmtFetch, .stmtFreeResult o.stmtFreeResult]

/-- `Execute` once it has its connection. -/
def executeOn (model : DataModel) (o : Outcomes) (st : SQLStatement) (conn : ConnectionRef)
    (mySql : Option MYSQL) (db : SQLDatabase) :
    Except Fault (Status × SQLStatement × SQLDatabase × List MysqlCall) := do
  let (progress, st, calls) ← st.query o mySql
  match progress with
  | .failed => return (.FAILED, st, db, calls)
  | .result none =>
    if o.fieldCount ≠ 0 then return (.FAILED, { st with operationStatus := .Failed }, db, calls)
    else return (.OK, { st with operationStatus := .Success }, db, calls)
  | .result (some res) =>
    let st ← st.readResult model o res
    let st := if st.isStatementRawString then st else { st with preparedStatement := .null }
    let db ← db.freeUpConnection conn
    return (.OK, { st with operationStatus := .Success }, db, calls ++ readCalls o res)

def execute (model : DataModel) (o : Outcomes) (st : SQLStatement) (db : SQLDatabase) :
    Except Fault (Status × SQLStatement × SQLDatabase × List MysqlCall) := do
  let (conn, db) ← db.getAvaliableSQLConnection st.schemaIndex.toNat
  let mySql ← db.getMySQLHandle conn
  match conn with
  | none => return (.FAILED, { st with operationStatus := .Failed }, db, [])
  | some conn => st.executeOn model o conn mySql db

/-! ## Resetting -/

/-- What the resets and the destructor begin with. -/
def clear (st : SQLStatement) : Except Fault SQLStatement := do
  let params ← st.params.clearParams
  let resultSet ← st.resultSet.clearResultSet
  return { st with params := params, resultSet := resultSet }

def resetSchema (st : SQLStatement) (schemaIndex : UInt32) : Except Fault SQLStatement := do
  let st ← st.clear
  return { st with schemaIndex := schemaIndex.toUInt16 }

/-- `ResetStatement(const char*)` -/
def resetStatement (st : SQLStatement) (text : Bytes) : Except Fault SQLStatement := do
  let st ← st.clear
  return { st with isStatementRawString := !text.contains 63, rawStringStatement := text }

/-- `ResetStatement(uint32)`, which does not look at its argument yet. -/
def resetStatementIndex (st : SQLStatement) (_stmtIndex : UInt32) : Except Fault SQLStatement :=
  st.clear

/-- `~SQLStatement`, with the state it leaves. -/
def destruct (st : SQLStatement) : Except Fault SQLStatement := st.clear

/-! ## The exits -/

/-- A run on a live connection is `executeOn` with that connection leased. -/
theorem execute_live (model : DataModel) (o : Outcomes) {st : SQLStatement} {db : SQLDatabase}
    (hlive : db.OffersLive st.schemaIndex.toNat) :
    ∃ handle ref taken, db.Leased (some handle) ref taken ∧
      st.execute model o db = st.executeOn model o ref (some handle) taken := by
  obtain ⟨handle, ref, taken, hget, hleased⟩ := hlive.lease
  refine ⟨handle, ref, taken, hleased, ?_⟩
  simp only [execute, hget, hleased.handle, bind, Except.bind]

/-- Without its handle a run gets no further than its first call. -/
theorem query_null (o : Outcomes) (st : SQLStatement) :
    ∃ fault, st.query o none = .error fault := by
  cases hraw : st.isStatementRawString with
  | true => exact ⟨.nullPointer, by simp [query, queryRaw, hraw]⟩
  | false =>
    exact ⟨.nullPointer, by simp [query, hraw, initPreparedStatement, bind, Except.bind]⟩

/-- Without a live connection on offer the run faults. -/
theorem execute_dead (model : DataModel) (o : Outcomes) {st : SQLStatement} {db : SQLDatabase}
    (h : ¬ db.OffersLive st.schemaIndex.toNat) :
    ∃ fault, st.execute model o db = .error fault := by
  rcases SQLDatabase.not_offersLive h with ⟨fault, hget⟩ | hget | ⟨ref, taken, hget, hhandle⟩
  · exact ⟨fault, by simp [execute, hget, bind, Except.bind]⟩
  · exact ⟨.nullPointer, by simp [execute, hget, SQLDatabase.getMySQLHandle, bind, Except.bind]⟩
  · obtain ⟨fault, hq⟩ := query_null o st
    exact ⟨fault, by simp [execute, hget, hhandle, executeOn, hq, bind, Except.bind]⟩

/-- So a run that returns had a live connection. -/
theorem execute_returns {model : DataModel} {o : Outcomes} {st : SQLStatement} {db : SQLDatabase}
    {result : Status × SQLStatement × SQLDatabase × List MysqlCall}
    (h : st.execute model o db = .ok result) :
    db.OffersLive st.schemaIndex.toNat ∧
      ∃ handle ref taken, db.Leased (some handle) ref taken ∧
        st.executeOn model o ref (some handle) taken = .ok result := by
  by_cases hlive : db.OffersLive st.schemaIndex.toNat
  · obtain ⟨handle, ref, taken, hleased, heq⟩ := execute_live model o hlive
    exact ⟨hlive, handle, ref, taken, hleased, heq.symm.trans h⟩
  · obtain ⟨fault, herr⟩ := execute_dead model o hlive
    rw [herr] at h
    cases h

/-- The first calls of a run do not fault: it is raw, or its prepared branch has a statement to
execute, because one was just prepared or because an earlier run left its own behind. -/
def Starts (o : Outcomes) (st : SQLStatement) : Prop :=
  st.isStatementRawString = true ∨
    o.stmtInit = true ∧ (o.stmtPrepare = true ∨ ∃ done, st.preparedStatement = .live done)

/-- The answers with which a run comes to a result set. -/
def Fetches (o : Outcomes) (st : SQLStatement) : Prop :=
  if st.isStatementRawString then o.realQuery = true ∧ o.storeResult ≠ none
  else o.stmtExecute = true ∧ o.stmtStoreResult = true ∧ o.stmtResultMetadata ≠ none

/-- `InitPreparedStatement` on a live connection: the statement it leaves, and the only binds it
hands over, which are the zeroed ones it just allocated. -/
theorem initPreparedStatement_eq {o : Outcomes} (st : SQLStatement) (handle : MYSQL)
    (hinit : o.stmtInit = true) :
    ∃ status st' calls, st.initPreparedStatement o (some handle) [] = .ok (status, st', calls) ∧
      st'.isStatementRawString = st.isStatementRawString ∧ st'.resultSet = st.resultSet ∧
      st'.preparedStatement = (if o.stmtPrepare then .live false else st.preparedStatement) ∧
      ∀ binds data, MysqlCall.stmtBindParam binds data ∈ calls →
        o.stmtParamCount ≠ 0 ∧ binds = List.replicate o.stmtParamCount.toNat .zero := by
  cases hp : o.stmtPrepare with
  | false =>
    refine ⟨.FAILED, { st with operationStatus := .Failed },
      [.stmtInit true, .stmtPrepare st.rawStringStatement false], ?_, rfl, rfl, rfl, by simp⟩
    simp [initPreparedStatement, hinit, hp]
  | true =>
    let params := st.params.initializeParamMemory o.stmtParamCount
    by_cases hcount : o.stmtParamCount = 0
    · refine ⟨.OK, { st with preparedStatement := .live false, params := params },
        [.stmtInit true, .stmtPrepare st.rawStringStatement true, .stmtAttrSet o.stmtAttrSet],
        ?_, rfl, rfl, rfl, by simp⟩
      simp [initPreparedStatement, hinit, hp, hcount, params]
    · refine ⟨.OK, { st with preparedStatement := .live false, params := params },
        [.stmtInit true, .stmtPrepare st.rawStringStatement true, .stmtAttrSet o.stmtAttrSet,
          .stmtBindParam (params.paramBinds.getD []) (params.paramData.getD [])],
        ?_, rfl, rfl, rfl, ?_⟩
      · simp [initPreparedStatement, hinit, hp, hcount, params]
      · intro binds data hmem
        simp only [List.mem_cons, reduceCtorEq, List.not_mem_nil, or_false, false_or,
          MysqlCall.stmtBindParam.injEq] at hmem
        refine ⟨hcount, ?_⟩
        rw [hmem.1]
        simp [params, SQLOperationParams.initializeParamMemory, hcount]

theorem starts_prepared_iff {o : Outcomes} {st : SQLStatement}
    (hraw : st.isStatementRawString = false) (hinit : o.stmtInit = true) :
    Starts o st ↔ ∃ done,
      (if o.stmtPrepare then .live false else st.preparedStatement) = StatementHandle.live done := by
  cases hp : o.stmtPrepare with
  | false => simp [Starts, hraw, hinit, hp]
  | true => simp [Starts, hinit, hp]

/-- A query that returns: with a result set if `fetches`, and without one if not. -/
def QueryEnds (run : Except Fault (Progress × SQLStatement × List MysqlCall)) (fetches : Prop) :
    Prop :=
  (¬ fetches ∧ ∃ progress st' calls, run = .ok (progress, st', calls) ∧
    (progress = .failed ∨ progress = .result none)) ∨
  (fetches ∧ ∃ res st' calls, run = .ok (.result (some res), st', calls))

theorem queryRaw_ends {o : Outcomes} {st : SQLStatement} (handle : MYSQL)
    (hraw : st.isStatementRawString = true) :
    QueryEnds (st.query o (some handle)) (Fetches o st) := by
  cases hq : o.realQuery with
  | false =>
    refine Or.inl ⟨by simp [Fetches, hraw, hq], .failed, { st with operationStatus := .Failed },
      [.realQuery st.rawStringStatement false], ?_, Or.inl rfl⟩
    simp [query, hraw, queryRaw, hq]
  | true =>
    have hrun : st.query o (some handle) =
        .ok (.result o.storeResult, st,
          [.realQuery st.rawStringStatement true, .storeResult (o.delivered o.storeResult)]) := by
      simp [query, hraw, queryRaw, hq]
    cases hres : o.storeResult with
    | none =>
      rw [hres] at hrun
      exact Or.inl ⟨by simp [Fetches, hraw, hres], _, _, _, hrun, Or.inr rfl⟩
    | some res =>
      rw [hres] at hrun
      exact Or.inr ⟨by simp [Fetches, hraw, hq, hres], _, _, _, hrun⟩

/-- The prepared branch on a handle that is there; `st` is the statement before
`InitPreparedStatement`. -/
theorem queryPrepared_ends {o : Outcomes} {st st' : SQLStatement} {done : Bool}
    (calls : List MysqlCall) (hraw : st.isStatementRawString = false)
    (hlive : st'.preparedStatement = .live done) :
    QueryEnds (st'.queryPrepared o calls) (Fetches o st) := by
  cases hexec : o.stmtExecute with
  | false =>
    refine Or.inl ⟨by simp [Fetches, hraw, hexec], .failed,
      { st' with operationStatus := .Failed }, calls ++ [.stmtExecute false], ?_, Or.inl rfl⟩
    simp [queryPrepared, hlive, StatementHandle.use, hexec, bind, Except.bind, pure, Except.pure]
  | true =>
    cases hstore : o.stmtStoreResult with
    | false =>
      refine Or.inl ⟨by simp [Fetches, hraw, hstore], .failed,
        { st' with operationStatus := .Failed },
        calls ++ [.stmtExecute true, .stmtStoreResult false], ?_, Or.inl rfl⟩
      simp [queryPrepared, hlive, StatementHandle.use, hexec, hstore, bind, Except.bind, pure,
        Except.pure]
    | true =>
      have hresult : st'.queryPrepared o calls = .ok (.result o.stmtResultMetadata, st',
          calls ++ [.stmtExecute true, .stmtStoreResult true,
            .stmtResultMetadata (o.delivered o.stmtResultMetadata)]) := by
        simp [queryPrepared, hlive, StatementHandle.use, hexec, hstore, bind, Except.bind, pure,
          Except.pure]
      cases hres : o.stmtResultMetadata with
      | none =>
        rw [hres] at hresult
        exact Or.inl ⟨by simp [Fetches, hraw, hres], _, _, _, hresult, Or.inr rfl⟩
      | some res =>
        rw [hres] at hresult
        exact Or.inr ⟨by simp [Fetches, hraw, hexec, hstore, hres], _, _, _, hresult⟩

/-- **How far a run with a connection gets**: a run that starts returns, and one that does not
faults. -/
theorem query_cases (o : Outcomes) (st : SQLStatement) (handle : MYSQL) :
    (¬ Starts o st ∧ ∃ fault, st.query o (some handle) = .error fault) ∨
    (Starts o st ∧ QueryEnds (st.query o (some handle)) (Fetches o st)) := by
  cases hraw : st.isStatementRawString with
  | true => exact Or.inr ⟨Or.inl hraw, queryRaw_ends handle hraw⟩
  | false =>
    cases hinit : o.stmtInit with
    | false =>
      refine Or.inl ⟨by simp [Starts, hraw, hinit], .nullPointer, ?_⟩
      simp [query, hraw, initPreparedStatement, hinit, bind, Except.bind]
    | true =>
      obtain ⟨status, st', calls, hrun, -, -, hptr, -⟩ :=
        initPreparedStatement_eq st handle hinit
      have hquery : st.query o (some handle) = st'.queryPrepared o calls := by
        simp [query, hraw, hrun, bind, Except.bind]
      rw [hquery, starts_prepared_iff hraw hinit, ← hptr]
      cases hhandle : st'.preparedStatement with
      | indeterminate =>
        refine Or.inl ⟨by simp, .wildPointer, ?_⟩
        simp [queryPrepared, hhandle, StatementHandle.use, bind, Except.bind]
      | null =>
        refine Or.inl ⟨by simp, .nullPointer, ?_⟩
        simp [queryPrepared, hhandle, StatementHandle.use, bind, Except.bind]
      | live done => exact Or.inr ⟨⟨done, rfl⟩, queryPrepared_ends calls hraw hhandle⟩

/-- **The exits of a run with a connection**: it faults, or it returns without a result set and
keeps the connection, or it has a result set and frees it. -/
theorem executeOn_returns {model : DataModel} {o : Outcomes} {st st' : SQLStatement}
    {conn : ConnectionRef} {handle : MYSQL} {db db' : SQLDatabase} {status : Status}
    {calls : List MysqlCall}
    (h : st.executeOn model o conn (some handle) db = .ok (status, st', db', calls)) :
    Starts o st ∧ (¬ Fetches o st ∧ db' = db ∨
      Fetches o st ∧ db.freeUpConnection conn = .ok db') := by
  unfold executeOn at h
  rcases query_cases o st handle with ⟨-, fault, hq⟩ |
    ⟨hstart, ⟨hno, progress, st₁, calls₁, hq, hprog⟩ | ⟨hyes, res, st₁, calls₁, hq⟩⟩
  · rw [hq] at h
    cases h
  · refine ⟨hstart, Or.inl ⟨hno, ?_⟩⟩
    rw [hq] at h
    rcases hprog with rfl | rfl
    · cases h
      rfl
    · simp only [bind, Except.bind] at h
      split at h <;> cases h <;> rfl
  · refine ⟨hstart, Or.inr ⟨hyes, ?_⟩⟩
    obtain ⟨progress, hprog, h⟩ := bind_returns.mp h
    rw [hq] at hprog
    obtain rfl := Except.ok.inj hprog
    obtain ⟨st₂, -, h⟩ := bind_returns.mp h
    obtain ⟨db₂, hfree, h⟩ := bind_returns.mp h
    cases h
    exact hfree

/-- The log of a run is that of its queries, with the calls of reading a result if it came to one. -/
theorem executeOn_log {model : DataModel} {o : Outcomes} {st st' : SQLStatement}
    {conn : ConnectionRef} {mySql : Option MYSQL} {db db' : SQLDatabase} {status : Status}
    {log : List MysqlCall}
    (h : st.executeOn model o conn mySql db = .ok (status, st', db', log)) :
    ∃ progress st₁ calls, st.query o mySql = .ok (progress, st₁, calls) ∧
      (log = calls ∨ ∃ res, log = calls ++ readCalls o res) := by
  obtain ⟨⟨progress, st₁, calls⟩, hq, h⟩ := bind_returns.mp h
  refine ⟨progress, st₁, calls, hq, ?_⟩
  cases progress with
  | failed =>
    cases h
    exact Or.inl rfl
  | result res =>
    cases res with
    | none =>
      simp only at h
      split at h <;> cases h <;> exact Or.inl rfl
    | some res =>
      obtain ⟨st₂, -, h⟩ := bind_returns.mp h
      obtain ⟨db₂, -, h⟩ := bind_returns.mp h
      cases h
      exact Or.inr ⟨res, rfl⟩

/-- The exits without a result set are always reached. -/
theorem executeOn_keeps (model : DataModel) {o : Outcomes} {st : SQLStatement}
    (conn : ConnectionRef) (handle : MYSQL) (db : SQLDatabase) (hstart : Starts o st)
    (hno : ¬ Fetches o st) :
    ∃ status st' calls, st.executeOn model o conn (some handle) db =
      .ok (status, st', db, calls) := by
  rcases query_cases o st handle with ⟨hnot, -⟩ |
    ⟨-, ⟨-, progress, st₁, calls, hq, hprog⟩ | ⟨hyes, -⟩⟩
  · exact absurd hstart hnot
  · rcases hprog with rfl | rfl
    · exact ⟨.FAILED, st₁, calls, by simp [executeOn, hq, bind, Except.bind, pure, Except.pure]⟩
    · by_cases hcount : o.fieldCount = 0
      · exact ⟨.OK, { st₁ with operationStatus := .Success }, calls, by
          simp [executeOn, hq, hcount, bind, Except.bind, pure, Except.pure]⟩
      · exact ⟨.FAILED, { st₁ with operationStatus := .Failed }, calls, by
          simp [executeOn, hq, hcount, bind, Except.bind, pure, Except.pure]⟩
  · exact absurd hyes hno

end SQLStatement

end ServerTest.Database
