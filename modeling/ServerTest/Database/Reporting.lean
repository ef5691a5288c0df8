import ServerTest.Database.Operations
import ServerTest.Database.FetchRuns

/-!
# What an operation reports

`Execute` reports twice, by its return value and in `OperationStatus`, and a caller of the queue
sees only the second. `ReportsTruly` is that the two agree with each other and with what the calls
returned.

A transaction sets `OperationStatus` where it fails and nowhere else, so one that succeeds is left
at `Running`. A statement sets it at every exit; what it does not do is look at the answers of
`InitPreparedStatement`, of `mysql_stmt_attr_set`, of the two binds and of `mysql_stmt_free_result`,
and it takes a `mysql_stmt_fetch` that fails for the end of the rows.
-/

set_option autoImplicit false

namespace ServerTest.Database

open Lib

/-- The two reports say the same. -/
def Agree (operationStatus : SQLOperationStatus) (status : Status) : Prop :=
  (operationStatus = .Success ↔ status = .OK) ∧ (operationStatus = .Failed ↔ status = .FAILED)

namespace SQLStatement

/-- A run reports what happened. Where the prepare fails it has to come back without
`mysql_stmt_execute`, which on a statement that is not there does not come back. -/
structure ReportsTruly (model : DataModel) (o : Outcomes) (db : SQLDatabase) (st : SQLStatement) :
    Prop where
  calls : ∀ st' db' log, st.execute model o db = .ok (.OK, st', db', log) →
    ∀ call ∈ log, call.succeeded o = true
  prepare : st.isStatementRawString = false → o.stmtInit = true → o.stmtPrepare = false →
    ∃ status st' db' log, st.execute model o db = .ok (status, st', db', log) ∧
      ∀ ok, MysqlCall.stmtExecute ok ∉ log
  agree : ∀ status st' db' log, st.execute model o db = .ok (status, st', db', log) →
    Agree st'.operationStatus status

/-! ## Which runs report success -/

/-- The answers `Execute` looks at before it asks for a result. -/
def Queried (o : Outcomes) (st : SQLStatement) : Prop :=
  if st.isStatementRawString then o.realQuery = true
  else o.stmtInit = true ∧ o.stmtExecute = true ∧ o.stmtStoreResult = true

/-- The `MYSQL_RES*` it asks for. -/
def resultAsked (o : Outcomes) (st : SQLStatement) : Option MysqlRes :=
  if st.isStatementRawString then o.storeResult else o.stmtResultMetadata

/-- The statement handle a result is read through: what a raw statement finds in the member. -/
def readHandle (st : SQLStatement) : StatementHandle :=
  if st.isStatementRawString then st.preparedStatement else .live false

/-- A result can be read through the handle: it has no columns, or the handle is live and unbound
and no row, as far as it is written at all, leaves the memory of the fetch loop. -/
def Readable (model : DataModel) (o : Outcomes) (handle : StatementHandle) (res : MysqlRes) :
    Prop :=
  let fieldCount := UInt32.ofNat res.fields.length
  let cols := bindFields model o.junk res.fields
  fieldCount ≠ 0 → handle = .live false ∧
    ∀ before row after, o.landed = before ++ row :: after →
      RowFits cols (res.numRows * fieldCount.toUInt64).toNat (landRows cols before) row

/-- The answers with which a run reports success, if it has anything prepared. -/
def ComesToOK (model : DataModel) (o : Outcomes) (st : SQLStatement) : Prop :=
  Queried o st ∧
    match resultAsked o st with
    | none => o.fieldCount = 0
    | some res => Readable model o st.readHandle res

/-- The calls nobody looks at, as far as the run makes them, all succeed. -/
structure IgnoredSucceed (o : Outcomes) (st : SQLStatement) : Prop where
  init : st.isStatementRawString = false →
    o.stmtAttrSet = true ∧ (o.stmtParamCount ≠ 0 → o.stmtBindParam = true)
  read : ∀ res, resultAsked o st = some res → UInt32.ofNat res.fields.length ≠ 0 →
    o.stmtBindResult = true ∧ o.stmtFetch = true ∧ o.stmtFreeResult = true

/-- What the server has to answer for a run to report truly: no prepare fails, and what is ignored
succeeds where the run reports success. -/
structure Answered (model : DataModel) (o : Outcomes) (st : SQLStatement) : Prop where
  prepare : st.isStatementRawString = false → o.stmtInit = true → o.stmtPrepare = true
  ignored : ComesToOK model o st → IgnoredSucceed o st

theorem mem_readCalls_iff {o : Outcomes} {res : MysqlRes} :
    (∀ call ∈ readCalls o res, call.succeeded o = true) ↔
      (UInt32.ofNat res.fields.length ≠ 0 →
        o.stmtBindResult = true ∧ o.stmtFetch = true ∧ o.stmtFreeResult = true) := by
  by_cases hfields : UInt32.ofNat res.fields.length = 0
  · simp [readCalls, hfields]
  · simp [readCalls, hfields, MysqlCall.succeeded, or_imp, forall_and]

/-- A query whose answers are all good comes to its result. -/
theorem query_queried {o : Outcomes} {st : SQLStatement} (handle : MYSQL)
    (hprepare : st.isStatementRawString = false → o.stmtInit = true → o.stmtPrepare = true)
    (h : Queried o st) :
    ∃ st₁ calls, st.query o (some handle) = .ok (.result (resultAsked o st), st₁, calls) ∧
      st₁.isStatementRawString = st.isStatementRawString ∧
      st₁.preparedStatement = st.readHandle ∧
      ((∀ call ∈ calls, call.succeeded o = true) ↔ o.delivered (resultAsked o st) = true ∧
        (st.isStatementRawString = false →
          o.stmtAttrSet = true ∧ (o.stmtParamCount ≠ 0 → o.stmtBindParam = true))) := by
  cases hraw : st.isStatementRawString with
  | true =>
    simp only [Queried, hraw, if_true] at h
    refine ⟨st, _, by simp only [query, queryRaw, hraw, h, resultAsked, if_true]; rfl, hraw, ?_, ?_⟩
    · simp [readHandle, hraw]
    · simp [MysqlCall.succeeded, resultAsked, hraw]
  | false =>
    simp only [Queried, hraw, Bool.false_eq_true, if_false] at h
    obtain ⟨hinit, hexec, hstore⟩ := h
    have hprep := hprepare hraw hinit
    let params := st.params.initializeParamMemory o.stmtParamCount
    let st₁ := { st with preparedStatement := .live false, params := params }
    let tail : List MysqlCall := [.stmtExecute true, .stmtStoreResult true,
      .stmtResultMetadata (o.delivered o.stmtResultMetadata)]
    by_cases hcount : o.stmtParamCount = 0
    · refine ⟨st₁, [.stmtInit true, .stmtPrepare st.rawStringStatement true,
        .stmtAttrSet o.stmtAttrSet] ++ tail, ?_, hraw, by simp [st₁, readHandle, hraw], ?_⟩
      · simp [query, hraw, initPreparedStatement, hinit, hprep, hcount, queryPrepared,
          StatementHandle.use, hexec, hstore, resultAsked, st₁, params, tail, bind, Except.bind,
          pure, Except.pure]
      · simp [MysqlCall.succeeded, resultAsked, hraw, hcount, tail, and_comm]
    · refine ⟨st₁, [.stmtInit true, .stmtPrepare st.rawStringStatement true,
        .stmtAttrSet o.stmtAttrSet,
        .stmtBindParam (params.paramBinds.getD []) (params.paramData.getD [])] ++ tail, ?_, hraw,
        by simp [st₁, readHandle, hraw], ?_⟩
      · simp [query, hraw, initPreparedStatement, hinit, hprep, hcount, queryPrepared,
          StatementHandle.use, hexec, hstore, resultAsked, st₁, params, tail, bind, Except.bind,
          pure, Except.pure]
      · simp [MysqlCall.succeeded, resultAsked, hraw, hcount, tail, and_comm, and_assoc]

/-- Any other comes back with a failure, or does not come back. -/
theorem query_not_queried {o : Outcomes} {st : SQLStatement} (handle : MYSQL)
    (hprepare : st.isStatementRawString = false → o.stmtInit = true → o.stmtPrepare = true)
    (h : ¬ Queried o st) :
    (∃ fault, st.query o (some handle) = .error fault) ∨
    ∃ st₁ calls, st.query o (some handle) = .ok (.failed, st₁, calls) ∧
      st₁.operationStatus = .Failed := by
  cases hraw : st.isStatementRawString with
  | true =>
    have hquery : o.realQuery = false := by simpa [Queried, hraw] using h
    exact Or.inr ⟨{ st with operationStatus := .Failed }, [.realQuery st.rawStringStatement false],
      by simp [query, hraw, queryRaw, hquery], rfl⟩
  | false =>
    cases hinit : o.stmtInit with
    | false =>
      refine Or.inl ⟨.nullPointer, ?_⟩
      simp [query, hraw, initPreparedStatement, hinit, bind, Except.bind]
    | true =>
      obtain ⟨status, st₁, calls, hrun, -, -, hptr, -⟩ :=
        initPreparedStatement_eq st handle hinit
      rw [hprepare hraw hinit, if_pos rfl] at hptr
      have hquery : st.query o (some handle) = st₁.queryPrepared o calls := by
        simp [query, hraw, hrun, bind, Except.bind]
      rw [hquery]
      refine Or.inr ⟨{ st₁ with operationStatus := .Failed }, ?_⟩
      cases hexec : o.stmtExecute with
      | false =>
        exact ⟨_, by simp only [queryPrepared, hptr, StatementHandle.use, hexec]; rfl, rfl⟩
      | true =>
        have hstore : o.stmtStoreResult = false := by
          simpa [Queried, hraw, hinit, hexec] using h
        exact ⟨_, by simp only [queryPrepared, hptr, StatementHandle.use, hexec, hstore]; rfl, rfl⟩

theorem readResult_readable {model : DataModel} {o : Outcomes} {res : MysqlRes} {st : SQLStatement}
    (h : Readable model o st.preparedStatement res) :
    ∃ st', st.readResult model o res = .ok st' := by
  by_cases hfields : UInt32.ofNat res.fields.length = 0
  · exact ⟨_, by simp only [readResult, hfields]; rfl⟩
  · obtain ⟨hlive, hfits⟩ := h hfields
    have hloop := fetchLoop_eq_ok.mpr ⟨hfits, rfl⟩
    exact ⟨_, by simp only [readResult, hfields, hlive, StatementHandle.use, hloop]; rfl⟩

theorem readResult_not_readable {model : DataModel} {o : Outcomes} {res : MysqlRes}
    {st : SQLStatement} (h : ¬ Readable model o st.preparedStatement res) :
    ∃ fault, st.readResult model o res = .error fault := by
  cases hread : st.readResult model o res with
  | error fault => exact ⟨fault, rfl⟩
  | ok st' =>
    refine absurd (fun hfields => ?_) h
    simp only [readResult, hfields, if_false] at hread
    obtain ⟨done, huse, hread⟩ := bind_returns.mp hread
    cases done with
    | true => cases hread
    | false =>
      obtain ⟨stores, hloop, -⟩ := bind_returns.mp hread
      refine ⟨?_, (fetchLoop_eq_ok.mp hloop).1⟩
      cases hptr : st.preparedStatement with
      | indeterminate => simp [hptr, StatementHandle.use] at huse
      | null => simp [hptr, StatementHandle.use] at huse
      | live done => simpa [hptr, StatementHandle.use] using huse

section Exits

variable {model : DataModel} {o : Outcomes} {db taken : SQLDatabase} {st st₁ : SQLStatement}
  {ref : ConnectionRef} {handle : MYSQL} {calls : List MysqlCall}

/-- A run that comes to no result reports success if none was expected. -/
theorem executeOn_none
    (hquery : st.query o (some handle) = .ok (.result none, st₁, calls)) :
    st.executeOn model o ref (some handle) taken = .ok (if o.fieldCount = 0
      then (.OK, { st₁ with operationStatus := .Success }, taken, calls)
      else (.FAILED, { st₁ with operationStatus := .Failed }, taken, calls)) := by
  by_cases hcount : o.fieldCount = 0
  · simp [executeOn, hquery, hcount, bind, Except.bind, pure, Except.pure]
  · simp [executeOn, hquery, hcount, bind, Except.bind, pure, Except.pure]

/-- A run that comes to a result reports success once it has read it. -/
theorem executeOn_some {res : MysqlRes} (hleased : db.Leased (some handle) ref taken)
    (hquery : st.query o (some handle) = .ok (.result (some res), st₁, calls))
    (hread : Readable model o st₁.preparedStatement res) :
    ∃ st', st.executeOn model o ref (some handle) taken =
        .ok (.OK, st', db, calls ++ readCalls o res) ∧ st'.operationStatus = .Success := by
  obtain ⟨st₂, hread₂⟩ := readResult_readable hread
  let st₃ := if st₂.isStatementRawString then st₂ else { st₂ with preparedStatement := .null }
  refine ⟨{ st₃ with operationStatus := .Success }, ?_, rfl⟩
  simp only [executeOn, hquery, hread₂, hleased.freed, bind, Except.bind]
  rfl

/-- …and one that cannot read it does not come back. -/
theorem executeOn_unreadable {res : MysqlRes}
    (hquery : st.query o (some handle) = .ok (.result (some res), st₁, calls))
    (hread : ¬ Readable model o st₁.preparedStatement res) :
    ∃ fault, st.executeOn model o ref (some handle) taken = .error fault := by
  obtain ⟨fault, hfault⟩ := readResult_not_readable hread
  exact ⟨fault, by simp only [executeOn, hquery, hfault, bind, Except.bind]⟩

/-- The whole log succeeded, if the queries of a run and the reading of its result did. -/
theorem log_succeeded_iff {res : MysqlRes} (hres : resultAsked o st = some res)
    (hcalls : (∀ call ∈ calls, call.succeeded o = true) ↔ o.delivered (resultAsked o st) = true ∧
      (st.isStatementRawString = false →
        o.stmtAttrSet = true ∧ (o.stmtParamCount ≠ 0 → o.stmtBindParam = true))) :
    (∀ call ∈ calls ++ readCalls o res, call.succeeded o = true) ↔ IgnoredSucceed o st := by
  have hsplit : (∀ call ∈ calls ++ readCalls o res, call.succeeded o = true) ↔
      (∀ call ∈ calls, call.succeeded o = true) ∧
        ∀ call ∈ readCalls o res, call.succeeded o = true := by
    simp only [List.mem_append, or_imp, forall_and]
  rw [hsplit, hcalls, mem_readCalls_iff, hres]
  constructor
  · intro h
    refine ⟨h.1.2, fun res' h' => ?_⟩
    rw [hres] at h'
    obtain rfl := Option.some.inj h'
    exact h.2
  · intro h
    exact ⟨⟨rfl, h.init⟩, h.read res hres⟩

/-- **The exits of a run that prepares what it executes.** -/
theorem execute_reports (hlive : db.OffersLive st.schemaIndex.toNat)
    (hprepare : st.isStatementRawString = false → o.stmtInit = true → o.stmtPrepare = true) :
    (¬ ComesToOK model o st ∧ ∃ fault, st.execute model o db = .error fault) ∨
    (¬ ComesToOK model o st ∧ ∃ st' db' log,
      st.execute model o db = .ok (.FAILED, st', db', log) ∧ st'.operationStatus = .Failed) ∨
    (ComesToOK model o st ∧ ∃ st' db' log,
      st.execute model o db = .ok (.OK, st', db', log) ∧ st'.operationStatus = .Success ∧
      ((∀ call ∈ log, call.succeeded o = true) ↔ IgnoredSucceed o st)) := by
  obtain ⟨handle, ref, taken, hleased, hrun⟩ := execute_live model o hlive
  rw [hrun]
  by_cases hq : Queried o st
  · obtain ⟨st₁, calls, hquery, hraw, hptr, hcalls⟩ := query_queried handle hprepare hq
    cases hres : resultAsked o st with
    | none =>
      have hexec := @executeOn_none model o taken st st₁ ref handle calls (hres ▸ hquery)
      by_cases hcount : o.fieldCount = 0
      · rw [if_pos hcount] at hexec
        refine Or.inr (Or.inr ⟨⟨hq, by rw [hres]; exact hcount⟩, _, _, _, hexec, rfl, ?_⟩)
        rw [hcalls, hres]
        refine ⟨fun h => ⟨h.2, fun res h' => ?_⟩, fun h => ⟨?_, h.init⟩⟩
        · rw [hres] at h'
          cases h'
        · simp [Outcomes.delivered, hcount]
      · rw [if_neg hcount] at hexec
        refine Or.inr (Or.inl ⟨fun h => hcount ?_, _, _, _, hexec, rfl⟩)
        simpa [ComesToOK, hres] using h.2
    | some res =>
      rw [hres] at hquery
      by_cases hread : Readable model o st.readHandle res
      · obtain ⟨st', hexec, hst'⟩ := executeOn_some hleased hquery (hptr ▸ hread)
        exact Or.inr (Or.inr ⟨⟨hq, by rw [hres]; exact hread⟩, st', db, _, hexec, hst',
          log_succeeded_iff hres hcalls⟩)
      · refine Or.inl ⟨fun h => hread ?_, executeOn_unreadable hquery (hptr ▸ hread)⟩
        simpa [ComesToOK, hres] using h.2
  · have hno : ¬ ComesToOK model o st := fun h => hq h.1
    rcases query_not_queried handle hprepare hq with ⟨fault, hquery⟩ | ⟨st₁, calls, hquery, hst₁⟩
    · exact Or.inl ⟨hno, fault, by simp only [executeOn, hquery, bind, Except.bind]⟩
    · refine Or.inr (Or.inl ⟨hno, st₁, taken, calls, ?_, hst₁⟩)
      simp only [executeOn, hquery, bind, Except.bind]
      rfl

end Exits

/-- After a failed prepare `mysql_stmt_execute` is called all the same. -/
theorem execute_unprepared {model : DataModel} {o : Outcomes} {db db' : SQLDatabase}
    {st st' : SQLStatement} {status : Status} {log : List MysqlCall}
    (hraw : st.isStatementRawString = false)
    (h : st.execute model o db = .ok (status, st', db', log)) :
    MysqlCall.stmtExecute o.stmtExecute ∈ log := by
  obtain ⟨-, handle, ref, taken, -, h⟩ := execute_returns h
  obtain ⟨progress, st₁, calls, hq, hlog⟩ := executeOn_log h
  have hmem : MysqlCall.stmtExecute o.stmtExecute ∈ calls := by
    simp only [query, hraw, Bool.false_eq_true, if_false] at hq
    obtain ⟨⟨status₂, st₂, calls₂⟩, -, hq⟩ := bind_returns.mp hq
    obtain ⟨done, -, hq⟩ := bind_returns.mp hq
    cases hexec : o.stmtExecute with
    | false =>
      simp only [hexec] at hq
      cases hq
      simp
    | true =>
      cases hstore : o.stmtStoreResult <;> simp only [hexec, hstore] at hq <;> cases hq <;> simp
  rcases hlog with rfl | ⟨res, rfl⟩
  · exact hmem
  · exact List.mem_append_left _ hmem

/-- A run that comes back, seen from its report. -/
theorem reportsTruly_of_returns {model : DataModel} {o : Outcomes} {db db' : SQLDatabase}
    {st st' : SQLStatement} {status : Status} {log : List MysqlCall}
    (hprepare : st.isStatementRawString = false → o.stmtInit = true → o.stmtPrepare = true)
    (hrun : st.execute model o db = .ok (status, st', db', log))
    (hcalls : status = .OK → ∀ call ∈ log, call.succeeded o = true)
    (hagree : Agree st'.operationStatus status) : st.ReportsTruly model o db := by
  refine ⟨fun st₁ db₁ log₁ hret => ?_, fun hraw hinit hfailed => ?_,
    fun status₁ st₁ db₁ log₁ hret => ?_⟩
  · rw [hrun] at hret
    cases hret
    exact hcalls rfl
  · rw [hprepare hraw hinit] at hfailed
    cases hfailed
  · rw [hrun] at hret
    cases hret
    exact hagree

theorem reportsTruly_of_faults {model : DataModel} {o : Outcomes} {db : SQLDatabase}
    {st : SQLStatement} {fault : Fault}
    (hprepare : st.isStatementRawString = false → o.stmtInit = true → o.stmtPrepare = true)
    (hrun : st.execute model o db = .error fault) : st.ReportsTruly model o db := by
  refine ⟨fun st₁ db₁ log₁ hret => ?_, fun hraw hinit hfailed => ?_,
    fun status₁ st₁ db₁ log₁ hret => ?_⟩
  · rw [hrun] at hret
    cases hret
  · rw [hprepare hraw hinit] at hfailed
    cases hfailed
  · rw [hrun] at hret
    cases hret

theorem reportsTruly_iff_answered {model : DataModel} {o : Outcomes} {db : SQLDatabase}
    {st : SQLStatement} (hlive : db.OffersLive st.schemaIndex.toNat) :
    st.ReportsTruly model o db ↔ Answered model o st := by
  constructor
  · intro h
    have hprepare : st.isStatementRawString = false → o.stmtInit = true →
        o.stmtPrepare = true := by
      intro hraw hinit
      by_contra hno
      obtain ⟨status, st', db', log, hrun, hnot⟩ := h.prepare hraw hinit (by simpa using hno)
      exact hnot _ (execute_unprepared hraw hrun)
    refine ⟨hprepare, fun hok => ?_⟩
    rcases execute_reports hlive hprepare with ⟨hno, -⟩ | ⟨hno, -⟩ |
      ⟨-, st', db', log, hrun, -, hcalls⟩
    · exact absurd hok hno
    · exact absurd hok hno
    · exact hcalls.mp (h.calls st' db' log hrun)
  · intro h
    rcases execute_reports hlive h.prepare with ⟨-, fault, hrun⟩ | ⟨-, st', db', log, hrun, hst'⟩ |
      ⟨hok, st', db', log, hrun, hst', hcalls⟩
    · exact reportsTruly_of_faults h.prepare hrun
    · exact reportsTruly_of_returns h.prepare hrun (fun hno => (nomatch hno)) (by simp [Agree, hst'])
    · exact reportsTruly_of_returns h.prepare hrun (fun _ => hcalls.mpr (h.ignored hok))
        (by simp [Agree, hst'])

end SQLStatement

/-! ## Transactions -/

namespace SQLTransaction

structure ReportsTruly (outcome : Nat → Bool) (db : SQLDatabase) (tx : SQLTransaction) : Prop where
  calls : ∀ tx' server db', tx.execute db ⟨outcome, []⟩ = .ok (.OK, tx', server, db') →
    ∀ command ∈ server.log, command.succeeded = true
  agree : ∀ status tx' server db', tx.execute db ⟨outcome, []⟩ = .ok (status, tx', server, db') →
    Agree tx'.operationStatus status

/-- The run fails, or its status said `Success` before it began. -/
def Answered (outcome : Nat → Bool) (tx : SQLTransaction) : Prop :=
  outcome 0 = false ∨ (tx.statements ≠ [] ∧ outcome 1 = false) ∨ tx.operationStatus = .Success

/-- A run either fails, and says so, or had every command accepted. -/
theorem outcomeOf_cases {outcome : Nat → Bool} {statements : List Bytes} {status : Status}
    {log : List Command} (h : (status, log) = outcomeOf outcome statements) :
    ((outcome 0 = false ∨ (statements ≠ [] ∧ outcome 1 = false)) ∧ status = .FAILED) ∨
    (¬ (outcome 0 = false ∨ (statements ≠ [] ∧ outcome 1 = false)) ∧ status = .OK ∧
      ∀ command ∈ log, command.succeeded = true) := by
  cases h₀ : outcome 0 with
  | false =>
    simp only [outcomeOf, h₀, Prod.mk.injEq] at h
    exact Or.inl ⟨Or.inl rfl, h.1⟩
  | true =>
    cases statements with
    | nil =>
      simp only [outcomeOf, h₀, Prod.mk.injEq] at h
      obtain ⟨rfl, rfl⟩ := h
      exact Or.inr ⟨by simp, rfl, by simp⟩
    | cons stmt rest =>
      cases h₁ : outcome 1 with
      | false =>
        simp only [outcomeOf, h₀, h₁, Bool.false_eq_true, if_false, Prod.mk.injEq] at h
        exact Or.inl ⟨Or.inr ⟨by simp, rfl⟩, h.1⟩
      | true =>
        simp only [outcomeOf, h₀, h₁, if_true, Prod.mk.injEq] at h
        obtain ⟨rfl, rfl⟩ := h
        exact Or.inr ⟨by simp, rfl, by simp⟩

theorem reportsTruly_iff_answered {outcome : Nat → Bool} {db : SQLDatabase} {tx : SQLTransaction}
    (hlive : db.OffersLive tx.schemaIndex.toNat) :
    tx.ReportsTruly outcome db ↔ Answered outcome tx := by
  obtain ⟨status, tx', server, taken, ref, handle, hrun, hout, hstatus, -⟩ :=
    execute_live outcome hlive
  have hreports : tx.ReportsTruly outcome db ↔
      (status = .OK → ∀ command ∈ server.log, command.succeeded = true) ∧
        Agree tx'.operationStatus status := by
    constructor
    · intro h
      refine ⟨fun hok => ?_, h.agree _ _ _ _ hrun⟩
      subst hok
      exact h.calls _ _ _ hrun
    · intro h
      refine ⟨fun _ _ _ hret => ?_, fun _ _ _ _ hret => ?_⟩
      · rw [hrun] at hret
        cases hret
        exact h.1 rfl
      · rw [hrun] at hret
        cases hret
        exact h.2
  rw [hreports]
  rcases outcomeOf_cases hout with ⟨hfails, rfl⟩ | ⟨hno, rfl, hall⟩
  · rw [if_neg (by decide)] at hstatus
    refine iff_of_true ⟨fun h => (nomatch h), ?_⟩ ?_
    · simp [Agree, hstatus]
    · exact hfails.imp_right Or.inl
  · -- The one exit that writes nothing.
    rw [if_pos rfl] at hstatus
    constructor
    · intro h
      exact Or.inr (Or.inr (hstatus ▸ h.2.1.mpr rfl))
    · intro h
      have hsucc : tx.operationStatus = .Success := by
        rcases h with h | h | h
        · exact absurd (Or.inl h) hno
        · exact absurd (Or.inr h) hno
        · exact h
      exact ⟨fun _ => hall, by simp [Agree, hstatus, hsucc]⟩

end SQLTransaction

/-! ## Both -/

namespace Operation

def ReportsTruly (model : DataModel) (db : SQLDatabase) : Operation → Prop
  | .statement st o => st.ReportsTruly model o db
  | .transaction tx outcome => tx.ReportsTruly outcome db

def Answered (model : DataModel) : Operation → Prop
  | .statement st o => st.Answered model o
  | .transaction tx outcome => tx.Answered outcome

/-- **When an operation reports what happened.** With a live connection on offer: a statement exactly
when no prepare fails and, where it reports success, the calls it does not look at succeeded; a
transaction exactly when it fails, or its status said `Success` before. -/
theorem reportsTruly_iff (model : DataModel) (db : SQLDatabase) (op : Operation)
    (hlive : db.OffersLive op.schemaIndex) :
    op.ReportsTruly model db ↔ op.Answered model := by
  cases op with
  | statement st o => exact SQLStatement.reportsTruly_iff_answered hlive
  | transaction tx outcome => exact SQLTransaction.reportsTruly_iff_answered hlive

/-- `SELECT ?` without a result, and a server that accepts everything. -/
theorem reportsTruly_select :
    samplePool.OffersLive 0 ∧
      ReportsTruly .LP64 samplePool (.statement (.new 0 (ascii "SELECT ?")) acceptAll) := by
  have hlive : samplePool.OffersLive 0 :=
    ⟨⟨some 0, [], SQLDatabase.sampleInfo.toSQLConnectionInfo, true⟩, 0, rfl, rfl⟩
  have hraw : (SQLStatement.new 0 (ascii "SELECT ?")).isStatementRawString = false := by decide
  refine ⟨hlive, (reportsTruly_iff .LP64 samplePool
    (.statement (.new 0 (ascii "SELECT ?")) acceptAll) hlive).mpr ⟨fun _ _ => rfl, fun _ => ?_⟩⟩
  refine ⟨fun _ => ⟨rfl, fun _ => rfl⟩, fun res hres => ?_⟩
  simp [SQLStatement.resultAsked, hraw, acceptAll] at hres

/-- An accepted `INSERT`: the transaction returns `OK` and its status is still `Running`. -/
theorem not_reportsTruly_insert :
    ¬ ReportsTruly .LP64 samplePool
      (.transaction (.build 0 [ascii "INSERT INTO t VALUES (1)"]) fun _ => true) := by
  intro h
  obtain ⟨hsuccess, -⟩ := SQLTransaction.ReportsTruly.agree h .OK _ _ _ rfl
  exact absurd (hsuccess.mpr rfl) (by decide)

end Operation

end ServerTest.Database
