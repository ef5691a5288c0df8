import ServerTest.Database.Operations

/-!
# Resetting a statement

An `SQLStatement` can be given a new schema or a new text and be run again, and "the input and
result buffer is automatically cleared upon reset". `Fresh` is what that amounts to: whatever the
statement has been through, a reset makes it like a new one, a second reset or the destructor finds
nothing left to do, and the next `Execute` shows its own rows.

`ClearParams` and `ClearResultSet` free the buffers and leave the counters. A counter that is not
zero then vouches for a buffer that is gone: the second `ClearResultSet` goes through a null
pointer. So a run is safe to reset exactly as long as none of its `Execute`s had any use for the
buffers, which is `fresh_along_iff`.
-/

set_option autoImplicit false

namespace ServerTest.Database

open Lib

namespace SQLStatement

/-! ## What a reset is for -/

inductive Reset where
  | schema (schemaIndex : UInt32)
  | statement (text : Bytes)
  | statementIndex (stmtIndex : UInt32)
  deriving DecidableEq, Repr

def reset (st : SQLStatement) : Reset → Except Fault SQLStatement
  | .schema schemaIndex => st.resetSchema schemaIndex
  | .statement text => st.resetStatement text
  | .statementIndex stmtIndex => st.resetStatementIndex stmtIndex

/-- Parameters and result set are as every constructor leaves them. -/
def Constructed (st : SQLStatement) : Prop := st.params = .new ∧ st.resultSet = .new

/-- The result a run comes to, if there is one. -/
def resultOf (o : Outcomes) (st : SQLStatement) : Option MysqlRes :=
  if st.isStatementRawString then if o.realQuery then o.storeResult else none
  else if o.stmtExecute && o.stmtStoreResult then o.stmtResultMetadata else none

/-- A result set shows the rows of this result from the first on: as many as it counts, with what the
fetch loop of the run stored. -/
def Shows (model : DataModel) (o : Outcomes) (rs : SQLOperationResultSet) :
    Option MysqlRes → Prop
  | none => ∀ n, rs.rowsWalked n = 0
  | some res =>
    let fieldCount := UInt32.ofNat res.fields.length
    let length := (res.numRows * fieldCount.toUInt64).toNat
    rs.currentRowCursor = 0 ∧ rs.fieldCount = fieldCount ∧
      (∀ n, rs.rowsWalked n = if fieldCount = 0 then 0 else min n res.numRows.toNat) ∧
      (fieldCount ≠ 0 → ∃ stores,
        fetchLoop (bindFields model o.junk res.fields) length o.landed = .ok stores ∧
        rs.resultSetData = some (applyStores length stores))

structure Fresh (model : DataModel) (st : SQLStatement) : Prop where
  constructed : ∀ r, ∃ st', st.reset r = .ok st' ∧ Constructed st'
  again : ∀ r st', st.reset r = .ok st' →
    (∀ r', ∃ st'', st'.reset r' = .ok st'' ∧ st''.params = st'.params ∧
      st''.resultSet = st'.resultSet) ∧
    st'.destruct = .ok st'
  rows : ∀ r st', st.reset r = .ok st' → ∀ o db status st'' db' calls,
    st'.execute model o db = .ok (status, st'', db', calls) →
    Shows model o st''.resultSet (resultOf o st')

/-! ## Runs -/

/-- What a caller does with a statement. The other users of the database act between two steps, so
every `Execute` finds its own. -/
inductive Use where
  | execute (o : Outcomes) (db : SQLDatabase)
  | nextRow
  | reset (r : Reset)

def Use.apply (model : DataModel) (st : SQLStatement) : Use → Except Fault SQLStatement
  | .execute o db => do
    let (_, st, _, _) ← st.execute model o db
    return st
  | .nextRow => return { st with resultSet := st.resultSet.getNextRowOfResultSet.2 }
  | .reset r => st.reset r

def useAll (model : DataModel) (st : SQLStatement) (uses : List Use) : Except Fault SQLStatement :=
  uses.foldlM (Use.apply model) st

/-- The buffers are not needed: the text prepared has no parameters, and if there is a result it has
neither columns nor rows. -/
def Bare (o : Outcomes) (st : SQLStatement) : Prop :=
  (st.isStatementRawString = false → o.stmtPrepare = true → o.stmtParamCount = 0) ∧
    ∀ res, resultOf o st = some res → UInt32.ofNat res.fields.length = 0 ∧ res.numRows = 0

def Use.Bare (st : SQLStatement) : Use → Prop
  | .execute o _ => SQLStatement.Bare o st
  | .nextRow | .reset _ => True

/-- Every `Execute` of the run that returns is bare. -/
def BareRun (model : DataModel) : SQLStatement → List Use → Prop
  | _, [] => True
  | st, use :: uses => ∀ st', use.apply model st = .ok st' → use.Bare st ∧ BareRun model st' uses

/-! ## Clearing -/

theorem clear_of_constructed {st : SQLStatement} (h : Constructed st) : st.clear = .ok st := by
  obtain ⟨hparams, hresult⟩ := h
  have hsame : st = { st with params := .new, resultSet := .new } := by
    rw [← hparams, ← hresult]
  rw [hsame]
  rfl

theorem reset_of_constructed {st : SQLStatement} (h : Constructed st) (r : Reset) :
    ∃ st', st.reset r = .ok st' ∧ Constructed st' := by
  have hclear := clear_of_constructed h
  cases r with
  | schema schemaIndex =>
    exact ⟨{ st with schemaIndex := schemaIndex.toUInt16 }, bind_returns.mpr ⟨st, hclear, rfl⟩, h⟩
  | statement text =>
    exact ⟨{ st with isStatementRawString := !text.contains 63, rawStringStatement := text },
      bind_returns.mpr ⟨st, hclear, rfl⟩, h⟩
  | statementIndex stmtIndex => exact ⟨st, hclear, h⟩

theorem clearParams_returns {p p' : SQLOperationParams} (h : p.clearParams = .ok p') :
    p'.paramCount = p.paramCount ∧ p'.paramBinds = none := by
  unfold SQLOperationParams.clearParams at h
  cases hbinds : p.paramBinds with
  | none =>
    rw [hbinds] at h
    cases h
    exact ⟨rfl, rfl⟩
  | some binds =>
    rw [hbinds] at h
    obtain ⟨_, -, h⟩ := bind_returns.mp h
    cases h
    exact ⟨rfl, rfl⟩

theorem clearResultSet_returns {rs rs' : SQLOperationResultSet} (h : rs.clearResultSet = .ok rs') :
    (rs.fieldCount = 0 ∧ rs' = rs) ∨
      (rs.fieldCount ≠ 0 ∧
        rs' = { rs with fieldBinds := none, resultSetData := none, rowData := none }) := by
  unfold SQLOperationResultSet.clearResultSet at h
  split at h
  case isTrue hfields =>
    cases h
    exact Or.inl ⟨hfields, rfl⟩
  case isFalse hfields =>
    split at h
    · cases h
    · obtain ⟨extra, -, h⟩ := bind_returns.mp h
      obtain ⟨_, -, h⟩ := bind_returns.mp h
      cases h
      exact Or.inr ⟨hfields, rfl⟩

/-- The counters survive. -/
theorem clear_counts {st st' : SQLStatement} (h : st.clear = .ok st') :
    st'.params.paramCount = st.params.paramCount ∧
      st'.resultSet.fieldCount = st.resultSet.fieldCount ∧
      st'.resultSet.rowCount = st.resultSet.rowCount := by
  obtain ⟨params, hparams, h⟩ := bind_returns.mp h
  obtain ⟨rs, hrs, h⟩ := bind_returns.mp h
  cases h
  refine ⟨(clearParams_returns hparams).1, ?_⟩
  rcases clearResultSet_returns hrs with ⟨-, rfl⟩ | ⟨-, rfl⟩ <;> exact ⟨rfl, rfl⟩

/-- **A second clearing** returns only where there was no result set to clear: the counter is still
there and the binds are not. -/
theorem clear_twice {st st' : SQLStatement} (h : st.clear = .ok st') :
    (∃ st'', st'.clear = .ok st'') ↔ st.resultSet.fieldCount = 0 := by
  obtain ⟨params, hparams, h⟩ := bind_returns.mp h
  obtain ⟨rs, hrs, h⟩ := bind_returns.mp h
  cases h
  have hagain : ∃ params', params.clearParams = .ok params' := by
    unfold SQLOperationParams.clearParams
    rw [(clearParams_returns hparams).2]
    exact ⟨_, rfl⟩
  obtain ⟨params', hparams'⟩ := hagain
  rcases clearResultSet_returns hrs with ⟨hfields, rfl⟩ | ⟨hfields, rfl⟩
  · have hrs' : st.resultSet.clearResultSet = .ok st.resultSet := hrs
    exact iff_of_true ⟨_, bind_returns.mpr ⟨params', hparams',
      bind_returns.mpr ⟨st.resultSet, hrs', rfl⟩⟩⟩ hfields
  · refine iff_of_false (fun hok => ?_) hfields
    obtain ⟨st'', hok⟩ := hok
    obtain ⟨_, -, hok⟩ := bind_returns.mp hok
    obtain ⟨rs', hrs', -⟩ := bind_returns.mp hok
    unfold SQLOperationResultSet.clearResultSet at hrs'
    rw [if_neg hfields] at hrs'
    cases hrs'

/-- A reset is a clearing and some members that no clearing touches. -/
theorem reset_clears {st st' : SQLStatement} {r : Reset} (h : st.reset r = .ok st') :
    ∃ cleared, st.clear = .ok cleared ∧ st'.params = cleared.params ∧
      st'.resultSet = cleared.resultSet := by
  cases r with
  | schema schemaIndex =>
    obtain ⟨cleared, hclear, h⟩ := bind_returns.mp h
    cases h
    exact ⟨cleared, hclear, rfl, rfl⟩
  | statement text =>
    obtain ⟨cleared, hclear, h⟩ := bind_returns.mp h
    cases h
    exact ⟨cleared, hclear, rfl, rfl⟩
  | statementIndex stmtIndex => exact ⟨st', h, rfl, rfl⟩

/-- So a statement whose counters are not zero cannot be made fresh. -/
theorem Fresh.counts {model : DataModel} {st : SQLStatement} (h : Fresh model st) :
    st.params.paramCount = 0 ∧ st.resultSet.fieldCount = 0 ∧ st.resultSet.rowCount = 0 := by
  obtain ⟨st', hreset, hparams, hresult⟩ := h.constructed (.statementIndex 0)
  obtain ⟨cleared, hclear, hparams', hresult'⟩ := reset_clears hreset
  obtain ⟨hcount, hfields, hrows⟩ := clear_counts hclear
  rw [← hparams', hparams] at hcount
  rw [← hresult', hresult] at hfields hrows
  exact ⟨hcount.symm, hfields.symm, hrows.symm⟩

/-! ## Walking over the rows -/

theorem rowsWalked_noFields {rs : SQLOperationResultSet} (h : rs.fieldCount = 0) (n : Nat) :
    rs.rowsWalked n = 0 := by
  apply SQLOperationResultSet.rowsWalked_of_stop
  simp [SQLOperationResultSet.getNextRowOfResultSet, h]

/-- The cursor runs to the row count. -/
theorem rowsWalked_eq (n : Nat) : ∀ rs : SQLOperationResultSet, rs.fieldCount ≠ 0 →
    rs.rowsWalked n = min n (rs.rowCount.toNat - rs.currentRowCursor.toNat) := by
  induction n with
  | zero =>
    intro rs _
    rw [Nat.zero_min]
    rfl
  | succ n ih =>
    intro rs hfields
    by_cases hmore : rs.currentRowCursor < rs.rowCount
    · have hlt : rs.currentRowCursor.toNat < rs.rowCount.toNat := UInt64.lt_iff_toNat_lt.mp hmore
      have hnext : rs.getNextRowOfResultSet =
          (true, { rs with currentRowCursor := rs.currentRowCursor + 1 }) :=
        if_pos ⟨hfields, hmore⟩
      have hcursor : (rs.currentRowCursor + 1).toNat = rs.currentRowCursor.toNat + 1 := by
        have hbound := rs.rowCount.toNat_lt
        rw [UInt64.toNat_add, UInt64.toNat_one]
        exact Nat.mod_eq_of_lt (by omega)
      have hrest : SQLOperationResultSet.rowsWalked n
            { rs with currentRowCursor := rs.currentRowCursor + 1 } =
          min n (rs.rowCount.toNat - (rs.currentRowCursor + 1).toNat) :=
        ih { rs with currentRowCursor := rs.currentRowCursor + 1 } hfields
      simp only [SQLOperationResultSet.rowsWalked, hnext]
      rw [hrest, hcursor]
      omega
    · have hge : rs.rowCount.toNat ≤ rs.currentRowCursor.toNat :=
        Nat.not_lt.mp (mt UInt64.lt_iff_toNat_lt.mpr hmore)
      rw [SQLOperationResultSet.rowsWalked_of_stop (if_neg fun h => hmore h.2)]
      omega

/-! ## Executing -/

/-- The parameters after the queries of a run. -/
def paramsAfter (o : Outcomes) (st : SQLStatement) : SQLOperationParams :=
  if st.isStatementRawString = false ∧ o.stmtPrepare = true then
    st.params.initializeParamMemory o.stmtParamCount
  else st.params

theorem initPreparedStatement_effect {o : Outcomes} {st st₁ : SQLStatement} {mySql : Option MYSQL}
    {status : Status} {calls calls₁ : List MysqlCall}
    (h : st.initPreparedStatement o mySql calls = .ok (status, st₁, calls₁)) :
    st₁.resultSet = st.resultSet ∧
      st₁.params = if o.stmtPrepare = true then st.params.initializeParamMemory o.stmtParamCount
        else st.params := by
  unfold initPreparedStatement at h
  split at h
  · cases h
  · cases h
  · cases hprepare : o.stmtPrepare with
    | false =>
      simp only [hprepare] at h
      cases h
      exact ⟨rfl, rfl⟩
    | true =>
      simp only [hprepare, Bool.not_true, Bool.false_eq_true, if_false] at h
      split at h <;> cases h <;> exact ⟨rfl, rfl⟩

theorem queryPrepared_effect {o : Outcomes} {st st₁ : SQLStatement} {progress : Progress}
    {calls calls₁ : List MysqlCall} (h : st.queryPrepared o calls = .ok (progress, st₁, calls₁)) :
    st₁.resultSet = st.resultSet ∧ st₁.params = st.params ∧
      (if o.stmtExecute && o.stmtStoreResult then progress = .result o.stmtResultMetadata
        else progress = .failed) := by
  obtain ⟨done, -, h⟩ := bind_returns.mp h
  cases hexec : o.stmtExecute with
  | false =>
    simp only [hexec] at h
    cases h
    exact ⟨rfl, rfl, rfl⟩
  | true =>
    cases hstore : o.stmtStoreResult with
    | false =>
      simp only [hexec, hstore] at h
      cases h
      exact ⟨rfl, rfl, rfl⟩
    | true =>
      simp only [hexec, hstore] at h
      cases h
      exact ⟨rfl, rfl, rfl⟩

theorem query_effect {o : Outcomes} {st st₁ : SQLStatement} {handle : MYSQL} {progress : Progress}
    {calls : List MysqlCall} (h : st.query o (some handle) = .ok (progress, st₁, calls)) :
    st₁.resultSet = st.resultSet ∧ st₁.params = paramsAfter o st ∧
      (progress = .failed ∧ resultOf o st = none ∨ progress = .result (resultOf o st)) := by
  unfold query at h
  unfold paramsAfter resultOf
  cases hraw : st.isStatementRawString with
  | true =>
    rw [hraw, if_pos rfl] at h
    cases hquery : o.realQuery <;> simp only [queryRaw, hquery] at h <;> cases h <;> simp
  | false =>
    rw [hraw, if_neg (by simp)] at h
    obtain ⟨⟨status, st₂, calls₂⟩, hinit, h⟩ := bind_returns.mp h
    obtain ⟨hrs, hparams⟩ := initPreparedStatement_effect hinit
    obtain ⟨hrs₁, hparams₁, hprogress⟩ := queryPrepared_effect h
    simp only [true_and]
    refine ⟨hrs₁.trans hrs, hparams₁.trans hparams, ?_⟩
    split at hprogress
    case isTrue hreached =>
      rw [if_neg (by simp), if_pos hreached]
      exact Or.inr hprogress
    case isFalse hreached =>
      rw [if_neg (by simp), if_neg hreached]
      exact Or.inl ⟨hprogress, rfl⟩

/-- What the result set is after a result has been read into it. -/
def ReadInto (model : DataModel) (o : Outcomes) (res : MysqlRes) (old rs : SQLOperationResultSet) :
    Prop :=
  let fieldCount := UInt32.ofNat res.fields.length
  let length := (res.numRows * fieldCount.toUInt64).toNat
  rs.rowCount = res.numRows ∧ rs.fieldCount = fieldCount ∧
    rs.currentRowCursor = old.currentRowCursor ∧
    (fieldCount = 0 → rs = { old with fieldCount := 0, rowCount := res.numRows }) ∧
    (fieldCount ≠ 0 → ∃ stores,
      fetchLoop (bindFields model o.junk res.fields) length o.landed = .ok stores ∧
      rs.resultSetData = some (applyStores length stores))

theorem readResult_effect {model : DataModel} {o : Outcomes} {res : MysqlRes}
    {st st' : SQLStatement} (h : st.readResult model o res = .ok st') :
    st'.params = st.params ∧ ReadInto model o res st.resultSet st'.resultSet := by
  unfold readResult at h
  unfold ReadInto
  by_cases hfields : UInt32.ofNat res.fields.length = 0
  · simp only [hfields, if_true] at h
    cases h
    exact ⟨rfl, rfl, hfields.symm, rfl, fun _ => rfl, fun hne => absurd hfields hne⟩
  · simp only [hfields, if_false] at h
    obtain ⟨done, -, h⟩ := bind_returns.mp h
    cases done with
    | true => cases h
    | false =>
      obtain ⟨stores, hstores, h⟩ := bind_returns.mp h
      cases h
      exact ⟨rfl, rfl, rfl, rfl, fun heq => absurd heq hfields, fun _ => ⟨stores, hstores, rfl⟩⟩

/-- **What an `Execute` that returns leaves in the two buffers.** -/
theorem execute_effect {model : DataModel} {o : Outcomes} {st st' : SQLStatement}
    {db db' : SQLDatabase} {status : Status} {calls : List MysqlCall}
    (h : st.execute model o db = .ok (status, st', db', calls)) :
    st'.params = paramsAfter o st ∧
      (resultOf o st = none ∧ st'.resultSet = st.resultSet ∨
        ∃ res, resultOf o st = some res ∧ ReadInto model o res st.resultSet st'.resultSet) := by
  obtain ⟨-, handle, ref, taken, -, h⟩ := execute_returns h
  obtain ⟨⟨progress, st₁, calls₁⟩, hquery, h⟩ := bind_returns.mp h
  obtain ⟨hrs, hparams, hprogress⟩ := query_effect hquery
  rcases hprogress with ⟨rfl, hnone⟩ | rfl
  · cases h
    exact ⟨hparams, Or.inl ⟨hnone, hrs⟩⟩
  · cases hresult : resultOf o st with
    | none =>
      simp only [hresult] at h
      split at h <;> cases h <;> exact ⟨hparams, Or.inl ⟨rfl, hrs⟩⟩
    | some res =>
      simp only [hresult] at h
      obtain ⟨st₂, hread, h⟩ := bind_returns.mp h
      obtain ⟨db₂, -, h⟩ := bind_returns.mp h
      obtain ⟨hparams₂, hinto⟩ := readResult_effect hread
      have hfinal : st'.params = st₂.params ∧ st'.resultSet = st₂.resultSet := by
        cases h
        split <;> exact ⟨rfl, rfl⟩
      rw [hrs] at hinto
      rw [hfinal.1, hfinal.2, hparams₂]
      exact ⟨hparams, Or.inr ⟨res, rfl, hinto⟩⟩

/-- A run on a statement like new shows its own rows. -/
theorem Constructed.shows {model : DataModel} {o : Outcomes} {st st' : SQLStatement}
    {db db' : SQLDatabase} {status : Status} {calls : List MysqlCall} (hnew : Constructed st)
    (h : st.execute model o db = .ok (status, st', db', calls)) :
    Shows model o st'.resultSet (resultOf o st) := by
  obtain ⟨-, ⟨hnone, hsame⟩ | ⟨res, hres, hrows, hfields, hcursor, -, hdata⟩⟩ := execute_effect h
  · rw [hnone]
    intro n
    rw [hsame, hnew.2]
    exact rowsWalked_noFields rfl n
  · rw [hres]
    have hcursor : st'.resultSet.currentRowCursor = 0 := by
      rw [hcursor, hnew.2]
      rfl
    refine ⟨hcursor, hfields, fun n => ?_, hdata⟩
    by_cases hzero : UInt32.ofNat res.fields.length = 0
    · rw [if_pos hzero]
      exact rowsWalked_noFields (hfields.trans hzero) n
    · rw [if_neg hzero, rowsWalked_eq n _ (by rwa [hfields]), hcursor, hrows]
      rfl

/-- What is like new is fresh. -/
theorem Constructed.fresh {model : DataModel} {st : SQLStatement} (h : Constructed st) :
    Fresh model st := by
  have hreset : ∀ r st', st.reset r = .ok st' → Constructed st' := by
    intro r st' hok
    obtain ⟨st₁, hok₁, hnew⟩ := reset_of_constructed h r
    cases hok.symm.trans hok₁
    exact hnew
  refine ⟨reset_of_constructed h, ?_, ?_⟩
  · intro r st' hok
    have hnew := hreset r st' hok
    refine ⟨fun r' => ?_, clear_of_constructed hnew⟩
    obtain ⟨st'', hok', hnew'⟩ := reset_of_constructed hnew r'
    exact ⟨st'', hok', hnew'.1.trans hnew.1.symm, hnew'.2.trans hnew.2.symm⟩
  · intro r st' hok o db status st'' db' calls hexec
    exact (hreset r st' hok).shows hexec

/-! ## Whole runs -/

/-- A bare run leaves a statement like new as it is… -/
theorem Constructed.execute {model : DataModel} {o : Outcomes} {st st' : SQLStatement}
    {db db' : SQLDatabase} {status : Status} {calls : List MysqlCall} (hnew : Constructed st)
    (h : st.execute model o db = .ok (status, st', db', calls)) (hbare : Bare o st) :
    Constructed st' := by
  obtain ⟨hparams, hresult⟩ := execute_effect h
  constructor
  · rw [hparams, paramsAfter]
    split
    case isTrue hprepared =>
      rw [hbare.1 hprepared.1 hprepared.2, hnew.1]
      rfl
    case isFalse => exact hnew.1
  · rcases hresult with ⟨-, hsame⟩ | ⟨res, hres, -, -, -, hempty, -⟩
    · exact hsame.trans hnew.2
    · obtain ⟨hzero, hnone⟩ := hbare.2 res hres
      rw [hempty hzero, hnone, hnew.2]
      rfl

/-- …and any other leaves a counter that is not zero. -/
theorem bare_of_counts {model : DataModel} {o : Outcomes} {st st' : SQLStatement}
    {db db' : SQLDatabase} {status : Status} {calls : List MysqlCall}
    (h : st.execute model o db = .ok (status, st', db', calls))
    (hcount : st'.params.paramCount = 0) (hfields : st'.resultSet.fieldCount = 0)
    (hrows : st'.resultSet.rowCount = 0) : Bare o st := by
  obtain ⟨hparams, hresult⟩ := execute_effect h
  constructor
  · intro hraw hprepare
    rw [hparams, paramsAfter, if_pos ⟨hraw, hprepare⟩] at hcount
    unfold SQLOperationParams.initializeParamMemory at hcount
    split at hcount <;> exact hcount
  · intro res hres
    rcases hresult with ⟨hnone, -⟩ | ⟨res', hres', hrows', hfields', -⟩
    · rw [hnone] at hres
      cases hres
    · cases hres.symm.trans hres'
      exact ⟨hfields'.symm.trans hfields, hrows'.symm.trans hrows⟩

/-- One step from a statement like new: it stays so if the step is bare, and a fresh statement shows
that it was. -/
theorem Use.apply_constructed {model : DataModel} {st st' : SQLStatement} (hnew : Constructed st)
    {use : Use} (h : use.apply model st = .ok st') :
    (use.Bare st → Constructed st') ∧ (Fresh model st' → use.Bare st) := by
  cases use with
  | nextRow =>
    cases h
    refine ⟨fun _ => ⟨hnew.1, ?_⟩, fun _ => trivial⟩
    show st.resultSet.getNextRowOfResultSet.2 = .new
    rw [hnew.2]
    rfl
  | reset r =>
    obtain ⟨st₁, hok, hnew₁⟩ := reset_of_constructed hnew r
    cases hok.symm.trans h
    exact ⟨fun _ => hnew₁, fun _ => trivial⟩
  | execute o db =>
    obtain ⟨⟨status, st₁, db', calls⟩, hexec, h⟩ := bind_returns.mp h
    cases h
    refine ⟨hnew.execute hexec, fun hfresh => ?_⟩
    obtain ⟨hcount, hfields, hrows⟩ := hfresh.counts
    exact bare_of_counts hexec hcount hfields hrows

theorem useAll_cons (model : DataModel) (st : SQLStatement) (use : Use) (uses : List Use) :
    useAll model st (use :: uses) = use.apply model st >>= fun st => useAll model st uses := rfl

/-- **When a statement can be reset at any time**: in every state along a run a reset gives a fresh
statement, if and only if every `Execute` of the run is bare. -/
theorem fresh_along_iff {model : DataModel} {st : SQLStatement} (hnew : Constructed st)
    (uses : List Use) :
    (∀ front s, front <+: uses → useAll model st front = .ok s → Fresh model s) ↔
      BareRun model st uses := by
  induction uses generalizing st with
  | nil =>
    refine ⟨fun _ => trivial, fun _ front s hfront hrun => ?_⟩
    rw [List.prefix_nil.mp hfront] at hrun
    cases hrun
    exact hnew.fresh
  | cons use uses ih =>
    constructor
    · intro hfresh st' hstep
      have hone : Fresh model st' := by
        refine hfresh [use] st' ⟨uses, rfl⟩ ?_
        rw [useAll_cons]
        exact bind_returns.mpr ⟨st', hstep, rfl⟩
      have hbare := (Use.apply_constructed hnew hstep).2 hone
      refine ⟨hbare, (ih ((Use.apply_constructed hnew hstep).1 hbare)).mp ?_⟩
      intro front s hfront hrun
      refine hfresh (use :: front) s (List.cons_prefix_cons.mpr ⟨rfl, hfront⟩) ?_
      rw [useAll_cons]
      exact bind_returns.mpr ⟨st', hstep, hrun⟩
    · intro hbare front s hfront hrun
      cases front with
      | nil =>
        cases hrun
        exact hnew.fresh
      | cons first front =>
        obtain ⟨hfirst, hrest⟩ := List.cons_prefix_cons.mp hfront
        subst hfirst
        rw [useAll_cons] at hrun
        obtain ⟨st', hstep, hrun⟩ := bind_returns.mp hrun
        obtain ⟨hstepBare, hrestBare⟩ := hbare st' hstep
        exact (ih ((Use.apply_constructed hnew hstep).1 hstepBare)).mpr hrestBare front s hrest hrun

/-- A `DELETE`, with nothing to walk over. -/
theorem fresh_along_delete :
    ∃ s, useAll .LP64 (new 0 (ascii "DELETE FROM t"))
        [.execute Operation.acceptAll Operation.samplePool, .nextRow] = .ok s ∧
      Fresh .LP64 s := by
  have hraw : (new 0 (ascii "DELETE FROM t")).isStatementRawString = true := by decide
  have hnew : Constructed (new 0 (ascii "DELETE FROM t")) := ⟨rfl, rfl⟩
  have hbare : BareRun .LP64 (new 0 (ascii "DELETE FROM t"))
      [.execute Operation.acceptAll Operation.samplePool, .nextRow] := by
    intro st' _
    refine ⟨⟨fun hprepared => ?_, fun res hres => ?_⟩, fun _ _ => ⟨trivial, trivial⟩⟩
    · rw [hraw] at hprepared
      cases hprepared
    · rw [resultOf, hraw] at hres
      cases hres
  obtain ⟨s, hrun⟩ : ∃ s, useAll .LP64 (new 0 (ascii "DELETE FROM t"))
      [.execute Operation.acceptAll Operation.samplePool, .nextRow] = .ok s := ⟨_, rfl⟩
  exact ⟨s, hrun, (fresh_along_iff hnew _).mpr hbare _ s (List.prefix_refl _) hrun⟩

/-- A `SELECT ?` with one column: the counters are still 1 after a reset. -/
theorem not_fresh_select :
    ¬ ∀ (model : DataModel) (st : SQLStatement) (uses : List Use) (s : SQLStatement),
      Constructed st → useAll model st uses = .ok s → Fresh model s := by
  intro h
  have hfresh := h .LP64 (new 0 (ascii "SELECT ?")) [.execute { Operation.acceptAll with
    stmtResultMetadata := some ⟨[⟨.LONG, false, false, 0⟩], 0⟩ } Operation.samplePool] _
    ⟨rfl, rfl⟩ rfl
  exact absurd hfresh.counts.1 (by decide)

end SQLStatement

end ServerTest.Database
