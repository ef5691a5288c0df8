import ServerTest.Database.SQLOperationBase

/-!
# Transactions

`SQLTransaction.{h,cpp}`. A transaction sends text commands over one connection, so what a run does
to the database is the log of the commands the server received, each with its outcome. The server
decides the outcomes: `Server.outcome` gives them call by call and every theorem is for all of them.

`Execute` opens the transaction and enters its loop over the statements, whose body ends in
`return Status::OK`. The first statement is therefore the last one sent, `Commit` has no caller,
and a run that reports success leaves the transaction open. What is left of the guarantee is stated
at the end, for every server.

The setters of parameters, which work on a copy of the statement, are in `SetParam`.
-/

set_option autoImplicit false

namespace ServerTest.Database

open Lib

/-! ## The server's side -/

structure Command where
  text : Bytes
  succeeded : Bool
  deriving DecidableEq, Repr

/-- The server behind one connection, from the start of a run. -/
structure Server where
  outcome : Nat → Bool
  log : List Command

/-- `mysql_query`: sends the text up to its first NUL and reports whether that failed. -/
def mysqlQuery (mySql : Option MYSQL) (query : Bytes) (server : Server) :
    Except Fault (Bool × Server) :=
  match mySql with
  | none => .error .nullPointer
  | some _ =>
    let succeeded := server.outcome server.log.length
    .ok (!succeeded, { server with log := server.log ++ [⟨cStr query, succeeded⟩] })

def startTransaction : Bytes := ascii "START TRANSACTION"

def commitCommand : Bytes := ascii "COMMIT"

def rollbackCommand : Bytes := ascii "ROLLBACK"

/-- Whether the connection is inside a transaction after these commands. -/
def transactionOpen (log : List Command) : Bool :=
  log.foldl (fun inside c =>
    if !c.succeeded then inside
    else if c.text = startTransaction then true
    else if c.text = commitCommand ∨ c.text = rollbackCommand then false
    else inside) false

/-! ## The operation -/

/-- `SchemaIndex` is not assigned by the constructor, so any value may be found there. -/
structure SQLTransaction where
  statements : List Bytes
  operationStatus : SQLOperationStatus
  schemaIndex : UInt16

namespace SQLTransaction

def new (schemaIndex : UInt16) : SQLTransaction := ⟨[], .Running, schemaIndex⟩

def appendStatement (tx : SQLTransaction) (stmt : Bytes) : SQLTransaction :=
  { tx with statements := tx.statements ++ [stmt] }

/-- A transaction after one `AppendStatement` for each of `stmts`. -/
def build (schemaIndex : UInt16) (stmts : List Bytes) : SQLTransaction :=
  stmts.foldl appendStatement (new schemaIndex)

/-- `Begin`, `Commit` and `RollBack` differ in the text they send. -/
def send (text : Bytes) (mySql : Option MYSQL) (tx : SQLTransaction) (server : Server) :
    Except Fault (Status × SQLTransaction × Server) := do
  let (failed, server) ← mysqlQuery mySql text server
  if failed then
    return (.FAILED, { tx with operationStatus := .Failed }, server)
  return (.OK, tx, server)

def begin := send startTransaction

def commit := send commitCommand

def rollBack := send rollbackCommand

/-- The loop over `Statements`. -/
def runStatements (mySql : Option MYSQL) :
    List Bytes → SQLTransaction → Server → Except Fault (Status × SQLTransaction × Server)
  | [], tx, server => return (.OK, tx, server)
  | stmt :: _, tx, server => do
    let (failed, server) ← mysqlQuery mySql stmt server
    if failed then
      let (_, tx, server) ← rollBack mySql { tx with operationStatus := .Failed } server
      return (.FAILED, tx, server)
    -- Still inside the loop: no statement after the first is looked at.
    return (.OK, tx, server)

def execute (db : SQLDatabase) (tx : SQLTransaction) (server : Server) :
    Except Fault (Status × SQLTransaction × Server × SQLDatabase) := do
  let (conn, db) ← db.getAvaliableSQLConnection tx.schemaIndex.toNat
  let mySql ← db.getMySQLHandle conn
  match conn with
  | none => return (.FAILED, { tx with operationStatus := .Failed }, server, db)
  | some _ =>
    let (status, tx, server) ← begin mySql tx server
    if status ≠ .OK then
      return (.FAILED, tx, server, db)
    let (status, tx, server) ← runStatements mySql tx.statements tx server
    return (status, tx, server, db)

/-! ## What a run sends -/

theorem build_statements (schemaIndex : UInt16) (stmts : List Bytes) :
    (build schemaIndex stmts).statements = stmts := by
  have happend : ∀ (tx : SQLTransaction) (l : List Bytes),
      (l.foldl appendStatement tx).statements = tx.statements ++ l := by
    intro tx l
    induction l generalizing tx with
    | nil => simp
    | cons s rest ih => simp [ih, appendStatement]
  exact happend (new schemaIndex) stmts

theorem build_schemaIndex (schemaIndex : UInt16) (stmts : List Bytes) :
    (build schemaIndex stmts).schemaIndex = schemaIndex := by
  have hkeep : ∀ (tx : SQLTransaction) (l : List Bytes),
      (l.foldl appendStatement tx).schemaIndex = tx.schemaIndex := by
    intro tx l
    induction l generalizing tx with
    | nil => rfl
    | cons s rest ih => exact ih (tx.appendStatement s)
  exact hkeep (new schemaIndex) stmts

/-- The status and the log of a run on a live connection. -/
def outcomeOf (outcome : Nat → Bool) (statements : List Bytes) : Status × List Command :=
  match outcome 0, statements with
  | false, _ => (.FAILED, [⟨startTransaction, false⟩])
  | true, [] => (.OK, [⟨startTransaction, true⟩])
  | true, stmt :: _ =>
    if outcome 1 then (.OK, [⟨startTransaction, true⟩, ⟨cStr stmt, true⟩])
    else (.FAILED, [⟨startTransaction, true⟩, ⟨cStr stmt, false⟩, ⟨rollbackCommand, outcome 2⟩])

/-- **A run on a live connection returns, sends what `outcomeOf` says, and keeps the connection.** It
writes its status where it fails and nowhere else. -/
theorem execute_live {db : SQLDatabase} {tx : SQLTransaction} (outcome : Nat → Bool)
    (hlive : db.OffersLive tx.schemaIndex.toNat) :
    ∃ status tx' server taken ref handle,
      tx.execute db ⟨outcome, []⟩ = .ok (status, tx', server, taken) ∧
      (status, server.log) = outcomeOf outcome tx.statements ∧
      tx'.operationStatus = (if status = .OK then tx.operationStatus else .Failed) ∧
      db.Leased (some handle) ref taken := by
  obtain ⟨handle, ref, taken, hget, hleased⟩ := hlive.lease
  have hhandle := hleased.handle
  have hstart : cStr startTransaction = startTransaction := by decide
  have hroll : cStr rollbackCommand = rollbackCommand := by decide
  -- The exits of `Execute`, in the order of the source.
  cases h₀ : outcome 0 with
  | false =>
    refine ⟨.FAILED, { tx with operationStatus := .Failed },
      ⟨outcome, [⟨startTransaction, false⟩]⟩, taken, ref, handle, ?_, by simp [outcomeOf, h₀], rfl,
      hleased⟩
    simp [execute, hget, hhandle, begin, send, mysqlQuery, h₀, hstart, bind, Except.bind, pure,
      Except.pure]
  | true =>
    cases hs : tx.statements with
    | nil =>
      refine ⟨.OK, tx, ⟨outcome, [⟨startTransaction, true⟩]⟩, taken, ref, handle, ?_,
        by simp [outcomeOf, h₀], rfl, hleased⟩
      simp [execute, hget, hhandle, begin, send, mysqlQuery, h₀, hs, hstart, runStatements, bind,
        Except.bind, pure, Except.pure]
    | cons stmt rest =>
      cases h₁ : outcome 1 with
      | true =>
        refine ⟨.OK, tx, ⟨outcome, [⟨startTransaction, true⟩, ⟨cStr stmt, true⟩]⟩, taken, ref, handle, ?_,
          by simp [outcomeOf, h₀, h₁], rfl, hleased⟩
        simp [execute, hget, hhandle, begin, send, mysqlQuery, h₀, h₁, hs, hstart, runStatements,
          bind, Except.bind, pure, Except.pure]
      | false =>
        refine ⟨.FAILED, { tx with operationStatus := .Failed }, ⟨outcome,
          [⟨startTransaction, true⟩, ⟨cStr stmt, false⟩, ⟨rollbackCommand, outcome 2⟩]⟩, taken,
          ref, handle, ?_, by simp [outcomeOf, h₀, h₁], rfl, hleased⟩
        cases h₂ : outcome 2 <;>
          simp [execute, hget, hhandle, begin, rollBack, send, mysqlQuery, h₀, h₁, h₂, hs, hstart,
            hroll, runStatements, bind, Except.bind, pure, Except.pure]

/-- Without a live connection on offer the run faults before it sends anything. -/
theorem execute_dead {db : SQLDatabase} {tx : SQLTransaction} (server : Server)
    (h : ¬ db.OffersLive tx.schemaIndex.toNat) : ∃ fault, tx.execute db server = .error fault := by
  rcases SQLDatabase.not_offersLive h with ⟨fault, hget⟩ | hget | ⟨ref, taken, hget, hhandle⟩
  · exact ⟨fault, by simp [execute, hget, bind, Except.bind]⟩
  · exact ⟨.nullPointer, by simp [execute, hget, SQLDatabase.getMySQLHandle, bind, Except.bind]⟩
  · exact ⟨.nullPointer, by
      simp [execute, hget, hhandle, begin, send, mysqlQuery, bind, Except.bind]⟩

/-! ## All or nothing -/

/-- What a transaction is for, of one run's status and log. -/
structure AllOrNothing (statements : List Bytes) (status : Status) (log : List Command) : Prop where
  committed : status = .OK →
    log.map (·.text) = startTransaction :: statements.map cStr ++ [commitCommand] ∧
      log.getLast? = some ⟨commitCommand, true⟩
  rolledBack : status = .FAILED → log.head? = some ⟨startTransaction, true⟩ →
    log.getLast?.map (·.text) = some rollbackCommand ∧
      (∀ c ∈ log, c.text ≠ commitCommand) ∧ transactionOpen log = false

/-- Every run that returns is all-or-nothing. -/
def RunsAllOrNothing (db : SQLDatabase) (schemaIndex : UInt16) (outcome : Nat → Bool)
    (stmts : List Bytes) : Prop :=
  ∀ status tx server db', (build schemaIndex stmts).execute db ⟨outcome, []⟩ =
    .ok (status, tx, server, db') → AllOrNothing stmts status server.log

/-- A run whose first statement fails is all-or-nothing if its `ROLLBACK` succeeds and the statement
was not itself a `COMMIT`. -/
theorem allOrNothing_rollBack (s : Bytes) (rest : List Bytes) (ok : Bool) :
    AllOrNothing (s :: rest) .FAILED
        [⟨startTransaction, true⟩, ⟨cStr s, false⟩, ⟨rollbackCommand, ok⟩] ↔
      ok = true ∧ cStr s ≠ commitCommand := by
  have hopen : transactionOpen
      [⟨startTransaction, true⟩, ⟨cStr s, false⟩, ⟨rollbackCommand, ok⟩] = !ok := by
    cases ok with
    | false => simp [transactionOpen]
    | true =>
      have hne : rollbackCommand ≠ startTransaction := by decide
      simp [transactionOpen, hne]
  constructor
  · intro hall
    obtain ⟨-, hno, hclosed⟩ := hall.rolledBack rfl rfl
    rw [hopen] at hclosed
    exact ⟨by simpa using hclosed, hno ⟨cStr s, false⟩ (by simp)⟩
  · intro hboth
    obtain ⟨hok, hne⟩ := hboth
    refine ⟨fun h => (nomatch h), fun _ _ => ⟨rfl, ?_, by rw [hopen, hok]; rfl⟩⟩
    intro c hc
    simp only [List.mem_cons, List.not_mem_nil, or_false] at hc
    have hstart : startTransaction ≠ commitCommand := by decide
    have hroll : rollbackCommand ≠ commitCommand := by decide
    rcases hc with rfl | rfl | rfl
    · exact hstart
    · exact hne
    · exact hroll

/-- The only all-or-nothing runs on a live connection: `START TRANSACTION` fails, or the first
statement fails and the `ROLLBACK` succeeds. -/
theorem allOrNothing_outcomeOf {outcome : Nat → Bool} {stmts : List Bytes} {status : Status}
    {log : List Command} (h : (status, log) = outcomeOf outcome stmts) :
    AllOrNothing stmts status log ↔
      outcome 0 = false ∨ ∃ s rest, stmts = s :: rest ∧ outcome 1 = false ∧ outcome 2 = true ∧
        cStr s ≠ commitCommand := by
  cases h₀ : outcome 0 with
  | false =>
    simp only [outcomeOf, h₀, Prod.mk.injEq] at h
    obtain ⟨rfl, rfl⟩ := h
    exact ⟨fun _ => Or.inl rfl, fun _ => ⟨fun h => (nomatch h), by simp⟩⟩
  | true =>
    cases stmts with
    | nil =>
      simp only [outcomeOf, h₀, Prod.mk.injEq] at h
      obtain ⟨rfl, rfl⟩ := h
      refine ⟨fun hall => ?_, by simp⟩
      exact absurd (hall.committed rfl).2 (by decide)
    | cons s rest =>
      cases h₁ : outcome 1 with
      | true =>
        simp only [outcomeOf, h₀, h₁, if_true, Prod.mk.injEq] at h
        obtain ⟨rfl, rfl⟩ := h
        refine ⟨fun hall => ?_, by simp⟩
        -- Two commands were sent; a committed run of this list sends at least three.
        have hlen := congrArg List.length (hall.committed rfl).1
        simp at hlen
      | false =>
        simp only [outcomeOf, h₀, h₁, Bool.false_eq_true, if_false, Prod.mk.injEq] at h
        obtain ⟨rfl, rfl⟩ := h
        rw [allOrNothing_rollBack]
        simp

/-- **When a transaction is all-or-nothing.** If there is no live connection it faults. Otherwise
exactly when `START TRANSACTION` fails, or its first statement (which is not itself the text
`COMMIT`) fails and the `ROLLBACK` after it succeeds. No run that reports success qualifies. -/
theorem allOrNothing_iff (db : SQLDatabase) (schemaIndex : UInt16) (outcome : Nat → Bool)
    (stmts : List Bytes) :
    RunsAllOrNothing db schemaIndex outcome stmts ↔
      (db.OffersLive schemaIndex.toNat →
        outcome 0 = false ∨ ∃ s rest, stmts = s :: rest ∧ outcome 1 = false ∧ outcome 2 = true ∧
          cStr s ≠ commitCommand) := by
  have hidx := build_schemaIndex schemaIndex stmts
  have hstmts := build_statements schemaIndex stmts
  constructor
  · intro h hlive
    rw [← hidx] at hlive
    obtain ⟨status, tx, server, taken, ref, handle, hrun, hout, -, -⟩ :=
      execute_live outcome hlive
    rw [hstmts] at hout
    exact (allOrNothing_outcomeOf hout).mp (h _ _ _ _ hrun)
  · intro h status tx server db' hrun
    by_cases hlive : db.OffersLive schemaIndex.toNat
    · have hcond := h hlive
      rw [← hidx] at hlive
      obtain ⟨status', tx', server', taken, ref, handle, hrun', hout, -, -⟩ :=
        execute_live outcome hlive
      rw [hrun'] at hrun
      cases hrun
      rw [hstmts] at hout
      exact (allOrNothing_outcomeOf hout).mpr hcond
    · rw [← hidx] at hlive
      obtain ⟨fault, herr⟩ := execute_dead ⟨outcome, []⟩ hlive
      rw [herr] at hrun
      cases hrun

/-- One live connection and a server that accepts everything: the run reports success after one
`INSERT`, and no `COMMIT` was ever sent. -/
theorem not_allOrNothing_insert :
    ¬ RunsAllOrNothing
      ⟨[{ SQLConnectionPool.ofInfo SQLDatabase.sampleInfo with
          connections := [⟨some 0, [], SQLDatabase.sampleInfo.toSQLConnectionInfo, true⟩] }]⟩
      0 (fun _ => true) [ascii "INSERT INTO t VALUES (1)"] := by
  intro h
  obtain ⟨hsent, -⟩ := (h .OK _ _ _ rfl).committed rfl
  exact absurd hsent (by decide)

end SQLTransaction

end ServerTest.Database
