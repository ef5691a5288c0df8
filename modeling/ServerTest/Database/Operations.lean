import ServerTest.Lib.Transition
import ServerTest.Database.SQLStatement
import ServerTest.Database.SQLTransaction

/-!
# The pool after an operation

`Execute` of a statement and of a transaction side by side, as far as the pool is concerned: which
connections are available before and after. A statement has one exit that frees its connection, the
one behind a result set; a transaction has none. And both read the handle of the connection before
they ask whether they have one, which is what an exhausted pool does to them.
-/

set_option autoImplicit false

namespace ServerTest.Database

open Lib

/-- An operation about to run, with what the server will answer. -/
inductive Operation where
  | statement (st : SQLStatement) (o : Outcomes)
  | transaction (tx : SQLTransaction) (outcome : Nat → Bool)

namespace Operation

def execute (model : DataModel) (db : SQLDatabase) : Operation → Except Fault (Status × SQLDatabase)
  | .statement st o => do
    let (status, _, db, _) ← st.execute model o db
    return (status, db)
  | .transaction tx outcome => do
    let (status, _, _, db) ← tx.execute db ⟨outcome, []⟩
    return (status, db)

/-- A run that returns leaves exactly the connections available that were. -/
def NoLeak (model : DataModel) (db : SQLDatabase) (op : Operation) : Prop :=
  ∀ status db', op.execute model db = .ok (status, db') → db'.available = db.available

/-- The condition on the operation, the pool and the server's answers: if there is a live connection
to lease, the operation is a statement, and one that either faults at once or gets a result set. -/
def GivesBack (db : SQLDatabase) : Operation → Prop
  | .statement st o => db.OffersLive st.schemaIndex.toNat → st.Starts o → st.Fetches o
  | .transaction tx _ => ¬ db.OffersLive tx.schemaIndex.toNat

theorem statement_noLeak_iff (model : DataModel) (db : SQLDatabase) (st : SQLStatement)
    (o : Outcomes) : NoLeak model db (.statement st o) ↔ GivesBack db (.statement st o) := by
  constructor
  · intro h hlive hstart
    obtain ⟨handle, ref, taken, hleased, hrun⟩ := SQLStatement.execute_live model o hlive
    by_contra hno
    obtain ⟨status, st', calls, hret⟩ :=
      SQLStatement.executeOn_keeps model ref handle taken hstart hno
    refine hleased.available_ne (h status taken ?_)
    simp only [execute, hrun, hret, bind, Except.bind]
    rfl
  · intro h status db' hrun
    obtain ⟨⟨status₁, st₁, db₁, calls₁⟩, hexec, hret⟩ := bind_returns.mp hrun
    cases hret
    obtain ⟨hlive, handle, ref, taken, hleased, hexec⟩ := SQLStatement.execute_returns hexec
    obtain ⟨hstart, ⟨hno, -⟩ | ⟨-, hfree⟩⟩ := SQLStatement.executeOn_returns hexec
    · exact absurd (h hlive hstart) hno
    · -- Freeing what was leased gives the database of before the call.
      rw [hleased.freed] at hfree
      rw [Except.ok.inj hfree]

theorem transaction_noLeak_iff (model : DataModel) (db : SQLDatabase) (tx : SQLTransaction)
    (outcome : Nat → Bool) :
    NoLeak model db (.transaction tx outcome) ↔ GivesBack db (.transaction tx outcome) := by
  constructor
  · intro h hlive
    obtain ⟨status, tx', server, taken, ref, handle, hrun, -, -, hleased⟩ :=
      SQLTransaction.execute_live outcome hlive
    refine hleased.available_ne (h status taken ?_)
    simp only [execute, hrun, bind, Except.bind]
    rfl
  · intro hdead status db' hrun
    obtain ⟨fault, herr⟩ := SQLTransaction.execute_dead ⟨outcome, []⟩ hdead
    simp only [execute, herr, bind, Except.bind] at hrun
    cases hrun

theorem noLeak_iff (model : DataModel) (db : SQLDatabase) (op : Operation) :
    op.NoLeak model db ↔ op.GivesBack db := by
  cases op with
  | statement st o => exact statement_noLeak_iff model db st o
  | transaction tx outcome => exact transaction_noLeak_iff model db tx outcome

/-- Sequential operations from `db₀`, each meeting the condition in the state it runs in. -/
def system (model : DataModel) (db₀ : SQLDatabase) : System SQLDatabase where
  init db := db = db₀
  step db db' := ∃ op status, GivesBack db op ∧ op.execute model db = .ok (status, db')

theorem available_of_reachable {model : DataModel} {db₀ db : SQLDatabase}
    (h : (system model db₀).Reachable db) : db.available = db₀.available := by
  refine h.invariant (P := fun db => db.available = db₀.available) ?_ ?_
  · intro db hdb
    rw [hdb]
  · rintro db db' - hdb ⟨op, status, hcond, hrun⟩
    rw [← hdb]
    exact (noLeak_iff model db op).mpr hcond status db' hrun

/-- **When operations give their connections back.** One operation does exactly when `GivesBack`
holds before it; and a sequence of operations that each meet it never changes which connections are
available, so it exhausts no pool that had one. -/
theorem connections_given_back (model : DataModel) :
    (∀ db op, NoLeak model db op ↔ GivesBack db op) ∧
    ∀ db₀ db, (system model db₀).Reachable db → db.available = db₀.available ∧
      ∀ i, (db₀.offer i).isSome → (db.offer i).isSome := by
  refine ⟨noLeak_iff model, fun db₀ db hr => ?_⟩
  have hsame := available_of_reachable hr
  refine ⟨hsame, fun i hi => ?_⟩
  rw [SQLDatabase.offer_isSome_iff] at hi ⊢
  rwa [hsame]

/-- A pool with one live connection. -/
def samplePool : SQLDatabase :=
  ⟨[{ SQLConnectionPool.ofInfo SQLDatabase.sampleInfo with
      connections := [⟨some 0, [], SQLDatabase.sampleInfo.toSQLConnectionInfo, true⟩] }]⟩

/-- A server that accepts everything and has no rows to return. -/
def acceptAll : Outcomes where
  realQuery := true
  storeResult := none
  stmtInit := true
  stmtPrepare := true
  stmtParamCount := 1
  stmtAttrSet := true
  stmtBindParam := true
  stmtExecute := true
  stmtStoreResult := true
  stmtResultMetadata := none
  fieldCount := 0
  stmtBindResult := true
  rows := []
  stmtFetch := true
  stmtFreeResult := true
  junk := fun _ _ => 0

/-- One `SELECT ?` with an empty result set, and the pool is as before. -/
theorem select_given_back :
    ∃ db, (system .LP64 samplePool).Reachable db ∧ db.available = samplePool.available ∧
      (db.offer 0).isSome := by
  let op : Operation := .statement (.new 0 (ascii "SELECT ?"))
    { acceptAll with stmtResultMetadata := some ⟨[⟨.LONG, false, false, 0⟩], 0⟩ }
  have hcond : op.GivesBack samplePool := by
    intro _ _
    have hraw : (SQLStatement.new 0 (ascii "SELECT ?")).isStatementRawString = false := by decide
    simp [SQLStatement.Fetches, hraw, acceptAll]
  have hr : (system .LP64 samplePool).Reachable samplePool :=
    (System.Reachable.start rfl).next ⟨op, .OK, hcond, rfl⟩
  obtain ⟨hsame, hoffer⟩ := (connections_given_back .LP64).2 _ _ hr
  exact ⟨samplePool, hr, hsame, hoffer 0 rfl⟩

/-- A successful `DELETE` keeps the only connection of its pool. -/
theorem delete_leaks :
    ¬ NoLeak .LP64 samplePool (.statement (.new 0 (ascii "DELETE FROM t")) acceptAll) := by
  intro h
  have hret := (noLeak_iff _ _ _).mp h
  have hlive : samplePool.OffersLive 0 :=
    ⟨⟨some 0, [], SQLDatabase.sampleInfo.toSQLConnectionInfo, true⟩, 0, rfl, rfl⟩
  have hraw : (SQLStatement.new 0 (ascii "DELETE FROM t")).isStatementRawString = true := by decide
  have hfetch := hret hlive (Or.inl hraw)
  simp only [SQLStatement.Fetches, hraw, if_true] at hfetch
  exact hfetch.2 rfl

/-! ## An exhausted pool -/

/-- `SchemaIndex`, as it subscripts the pools. -/
def schemaIndex : Operation → Nat
  | .statement st _ => st.schemaIndex.toNat
  | .transaction tx _ => tx.schemaIndex.toNat

/-- What an operation without a connection should come to: it returns, reports the failure twice,
makes no call, and leaves the pools and what it carries as they were. -/
def FailsCleanly (model : DataModel) (db : SQLDatabase) : Operation → Prop
  | .statement st o => ∃ st' db', st.execute model o db = .ok (.FAILED, st', db', []) ∧
      st'.operationStatus = .Failed ∧ st'.params = st.params ∧ st'.resultSet = st.resultSet ∧
      db'.available = db.available
  | .transaction tx outcome => ∃ tx' server db',
      tx.execute db ⟨outcome, []⟩ = .ok (.FAILED, tx', server, db') ∧ server.log = [] ∧
      tx'.operationStatus = .Failed ∧ tx'.statements = tx.statements ∧
      db'.available = db.available

/-- **No operation survives an exhausted pool.** The handle is read through the connection before
the connection is compared with `nullptr`, so the branch that would fail cleanly is dead. -/
theorem exhausted_never_failsCleanly (model : DataModel) (db : SQLDatabase) (op : Operation)
    (h : db.Exhausted op.schemaIndex) :
    op.execute model db = .error .nullPointer ∧ ¬ op.FailsCleanly model db := by
  have hget := h.getAvaliableSQLConnection
  cases op with
  | statement st o =>
    have hrun : st.execute model o db = .error .nullPointer := by
      simp only [schemaIndex] at hget
      simp only [SQLStatement.execute, hget, SQLDatabase.getMySQLHandle, bind, Except.bind]
    refine ⟨by simp only [execute, hrun, bind, Except.bind], ?_⟩
    rintro ⟨st', db', hclean, -⟩
    rw [hrun] at hclean
    cases hclean
  | transaction tx outcome =>
    have hrun : tx.execute db ⟨outcome, []⟩ = .error .nullPointer := by
      simp only [schemaIndex] at hget
      simp only [SQLTransaction.execute, hget, SQLDatabase.getMySQLHandle, bind, Except.bind]
    refine ⟨by simp only [execute, hrun, bind, Except.bind], ?_⟩
    rintro ⟨tx', server, db', hclean, -⟩
    rw [hrun] at hclean
    cases hclean

/-- `samplePool` with its connection leased. -/
def leasedPool : SQLDatabase :=
  ⟨[{ SQLConnectionPool.ofInfo SQLDatabase.sampleInfo with
      connections := [⟨some 0, [], SQLDatabase.sampleInfo.toSQLConnectionInfo, false⟩] }]⟩

theorem leasedPool_never_failsCleanly :
    leasedPool.Exhausted 0 ∧
      ¬ FailsCleanly .LP64 leasedPool (.transaction (.new 0) fun _ => true) := by
  have h : leasedPool.Exhausted 0 := ⟨_, rfl, by simp⟩
  exact ⟨h, (exhausted_never_failsCleanly .LP64 leasedPool (.transaction (.new 0) fun _ => true)
    h).2⟩

/-- A pool whose connections were never spawned, and a `SELECT` on it. -/
theorem not_failsCleanly_unspawned :
    ¬ FailsCleanly .LP64 ⟨[.ofInfo SQLDatabase.sampleInfo]⟩
      (.statement (.new 0 (ascii "SELECT 1")) acceptAll) := by
  rintro ⟨st', db', hrun, -⟩
  have hfault : (SQLStatement.new 0 (ascii "SELECT 1")).execute .LP64 acceptAll
      ⟨[.ofInfo SQLDatabase.sampleInfo]⟩ = .error .nullPointer := rfl
  rw [hfault] at hrun
  cases hrun

end Operation

end ServerTest.Database
