import Mathlib.Data.Finset.Card
import ServerTest.Database.Operations

/-!
# One connection, one operation at a time

Any number of operations run their `Execute` at once, on the connections of one pool. A connection is
a conversation with the server, and nothing in `libmariadb` keeps two threads from talking into one
another's; the flags of the pool have to. Here they are at work: the compare-and-exchanges of all scans
are interleaved with all calls of all operations, one call a step.

What an operation says is what `Execute` says (`script`, and `script_execute` for the connection to the
functions); an operation that is going to fault may say anything before it does, and its fault ends the
run, as it ends the process. A statement may still have the handle of an earlier run, and uses it where
it gets no new one. The calls through such a handle go over the connection of the run that prepared it,
which that run has kept; the machine gives a connection what goes over a lease of it (`share`).

`connections_used_serially` is about the transcript of one connection, where no operation starts with
the handle of an earlier run. It is made of whole conversations, one for each operation that has freed
the connection, and then of what its holder has said so far. Only statements that came to a result set
free their connection; so what a transaction says is the last that is ever said there, and a pool serves
no more transactions than it has connections.
-/

set_option autoImplicit false

namespace ServerTest.Database

open Lib

/-! ## What an operation says over its connection -/

/-- What goes over a connection: a call of a statement, or a command of a transaction. -/
inductive Sent where
  | call (call : MysqlCall)
  | command (command : Command)
  deriving DecidableEq, Repr

/-- `SQLTransaction::Execute` once it has its connection. -/
def SQLTransaction.executeOn (mySql : Option MYSQL) (tx : SQLTransaction) (server : Server) :
    Except Fault (Status × SQLTransaction × Server) := do
  let (status, tx, server) ← begin mySql tx server
  if status ≠ .OK then
    return (.FAILED, tx, server)
  runStatements mySql tx.statements tx server

theorem SQLTransaction.execute_some {db taken : SQLDatabase} {tx : SQLTransaction} {server : Server}
    {ref : ConnectionRef} {mySql : Option MYSQL}
    (hget : db.getAvaliableSQLConnection tx.schemaIndex.toNat = .ok (some ref, taken))
    (hhandle : taken.getMySQLHandle (some ref) = .ok mySql) :
    tx.execute db server = do
      let (status, tx, server) ← tx.executeOn mySql server
      return (status, tx, server, taken) := by
  simp only [execute, executeOn, hget, hhandle, bind, Except.bind]
  cases begin mySql tx server with
  | error fault => rfl
  | ok begun =>
    obtain ⟨status, tx, server⟩ := begun
    by_cases hok : status = .OK
    · simp only [hok, ne_eq, not_true_eq_false, if_false]
    · simp only [hok, ne_eq, not_false_eq_true, if_true, pure, Except.pure]

/-- The calls on `PreparedStatement`. The others are on the connection, or on a statement that is being
prepared. -/
def MysqlCall.onStatement : MysqlCall → Bool
  | .realQuery _ _ | .storeResult _ | .stmtInit _ | .stmtPrepare _ _ => false
  | .stmtAttrSet _ | .stmtBindParam _ _ | .stmtExecute _ | .stmtStoreResult _
  | .stmtResultMetadata _ | .stmtBindResult _ | .stmtFetch _ | .stmtFreeResult _ => true

namespace SQLStatement

/-- `PreparedStatement` is not what an earlier run has left. -/
def WithoutHandle (st : SQLStatement) : Prop :=
  ∀ done, st.preparedStatement ≠ .live done

/-- Whether a run prepares a statement of its own. A raw one prepares nothing, and where the prepare
fails `PreparedStatement` stays what it was. -/
def prepares (o : Outcomes) (st : SQLStatement) : Bool :=
  !st.isStatementRawString && o.stmtPrepare

/-- Whether a call of a run goes over the connection of the run. -/
def overLease (o : Outcomes) (st : SQLStatement) (call : MysqlCall) : Bool :=
  !call.onStatement || st.prepares o

/-- A run that comes with no handle and prepares none makes no call on one, and has none after it. -/
theorem query_without {o : Outcomes} {st st' : SQLStatement} {mySql : Option MYSQL}
    {progress : Progress} {calls : List MysqlCall} (hnone : st.WithoutHandle)
    (hprepares : st.prepares o = false) (h : st.query o mySql = .ok (progress, st', calls)) :
    st'.WithoutHandle ∧ ∀ call ∈ calls, call.onStatement = false := by
  cases hraw : st.isStatementRawString with
  | true =>
    simp only [query, hraw, if_true] at h
    cases mySql with
    | none => cases h
    | some handle =>
      cases hquery : o.realQuery with
      | false =>
        simp only [queryRaw, hquery, Bool.not_false, if_true] at h
        cases h
        exact ⟨hnone, by simp [MysqlCall.onStatement]⟩
      | true =>
        simp only [queryRaw, hquery, Bool.not_true, Bool.false_eq_true, if_false] at h
        cases h
        exact ⟨hnone, by simp [MysqlCall.onStatement]⟩
  | false =>
    -- The prepare failed, so the run was going to use what it came with.
    have hprepare : o.stmtPrepare = false := by simpa [prepares, hraw] using hprepares
    exfalso
    cases mySql with
    | none =>
      obtain ⟨fault, hfault⟩ := query_null o st
      rw [hfault] at h
      cases h
    | some handle =>
      rcases query_cases o st handle with ⟨-, fault, hfault⟩ | ⟨hstart, -⟩
      · rw [hfault] at h
        cases h
      · rcases hstart with hstart | ⟨-, hstart | ⟨done, hlive⟩⟩
        · rw [hraw] at hstart
          cases hstart
        · rw [hprepare] at hstart
          cases hstart
        · exact hnone done hlive

/-- Without a handle the result set is read only where there is nothing to read. -/
theorem readCalls_without {model : DataModel} {o : Outcomes} {res : MysqlRes}
    {st st' : SQLStatement} (hnone : st.WithoutHandle)
    (h : st.readResult model o res = .ok st') : readCalls o res = [] := by
  by_cases hfields : UInt32.ofNat res.fields.length = 0
  · simp only [readCalls, hfields, if_true]
  · simp only [readResult, hfields, if_false] at h
    obtain ⟨done, huse, -⟩ := bind_returns.mp h
    cases hptr : st.preparedStatement with
    | indeterminate =>
      rw [hptr] at huse
      cases huse
    | null =>
      rw [hptr] at huse
      cases huse
    | live bindResultDone => exact absurd hptr (hnone bindResultDone)

end SQLStatement

namespace Operation

/-- What an operation sends when it is given a connection with this handle, in order, and whether it
frees the connection when it is done. -/
def script (model : DataModel) (mySql : Option MYSQL) : Operation → Except Fault (List Sent × Bool)
  | .statement st o => do
    let (progress, st, calls) ← st.query o mySql
    match progress with
    | .failed => return (calls.map .call, false)
    | .result none => return (calls.map .call, false)
    | .result (some res) =>
      let _ ← st.readResult model o res
      return ((calls ++ SQLStatement.readCalls o res).map .call, true)
  | .transaction tx outcome => do
    let (_, _, server) ← tx.executeOn mySql ⟨outcome, []⟩
    return (server.log.map .command, false)

/-- A statement's run on a connection and its script: the same calls, and the connection is freed or
left alone. -/
theorem script_statement {model : DataModel} {o : Outcomes} {st st' : SQLStatement}
    {conn : ConnectionRef} {mySql : Option MYSQL} {db db' : SQLDatabase} {status : Status}
    {calls : List MysqlCall}
    (h : st.executeOn model o conn mySql db = .ok (status, st', db', calls)) :
    ∃ frees, (Operation.statement st o).script model mySql = .ok (calls.map .call, frees) ∧
      if frees then db.freeUpConnection conn = .ok db' else db' = db := by
  obtain ⟨⟨progress, st₁, sent⟩, hquery, h⟩ := bind_returns.mp h
  simp only [script, hquery, bind, Except.bind]
  cases progress with
  | failed =>
    cases h
    exact ⟨false, rfl, rfl⟩
  | result res =>
    cases res with
    | none =>
      simp only at h
      split at h
      · cases h
        exact ⟨false, rfl, rfl⟩
      · cases h
        exact ⟨false, rfl, rfl⟩
    | some res =>
      obtain ⟨st₂, hread, h⟩ := bind_returns.mp h
      obtain ⟨db₂, hfree, h⟩ := bind_returns.mp h
      cases h
      simp only [hread]
      exact ⟨true, rfl, hfree⟩

/-- **A script is what `Execute` does.** An operation that returns was given a connection, said what its
script says, and freed the connection if its script says so. -/
theorem script_execute {model : DataModel} {db db' : SQLDatabase} {op : Operation} {status : Status}
    (h : op.execute model db = .ok (status, db')) :
    ∃ handle ref taken sent frees, db.Leased (some handle) ref taken ∧
      op.script model (some handle) = .ok (sent, frees) ∧ db' = if frees then db else taken := by
  cases op with
  | statement st o =>
    obtain ⟨⟨status₁, st₁, db₁, calls₁⟩, hexec, hret⟩ := bind_returns.mp h
    cases hret
    obtain ⟨-, handle, ref, taken, hleased, hon⟩ := SQLStatement.execute_returns hexec
    obtain ⟨frees, hscript, hafter⟩ := script_statement hon
    refine ⟨handle, ref, taken, _, frees, hleased, hscript, ?_⟩
    cases frees with
    | false => exact hafter
    | true =>
      have hfreed : taken.freeUpConnection ref = .ok db' := hafter
      rw [hleased.freed] at hfreed
      exact (Except.ok.inj hfreed).symm
  | transaction tx outcome =>
    obtain ⟨⟨status₁, tx₁, server₁, db₁⟩, hexec, hret⟩ := bind_returns.mp h
    cases hret
    by_cases hlive : db.OffersLive tx.schemaIndex.toNat
    · obtain ⟨handle, ref, taken, hget, hleased⟩ := hlive.lease
      rw [SQLTransaction.execute_some hget hleased.handle] at hexec
      obtain ⟨⟨status₂, tx₂, server₂⟩, hon, hret⟩ := bind_returns.mp hexec
      cases hret
      exact ⟨handle, ref, _, _, false, hleased, bind_returns.mpr ⟨_, hon, rfl⟩, rfl⟩
    · obtain ⟨fault, herr⟩ := SQLTransaction.execute_dead ⟨outcome, []⟩ hlive
      rw [herr] at hexec
      cases hexec

/-- Whether a call or a command goes over the connection the operation has been given. -/
def overLease : Operation → Sent → Bool
  | .statement st o, .call call => st.overLease o call
  | _, _ => true

/-- The part of the script that goes over the connection the operation has been given. -/
def share (model : DataModel) (op : Operation) (mySql : Option MYSQL) :
    Except Fault (List Sent × Bool) := do
  let (sent, frees) ← op.script model mySql
  return (sent.filter op.overLease, frees)

/-- A transaction has no handle of its own at all. -/
def WithoutHandle : Operation → Prop
  | .statement st _ => st.WithoutHandle
  | .transaction _ _ => True

theorem script_overLease {model : DataModel} {op : Operation} {mySql : Option MYSQL}
    {sent : List Sent} {frees : Bool} (hnone : op.WithoutHandle)
    (h : op.script model mySql = .ok (sent, frees)) : ∀ x ∈ sent, op.overLease x = true := by
  cases op with
  | transaction tx outcome => exact fun _ _ => rfl
  | statement st o =>
    cases hprepares : st.prepares o with
    | true =>
      intro x _
      cases x with
      | call call => simp only [overLease, SQLStatement.overLease, hprepares, Bool.or_true]
      | command command => rfl
    | false =>
      obtain ⟨⟨progress, st', calls⟩, hquery, h⟩ := bind_returns.mp h
      obtain ⟨hnone', hcalls⟩ := SQLStatement.query_without hnone hprepares hquery
      have hover : ∀ x ∈ calls.map Sent.call, (statement st o).overLease x = true := by
        intro x hx
        obtain ⟨call, hcall, rfl⟩ := List.mem_map.mp hx
        simp only [overLease, SQLStatement.overLease, hcalls call hcall, Bool.not_false,
          Bool.true_or]
      cases progress with
      | failed =>
        cases h
        exact hover
      | result res =>
        cases res with
        | none =>
          cases h
          exact hover
        | some res =>
          obtain ⟨st₂, hread, h⟩ := bind_returns.mp h
          cases h
          rw [SQLStatement.readCalls_without hnone' hread, List.append_nil]
          exact hover

/-- Without the handle of an earlier run everything an operation says goes over its connection. -/
theorem share_eq_script {model : DataModel} {op : Operation} (hnone : op.WithoutHandle)
    (mySql : Option MYSQL) : op.share model mySql = op.script model mySql := by
  cases hscript : op.script model mySql with
  | error fault => simp only [share, hscript, bind, Except.bind]
  | ok said =>
    obtain ⟨sent, frees⟩ := said
    have hall : sent.filter op.overLease = sent :=
      List.filter_eq_self.mpr (script_overLease hnone hscript)
    simp only [share, hscript, bind, Except.bind, hall]
    rfl

/-- Only a statement frees its connection. -/
theorem statement_of_frees {model : DataModel} {mySql : Option MYSQL} {op : Operation}
    {sent : List Sent} (h : op.share model mySql = .ok (sent, true)) :
    ∃ st o, op = .statement st o := by
  cases op with
  | statement st o => exact ⟨st, o, rfl⟩
  | transaction tx outcome =>
    obtain ⟨⟨said, frees⟩, hscript, hret⟩ := bind_returns.mp h
    obtain ⟨run, -, hsaid⟩ := bind_returns.mp hscript
    cases hsaid
    cases hret

end Operation

/-! ## The operations of one pool -/

/-- Where an operation stands in its `Execute`. -/
inductive ExecuteAt where
  | before
  /-- inside `GetAvaliableSQLConnection` -/
  | leasing
  /-- it has connection `conn`, and has sent these -/
  | sending (conn : Nat) (sent : List Sent)
  /-- `Execute` is over; `kept` is a connection it did not free -/
  | returned (kept : Option Nat)

/-- The connection an operation has been given and has not freed. -/
def ExecuteAt.connection : ExecuteAt → Option Nat
  | .before => none
  | .leasing => none
  | .sending conn _ => some conn
  | .returned kept => kept

/-- The pool, the operations on it, and what the server was sent over each connection by those that had
it. A ghost: who has used each connection and freed it, in order. -/
structure SharedPool (ι : Type) where
  leases : LeaseState ι
  execute : ι → ExecuteAt
  received : Nat → List Sent
  served : Nat → List ι

/-- One step of operation `i`. -/
inductive PoolEvent (ι : Type) where
  | call (i : ι)
  | compareExchange (i : ι)
  | send (i : ι) (sent : Sent)
  | finish (i : ι)
  | fault (i : ι)

/-- The handle of a connection, which no operation writes. -/
def handleAt (connections : List SQLConnection) (c : Nat) : Option MYSQL :=
  match connections[c]? with
  | none => none
  | some conn => conn.mySqlHandle

namespace SharedPool

variable {ι : Type} [DecidableEq ι]

/-- The pool as its constructors leave it, and nobody there yet. -/
def new (connections : List SQLConnection) : SharedPool ι where
  leases := ⟨connections, fun _ => none, fun _ => ∅⟩
  execute _ := .before
  received _ := []
  served _ := []

def moveTo (s : SharedPool ι) (i : ι) (at_ : ExecuteAt) : SharedPool ι :=
  { s with execute := Function.update s.execute i at_ }

variable (model : DataModel) (ops : ι → Operation)

/-- What operation `i` is going to say over connection `c`. -/
def shareOf (s : SharedPool ι) (i : ι) (c : Nat) : Except Fault (List Sent × Bool) :=
  (ops i).share model (handleAt s.leases.connections c)

/-- Whether operation `i` can have sent this over connection `c`. What it sends before a fault is not
looked at. -/
def maySend (s : SharedPool ι) (i : ι) (c : Nat) (sent : List Sent) : Bool :=
  match s.shareOf model ops i c with
  | .error _ => true
  | .ok (calls, _) => sent.isPrefixOf calls

def step (s : SharedPool ι) : PoolEvent ι → Option (Except Fault (SharedPool ι))
  | .call i =>
    match s.execute i with
    | .before => (s.leases.step (.call i)).map fun leases =>
        .ok (moveTo { s with leases := leases } i .leasing)
    | _ => none
  | .compareExchange i =>
    match s.execute i, s.leases.scanning i with
    | .leasing, some k => (s.leases.step (.compareExchange i)).map fun leases =>
        if (leases.scanning i).isSome then .ok { s with leases := leases }
        else if k ∈ leases.held i then .ok (moveTo { s with leases := leases } i (.sending k []))
        -- `GetMySQLHandle(nullptr)`
        else .error .nullPointer
    | _, _ => none
  | .send i x =>
    match s.execute i with
    | .sending c sent =>
      if s.maySend model ops i c (sent ++ [x]) then
        some (.ok (moveTo
          { s with received := Function.update s.received c (s.received c ++ [x]) } i
          (.sending c (sent ++ [x]))))
      else none
    | _ => none
  | .finish i =>
    match s.execute i with
    | .sending c sent =>
      match s.shareOf model ops i c with
      | .error _ => none
      | .ok (calls, frees) =>
        if sent = calls then
          if frees then
            (s.leases.step (.freeUpConnection i c)).map fun leases =>
              .ok (moveTo
                { s with
                  leases := leases
                  served := Function.update s.served c (s.served c ++ [i]) } i (.returned none))
          else some (.ok (s.moveTo i (.returned (some c))))
        else none
    | _ => none
  | .fault i =>
    match s.execute i with
    | .sending c _ =>
      match s.shareOf model ops i c with
      | .error fault => some (.error fault)
      | .ok _ => none
    | _ => none

/-- Every interleaving of the operations on a pool of these connections. A fault ends a run. -/
def machine (connections : List SQLConnection) :
    Machine (Except Fault (SharedPool ι)) (PoolEvent ι) where
  start := .ok (.new connections)
  step s e :=
    match s with
    | .error _ => none
    | .ok s => s.step model ops e

/-- What an operation has said, if it comes to an end. -/
def said : Except Fault (List Sent × Bool) → List Sent
  | .error _ => []
  | .ok (calls, _) => calls

/-- Everything operation `i` says when it has connection `c`. -/
def transcript (connections : List SQLConnection) (i : ι) (c : Nat) : List Sent :=
  said ((ops i).script model (handleAt connections c))

end SharedPool

/-! ## What a lease step does -/

theorem handleAt_set {connections : List SQLConnection} {k : Nat} {conn : SQLConnection}
    (hk : connections[k]? = some conn) (b : Bool) (c : Nat) :
    handleAt (connections.set k { conn with isAvaliable := b }) c = handleAt connections c := by
  have hlt : k < connections.length := (List.getElem?_eq_some_iff.mp hk).1
  by_cases hc : c = k
  · rw [hc]
    simp only [handleAt, List.getElem?_set_self hlt, hk]
  · simp only [handleAt, List.getElem?_set_ne (Ne.symm hc)]

namespace LeaseState

variable {ι : Type} [DecidableEq ι] {l l' : LeaseState ι} {i : ι}

theorem call_returns (h : l.step (.call i) = some l') :
    l'.held = l.held ∧ l'.connections = l.connections := by
  simp only [step] at h
  split at h
  · cases h
  · cases h
    exact ⟨rfl, rfl⟩

/-- An exchange takes the connection the scan stands at, or nothing. -/
theorem compareExchange_cases {k : Nat} (hk : l.scanning i = some k)
    (h : l.step (.compareExchange i) = some l') :
    (l'.held = l.held ∧ l'.connections = l.connections) ∨
    ∃ conn, l.connections[k]? = some conn ∧ l'.scanning i = none ∧
      l'.held = Function.update l.held i (insert k (l.held i)) ∧
      l'.connections = l.connections.set k { conn with isAvaliable := false } := by
  simp only [step, hk] at h
  split at h
  · cases h
    exact Or.inl ⟨rfl, rfl⟩
  · rename_i conn hconn
    cases hup : conn.isAvaliable with
    | true =>
      simp only [compareExchangeStrong, hup, if_true] at h
      cases h
      exact Or.inr ⟨conn, hconn, Function.update_self .., rfl, rfl⟩
    | false =>
      simp only [compareExchangeStrong, hup, Bool.false_eq_true, if_false] at h
      cases h
      exact Or.inl ⟨rfl, rfl⟩

theorem freeUpConnection_returns {c : Nat} (h : l.step (.freeUpConnection i c) = some l') :
    ∃ conn b, l.connections[c]? = some conn ∧
      l'.held = Function.update l.held i ((l.held i).erase c) ∧
      l'.connections = l.connections.set c { conn with isAvaliable := b } := by
  simp only [step] at h
  split at h
  · split at h
    · cases h
    · rename_i conn hconn
      cases h
      exact ⟨conn, _, hconn, rfl, rfl⟩
  · cases h

end LeaseState

namespace SharedPool

variable {ι : Type} [DecidableEq ι] {model : DataModel} {ops : ι → Operation}
  {connections : List SQLConnection}

/-! ## One connection -/

variable (model ops connections) in
/-- What was sent over connection `c`: whole conversations, and then `part`, which is what its holder
has sent so far. -/
structure Channel (execute : ι → ExecuteAt) (received : List Sent) (served : List ι) (c : Nat)
    (part : List Sent) : Prop where
  received : received =
    (served.flatMap fun i => said ((ops i).share model (handleAt connections c))) ++ part
  served : ∀ i ∈ served, ∃ calls,
    (ops i).share model (handleAt connections c) = .ok (calls, true)
  unused : (∀ i, (execute i).connection ≠ some c) → part = []
  sending : ∀ i sent, execute i = .sending c sent → part = sent
  returned : ∀ i, execute i = .returned (some c) →
    (ops i).share model (handleAt connections c) = .ok (part, false)

variable {execute : ι → ExecuteAt} {received : List Sent} {served : List ι} {c : Nat}
  {part : List Sent} {i : ι}

theorem connection_ne {at_ : ExecuteAt} {d : Nat} (h : at_.connection = some c)
    (hne : d ≠ c) : at_.connection ≠ some d := by
  rw [h]
  intro heq
  exact hne (Option.some.inj heq).symm

/-- A step of an operation that has nothing to do with the connection, before or after. -/
theorem Channel.frame (h : Channel model ops connections execute received served c part)
    {at_ : ExecuteAt} (hbefore : (execute i).connection ≠ some c) (hafter : at_.connection ≠ some c) :
    Channel model ops connections (Function.update execute i at_) received served c part where
  received := h.received
  served := h.served
  unused hnobody := by
    apply h.unused
    intro j
    by_cases hj : j = i
    · rw [hj]
      exact hbefore
    · have := hnobody j
      rwa [Function.update_of_ne hj] at this
  sending j sent hj := by
    by_cases hji : j = i
    · rw [hji, Function.update_self] at hj
      exact absurd (by rw [hj]; rfl) hafter
    · rw [Function.update_of_ne hji] at hj
      exact h.sending j sent hj
  returned j hj := by
    by_cases hji : j = i
    · rw [hji, Function.update_self] at hj
      exact absurd (by rw [hj]; rfl) hafter
    · rw [Function.update_of_ne hji] at hj
      exact h.returned j hj

/-- A channel whose only user from now on is `i`. -/
theorem Channel.of_sole_user {at_ : ExecuteAt}
    (hreceived : received =
      (served.flatMap fun i => said ((ops i).share model (handleAt connections c))) ++ part)
    (hserved : ∀ i ∈ served, ∃ calls,
      (ops i).share model (handleAt connections c) = .ok (calls, true))
    (hothers : ∀ j, j ≠ i → (execute j).connection ≠ some c)
    (hunused : at_.connection ≠ some c → part = [])
    (hsending : ∀ sent, at_ = .sending c sent → part = sent)
    (hreturned : at_ = .returned (some c) →
      (ops i).share model (handleAt connections c) = .ok (part, false)) :
    Channel model ops connections (Function.update execute i at_) received served c part where
  received := hreceived
  served := hserved
  unused hnobody := hunused (by simpa using hnobody i)
  sending j sent hj := by
    by_cases hji : j = i
    · rw [hji, Function.update_self] at hj
      exact hsending sent hj
    · rw [Function.update_of_ne hji] at hj
      exact absurd (by rw [hj]; rfl) (hothers j hji)
  returned j hj := by
    by_cases hji : j = i
    · rw [hji, Function.update_self] at hj
      rw [hji]
      exact hreturned hj
    · rw [Function.update_of_ne hji] at hj
      exact absurd (by rw [hj]; rfl) (hothers j hji)

/-! ## The invariant -/

variable (model ops connections) in
structure Inv (s : SharedPool ι) : Prop where
  leases : (LeaseState.system ι).Reachable s.leases
  handles : ∀ c, handleAt s.leases.connections c = handleAt connections c
  length : s.leases.connections.length = connections.length
  held : ∀ i c, c ∈ s.leases.held i ↔ (s.execute i).connection = some c
  freed : ∀ i, s.execute i = .returned none → ∃ st o, ops i = .statement st o
  channel : ∀ c, ∃ part, Channel model ops connections s.execute (s.received c) (s.served c) c part

theorem Inv.new (hfresh : ∀ c ∈ connections, c.isAvaliable = true) :
    Inv model ops connections (SharedPool.new connections) where
  leases := .start ⟨hfresh, fun _ => rfl, fun _ => rfl⟩
  handles _ := rfl
  length := rfl
  held i c := by simp [SharedPool.new, ExecuteAt.connection]
  freed := nofun
  channel c := by
    refine ⟨[], rfl, ?_, fun _ => rfl, nofun, nofun⟩
    simp [SharedPool.new]

variable {s s' : SharedPool ι}

/-- No two operations have one connection. -/
theorem Inv.exclusive (hs : Inv model ops connections s) {i j : ι} {c : Nat}
    (hi : (s.execute i).connection = some c) (hj : (s.execute j).connection = some c) : j = i := by
  obtain ⟨holders, -, hd⟩ := LeaseState.simulates.reachable hs.leases
  exact hd.exclusive ((hs.held j c).mpr hj) ((hs.held i c).mpr hi)

theorem Inv.others (hs : Inv model ops connections s) {i : ι} {c : Nat}
    (hi : (s.execute i).connection = some c) :
    ∀ j, j ≠ i → (s.execute j).connection ≠ some c :=
  fun _ hne hj => hne (hs.exclusive hi hj)

theorem Inv.shareOf_eq (hs : Inv model ops connections s) (i : ι) (c : Nat) :
    s.shareOf model ops i c = (ops i).share model (handleAt connections c) := by
  rw [shareOf, hs.handles]

theorem Inv.held_update (hs : Inv model ops connections s) {at_ : ExecuteAt}
    (hsame : at_.connection = (s.execute i).connection) (j : ι) (d : Nat) :
    d ∈ s.leases.held j ↔ (Function.update s.execute i at_ j).connection = some d := by
  rw [hs.held]
  by_cases hj : j = i
  · rw [hj, Function.update_self, hsame]
  · rw [Function.update_of_ne hj]

theorem Inv.freed_update (hs : Inv model ops connections s) {at_ : ExecuteAt}
    (hat : at_ = .returned none → ∃ st o, ops i = .statement st o) (j : ι)
    (hj : Function.update s.execute i at_ j = .returned none) : ∃ st o, ops j = .statement st o := by
  by_cases hji : j = i
  · rw [hji, Function.update_self] at hj
    rw [hji]
    exact hat hj
  · rw [Function.update_of_ne hji] at hj
    exact hs.freed j hj

theorem Inv.call (hs : Inv model ops connections s) {leases : LeaseState ι}
    (hbefore : s.execute i = .before) (h : s.leases.step (.call i) = some leases) :
    Inv model ops connections (moveTo { s with leases := leases } i .leasing) := by
  obtain ⟨hheld, hconns⟩ := LeaseState.call_returns h
  refine ⟨hs.leases.next ⟨_, h⟩, ?_, ?_, ?_, hs.freed_update nofun, ?_⟩
  · intro c
    rw [← hs.handles c, ← hconns]
    rfl
  · rw [← hs.length, ← hconns]
    rfl
  · intro j c
    show c ∈ leases.held j ↔ _
    rw [hheld]
    exact hs.held_update (by rw [hbefore]; rfl) j c
  · intro c
    obtain ⟨part, hc⟩ := hs.channel c
    refine ⟨part, hc.frame ?_ ?_⟩
    · rw [hbefore]
      exact nofun
    · exact nofun

/-- The scan goes on, or ends in a fault; nothing is taken. -/
theorem Inv.pass (hs : Inv model ops connections s) {leases : LeaseState ι}
    (h : s.leases.step (.compareExchange i) = some leases)
    (hheld : leases.held = s.leases.held) (hconns : leases.connections = s.leases.connections) :
    Inv model ops connections { s with leases := leases } where
  leases := hs.leases.next ⟨_, h⟩
  handles c := by rw [← hs.handles c, ← hconns]
  length := by rw [← hs.length, ← hconns]
  held j c := by
    show c ∈ leases.held j ↔ _
    rw [hheld]
    exact hs.held j c
  freed := hs.freed
  channel := hs.channel

/-- Taking connection `k`, which nobody had. -/
theorem Inv.take (hs : Inv model ops connections s) {leases : LeaseState ι} {k : Nat}
    {conn : SQLConnection} (hleasing : s.execute i = .leasing)
    (h : s.leases.step (.compareExchange i) = some leases)
    (hconn : s.leases.connections[k]? = some conn)
    (hheld : leases.held = Function.update s.leases.held i (insert k (s.leases.held i)))
    (hconns : leases.connections = s.leases.connections.set k { conn with isAvaliable := false }) :
    Inv model ops connections (moveTo { s with leases := leases } i (.sending k [])) := by
  have hnone : ∀ c, (s.execute i).connection ≠ some c := by
    intro c
    rw [hleasing]
    exact nofun
  have hown : ∀ j c, c ∈ leases.held j ↔
      (Function.update s.execute i (.sending k []) j).connection = some c := by
    intro j c
    rw [hheld]
    by_cases hj : j = i
    · rw [hj, Function.update_self, Function.update_self, Finset.mem_insert, hs.held]
      constructor
      · rintro (heq | hheld)
        · rw [heq]
          rfl
        · exact absurd hheld (hnone c)
      · intro heq
        exact Or.inl (Option.some.inj heq).symm
    · rw [Function.update_of_ne hj, Function.update_of_ne hj, hs.held]
  have hreach : (LeaseState.system ι).Reachable leases := hs.leases.next ⟨_, h⟩
  refine ⟨hreach, ?_, ?_, hown, hs.freed_update nofun, ?_⟩
  · intro c
    show handleAt leases.connections c = _
    rw [hconns, handleAt_set hconn]
    exact hs.handles c
  · show leases.connections.length = _
    rw [hconns, List.length_set]
    exact hs.length
  · intro c
    obtain ⟨part, hc⟩ := hs.channel c
    by_cases hck : c = k
    · -- Nobody had it before: the exchange found the flag up.
      subst hck
      have hothers : ∀ j, j ≠ i → (s.execute j).connection ≠ some c := by
        intro j hj hjc
        obtain ⟨holders, -, hd⟩ := LeaseState.simulates.reachable hreach
        have hmine : c ∈ leases.held i := (hown i c).mpr (by rw [Function.update_self]; rfl)
        have hyours : c ∈ leases.held j := (hown j c).mpr (by rwa [Function.update_of_ne hj])
        exact hj (hd.exclusive hyours hmine)
      have hempty : part = [] := by
        apply hc.unused
        intro j
        by_cases hj : j = i
        · rw [hj]
          exact hnone c
        · exact hothers j hj
      subst hempty
      refine ⟨[], .of_sole_user hc.received hc.served hothers (fun _ => rfl) ?_ nofun⟩
      intro sent hsent
      cases hsent
      rfl
    · exact ⟨part, hc.frame (hnone c) (connection_ne rfl hck)⟩

theorem Inv.send (hs : Inv model ops connections s) {sent : List Sent} (x : Sent)
    (hsending : s.execute i = .sending c sent) :
    Inv model ops connections (moveTo
      { s with received := Function.update s.received c (s.received c ++ [x]) } i
      (.sending c (sent ++ [x]))) := by
  have hmine : (s.execute i).connection = some c := by rw [hsending]; rfl
  refine ⟨hs.leases, hs.handles, hs.length, ?_, hs.freed_update nofun, ?_⟩
  · exact hs.held_update (by rw [hsending]; rfl)
  · intro d
    obtain ⟨part, hd⟩ := hs.channel d
    show ∃ part, Channel model ops connections (Function.update s.execute i _)
      (Function.update s.received c _ d) (s.served d) d part
    by_cases hdc : d = c
    · subst hdc
      obtain rfl := hd.sending i sent hsending
      rw [Function.update_self]
      refine ⟨part ++ [x], .of_sole_user ?_ hd.served (hs.others hmine) ?_ ?_ nofun⟩
      · rw [← List.append_assoc, ← hd.received]
      · intro hnot
        exact absurd rfl hnot
      · intro sent hsent
        cases hsent
        rfl
    · rw [Function.update_of_ne hdc]
      exact ⟨part, hd.frame (connection_ne hmine hdc) (connection_ne rfl hdc)⟩

/-- The end of an operation that keeps its connection. -/
theorem Inv.keep (hs : Inv model ops connections s) {sent : List Sent}
    (hsending : s.execute i = .sending c sent)
    (hshare : (ops i).share model (handleAt connections c) = .ok (sent, false)) :
    Inv model ops connections (s.moveTo i (.returned (some c))) := by
  have hmine : (s.execute i).connection = some c := by rw [hsending]; rfl
  refine ⟨hs.leases, hs.handles, hs.length, ?_, hs.freed_update nofun, ?_⟩
  · exact hs.held_update (by rw [hsending]; rfl)
  · intro d
    obtain ⟨part, hd⟩ := hs.channel d
    by_cases hdc : d = c
    · subst hdc
      obtain rfl := hd.sending i sent hsending
      refine ⟨part, .of_sole_user hd.received hd.served (hs.others hmine) ?_ nofun ?_⟩
      · intro hnot
        exact absurd rfl hnot
      · exact fun _ => hshare
    · exact ⟨part, hd.frame (connection_ne hmine hdc) (connection_ne rfl hdc)⟩

/-- The end of an operation that frees its connection: what it said is a conversation now. -/
theorem Inv.free (hs : Inv model ops connections s) {sent : List Sent} {leases : LeaseState ι}
    (hsending : s.execute i = .sending c sent)
    (hshare : (ops i).share model (handleAt connections c) = .ok (sent, true))
    (h : s.leases.step (.freeUpConnection i c) = some leases) :
    Inv model ops connections (moveTo
      { s with leases := leases, served := Function.update s.served c (s.served c ++ [i]) } i
      (.returned none)) := by
  have hmine : (s.execute i).connection = some c := by rw [hsending]; rfl
  obtain ⟨conn, b, hconn, hheld, hconns⟩ := LeaseState.freeUpConnection_returns h
  refine ⟨hs.leases.next ⟨_, h⟩, ?_, ?_, ?_,
    hs.freed_update fun _ => Operation.statement_of_frees hshare, ?_⟩
  · intro d
    show handleAt leases.connections d = _
    rw [hconns, handleAt_set hconn]
    exact hs.handles d
  · show leases.connections.length = _
    rw [hconns, List.length_set]
    exact hs.length
  · intro j d
    show d ∈ leases.held j ↔ (Function.update s.execute i (.returned none) j).connection = some d
    rw [hheld]
    by_cases hj : j = i
    · rw [hj, Function.update_self, Function.update_self, Finset.mem_erase, hs.held, hmine]
      constructor
      · rintro ⟨hne, heq⟩
        exact absurd (Option.some.inj heq).symm hne
      · exact nofun
    · rw [Function.update_of_ne hj, Function.update_of_ne hj, hs.held]
  · intro d
    obtain ⟨part, hd⟩ := hs.channel d
    show ∃ part, Channel model ops connections (Function.update s.execute i _) (s.received d)
      (Function.update s.served c _ d) d part
    by_cases hdc : d = c
    · subst hdc
      obtain rfl := hd.sending i sent hsending
      rw [Function.update_self]
      refine ⟨[], .of_sole_user ?_ ?_ (hs.others hmine) (fun _ => rfl) nofun nofun⟩
      · have hsaid : said ((ops i).share model (handleAt connections d)) = part := by
          simp only [said, hshare]
        rw [List.flatMap_append, List.flatMap_singleton, hsaid, List.append_nil]
        exact hd.received
      · intro j hj
        rcases List.mem_append.mp hj with hold | hnew
        · exact hd.served j hold
        · rw [List.mem_singleton.mp hnew]
          exact ⟨part, hshare⟩
    · rw [Function.update_of_ne hdc]
      exact ⟨part, hd.frame (connection_ne hmine hdc) nofun⟩

/-- **One step**, if it does not fault. -/
theorem Inv.step (hs : Inv model ops connections s) {e : PoolEvent ι}
    (h : s.step model ops e = some (.ok s')) : Inv model ops connections s' := by
  cases e with
  | call i =>
    simp only [SharedPool.step] at h
    split at h
    · rename_i hbefore
      obtain ⟨leases, hleases, heq⟩ := Option.map_eq_some_iff.mp h
      cases heq
      exact hs.call hbefore hleases
    · cases h
  | compareExchange i =>
    simp only [SharedPool.step] at h
    split at h
    · rename_i k hleasing hscanning
      obtain ⟨leases, hleases, heq⟩ := Option.map_eq_some_iff.mp h
      rcases LeaseState.compareExchange_cases hscanning hleases with
        ⟨hheld, hconns⟩ | ⟨conn, hconn, hover, hheld, hconns⟩
      · split at heq
        · cases heq
          exact hs.pass hleases hheld hconns
        · -- It held nothing before, so it holds nothing now.
          have hnot : k ∉ leases.held i := by
            rw [hheld, hs.held, hleasing]
            exact nofun
          rw [if_neg hnot] at heq
          cases heq
      · have hmem : k ∈ leases.held i := by
          rw [hheld, Function.update_self]
          exact Finset.mem_insert_self ..
        rw [hover, if_neg nofun, if_pos hmem] at heq
        cases heq
        exact hs.take hleasing hleases hconn hheld hconns
    · cases h
  | send i x =>
    simp only [SharedPool.step] at h
    split at h
    · rename_i c sent hsending
      split at h
      · cases h
        exact hs.send x hsending
      · cases h
    · cases h
  | finish i =>
    simp only [SharedPool.step] at h
    split at h
    · rename_i c sent hsending
      split at h
      · cases h
      · rename_i calls frees hshare
        rw [hs.shareOf_eq] at hshare
        split at h
        · rename_i hall
          subst hall
          cases frees with
          | true =>
            obtain ⟨leases, hleases, heq⟩ := Option.map_eq_some_iff.mp h
            cases heq
            exact hs.free hsending hshare hleases
          | false =>
            cases h
            exact hs.keep hsending hshare
        · cases h
    · cases h
  | fault i =>
    simp only [SharedPool.step] at h
    split at h
    · split at h
      · cases h
      · cases h
    · cases h

theorem reachable_inv (hfresh : ∀ c ∈ connections, c.isAvaliable = true)
    (h : (machine model ops connections).system.Reachable (.ok s)) : Inv model ops connections s := by
  have hall : ∀ t, (Except.ok s : Except Fault (SharedPool ι)) = .ok t →
      Inv model ops connections t := by
    refine Machine.invariant (M := machine model ops connections)
      (P := fun r => ∀ t, r = .ok t → Inv model ops connections t) ?_ ?_ h
    · rintro t heq
      cases heq
      exact Inv.new hfresh
    · rintro r e r' hr hstep t rfl
      cases r with
      | error fault => cases hstep
      | ok s₀ => exact (hr s₀ rfl).step hstep
  exact hall s rfl

/-! ## Conversations -/

/-- The holder of a connection whose flag is down. -/
theorem Inv.holder (hs : Inv model ops connections s) {conn : SQLConnection}
    (hconn : s.leases.connections[c]? = some conn) :
    conn.isAvaliable = false ↔ ∃ i, (s.execute i).connection = some c := by
  obtain ⟨holders, -, hd⟩ := LeaseState.simulates.reachable hs.leases
  rw [← LeaseState.flag_eq_of_getElem? hconn, hd.unavailable_iff]
  exact exists_congr fun i => hs.held i c

/-- **One operation at a time.** Whatever the operations do and however their steps are interleaved, if
none starts with the handle of an earlier run, what the server has received over a connection is a
sequence of whole conversations, one for each operation that has freed it, all of them statements;
followed, while its flag is down, by what its one holder has said so far, or has said in all if it has
returned and kept the connection. -/
theorem connections_used_serially (model : DataModel) (ops : ι → Operation)
    (connections : List SQLConnection) (hfresh : ∀ c ∈ connections, c.isAvaliable = true)
    (hnone : ∀ i, (ops i).WithoutHandle)
    (s : SharedPool ι) (h : (machine model ops connections).system.Reachable (.ok s)) (c : Nat)
    (conn : SQLConnection) (hconn : s.leases.connections[c]? = some conn) :
    (∀ i ∈ s.served c, ∃ st o, ops i = .statement st o) ∧
    ∃ part,
      s.received c = (s.served c).flatMap (fun i => transcript model ops connections i c) ++ part ∧
      (conn.isAvaliable = true → part = []) ∧
      (conn.isAvaliable = false → ∃ i, (∀ j, (s.execute j).connection = some c ↔ j = i) ∧
        (s.execute i = .sending c part ∨ s.execute i = .returned (some c) ∧
          (ops i).script model (handleAt connections c) = .ok (part, false))) := by
  have hs := reachable_inv hfresh h
  obtain ⟨part, hc⟩ := hs.channel c
  have hsame : ∀ i, (ops i).share model (handleAt connections c) =
      (ops i).script model (handleAt connections c) :=
    fun i => Operation.share_eq_script (hnone i) _
  have hreceived : s.received c =
      (s.served c).flatMap (fun i => transcript model ops connections i c) ++ part := by
    simp only [transcript, ← hsame]
    exact hc.received
  refine ⟨?_, part, hreceived, ?_, ?_⟩
  · intro i hi
    obtain ⟨calls, hshare⟩ := hc.served i hi
    exact Operation.statement_of_frees hshare
  · intro hup
    apply hc.unused
    intro i hi
    rw [(hs.holder hconn).mpr ⟨i, hi⟩] at hup
    cases hup
  · intro hdown
    obtain ⟨i, hi⟩ := (hs.holder hconn).mp hdown
    refine ⟨i, ?_, ?_⟩
    · intro j
      constructor
      · exact hs.exclusive hi
      · rintro rfl
        exact hi
    · cases hat : s.execute i with
      | before => rw [hat] at hi; cases hi
      | leasing => rw [hat] at hi; cases hi
      | sending d sent =>
        rw [hat] at hi
        cases hi
        rw [hc.sending i sent hat]
        exact Or.inl rfl
      | returned kept =>
        rw [hat] at hi
        cases hi
        exact Or.inr ⟨rfl, (hsame i).symm.trans (hc.returned i hat)⟩

/-- A `SELECT ?` with an empty result set, and a transaction with one statement. -/
def sampleOperations : Bool → Operation
  | false => .statement (.new 0 (ascii "SELECT ?"))
      { Operation.acceptAll with stmtResultMetadata := some ⟨[⟨.LONG, false, false, 0⟩], 0⟩ }
  | true => .transaction (.build 0 [ascii "DELETE FROM t"]) fun _ => true

theorem sampleOperations_without : ∀ i, (sampleOperations i).WithoutHandle
  | false => fun _ hcontra => by cases hcontra
  | true => trivial

def sampleConnections : List SQLConnection :=
  [⟨some 0, [], SQLDatabase.sampleInfo.toSQLConnectionInfo, true⟩]

/-- One after the other on the one connection, the transaction without its end. -/
def sampleRun : List (PoolEvent Bool) :=
  let said := fun i => transcript .LP64 sampleOperations sampleConnections i 0
  [.call false, .compareExchange false] ++ (said false).map (.send false) ++
    [.finish false, .call true, .compareExchange true] ++ (said true).map (.send true)

theorem connections_used_serially_sample :
    ∃ s conn part, (machine .LP64 sampleOperations sampleConnections).system.Reachable (.ok s) ∧
      s.leases.connections[0]? = some conn ∧ s.served 0 = [false] ∧
      s.received 0 = (s.served 0).flatMap
        (fun i => transcript .LP64 sampleOperations sampleConnections i 0) ++ part ∧
      ∃ i, (∀ j, (s.execute j).connection = some 0 ↔ j = i) ∧
        (s.execute i = .sending 0 part ∨ s.execute i = .returned (some 0) ∧
          (sampleOperations i).script .LP64 (handleAt sampleConnections 0) = .ok (part, false)) := by
  have hrun : (((machine .LP64 sampleOperations sampleConnections).run
      (machine .LP64 sampleOperations sampleConnections).start sampleRun).bind
        Except.toOption).map (fun s => (s.served 0, s.leases.connections[0]?.map (·.isAvaliable))) =
          some ([false], some false) := by
    decide +kernel
  obtain ⟨s, hs, hend⟩ := Option.map_eq_some_iff.mp hrun
  obtain ⟨r, hr, hok⟩ := Option.bind_eq_some_iff.mp hs
  have hreach := Machine.run_reachable hr
  cases r with
  | error fault => cases hok
  | ok s₀ =>
    cases hok
    obtain ⟨conn, hconn, hdown⟩ := Option.map_eq_some_iff.mp (congrArg Prod.snd hend)
    obtain ⟨-, part, hreceived, -, hholder⟩ := connections_used_serially .LP64 sampleOperations
      sampleConnections (by simp [sampleConnections]) sampleOperations_without s hreach 0 conn hconn
    exact ⟨s, conn, part, hreach, hconn, congrArg Prod.fst hend, hreceived, hholder hdown⟩

/-! ## What a transaction leaves behind -/

/-- Whose step it was: an operation that has not returned. It is the only one that moved, and it wrote
to no connection but its own. -/
theorem step_mover {e : PoolEvent ι} (h : s.step model ops e = some (.ok s')) :
    ∃ i, (∀ kept, s.execute i ≠ .returned kept) ∧ (∀ j, j ≠ i → s'.execute j = s.execute j) ∧
      ∀ d, (s.execute i).connection ≠ some d → s'.received d = s.received d := by
  cases e with
  | call i =>
    simp only [SharedPool.step] at h
    split at h
    · rename_i hbefore
      obtain ⟨leases, -, heq⟩ := Option.map_eq_some_iff.mp h
      cases heq
      refine ⟨i, ?_, fun j hj => Function.update_of_ne hj .., fun _ _ => rfl⟩
      rw [hbefore]
      exact nofun
    · cases h
  | compareExchange i =>
    simp only [SharedPool.step] at h
    split at h
    · rename_i k hleasing _
      obtain ⟨leases, -, heq⟩ := Option.map_eq_some_iff.mp h
      have hfirst : ∀ kept, s.execute i ≠ .returned kept := by
        rw [hleasing]
        exact nofun
      split at heq
      · cases heq
        exact ⟨i, hfirst, fun _ _ => rfl, fun _ _ => rfl⟩
      · split at heq
        · cases heq
          exact ⟨i, hfirst, fun j hj => Function.update_of_ne hj .., fun _ _ => rfl⟩
        · cases heq
    · cases h
  | send i x =>
    simp only [SharedPool.step] at h
    split at h
    · rename_i c sent hsending
      split at h
      · cases h
        refine ⟨i, ?_, fun j hj => Function.update_of_ne hj .., ?_⟩
        · rw [hsending]
          exact nofun
        · intro d hd
          rw [hsending] at hd
          exact Function.update_of_ne (fun heq => hd (congrArg some heq.symm)) ..
      · cases h
    · cases h
  | finish i =>
    simp only [SharedPool.step] at h
    split at h
    · rename_i c sent hsending
      have hfirst : ∀ kept, s.execute i ≠ .returned kept := by
        rw [hsending]
        exact nofun
      split at h
      · cases h
      · split at h
        · split at h
          · obtain ⟨leases, -, heq⟩ := Option.map_eq_some_iff.mp h
            cases heq
            exact ⟨i, hfirst, fun j hj => Function.update_of_ne hj .., fun _ _ => rfl⟩
          · cases h
            exact ⟨i, hfirst, fun j hj => Function.update_of_ne hj .., fun _ _ => rfl⟩
        · cases h
    · cases h
  | fault i =>
    simp only [SharedPool.step] at h
    split at h
    · split at h
      · cases h
      · cases h
    · cases h

/-- An operation that has returned takes no step, and nobody else has the connection it kept. -/
theorem Inv.step_kept (hs : Inv model ops connections s) {e : PoolEvent ι}
    (hkept : s.execute i = .returned (some c)) (h : s.step model ops e = some (.ok s')) :
    s'.execute i = .returned (some c) ∧ s'.received c = s.received c := by
  obtain ⟨j, hfirst, hothers, hwrites⟩ := step_mover h
  have hne : i ≠ j := by
    rintro rfl
    exact hfirst (some c) hkept
  refine ⟨(hothers i hne).trans hkept, hwrites c ?_⟩
  intro hj
  exact hne (hs.exclusive (i := j) (j := i) hj (by rw [hkept]; rfl))

theorem Inv.lt_length (hs : Inv model ops connections s) (hi : (s.execute i).connection = some c) :
    c < connections.length := by
  obtain ⟨holders, -, hd⟩ := LeaseState.simulates.reachable hs.leases
  have hflag : s.leases.flag c = false := (hd.unavailable_iff c).mpr ⟨i, (hs.held i c).mpr hi⟩
  rw [← hs.length]
  by_contra hlong
  rw [LeaseState.flag, List.getElem?_eq_none (Nat.le_of_not_lt hlong)] at hflag
  cases hflag

/-- A transaction that has returned has kept a connection. -/
theorem Inv.transaction_keeps (hs : Inv model ops connections s) {tx : SQLTransaction}
    {outcome : Nat → Bool} (hop : ops i = .transaction tx outcome) {kept : Option Nat}
    (hret : s.execute i = .returned kept) : ∃ c, kept = some c := by
  cases kept with
  | some c => exact ⟨c, rfl⟩
  | none =>
    obtain ⟨st, o, hst⟩ := hs.freed i hret
    rw [hop] at hst
    cases hst

/-- **A transaction is the last to use its connection.** Whatever else goes on, a transaction that has
returned has kept a connection, over which nothing is sent any more in any continuation of the run; so
no more transactions return than the pool has connections. -/
theorem transactions_use_up_the_pool (model : DataModel) (ops : ι → Operation)
    (connections : List SQLConnection) (hfresh : ∀ c ∈ connections, c.isAvaliable = true)
    (s : SharedPool ι) (h : (machine model ops connections).system.Reachable (.ok s)) :
    (∀ i tx outcome kept, ops i = .transaction tx outcome → s.execute i = .returned kept →
      ∃ c, kept = some c ∧ ∀ es s', (machine model ops connections).run (.ok s) es = some (.ok s') →
        s'.received c = s.received c) ∧
    ∀ returned : Finset ι,
      (∀ i ∈ returned, (∃ tx outcome, ops i = .transaction tx outcome) ∧
        ∃ kept, s.execute i = .returned kept) → returned.card ≤ connections.length := by
  have hs := reachable_inv hfresh h
  constructor
  · intro i tx outcome kept hop hret
    obtain ⟨c, rfl⟩ := hs.transaction_keeps hop hret
    refine ⟨c, rfl, ?_⟩
    intro es s' hrun
    -- The invariant of the run: the operation is where it was, and so is the transcript.
    have hkeeps := Machine.run_keeps (M := machine model ops connections)
      (P := fun r => ∀ t, r = .ok t → Inv model ops connections t ∧
        t.execute i = .returned (some c) ∧ t.received c = s.received c)
      (fun t heq => by cases heq; exact ⟨hs, hret, rfl⟩)
      (fun r e r' _ hr hstep t heq => by
        subst heq
        cases r with
        | error fault => cases hstep
        | ok t₀ =>
          obtain ⟨hinv, hat, hsame⟩ := hr t₀ rfl
          obtain ⟨hat', hsame'⟩ := hinv.step_kept hat hstep
          exact ⟨hinv.step hstep, hat', hsame'.trans hsame⟩) hrun
    exact (hkeeps s' rfl).2.2
  · intro returned hall
    have hkept : ∀ i ∈ returned, ∃ c, (s.execute i).connection = some c := by
      intro i hi
      obtain ⟨⟨tx, outcome, hop⟩, kept, hret⟩ := hall i hi
      obtain ⟨c, rfl⟩ := hs.transaction_keeps hop hret
      exact ⟨c, by rw [hret]; rfl⟩
    choose! conn hconn using hkept
    have hinj : Set.InjOn conn returned := by
      intro i hi j hj heq
      have hi' := hconn i hi
      rw [heq] at hi'
      exact hs.exclusive (hconn j hj) hi'
    have hrange : Set.MapsTo conn returned (Finset.range connections.length) := by
      intro i hi
      exact Finset.mem_coe.mpr (Finset.mem_range.mpr (hs.lt_length (hconn i hi)))
    calc returned.card ≤ (Finset.range connections.length).card :=
          Finset.card_le_card_of_injOn conn hrange hinj
      _ = connections.length := Finset.card_range _

/-- The transaction of `sampleRun` has come to its end. -/
theorem transactions_use_up_the_pool_sample :
    ∃ s, (machine .LP64 sampleOperations sampleConnections).system.Reachable (.ok s) ∧
      ∃ c, s.execute true = .returned (some c) ∧ ∀ es s',
        (machine .LP64 sampleOperations sampleConnections).run (.ok s) es = some (.ok s') →
          s'.received c = s.received c := by
  have hrun : (((machine .LP64 sampleOperations sampleConnections).run
      (machine .LP64 sampleOperations sampleConnections).start (sampleRun ++ [.finish true])).bind
        Except.toOption).map
          (fun s => match s.execute true with | .returned kept => some kept | _ => none) =
            some (some (some 0)) := by
    decide +kernel
  obtain ⟨s, hs, hend⟩ := Option.map_eq_some_iff.mp hrun
  obtain ⟨r, hr, hok⟩ := Option.bind_eq_some_iff.mp hs
  have hreach := Machine.run_reachable hr
  cases r with
  | error fault => cases hok
  | ok s₀ =>
    cases hok
    have hat : s.execute true = .returned (some 0) := by
      cases hat : s.execute true with
      | returned kept =>
        rw [hat] at hend
        cases hend
        rfl
      | _ =>
        rw [hat] at hend
        cases hend
    obtain ⟨c, hc, hsilent⟩ := (transactions_use_up_the_pool .LP64 sampleOperations sampleConnections
      (by simp [sampleConnections]) s hreach).1 true _ _ _ rfl hat
    exact ⟨s, hreach, c, by rw [hat, hc], hsilent⟩

end SharedPool

end ServerTest.Database
