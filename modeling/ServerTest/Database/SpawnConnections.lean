import ServerTest.Database.SQLDatabase

/-!
# Opening the connections

`SQLConnectionPool::SpawnConnections` and `SQLDatabase::SpawnSQLConnections`. The loop is short; what
makes it worth a model is what it stands on.

* The count is a `uint32`, the guard asks whether it is `<= 0` and the counter is an `int`. A
  placeholder pool, whose count is the marker `-1`, passes the guard as `2 ^ 32 - 1`, and a count
  from `2 ^ 31` on makes the counter overflow, which is undefined.
* The counter starts at `ActiveConnectionCount`, which is set only at the end, and indexes a vector
  that `emplace_back` extends at its own end. After a failure the two have parted.
* A vector that outgrows its capacity moves its elements and destroys the old ones. The move
  constructor of `SQLConnection` copies the handle, the destructor closes it, and the element in the
  new storage keeps a handle that is closed.

What the outside decides is `SpawnAnswers`: the allocator (`memory n` says that a vector of `n`
connections gets its storage, `growTo` how far the library grows a full one) and the MySQL client.
`attempts` counts calls of `Connect`; `capacity` is the storage the vector has reserved.
-/

set_option autoImplicit false

namespace ServerTest.Database

open Lib

/-! ## One connection -/

/-- How `Connect` goes: `mysql_init` fails, `mysql_real_connect` fails, or neither does. -/
inductive ConnectOutcome where
  | initFailed
  | refused
  | connected
  deriving DecidableEq, Repr

/-- How `PrepareStatement` goes: `mysql_stmt_init` fails, `mysql_stmt_prepare` fails, or neither
does. -/
inductive PrepareOutcome where
  | initFailed
  | refused
  | prepared
  deriving DecidableEq, Repr

/-- The handles given out so far are those below `opened`; `closed` have been passed to
`mysql_close`. -/
structure MySqlClient where
  opened : Nat
  closed : List MYSQL
  deriving DecidableEq, Repr

/-- A handle that was opened and not closed. -/
def MySqlClient.Live (client : MySqlClient) (conn : SQLConnection) : Prop :=
  ∃ handle, conn.mySqlHandle = some handle ∧ handle < client.opened ∧ handle ∉ client.closed

namespace SQLConnection

/-- `SQLConnection::SQLConnection(SQLConnectionInfo&)`. -/
def ofInfo (info : SQLConnectionInfo) : SQLConnection where
  mySqlHandle := none
  preparedStatements := []
  connectionInfo := info
  isAvaliable := true

/-- `Connect`. A handle the connection already had is not closed, and a failing `mysql_init` leaves
it in place. -/
def connect (conn : SQLConnection) (client : MySqlClient) :
    ConnectOutcome → Status × SQLConnection × MySqlClient
  | .initFailed => (.FAILED, conn, client)
  | .refused => (.FAILED, { conn with mySqlHandle := none }, client)
  | .connected =>
    (.OK, { conn with mySqlHandle := some client.opened },
      { client with opened := client.opened + 1 })

/-- `PrepareStatement`. A statement is known by the string it was prepared from. -/
def prepareStatement (conn : SQLConnection) (stmtString : Bytes) :
    PrepareOutcome → Status × SQLConnection
  | .initFailed => (.FAILED, conn)
  | .refused => (.FAILED, conn)
  | .prepared => (.OK, { conn with preparedStatements := conn.preparedStatements ++ [stmtString] })

/-- The loop of `InitPreparedStatements` from string `k` on. What `PrepareStatement` returns is
compared with `OK`, and the branch is empty. -/
def prepareFrom (prepares : Nat → PrepareOutcome) : Nat → List Bytes → SQLConnection → SQLConnection
  | _, [], conn => conn
  | k, stmt :: rest, conn =>
    let conn := (conn.prepareStatement stmt (prepares k)).2
    prepareFrom prepares (k + 1) rest conn

def initPreparedStatements (conn : SQLConnection) (prepares : Nat → PrepareOutcome)
    (preparedStmtStrings : List Bytes) : Status × SQLConnection :=
  (.OK, conn.prepareFrom prepares 0 preparedStmtStrings)

/-- The two calls the loop makes: `Connect`, and `InitPreparedStatements` if that was `OK`. -/
def connectAndPrepare (conn : SQLConnection) (client : MySqlClient) (outcome : ConnectOutcome)
    (prepares : Nat → PrepareOutcome) (preparedStmtStrings : List Bytes) :
    Status × SQLConnection × MySqlClient :=
  match conn.connect client outcome with
  | (.OK, conn, client) =>
    let (status, conn) := conn.initPreparedStatements prepares preparedStmtStrings
    (status, conn, client)
  | failed => failed

/-- Nothing is prepared on a connection that was not opened. -/
theorem connectAndPrepare_unconnected {conn : SQLConnection} {client : MySqlClient}
    {outcome : ConnectOutcome} {prepares : Nat → PrepareOutcome} {strings : List Bytes}
    (h : outcome ≠ .connected) :
    conn.connectAndPrepare client outcome prepares strings = conn.connect client outcome := by
  cases outcome with
  | initFailed => rfl
  | refused => rfl
  | connected => exact absurd rfl h

/-- The strings from `k` on whose prepare succeeds. -/
def preparedOf (prepares : Nat → PrepareOutcome) : Nat → List Bytes → List Bytes
  | _, [] => []
  | k, stmt :: rest =>
    if prepares k = .prepared then stmt :: preparedOf prepares (k + 1) rest
    else preparedOf prepares (k + 1) rest

/-- The loop appends the statements it could prepare, and changes nothing else. -/
theorem prepareFrom_eq (prepares : Nat → PrepareOutcome) (k : Nat) (strings : List Bytes)
    (conn : SQLConnection) :
    conn.prepareFrom prepares k strings =
      { conn with preparedStatements :=
        conn.preparedStatements ++ preparedOf prepares k strings } := by
  induction strings generalizing k conn with
  | nil => simp [prepareFrom, preparedOf]
  | cons stmt rest ih =>
    rw [prepareFrom, ih, preparedOf]
    cases hk : prepares k with
    | initFailed => simp [prepareStatement]
    | refused => simp [prepareStatement]
    | prepared => simp [prepareStatement]

/-- A new connection is connected to a handle nobody had before, or has none. -/
theorem connectAndPrepare_ofInfo (info : SQLConnectionInfo) (client : MySqlClient)
    (outcome : ConnectOutcome) (prepares : Nat → PrepareOutcome) (strings : List Bytes) :
    ∃ status conn client',
      (ofInfo info).connectAndPrepare client outcome prepares strings = (status, conn, client') ∧
      conn.isAvaliable = true ∧ client'.closed = client.closed ∧
      ((outcome = .connected ∧ status = .OK ∧ conn.mySqlHandle = some client.opened ∧
          conn.preparedStatements = preparedOf prepares 0 strings ∧
          client'.opened = client.opened + 1) ∨
        (outcome ≠ .connected ∧ status = .FAILED ∧ conn.mySqlHandle = none)) := by
  cases outcome with
  | initFailed => exact ⟨_, _, _, rfl, rfl, rfl, Or.inr ⟨by simp, rfl, rfl⟩⟩
  | refused => exact ⟨_, _, _, rfl, rfl, rfl, Or.inr ⟨by simp, rfl, rfl⟩⟩
  | connected =>
    have hrun : (ofInfo info).connectAndPrepare client .connected prepares strings =
        (.OK, { ofInfo info with
            mySqlHandle := some client.opened
            preparedStatements := preparedOf prepares 0 strings },
          { client with opened := client.opened + 1 }) := by
      simp [connectAndPrepare, connect, initPreparedStatements, prepareFrom_eq, ofInfo]
    exact ⟨_, _, _, hrun, rfl, rfl, Or.inl ⟨rfl, rfl, rfl, rfl, rfl⟩⟩

end SQLConnection

/-! ## One pool -/

/-- What the outside decides during one call; `prepares i k` is for string `k` and the connection the
counter names when it is `i`. -/
structure SpawnAnswers where
  memory : Nat → Bool
  growTo : Nat → Nat
  connect : Nat → ConnectOutcome
  prepares : Nat → Nat → PrepareOutcome

/-- A pool, the storage its vector has, the client library, and the calls of `Connect` so far. -/
structure SpawnState where
  pool : SQLConnectionPool
  capacity : Nat
  client : MySqlClient
  attempts : Nat
  deriving DecidableEq, Repr

inductive SpawnEnd where
  | returned (status : Status)
  /-- `std::bad_alloc` or `std::length_error` -/
  | threw
  | undefined
  deriving DecidableEq, Repr

namespace SpawnState

/-- A pool nothing has been opened in. -/
def ofPool (client : MySqlClient) (pool : SQLConnectionPool) : SpawnState := ⟨pool, 0, client, 0⟩

/-- The vector moves to storage for `capacity` elements. The elements are moved, which copies their
handles, and the old ones are destroyed, which closes them. -/
def relocate (s : SpawnState) (capacity : Nat) : SpawnState :=
  { s with
    capacity := capacity
    client := { s.client with
      closed := s.client.closed ++ s.pool.connections.filterMap (·.mySqlHandle) } }

/-- `Connections.reserve(n)`; `none` if it throws. -/
def reserve (s : SpawnState) (a : SpawnAnswers) (n : Nat) : Option SpawnState :=
  if n ≤ s.capacity then some s
  else if a.memory n then some (s.relocate n) else none

/-- `Connections.emplace_back(SQLConnection(ConnectionPoolInfo))`; `none` if it throws. -/
def emplaceBack (s : SpawnState) (a : SpawnAnswers) : Option SpawnState :=
  let size := s.pool.connections.length
  let conn := SQLConnection.ofInfo s.pool.connectionPoolInfo.toSQLConnectionInfo
  let push (s : SpawnState) : SpawnState :=
    { s with pool := { s.pool with connections := s.pool.connections ++ [conn] } }
  if size < s.capacity then some (push s)
  else
    let capacity := max (size + 1) (a.growTo size)
    if a.memory capacity then some (push (s.relocate capacity)) else none

/-- `Connections[i].Connect()` and `Connections[i].InitPreparedStatements(..)`. `none` if there is no
such element; a negative `int` is an index past any end. -/
def connectAt (s : SpawnState) (a : SpawnAnswers) (i : Nat) : Option (Status × SpawnState) :=
  if 2 ^ 31 ≤ i then none
  else
    match s.pool.connections[i]? with
    | none => none
    | some conn =>
      let (status, conn, client) := conn.connectAndPrepare s.client (a.connect i) (a.prepares i)
        s.pool.preparedStatementStrings
      some (status, { s with
        pool := { s.pool with connections := s.pool.connections.set i conn }
        client := client
        attempts := s.attempts + 1 })

/-- The loop, with `left` values of the counter to go. `++i` is undefined at `INT_MAX`. -/
def spawnLoop (a : SpawnAnswers) : Nat → Nat → SpawnState → SpawnEnd × SpawnState
  | 0, _, s => (.returned .OK, s)
  | left + 1, i, s =>
    match s.emplaceBack a with
    | none => (.threw, s)
    | some s =>
      match s.connectAt a i with
      | none => (.undefined, s)
      -- The comparison with the count is made in `uint32`, where the counter is what it is.
      | some (.OK, s) => if i = 2 ^ 31 - 1 then (.undefined, s) else spawnLoop a left (i + 1) s
      | some (_, s) => (.returned .FAILED, s)

/-- `SQLConnectionPool::SpawnConnections`. -/
def spawnConnections (a : SpawnAnswers) (s : SpawnState) : SpawnEnd × SpawnState :=
  let count := s.pool.connectionPoolInfo.connectionCount
  let active := s.pool.activeConnectionCount
  if count ≤ 0 then (.returned .OK, s)
  else if active ≠ count then
    match s.reserve a count.toNat with
    | none => (.threw, s)
    | some s =>
      match spawnLoop a (count.toNat - active.toNat) active.toNat s with
      | (.returned .OK, s) =>
        (.returned .OK, { s with pool := { s.pool with activeConnectionCount := count } })
      | ended => ended
  else (.returned .OK, s)

/-! ### The loop on a vector it has not outgrown

While the counter is the size of the vector, an iteration appends one connection and connects that
one. This is the first call that gets its storage, and it is the only time it is so. -/

variable {a : SpawnAnswers} {s : SpawnState} {i left : Nat}

/-- The counter is the size of the vector, and what is left fits. -/
structure InStep (s : SpawnState) (i left : Nat) : Prop where
  size : s.pool.connections.length = i
  room : i + left ≤ s.capacity

theorem InStep.emplaceBack (h : s.InStep i (left + 1)) :
    s.emplaceBack a = some { s with pool := { s.pool with
      connections := s.pool.connections ++
        [.ofInfo s.pool.connectionPoolInfo.toSQLConnectionInfo] } } := by
  have hfits : s.pool.connections.length < s.capacity := by
    have hsize := h.size
    have hroom := h.room
    omega
  exact if_pos hfits

/-- One iteration: everything but the new last connection and the client stays. -/
structure Iterated (a : SpawnAnswers) (i : Nat) (s s' : SpawnState) (conn : SQLConnection) :
    Prop where
  connections : s'.pool.connections = s.pool.connections ++ [conn]
  available : conn.isAvaliable = true
  info : s'.pool.connectionPoolInfo = s.pool.connectionPoolInfo
  active : s'.pool.activeConnectionCount = s.pool.activeConnectionCount
  strings : s'.pool.preparedStatementStrings = s.pool.preparedStatementStrings
  capacity : s'.capacity = s.capacity
  closed : s'.client.closed = s.client.closed
  attempts : s'.attempts = s.attempts + 1

/-- The last connection is connected to a handle nobody had before, or has none. -/
theorem InStep.iterate (h : s.InStep i (left + 1)) (hi : i < 2 ^ 31) :
    ∃ s₁ s' conn status, s.emplaceBack a = some s₁ ∧ s₁.connectAt a i = some (status, s') ∧
      Iterated a i s s' conn ∧
      ((a.connect i = .connected ∧ status = .OK ∧ conn.mySqlHandle = some s.client.opened ∧
          conn.preparedStatements =
            SQLConnection.preparedOf (a.prepares i) 0 s.pool.preparedStatementStrings ∧
          s'.client.opened = s.client.opened + 1) ∨
        (a.connect i ≠ .connected ∧ status = .FAILED ∧ conn.mySqlHandle = none)) := by
  -- The element the counter names is the one just appended.
  have hlast : (s.pool.connections ++
      [SQLConnection.ofInfo s.pool.connectionPoolInfo.toSQLConnectionInfo])[i]? =
        some (.ofInfo s.pool.connectionPoolInfo.toSQLConnectionInfo) := by
    simp [← h.size]
  have hset : ∀ conn, (s.pool.connections ++
      [SQLConnection.ofInfo s.pool.connectionPoolInfo.toSQLConnectionInfo]).set i conn =
        s.pool.connections ++ [conn] := by
    intro conn
    simp [← h.size]
  obtain ⟨status, conn, client, hrun, havailable, hclosed, hcases⟩ :=
    SQLConnection.connectAndPrepare_ofInfo s.pool.connectionPoolInfo.toSQLConnectionInfo s.client
      (a.connect i) (a.prepares i) s.pool.preparedStatementStrings
  refine ⟨_, { s with
    pool := { s.pool with connections := s.pool.connections ++ [conn] }
    client := client
    attempts := s.attempts + 1 }, conn, status, h.emplaceBack, ?_,
    ⟨rfl, havailable, rfl, rfl, rfl, rfl, hclosed, rfl⟩, hcases⟩
  simp only [connectAt, if_neg (Nat.not_le.mpr hi), hlast, hrun, hset]

/-- Every connection has a live handle, and only handles that were opened are closed. -/
structure AllLive (s : SpawnState) : Prop where
  live : ∀ conn ∈ s.pool.connections, s.client.Live conn
  below : ∀ handle ∈ s.client.closed, handle < s.client.opened

theorem AllLive.iterate {s' : SpawnState} {conn : SQLConnection} (hs : s.AllLive)
    (h : Iterated a i s s' conn) (hhandle : conn.mySqlHandle = some s.client.opened)
    (hopened : s'.client.opened = s.client.opened + 1) : s'.AllLive := by
  constructor
  · intro c hc
    rw [h.connections] at hc
    rcases List.mem_append.mp hc with hc | hc
    · obtain ⟨handle, hsome, hlt, hopen⟩ := hs.live c hc
      rw [MySqlClient.Live, hopened, h.closed]
      exact ⟨handle, hsome, Nat.lt_succ_of_lt hlt, hopen⟩
    · rw [List.mem_singleton.mp hc, MySqlClient.Live, hopened, h.closed]
      refine ⟨s.client.opened, hhandle, Nat.lt_succ_self _, ?_⟩
      intro hmem
      exact absurd (hs.below _ hmem) (Nat.lt_irrefl _)
  · intro handle hmem
    rw [h.closed] at hmem
    rw [hopened]
    exact Nat.lt_succ_of_lt (hs.below handle hmem)

/-- What the loop does not touch. -/
structure Kept (s s' : SpawnState) (n : Nat) : Prop where
  info : s'.pool.connectionPoolInfo = s.pool.connectionPoolInfo
  active : s'.pool.activeConnectionCount = s.pool.activeConnectionCount
  capacity : s'.capacity = s.capacity
  attempts : s'.attempts ≤ s.attempts + n

theorem Kept.refl (s : SpawnState) (n : Nat) : Kept s s n :=
  ⟨rfl, rfl, rfl, Nat.le_add_right _ n⟩

section Iterated

variable {s' t : SpawnState} {conn : SQLConnection}

/-- One iteration, and what the rest kept. -/
theorem Iterated.kept (h : Iterated a i s s' conn) (ht : Kept s' t left) : Kept s t (left + 1) := by
  have hle := ht.attempts
  rw [h.attempts] at hle
  exact ⟨ht.info.trans h.info, ht.active.trans h.active, ht.capacity.trans h.capacity, by omega⟩

/-- The counter and the vector stay in step. -/
theorem Iterated.inStep (h : Iterated a i s s' conn) (hs : s.InStep i (left + 1)) :
    s'.InStep (i + 1) left := by
  have hroom := hs.room
  refine ⟨?_, ?_⟩
  · rw [h.connections, List.length_append, hs.size]
    rfl
  · rw [h.capacity]
    omega

end Iterated

/-- The three ways the loop can end: every `Connect` succeeded; one failed and left a connection
without a handle; the counter overflowed. -/
inductive LoopEnds (a : SpawnAnswers) (i left : Nat) (s : SpawnState) :
    SpawnEnd × SpawnState → Prop
  | passed (s' : SpawnState) (kept : Kept s s' left)
      (connected : ∀ j, i ≤ j → j < i + left → a.connect j = .connected)
      (fits : 0 < left → i + left < 2 ^ 31) (size : s'.pool.connections.length = i + left)
      (live : s.AllLive → s'.AllLive) : LoopEnds a i left s (.returned .OK, s')
  | failed (s' : SpawnState) (kept : Kept s s' left) (j : Nat) (from_ : i ≤ j)
      (below : j < i + left) (unconnected : a.connect j ≠ .connected)
      (dead : ∃ conn ∈ s'.pool.connections, conn.isAvaliable = true ∧ conn.mySqlHandle = none) :
      LoopEnds a i left s (.returned .FAILED, s')
  | overflowed (s' : SpawnState) (kept : Kept s s' left) (long : 2 ^ 31 ≤ i + left) :
      LoopEnds a i left s (.undefined, s')

/-- A first iteration that connected, and any end of the rest. -/
theorem LoopEnds.iterate {s' : SpawnState} {conn : SQLConnection} {ended : SpawnEnd × SpawnState}
    (hit : Iterated a i s s' conn) (hout : a.connect i = .connected) (hi : i + 1 < 2 ^ 31)
    (hlive : s.AllLive → s'.AllLive) (h : LoopEnds a (i + 1) left s' ended) :
    LoopEnds a i (left + 1) s ended := by
  cases h with
  | passed t kept connected fits size live =>
    refine .passed t (hit.kept kept) ?_ ?_ (by omega) (fun hs => live (hlive hs))
    · intro j hij hlt
      rcases Nat.eq_or_lt_of_le hij with rfl | hij
      · exact hout
      · exact connected j hij (by omega)
    · intro _
      -- With nothing left the rest says nothing about the counter.
      rcases Nat.eq_zero_or_pos left with rfl | hpos
      · exact hi
      · have hfits := fits hpos
        omega
  | failed t kept j from_ below unconnected dead =>
    exact .failed t (hit.kept kept) j (by omega) (by omega) unconnected dead
  | overflowed t kept long => exact .overflowed t (hit.kept kept) (by omega)

/-- Induction on what is left; an iteration keeps the counter and the vector in step. -/
theorem InStep.spawnLoop (h : s.InStep i left) (hi : i < 2 ^ 31) :
    LoopEnds a i left s (spawnLoop a left i s) := by
  induction left generalizing i s with
  | zero =>
    refine .passed s (Kept.refl s 0) ?_ ?_ h.size id
    · intro j hij hlt
      omega
    · intro hpos
      exact absurd hpos (Nat.lt_irrefl 0)
  | succ left ih =>
    obtain ⟨s₁, s', conn, status, hemplace, hconnect, hit, hcases⟩ := h.iterate (a := a) hi
    have hkept : Kept s s' (left + 1) := hit.kept (Kept.refl s' left)
    rcases hcases with ⟨hout, rfl, hhandle, -, hopened⟩ | ⟨hout, rfl, hhandle⟩
    · simp only [SpawnState.spawnLoop, hemplace, hconnect]
      by_cases hmax : i = 2 ^ 31 - 1
      · rw [if_pos hmax]
        exact .overflowed s' hkept (by omega)
      · rw [if_neg hmax]
        have hi' : i + 1 < 2 ^ 31 := by omega
        exact .iterate hit hout hi' (fun hs => hs.iterate hit hhandle hopened)
          (ih (hit.inStep h) hi')
    · simp only [SpawnState.spawnLoop, hemplace, hconnect]
      refine .failed s' hkept i (Nat.le_refl i) (by omega) hout ⟨conn, ?_, hit.available, hhandle⟩
      rw [hit.connections]
      exact List.mem_append_right _ (List.mem_singleton.mpr rfl)

/-! ### The first call -/

/-- Nothing has been opened in this pool, or even reserved. -/
structure Unopened (s : SpawnState) : Prop where
  connections : s.pool.connections = []
  active : s.pool.activeConnectionCount = 0
  capacity : s.capacity = 0

/-- `ConnectionPoolInfo.ConnectionCount`. -/
def count (s : SpawnState) : Nat := s.pool.connectionPoolInfo.connectionCount.toNat

/-- A call on an unopened pool. There is nothing to do; or the storage is refused and the pool is as
before; or the storage is there and the loop runs, from a vector it is in step with. -/
inductive FirstCall (a : SpawnAnswers) (s : SpawnState) : SpawnEnd × SpawnState → Prop
  | nothing (none : s.count = 0) : FirstCall a s (.returned .OK, s)
  | refused (some : s.count ≠ 0) (memory : a.memory s.count = false) : FirstCall a s (.threw, s)
  | passed (s' : SpawnState) (some : s.count ≠ 0) (memory : a.memory s.count = true)
      (connected : ∀ j < s.count, a.connect j = .connected) (fits : s.count < 2 ^ 31)
      (info : s'.pool.connectionPoolInfo = s.pool.connectionPoolInfo)
      (capacity : s'.capacity = s.count) (attempts : s'.attempts ≤ s.attempts + s.count)
      (active : s'.pool.activeConnectionCount = s.pool.connectionPoolInfo.connectionCount)
      (size : s'.pool.connections.length = s.count) (live : s'.AllLive) :
      FirstCall a s (.returned .OK, s')
  | failed (s' : SpawnState) (memory : a.memory s.count = true) (j : Nat) (below : j < s.count)
      (unconnected : a.connect j ≠ .connected)
      (info : s'.pool.connectionPoolInfo = s.pool.connectionPoolInfo)
      (capacity : s'.capacity = s.count) (attempts : s'.attempts ≤ s.attempts + s.count)
      (dead : ∃ conn ∈ s'.pool.connections, conn.isAvaliable = true ∧ conn.mySqlHandle = none) :
      FirstCall a s (.returned .FAILED, s')
  | overflowed (s' : SpawnState) (memory : a.memory s.count = true) (long : 2 ^ 31 ≤ s.count)
      (info : s'.pool.connectionPoolInfo = s.pool.connectionPoolInfo)
      (capacity : s'.capacity = s.count) (attempts : s'.attempts ≤ s.attempts + s.count) :
      FirstCall a s (.undefined, s')

/-- The guard `ConnectionCount <= 0` of an unsigned count. -/
theorem count_eq_zero_iff : s.count = 0 ↔ s.pool.connectionPoolInfo.connectionCount ≤ 0 := by
  rw [count, UInt32.le_iff_toNat_le]
  exact Nat.le_zero.symm

/-- The first `reserve` gets what it asks for, or nothing. -/
theorem Unopened.reserve (hs : s.Unopened) (hsome : s.count ≠ 0) :
    s.reserve a s.count = if a.memory s.count then some (s.relocate s.count) else none := by
  have hmore : ¬ s.count ≤ s.capacity := by
    rw [hs.capacity]
    omega
  rw [SpawnState.reserve, if_neg hmore]

/-- Nothing moves when an empty vector gets its storage. -/
theorem Unopened.inStep (hs : s.Unopened) : (s.relocate s.count).InStep 0 s.count := by
  constructor
  · show s.pool.connections.length = 0
    rw [hs.connections]
    rfl
  · exact Nat.le_of_eq (Nat.zero_add _)

theorem Unopened.allLive (hs : s.Unopened)
    (hbelow : ∀ handle ∈ s.client.closed, handle < s.client.opened) :
    (s.relocate s.count).AllLive := by
  constructor
  · intro conn hconn
    have hconn : conn ∈ s.pool.connections := hconn
    rw [hs.connections] at hconn
    cases hconn
  · intro handle hmem
    have hmem : handle ∈ s.client.closed ++
        s.pool.connections.filterMap (·.mySqlHandle) := hmem
    rw [hs.connections, List.filterMap_nil, List.append_nil] at hmem
    exact hbelow handle hmem

/-- What a call does behind its loop. -/
def counted (count : UInt32) : SpawnEnd × SpawnState → SpawnEnd × SpawnState
  | (.returned .OK, s) =>
    (.returned .OK, { s with pool := { s.pool with activeConnectionCount := count } })
  | ended => ended

/-- A first call with something to open is its loop from 0, if it gets its storage. -/
theorem Unopened.spawnConnections_eq (hs : s.Unopened) (hsome : s.count ≠ 0) :
    spawnConnections a s = if a.memory s.count then
      counted s.pool.connectionPoolInfo.connectionCount
        (spawnLoop a s.count 0 (s.relocate s.count)) else (.threw, s) := by
  have hguard : ¬ s.pool.connectionPoolInfo.connectionCount ≤ 0 :=
    fun h => hsome (count_eq_zero_iff.mpr h)
  have hactive : s.pool.activeConnectionCount ≠ s.pool.connectionPoolInfo.connectionCount := by
    intro h
    rw [hs.active] at h
    exact hguard (UInt32.le_of_eq h.symm)
  have hzero : s.pool.activeConnectionCount.toNat = 0 := by
    rw [hs.active]
    rfl
  have hcount : s.pool.connectionPoolInfo.connectionCount.toNat = s.count := rfl
  simp only [spawnConnections, hguard, if_false, if_pos hactive, hzero, Nat.sub_zero, hcount,
    hs.reserve hsome]
  cases a.memory s.count with
  | false => rfl
  | true => rfl

theorem Unopened.spawnConnections (hs : s.Unopened)
    (hbelow : ∀ handle ∈ s.client.closed, handle < s.client.opened) :
    FirstCall a s (spawnConnections a s) := by
  by_cases hnone : s.count = 0
  · rw [SpawnState.spawnConnections, if_pos (count_eq_zero_iff.mp hnone)]
    exact .nothing hnone
  · have hends := hs.inStep.spawnLoop (a := a) (by omega)
    rw [hs.spawnConnections_eq hnone]
    cases hmemory : a.memory s.count with
    | false => exact .refused hnone hmemory
    | true =>
      rw [if_pos rfl]
      generalize spawnLoop a s.count 0 (s.relocate s.count) = ended at hends ⊢
      cases hends with
      | passed s' kept connected fits size live =>
        have hlive := live (hs.allLive hbelow)
        have hfits := fits (Nat.pos_of_ne_zero hnone)
        rw [Nat.zero_add] at hfits size
        refine .passed _ hnone hmemory ?_ hfits kept.info kept.capacity kept.attempts rfl size
          ⟨hlive.live, hlive.below⟩
        intro j hj
        exact connected j (Nat.zero_le j) (by rw [Nat.zero_add]; exact hj)
      | failed s' kept j from_ below unconnected dead =>
        rw [Nat.zero_add] at below
        exact .failed _ hmemory j below unconnected kept.info kept.capacity kept.attempts dead
      | overflowed s' kept long =>
        rw [Nat.zero_add] at long
        exact .overflowed _ hmemory long kept.info kept.capacity kept.attempts

/-! ### Retrying -/

/-- What each call of a sequence ended in, and the state it left for the next one. Nothing follows a
call that is undefined. -/
def spawnRun : List SpawnAnswers → SpawnState → List (SpawnEnd × SpawnState)
  | [], _ => []
  | a :: rest, s =>
    match spawnConnections a s with
    | (.undefined, s') => [(.undefined, s')]
    | (ended, s') => (ended, s') :: spawnRun rest s'

/-- What a call should leave: every connection that can be leased has a live handle, and if it
returned `OK` there are as many connections as configured, all live and counted, and a further call
does nothing. -/
structure Sound (p : SpawnEnd × SpawnState) : Prop where
  leasable : ∀ conn ∈ p.2.pool.connections, conn.isAvaliable = true → p.2.client.Live conn
  complete : p.1 = .returned .OK → p.2.pool.connections.length = p.2.count ∧
    (∀ conn ∈ p.2.pool.connections, p.2.client.Live conn) ∧
    p.2.pool.activeConnectionCount = p.2.pool.connectionPoolInfo.connectionCount ∧
    ∀ a, spawnConnections a p.2 = (.returned .OK, p.2)

/-- The first call that gets its storage connects every connection. -/
def FirstSucceeds (n : Nat) : List SpawnAnswers → Prop
  | [] => True
  | a :: rest => if a.memory n then ∀ j < n, a.connect j = .connected else FirstSucceeds n rest

/-- Once the count is reached a call does nothing. -/
theorem spawnConnections_settled (a : SpawnAnswers)
    (h : s.pool.activeConnectionCount = s.pool.connectionPoolInfo.connectionCount) :
    spawnConnections a s = (.returned .OK, s) := by
  simp only [spawnConnections]
  split
  · rfl
  · rw [if_neg (not_not.mpr h)]

theorem spawnRun_settled (answers : List SpawnAnswers)
    (h : s.pool.activeConnectionCount = s.pool.connectionPoolInfo.connectionCount) :
    ∀ p ∈ spawnRun answers s, p = (.returned .OK, s) := by
  induction answers with
  | nil => simp [spawnRun]
  | cons a rest ih =>
    intro p hp
    simp only [spawnRun, spawnConnections_settled a h] at hp
    rcases List.mem_cons.mp hp with rfl | hp
    · rfl
    · exact ih p hp

/-- A connection without a handle that can be leased. -/
theorem not_sound_of_dead {e : SpawnEnd}
    (h : ∃ conn ∈ s.pool.connections, conn.isAvaliable = true ∧ conn.mySqlHandle = none) :
    ¬ Sound (e, s) := by
  intro hsound
  obtain ⟨conn, hmem, havailable, hnone⟩ := h
  obtain ⟨handle, hsome, -⟩ := hsound.leasable conn hmem havailable
  rw [hnone] at hsome
  cases hsome

theorem Unopened.sound_threw (hs : s.Unopened) : Sound (.threw, s) := by
  constructor
  · intro conn hmem
    have hmem : conn ∈ s.pool.connections := hmem
    rw [hs.connections] at hmem
    cases hmem
  · intro hok
    cases hok

theorem AllLive.sound (live : s.AllLive) (hsize : s.pool.connections.length = s.count)
    (hsettled : s.pool.activeConnectionCount = s.pool.connectionPoolInfo.connectionCount) :
    Sound (.returned .OK, s) := by
  constructor
  · intro conn hmem _
    exact live.live conn hmem
  · intro _
    exact ⟨hsize, live.live, hsettled, fun a => spawnConnections_settled a hsettled⟩

/-- Induction on the calls: a call whose storage is refused leaves the pool unopened, and the first
one that gets it decides. -/
theorem Unopened.spawnRun_sound_iff (hs : s.Unopened)
    (hbelow : ∀ handle ∈ s.client.closed, handle < s.client.opened) (hpos : s.count ≠ 0)
    (hint : s.count < 2 ^ 31) (answers : List SpawnAnswers) :
    (∀ p ∈ spawnRun answers s, Sound p) ↔ FirstSucceeds s.count answers := by
  induction answers with
  | nil => simp [spawnRun, FirstSucceeds]
  | cons a rest ih =>
    have hfirst : FirstCall a s (SpawnState.spawnConnections a s) := hs.spawnConnections hbelow
    simp only [spawnRun, FirstSucceeds]
    generalize SpawnState.spawnConnections a s = ended at hfirst ⊢
    cases hfirst with
    | nothing none => exact absurd none hpos
    | refused some memory =>
      simp only [List.forall_mem_cons, hs.sound_threw, true_and, memory, Bool.false_eq_true,
        if_false]
      exact ih
    | passed s' some memory connected fits info capacity attempts active size live =>
      have hsettled : s'.pool.activeConnectionCount =
          s'.pool.connectionPoolInfo.connectionCount := by rw [active, info]
      have hsize : s'.pool.connections.length = s'.count := by
        rw [size, count, count, info]
      have hsound : Sound (.returned .OK, s') := live.sound hsize hsettled
      simp only [memory, if_true]
      refine iff_of_true ?_ connected
      intro p hp
      rcases List.mem_cons.mp hp with rfl | hp
      · exact hsound
      · rw [spawnRun_settled rest hsettled p hp]
        exact hsound
    | failed s' memory j below unconnected info capacity attempts dead =>
      -- The call itself leaves what can be leased and has no handle; no retry is needed for that.
      simp only [memory, if_true]
      refine iff_of_false ?_ ?_
      · intro hall
        exact not_sound_of_dead dead (hall _ (List.mem_cons_self ..))
      · intro hconnected
        exact unconnected (hconnected j below)
    | overflowed s' memory long info capacity attempts => omega

theorem attempts_ofPool (client : MySqlClient) (pool : SQLConnectionPool) :
    (ofPool client pool).attempts = 0 :=
  rfl

/-- A pool as it is registered. -/
theorem unopened_ofInfo (client : MySqlClient) (info : SQLConnectionPoolInfo) :
    (ofPool client (.ofInfo info)).Unopened :=
  ⟨rfl, rfl, rfl⟩

/-- **When spawning can be retried.** Exactly when it need not be: the first call that gets its
storage succeeds with every connection. A failure leaves a connection without a handle that can be
leased, and no later call takes it back. -/
theorem spawn_sound_iff (info : SQLConnectionPoolInfo) (answers : List SpawnAnswers)
    (hpos : 0 < info.connectionCount.toNat) (hint : info.connectionCount.toNat < 2 ^ 31) :
    (∀ p ∈ spawnRun answers (ofPool ⟨0, []⟩ (.ofInfo info)), Sound p) ↔
      FirstSucceeds info.connectionCount.toNat answers := by
  have hbelow : ∀ handle ∈ (⟨0, []⟩ : MySqlClient).closed, handle < 0 := by
    intro handle hmem
    cases hmem
  exact (unopened_ofInfo ⟨0, []⟩ info).spawnRun_sound_iff hbelow (Nat.pos_iff_ne_zero.mp hpos) hint
    answers

/-- Memory for everything, and the given outcomes. For the examples. -/
def answering (connect : Nat → ConnectOutcome) : SpawnAnswers where
  memory _ := true
  growTo n := 2 * n
  connect := connect
  prepares _ _ := .prepared

/-- The second call is asked for nothing. -/
theorem spawn_sound_connected :
    SQLDatabase.sampleInfo.connectionCount.toNat = 2 ∧
      ∀ p ∈ spawnRun [answering fun _ => .connected, answering fun _ => .refused]
        (ofPool ⟨0, []⟩ (.ofInfo SQLDatabase.sampleInfo)), Sound p := by
  refine ⟨rfl, (spawn_sound_iff SQLDatabase.sampleInfo _ (by decide) (by decide)).mpr ?_⟩
  intro j _
  rfl

/-- Two connections are configured, and the second one is refused. -/
def secondRefused : SpawnAnswers := answering fun j => if j = 0 then .connected else .refused

theorem not_spawn_sound_refused :
    ¬ ∀ (info : SQLConnectionPoolInfo) (answers : List SpawnAnswers),
      0 < info.connectionCount.toNat → info.connectionCount.toNat < 2 ^ 31 →
        ∀ p ∈ spawnRun answers (ofPool ⟨0, []⟩ (.ofInfo info)), Sound p := by
  intro hall
  have hdead : ∃ s, spawnRun [secondRefused] (ofPool ⟨0, []⟩ (.ofInfo SQLDatabase.sampleInfo)) =
      [(.returned .FAILED, s)] ∧
      ∃ conn ∈ s.pool.connections, conn.isAvaliable = true ∧ conn.mySqlHandle = none :=
    ⟨_, rfl, _, List.mem_cons_of_mem _ (List.mem_cons_self ..), rfl, rfl⟩
  obtain ⟨s, hrun, hdead⟩ := hdead
  have hsound := hall SQLDatabase.sampleInfo [secondRefused] (by decide) (by decide)
  rw [hrun] at hsound
  exact not_sound_of_dead hdead (hsound _ (List.mem_singleton.mpr rfl))

/-- …and a retry that succeeds reconnects the first two of *four*, closes the handle of the first on
the way, and reports `OK`. -/
example : (spawnRun [secondRefused, answering fun _ => .connected]
    (ofPool ⟨0, []⟩ (.ofInfo SQLDatabase.sampleInfo))).map
      (fun p => (p.1, p.2.pool.connections.map (·.mySqlHandle), p.2.client.closed)) =
    [(.returned .FAILED, [some 0, none], []),
      (.returned .OK, [some 1, some 2, none, none], [0])] := by
  decide

end SpawnState

/-! ## The database -/

/-- The loop of `SpawnSQLConnections` from pool `k` on, each pool with its own answers. The pools
behind one that was not `OK` are not touched. -/
def spawnPools (answers : Nat → SpawnAnswers) :
    Nat → MySqlClient → List SQLConnectionPool → SpawnEnd × List SpawnState
  | _, _, [] => (.returned .OK, [])
  | k, client, pool :: rest =>
    match SpawnState.spawnConnections (answers k) (.ofPool client pool) with
    | (.returned .OK, s) =>
      let (ended, states) := spawnPools answers (k + 1) s.client rest
      (ended, s :: states)
    | (.returned _, s) => (.returned .FAILED, s :: rest.map (.ofPool s.client))
    | (ended, s) => (ended, s :: rest.map (.ofPool s.client))

/-- `SQLDatabase::SpawnSQLConnections`, on a database in which nothing has been opened. -/
def SQLDatabase.spawnSQLConnections (answers : Nat → SpawnAnswers) (db : SQLDatabase) :
    SpawnEnd × List SpawnState :=
  spawnPools answers 0 ⟨0, []⟩ db.connectionPool

/-- The pool's count is the marker. -/
def SQLConnectionPool.Marked (pool : SQLConnectionPool) : Prop :=
  pool.connectionPoolInfo.connectionCount = SQLConnectionPoolInfo.invalidConnectionPool

/-- No pool is asked for more connections than configured, and a marked one for none, not even for
storage. -/
def OnlyConfigured (states : List SpawnState) : Prop :=
  ∀ s ∈ states, s.attempts ≤ s.count ∧ (s.pool.Marked → s.attempts = 0 ∧ s.capacity = 0)

/-- The loop goes on behind a pool of `n` connections: there is nothing to do, or the storage is
there, the counter does not overflow, and every `Connect` succeeds. -/
def Passes (a : SpawnAnswers) (n : Nat) : Prop :=
  n = 0 ∨ a.memory n = true ∧ n < 2 ^ 31 ∧ ∀ j < n, a.connect j = .connected

/-- The first marked pool the loop comes to, if any, is refused its storage. -/
def MarkedRefused (answers : Nat → SpawnAnswers) (k : Nat) (pools : List SQLConnectionPool) : Prop :=
  ∀ i pool, pools[i]? = some pool → pool.Marked →
    (answers (k + i)).memory (2 ^ 32 - 1) = false ∨
      ∃ j p, j < i ∧ pools[j]? = some p ∧
        ¬ Passes (answers (k + j)) p.connectionPoolInfo.connectionCount.toNat

/-! ### Pool by pool -/

variable {answers : Nat → SpawnAnswers} {k : Nat} {client : MySqlClient} {pool : SQLConnectionPool}
  {rest : List SQLConnectionPool}

theorem SQLConnectionPool.Marked.count_eq (h : pool.Marked) :
    pool.connectionPoolInfo.connectionCount.toNat = 2 ^ 32 - 1 := by
  rw [show pool.connectionPoolInfo.connectionCount = _ from h]
  rfl

theorem onlyConfigured_cons {s : SpawnState} {states : List SpawnState} :
    OnlyConfigured (s :: states) ↔
      (s.attempts ≤ s.count ∧ (s.pool.Marked → s.attempts = 0 ∧ s.capacity = 0)) ∧
        OnlyConfigured states :=
  List.forall_mem_cons

/-- Pools the loop has not come to. -/
theorem onlyConfigured_untouched (client : MySqlClient) (pools : List SQLConnectionPool) :
    OnlyConfigured (pools.map (.ofPool client)) := by
  intro s hs
  obtain ⟨pool, -, rfl⟩ := List.mem_map.mp hs
  exact ⟨Nat.zero_le _, fun _ => ⟨rfl, rfl⟩⟩

/-- The condition, pool by pool: what matters behind a pool matters only if the loop goes on. -/
theorem markedRefused_cons : MarkedRefused answers k (pool :: rest) ↔
    (pool.Marked → (answers k).memory (2 ^ 32 - 1) = false) ∧
      (Passes (answers k) pool.connectionPoolInfo.connectionCount.toNat →
        MarkedRefused answers (k + 1) rest) := by
  constructor
  · intro h
    refine ⟨?_, ?_⟩
    · intro hmarked
      rcases h 0 pool rfl hmarked with hrefused | ⟨j, p, hj, -⟩
      · exact hrefused
      · exact absurd hj (Nat.not_lt_zero j)
    · intro hpasses i q hq hmarked
      rcases h (i + 1) q (by simpa using hq) hmarked with hrefused | ⟨j, p, hj, hp, hstops⟩
      · exact Or.inl (by rwa [show k + 1 + i = k + (i + 1) by omega])
      · cases j with
        | zero =>
          cases hp
          exact absurd hpasses hstops
        | succ j =>
          refine Or.inr ⟨j, p, by omega, by simpa using hp, ?_⟩
          rwa [show k + 1 + j = k + (j + 1) by omega]
  · intro h i q hq hmarked
    obtain ⟨hfirst, hrest⟩ := h
    cases i with
    | zero =>
      cases hq
      exact Or.inl (hfirst hmarked)
    | succ i =>
      by_cases hpasses : Passes (answers k) pool.connectionPoolInfo.connectionCount.toNat
      · rcases hrest hpasses i q (by simpa using hq) hmarked with hrefused | ⟨j, p, hj, hp, hstops⟩
        · exact Or.inl (by rwa [show k + (i + 1) = k + 1 + i by omega])
        · refine Or.inr ⟨j + 1, p, by omega, by simpa using hp, ?_⟩
          rwa [show k + (j + 1) = k + 1 + j by omega]
      · exact Or.inr ⟨0, pool, Nat.succ_pos i, rfl, hpasses⟩

/-! What stops the loop. -/

theorem not_passes_of_refused {a : SpawnAnswers} {n : Nat} (hsome : n ≠ 0)
    (hmemory : a.memory n = false) : ¬ Passes a n := by
  intro h
  rcases h with hzero | ⟨hgranted, -⟩
  · exact hsome hzero
  · rw [hmemory] at hgranted
    cases hgranted

theorem not_passes_of_unconnected {a : SpawnAnswers} {n j : Nat} (hj : j < n)
    (hunconnected : a.connect j ≠ .connected) : ¬ Passes a n := by
  intro h
  rcases h with hzero | ⟨-, -, hconnected⟩
  · omega
  · exact hunconnected (hconnected j hj)

theorem not_passes_of_long {a : SpawnAnswers} {n : Nat} (hlong : 2 ^ 31 ≤ n) : ¬ Passes a n := by
  intro h
  rcases h with hzero | ⟨-, hlt, -⟩
  · omega
  · omega

/-- A pool that is refused its storage is not touched, and everything behind is out of reach. -/
theorem onlyConfigured_refused (hsome : pool.connectionPoolInfo.connectionCount.toNat ≠ 0)
    (hmemory : (answers k).memory pool.connectionPoolInfo.connectionCount.toNat = false) :
    OnlyConfigured (.ofPool client pool :: rest.map (.ofPool client)) ↔
      MarkedRefused answers k (pool :: rest) := by
  refine iff_of_true (onlyConfigured_untouched client (pool :: rest)) ?_
  rw [markedRefused_cons]
  constructor
  · intro hm
    rw [← hm.count_eq]
    exact hmemory
  · intro hpasses
    exact absurd hpasses (not_passes_of_refused hsome hmemory)

/-- A pool that got its storage and stops the loop: it may not be marked. -/
theorem onlyConfigured_stopped {s : SpawnState}
    (hinfo : s.pool.connectionPoolInfo = pool.connectionPoolInfo)
    (hcapacity : s.capacity = pool.connectionPoolInfo.connectionCount.toNat)
    (hattempts : s.attempts ≤ pool.connectionPoolInfo.connectionCount.toNat)
    (hmemory : (answers k).memory pool.connectionPoolInfo.connectionCount.toNat = true)
    (hstops : ¬ Passes (answers k) pool.connectionPoolInfo.connectionCount.toNat) :
    OnlyConfigured (s :: rest.map (.ofPool s.client)) ↔
      MarkedRefused answers k (pool :: rest) := by
  rw [markedRefused_cons, onlyConfigured_cons]
  have hmarked : s.pool.Marked ↔ pool.Marked := by
    rw [SQLConnectionPool.Marked, SQLConnectionPool.Marked, hinfo]
  by_cases hm : pool.Marked
  · refine iff_of_false ?_ ?_
    · intro h
      have hzero := (h.1.2 (hmarked.mpr hm)).2
      rw [hcapacity, hm.count_eq] at hzero
      omega
    · intro h
      rw [hm.count_eq] at hmemory
      rw [h.1 hm] at hmemory
      cases hmemory
  · refine iff_of_true ⟨⟨?_, ?_⟩, onlyConfigured_untouched s.client rest⟩ ⟨?_, ?_⟩
    · rw [SpawnState.count, hinfo]
      exact hattempts
    · intro h
      exact absurd (hmarked.mp h) hm
    · intro h
      exact absurd h hm
    · intro h
      exact absurd h hstops

/-- A pool the loop passes: it is not marked, and the rest decides. -/
theorem onlyConfigured_passed {s : SpawnState} {states : List SpawnState}
    (hinfo : s.pool.connectionPoolInfo = pool.connectionPoolInfo)
    (hattempts : s.attempts ≤ pool.connectionPoolInfo.connectionCount.toNat)
    (hpasses : Passes (answers k) pool.connectionPoolInfo.connectionCount.toNat)
    (hrest : OnlyConfigured states ↔ MarkedRefused answers (k + 1) rest) :
    OnlyConfigured (s :: states) ↔ MarkedRefused answers k (pool :: rest) := by
  have hnot : ¬ pool.Marked := by
    intro hm
    rw [hm.count_eq] at hpasses
    rcases hpasses with hzero | ⟨-, hlt, -⟩
    · omega
    · omega
  rw [markedRefused_cons, onlyConfigured_cons, hrest]
  constructor
  · intro h
    exact ⟨fun hm => absurd hm hnot, fun _ => h.2⟩
  · intro h
    refine ⟨⟨?_, ?_⟩, h.2 hpasses⟩
    · rw [SpawnState.count, hinfo]
      exact hattempts
    · intro hm
      rw [SQLConnectionPool.Marked, hinfo] at hm
      exact absurd hm hnot

/-- Induction on the pools that are left. -/
theorem spawnPools_onlyConfigured_iff (pools : List SQLConnectionPool)
    (hfresh : ∀ pool ∈ pools, ∃ info, pool = .ofInfo info) (k : Nat) (client : MySqlClient)
    (hbelow : ∀ handle ∈ client.closed, handle < client.opened) :
    OnlyConfigured (spawnPools answers k client pools).2 ↔ MarkedRefused answers k pools := by
  induction pools generalizing k client with
  | nil =>
    refine iff_of_true ?_ ?_
    · intro s hs
      cases hs
    · intro i pool hpool
      cases hpool
  | cons pool rest ih =>
    have hrest : ∀ client : MySqlClient, (∀ handle ∈ client.closed, handle < client.opened) →
        (OnlyConfigured (spawnPools answers (k + 1) client rest).2 ↔
          MarkedRefused answers (k + 1) rest) := fun client hbelow =>
      ih (fun p hp => hfresh p (List.mem_cons_of_mem _ hp)) (k + 1) client hbelow
    obtain ⟨info, rfl⟩ := hfresh pool (List.mem_cons_self ..)
    have hfirst : SpawnState.FirstCall (answers k) (.ofPool client (.ofInfo info))
        (SpawnState.spawnConnections (answers k) (.ofPool client (.ofInfo info))) :=
      (SpawnState.unopened_ofInfo client info).spawnConnections hbelow
    rw [spawnPools]
    generalize SpawnState.spawnConnections (answers k) (.ofPool client (.ofInfo info)) = ended
      at hfirst ⊢
    cases hfirst with
    | nothing none =>
      exact onlyConfigured_passed rfl (Nat.zero_le _) (Or.inl none) (hrest client hbelow)
    | refused some memory => exact onlyConfigured_refused some memory
    | passed s' some memory connected fits hinfo capacity attempts active size live =>
      rw [SpawnState.attempts_ofPool, Nat.zero_add] at attempts
      exact onlyConfigured_passed hinfo attempts (Or.inr ⟨memory, fits, connected⟩)
        (hrest s'.client live.below)
    | failed s' memory j below unconnected hinfo capacity attempts dead =>
      rw [SpawnState.attempts_ofPool, Nat.zero_add] at attempts
      exact onlyConfigured_stopped hinfo capacity attempts memory
        (not_passes_of_unconnected below unconnected)
    | overflowed s' memory long hinfo capacity attempts =>
      rw [SpawnState.attempts_ofPool, Nat.zero_add] at attempts
      exact onlyConfigured_stopped hinfo capacity attempts memory (not_passes_of_long long)

/-! ### After the registrations -/

namespace SQLDatabase

variable {junk : Nat → UInt32}

/-- Every slot of the vector was constructed from an info, the marked one or a registered one. -/
theorem addSchema_fresh {db db' : SQLDatabase} {i : UInt32} {info : SQLConnectionPoolInfo}
    (hdb : ∀ pool ∈ db.connectionPool, ∃ info, pool = .ofInfo info)
    (h : db.addSchema junk i info = .ok db') :
    ∀ pool ∈ db'.connectionPool, ∃ info, pool = .ofInfo info := by
  have hgrown : ∀ n, ∀ pool ∈ resize junk db.connectionPool n, ∃ info, pool = .ofInfo info := by
    intro n pool hpool
    rcases List.mem_append.mp hpool with hold | hnew
    · exact hdb pool (List.mem_of_mem_take hold)
    · obtain ⟨j, -, rfl⟩ := List.mem_map.mp hnew
      exact ⟨_, rfl⟩
  rw [addSchema] at h
  split at h
  · obtain ⟨pools, hstore, hdone⟩ := bind_returns.mp h
    cases hdone
    rw [store] at hstore
    split at hstore
    · cases hstore
      intro pool hpool
      rcases List.mem_or_eq_of_mem_set hpool with hold | rfl
      · exact hgrown _ pool hold
      · exact ⟨info, rfl⟩
    · cases hstore
  · cases h
    exact hdb

theorem addSchemas_fresh {regs : List (UInt32 × SQLConnectionPoolInfo)} {db : SQLDatabase}
    (h : empty.addSchemas junk regs = .ok db) :
    ∀ pool ∈ db.connectionPool, ∃ info, pool = .ofInfo info := by
  refine foldlM_keeps
    (P := fun d : SQLDatabase => ∀ pool ∈ d.connectionPool, ∃ info, pool = .ofInfo info) ?_ ?_ h
  · intro p d d' hd hstep
    exact addSchema_fresh hd hstep
  · intro pool hpool
    cases hpool

/-- **When only registered schemas are opened.** Exactly when the allocator or an earlier pool stops
the loop at the first placeholder it comes to. The guard `<= 0` never does: the marker is the
largest `uint32`. -/
theorem only_configured_iff (junk : Nat → UInt32) (regs : List (UInt32 × SQLConnectionPoolInfo))
    (db : SQLDatabase) (answers : Nat → SpawnAnswers)
    (h : empty.addSchemas junk regs = .ok db) :
    OnlyConfigured (db.spawnSQLConnections answers).2 ↔
      MarkedRefused answers 0 db.connectionPool := by
  refine spawnPools_onlyConfigured_iff db.connectionPool (addSchemas_fresh h) 0 ⟨0, []⟩ ?_
  intro handle hmem
  cases hmem

/-- One schema, at index 0: there is no placeholder. -/
theorem only_configured_first :
    OnlyConfigured ((⟨[.ofInfo sampleInfo]⟩ : SQLDatabase).spawnSQLConnections fun _ =>
      SpawnState.answering fun _ => .connected).2 := by
  refine (only_configured_iff (fun _ => 0) [(0, sampleInfo)] _ _ rfl).mpr ?_
  intro i pool hpool hmarked
  have hpool : [SQLConnectionPool.ofInfo sampleInfo][i]? = some pool := hpool
  obtain rfl := List.mem_singleton.mp (List.mem_of_getElem? hpool)
  exact absurd hmarked (by rw [SQLConnectionPool.Marked]; decide)

/-- One schema, at index 1: slot 0 is a placeholder, and the allocator refuses nothing. -/
theorem not_only_configured_second :
    ¬ ∀ (junk : Nat → UInt32) (regs : List (UInt32 × SQLConnectionPoolInfo)) (db : SQLDatabase)
      (answers : Nat → SpawnAnswers), empty.addSchemas junk regs = .ok db →
        OnlyConfigured (db.spawnSQLConnections answers).2 := by
  intro hall
  have hrun : empty.addSchemas (fun _ => 0) [(1, sampleInfo)] =
      .ok ⟨[.placeholder 0, .ofInfo sampleInfo]⟩ := rfl
  have honly := hall _ _ _ (fun _ => SpawnState.answering fun _ => .refused) hrun
  -- By the law, and not by evaluation: the loop may be `2 ^ 32 - 1` rounds long.
  have hrefused := (spawnPools_onlyConfigured_iff _ (addSchemas_fresh hrun) 0 ⟨0, []⟩ (by simp)).mp
    honly
  rcases hrefused 0 _ rfl rfl with hmemory | ⟨j, p, hj, -⟩
  · cases hmemory
  · exact absurd hj (Nat.not_lt_zero j)

end SQLDatabase

end ServerTest.Database
