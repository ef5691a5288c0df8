import ServerTest.Lib.Ownership
import ServerTest.Lib.Transition
import ServerTest.Database.SpawnConnections

/-!
# Who owns a MySQL handle

`SQLConnection` keeps its `MYSQL*` as a raw pointer, which the destructor closes. Moving from a
connection copies the pointer and leaves it where it was, so two objects close one handle; and the
move assignment takes over nothing unless the object assigned to has a handle of its own, which is
then lost.

The heap here holds all `SQLConnection`s of a process, those in the vectors of the pools and any
others, and an `Event` is the least that can happen to one of them. A vector that grows is one event,
`relocate`: it moves every element to new storage and destroys the old one. A call of
`SpawnConnections` is the sequence of its events (`run_callEvents`), and what holds after every event
holds in the middle of a call too.

The objects that `SQLConnection()` leaves with an uninitialised pointer are left out; nothing in the
program uses that constructor.
-/

set_option autoImplicit false

namespace ServerTest.Database

open Lib

/-! ## Moving a connection -/

namespace SQLConnection

/-- What is left of a connection that has been moved from. The vector of statements is empty; what is
in the strings, `left`, the library may choose. -/
def movedFrom (other : SQLConnection) (left : SQLConnectionInfo) : SQLConnection :=
  { other with
    preparedStatements := []
    connectionInfo := { left with port := other.connectionInfo.port } }

/-- `SQLConnection(SQLConnection&&)`: the new object and the other one. `std::move` of a pointer is a
copy. -/
def moveConstruct (other : SQLConnection) (left : SQLConnectionInfo) :
    SQLConnection × SQLConnection :=
  (other, other.movedFrom left)

/-- `operator=(SQLConnection&&)`: the object assigned to and the other one. -/
def moveAssign (conn other : SQLConnection) (left : SQLConnectionInfo) :
    SQLConnection × SQLConnection :=
  if conn.mySqlHandle.isSome then (other, other.movedFrom left)
  else
    ({ conn with isAvaliable := other.isAvaliable, connectionInfo := other.connectionInfo },
      { other.movedFrom left with preparedStatements := other.preparedStatements })

end SQLConnection

/-! ## The heap -/

inductive Place where
  | element (pool index : Nat)
  | object (n : Nat)
  deriving DecidableEq, Repr

structure Heap where
  client : MySqlClient
  pool : Nat → SQLConnectionPool
  capacity : Nat → Nat
  object : Nat → Option SQLConnection

/-- The smallest steps. The first four are those of `SpawnConnections`. -/
inductive Event where
  | relocate (pool capacity : Nat)
  | append (pool : Nat)
  | connect (place : Place) (outcome : ConnectOutcome)
  | prepare (place : Place) (prepares : Nat → PrepareOutcome) (preparedStmtStrings : List Bytes)
  | counted (pool : Nat) (count : UInt32)
  | construct (n : Nat) (info : SQLConnectionInfo)
  | moveConstruct (n : Nat) (other : Place) (left : SQLConnectionInfo)
  | moveAssign (place other : Place) (left : SQLConnectionInfo)
  | destroy (n : Nat)
  | destroyPool (pool : Nat)

namespace Heap

/-- Pools that have been constructed, and nothing else. -/
def new (infos : Nat → SQLConnectionPoolInfo) : Heap where
  client := ⟨0, []⟩
  pool p := .ofInfo (infos p)
  capacity _ := 0
  object _ := none

def at_ (heap : Heap) : Place → Option SQLConnection
  | .element p k => (heap.pool p).connections[k]?
  | .object n => heap.object n

def put (heap : Heap) (conn : SQLConnection) : Place → Heap
  | .element p k =>
    let connections := (heap.pool p).connections.set k conn
    { heap with pool := Function.update heap.pool p { heap.pool p with connections := connections } }
  | .object n => { heap with object := Function.update heap.object n (some conn) }

/-- One pool, as `SpawnConnections` sees it. -/
def spawnState (heap : Heap) (p : Nat) : SpawnState :=
  ⟨heap.pool p, heap.capacity p, heap.client, 0⟩

def withSpawn (heap : Heap) (p : Nat) (s : SpawnState) : Heap :=
  { heap with
    client := s.client
    pool := Function.update heap.pool p s.pool
    capacity := Function.update heap.capacity p s.capacity }

/-- `~SQLConnection` of these connections, in order. -/
def close (heap : Heap) (conns : List SQLConnection) : Heap :=
  let closed := heap.client.closed ++ conns.filterMap (·.mySqlHandle)
  { heap with client := { heap.client with closed := closed } }

/-- The heap without object `n`, which was `conn`. -/
def destroyed (heap : Heap) (n : Nat) (conn : SQLConnection) : Heap :=
  { heap.close [conn] with object := Function.update heap.object n none }

/-- The heap without the elements of pool `p`: a new pool may be constructed in its place. -/
def poolDestroyed (heap : Heap) (p : Nat) : Heap :=
  { heap.close (heap.pool p).connections with
    pool := Function.update heap.pool p (.ofInfo (heap.pool p).connectionPoolInfo)
    capacity := Function.update heap.capacity p 0 }

def step (heap : Heap) : Event → Option Heap
  | .relocate p capacity => some (heap.withSpawn p ((heap.spawnState p).relocate capacity))
  | .append p =>
    let pool := heap.pool p
    let conn := SQLConnection.ofInfo pool.connectionPoolInfo.toSQLConnectionInfo
    let pool := { pool with connections := pool.connections ++ [conn] }
    some { heap with pool := Function.update heap.pool p pool }
  | .connect place outcome =>
    match heap.at_ place with
    | none => none
    | some conn =>
      let (_, conn, client) := conn.connect heap.client outcome
      some { heap.put conn place with client := client }
  | .prepare place prepares strings =>
    match heap.at_ place with
    | none => none
    | some conn => some (heap.put (conn.initPreparedStatements prepares strings).2 place)
  | .counted p count =>
    let pool := { heap.pool p with activeConnectionCount := count }
    some { heap with pool := Function.update heap.pool p pool }
  | .construct n info =>
    match heap.object n with
    | none => some (heap.put (.ofInfo info) (.object n))
    | some _ => none
  | .moveConstruct n other left =>
    match heap.object n, heap.at_ other with
    | none, some conn =>
      let (new, conn) := conn.moveConstruct left
      some ((heap.put conn other).put new (.object n))
    | _, _ => none
  | .moveAssign place other left =>
    if place = other then none
    else
      match heap.at_ place, heap.at_ other with
      | some conn, some conn' =>
        let (conn, conn') := conn.moveAssign conn' left
        some ((heap.put conn' other).put conn place)
      | _, _ => none
  | .destroy n =>
    match heap.object n with
    | none => none
    | some conn => some (heap.destroyed n conn)
  | .destroyPool p => some (heap.poolDestroyed p)

def machine (infos : Nat → SQLConnectionPoolInfo) : Machine Heap Event := ⟨new infos, step⟩

/-! ## The events of `SpawnConnections`

A vector gets new storage exactly when its capacity is a different one afterwards. -/

def growEvents (p : Nat) (s s₁ : SpawnState) : List Event :=
  if s₁.capacity = s.capacity then [] else [.relocate p s₁.capacity]

def connectEvents (p : Nat) (a : SpawnAnswers) (i : Nat) (s : SpawnState) : List Event :=
  .connect (.element p i) (a.connect i) ::
    if a.connect i = .connected then
      [.prepare (.element p i) (a.prepares i) s.pool.preparedStatementStrings]
    else []

def loopEvents (p : Nat) (a : SpawnAnswers) : Nat → Nat → SpawnState → List Event
  | 0, _, _ => []
  | left + 1, i, s =>
    match s.emplaceBack a with
    | none => []
    | some s₁ =>
      growEvents p s s₁ ++ .append p ::
        match s₁.connectAt a i with
        | none => []
        | some (.OK, s₂) => connectEvents p a i s₁ ++
            if i = 2 ^ 31 - 1 then [] else loopEvents p a left (i + 1) s₂
        | some (_, _) => connectEvents p a i s₁

/-- What a call does to the heap, one event after the other. -/
def callEvents (p : Nat) (a : SpawnAnswers) (s : SpawnState) : List Event :=
  let count := s.pool.connectionPoolInfo.connectionCount
  let active := s.pool.activeConnectionCount
  if count ≤ 0 then []
  else if active ≠ count then
    match s.reserve a count.toNat with
    | none => []
    | some s₁ =>
      let left := count.toNat - active.toNat
      growEvents p s s₁ ++ loopEvents p a left active.toNat s₁ ++
        match SpawnState.spawnLoop a left active.toNat s₁ with
        | (.returned .OK, _) => [.counted p count]
        | _ => []
  else []

/-! ## What is wanted, and what it takes -/

def handleAt (heap : Heap) (place : Place) : Option MYSQL :=
  (heap.at_ place).bind (·.mySqlHandle)

def holdings (heap : Heap) : Holdings Place MYSQL := ⟨heap.handleAt, heap.client.closed⟩

/-- After `a = std::move(b)`, `a` has the handle and the statements `b` had. -/
def Transferred (heap heap' : Heap) : Event → Prop
  | .moveAssign place other _ => ∀ conn', heap.at_ other = some conn' →
      ∃ conn, heap'.at_ place = some conn ∧ conn.mySqlHandle = conn'.mySqlHandle ∧
        conn.preparedStatements = conn'.preparedStatements
  | _ => True

/-- What has to hold before an event: a vector grows only while no element of it has a handle; an
object is destroyed, and a pool with all its elements, only if no other object has its handle; and
what is assigned to has a handle, or the other one has nothing to hand over. -/
def Allowed (heap : Heap) : Event → Prop
  | .relocate p _ => ∀ conn ∈ (heap.pool p).connections, conn.mySqlHandle = none
  | .moveAssign place other _ => ∀ conn conn', heap.at_ place = some conn →
      heap.at_ other = some conn' → conn.mySqlHandle = none →
        conn'.mySqlHandle = none ∧ conn.preparedStatements = conn'.preparedStatements
  | .destroy n => ∀ handle, heap.handleAt (.object n) = some handle →
      ∀ place, heap.handleAt place = some handle → place = .object n
  | .destroyPool p =>
    ((heap.pool p).connections.filterMap (·.mySqlHandle)).Nodup ∧
      ∀ k handle, heap.handleAt (.element p k) = some handle →
        ∀ place, heap.handleAt place = some handle → ∃ j, place = .element p j
  | .append _ | .connect _ _ | .prepare _ _ _ | .counted _ _ | .construct _ _
  | .moveConstruct _ _ _ => True

/-- The runs whose events are all allowed. -/
def allowedSystem (infos : Nat → SQLConnectionPoolInfo) : System Heap where
  init heap := heap = new infos
  step heap heap' := ∃ e, heap.Allowed e ∧ heap.step e = some heap'

/-! ## What an event does to the handles -/

variable {heap heap' heap'' : Heap} {place q : Place} {conn c : SQLConnection}

theorem at_put_self (h : heap.at_ place = some c) : (heap.put conn place).at_ place = some conn := by
  cases place with
  | element p k =>
    have hlt : k < (heap.pool p).connections.length := (List.getElem?_eq_some_iff.mp h).1
    simp [at_, put, List.getElem?_set_self hlt]
  | object n => simp [at_, put]

theorem at_put_other (h : q ≠ place) : (heap.put conn place).at_ q = heap.at_ q := by
  cases place with
  | element p k =>
    cases q with
    | element p' k' =>
      by_cases hp : p' = p
      · subst hp
        have hk : k ≠ k' := fun hk => h (by rw [hk])
        simp [at_, put, List.getElem?_set_ne hk]
      · simp [at_, put, Function.update_of_ne hp]
    | object n => rfl
  | object n =>
    cases q with
    | element p k => rfl
    | object m =>
      have hm : m ≠ n := fun hm => h (by rw [hm])
      simp [at_, put, Function.update_of_ne hm]

/-- What is found after writing to one place: what was written, or what was there. -/
theorem at_put_cases (h : (heap.put conn place).at_ q = some c) :
    c = conn ∨ heap.at_ q = some c := by
  by_cases hq : q = place
  · subst hq
    cases q with
    | element p k =>
      simp only [at_, put, Function.update_self] at h
      by_cases hlt : k < (heap.pool p).connections.length
      · rw [List.getElem?_set_self hlt] at h
        exact Or.inl (Option.some.inj h).symm
      · rw [List.set_eq_of_length_le (Nat.le_of_not_lt hlt)] at h
        exact Or.inr h
    | object n =>
      simp only [at_, put, Function.update_self, Option.some.injEq] at h
      exact Or.inl h.symm
  · rw [at_put_other hq] at h
    exact Or.inr h

theorem handleAt_eq_some {handle : MYSQL} :
    heap.handleAt place = some handle ↔
      ∃ conn, heap.at_ place = some conn ∧ conn.mySqlHandle = some handle := by
  simp [handleAt, Option.bind_eq_some_iff]

/-- Handles are passed on or opened, and none is closed. -/
structure Moved (heap heap' : Heap) : Prop where
  closed : heap'.client.closed = heap.client.closed
  opened : heap.client.opened ≤ heap'.client.opened
  held : ∀ place handle, heap'.handleAt place = some handle →
    (∃ q, heap.handleAt q = some handle) ∨
      heap.client.opened ≤ handle ∧ handle < heap'.client.opened

theorem Moved.trans (h : Moved heap heap') (h' : Moved heap' heap'') : Moved heap heap'' := by
  refine ⟨h'.closed.trans h.closed, Nat.le_trans h.opened h'.opened, fun place handle hheld => ?_⟩
  rcases h'.held place handle hheld with ⟨q, hq⟩ | ⟨hle, hlt⟩
  · rcases h.held q handle hq with hold | ⟨hle, hlt⟩
    · exact Or.inl hold
    · exact Or.inr ⟨hle, Nat.lt_of_lt_of_le hlt h'.opened⟩
  · exact Or.inr ⟨Nat.le_trans h.opened hle, hlt⟩

/-- Writing a connection whose handle is known, or the next one. -/
theorem Moved.put {client : MySqlClient} (place : Place)
    (hclosed : client.closed = heap.client.closed)
    (hopened : heap.client.opened ≤ client.opened)
    (hhandle : ∀ handle, conn.mySqlHandle = some handle → (∃ q, heap.handleAt q = some handle) ∨
      heap.client.opened ≤ handle ∧ handle < client.opened) :
    Moved heap { heap.put conn place with client := client } := by
  refine ⟨hclosed, hopened, fun q handle hq => ?_⟩
  obtain ⟨c, hc, hcq⟩ := handleAt_eq_some.mp hq
  have hput : (heap.put conn place).at_ q = some c := by
    cases q <;> exact hc
  rcases at_put_cases hput with rfl | hold
  · exact hhandle handle hcq
  · exact Or.inl ⟨q, handleAt_eq_some.mpr ⟨c, hold, hcq⟩⟩

/-- Writing a connection whose handle is known. -/
theorem Moved.put_held (place : Place)
    (hhandle : ∀ handle, conn.mySqlHandle = some handle → ∃ q, heap.handleAt q = some handle) :
    Moved heap (heap.put conn place) := by
  have hclient : heap.put conn place = { heap.put conn place with client := heap.client } := by
    cases place <;> rfl
  rw [hclient]
  exact Moved.put place rfl (Nat.le_refl _) fun handle h => Or.inl (hhandle handle h)

/-- The list of connections of one pool changes, by elements that have no handle. -/
theorem Moved.pool (p : Nat) {pool : SQLConnectionPool}
    (h : ∀ c ∈ pool.connections, c ∈ (heap.pool p).connections ∨ c.mySqlHandle = none) :
    Moved heap { heap with pool := Function.update heap.pool p pool } := by
  refine ⟨rfl, Nat.le_refl _, fun q handle hq => Or.inl ?_⟩
  obtain ⟨c, hc, hcq⟩ := handleAt_eq_some.mp hq
  cases q with
  | object n => exact ⟨.object n, handleAt_eq_some.mpr ⟨c, hc, hcq⟩⟩
  | element p' k =>
    by_cases hp : p' = p
    · subst hp
      simp only [at_, Function.update_self] at hc
      rcases h c (List.mem_of_getElem? hc) with hold | hnone
      · obtain ⟨j, hj⟩ := List.mem_iff_getElem?.mp hold
        exact ⟨.element p' j, handleAt_eq_some.mpr ⟨c, hj, hcq⟩⟩
      · rw [hnone] at hcq
        cases hcq
    · simp only [at_, Function.update_of_ne hp] at hc
      exact ⟨.element p' k, handleAt_eq_some.mpr ⟨c, hc, hcq⟩⟩

theorem moved_connect {outcome : ConnectOutcome} (hat : heap.at_ place = some conn) :
    Moved heap { heap.put (conn.connect heap.client outcome).2.1 place with
      client := (conn.connect heap.client outcome).2.2 } := by
  have hold : ∀ handle, conn.mySqlHandle = some handle → ∃ q, heap.handleAt q = some handle :=
    fun handle h => ⟨place, handleAt_eq_some.mpr ⟨conn, hat, h⟩⟩
  cases outcome with
  | initFailed => exact Moved.put place rfl (Nat.le_refl _) fun handle h => Or.inl (hold handle h)
  | refused => exact Moved.put place rfl (Nat.le_refl _) fun handle h => by cases h
  | connected =>
    refine Moved.put place rfl (Nat.le_succ _) fun handle h => Or.inr ?_
    obtain rfl := Option.some.inj h
    exact ⟨Nat.le_refl _, Nat.lt_succ_self _⟩

theorem moveAssign_mySqlHandle (conn other : SQLConnection) (left : SQLConnectionInfo) :
    ((conn.moveAssign other left).1.mySqlHandle = none ∨
      (conn.moveAssign other left).1.mySqlHandle = other.mySqlHandle) ∧
    (conn.moveAssign other left).2.mySqlHandle = other.mySqlHandle := by
  unfold SQLConnection.moveAssign
  cases hhandle : conn.mySqlHandle with
  | none => exact ⟨Or.inl rfl, rfl⟩
  | some handle => exact ⟨Or.inr rfl, rfl⟩

/-- Two connections written one after the other, with handles that were held. -/
theorem Moved.put_put (place q : Place)
    (hconn : ∀ handle, conn.mySqlHandle = some handle → ∃ q, heap.handleAt q = some handle)
    (hother : ∀ handle, c.mySqlHandle = some handle → ∃ q, heap.handleAt q = some handle) :
    Moved heap ((heap.put c q).put conn place) := by
  refine ⟨?_, ?_, fun r handle hr => Or.inl ?_⟩
  · cases place <;> cases q <;> rfl
  · cases place <;> cases q <;> exact Nat.le_refl _
  · obtain ⟨d, hd, hdr⟩ := handleAt_eq_some.mp hr
    rcases at_put_cases hd with rfl | hd
    · exact hconn handle hdr
    · rcases at_put_cases hd with rfl | hd
      · exact hother handle hdr
      · exact ⟨r, handleAt_eq_some.mpr ⟨d, hd, hdr⟩⟩

/-- The events that destroy something. -/
def Closing : Event → Prop
  | .relocate _ _ | .destroy _ | .destroyPool _ => True
  | _ => False

/-- **An event that destroys nothing** passes handles on or opens one. -/
theorem moved_of_step {e : Event} (he : ¬ Closing e) (h : heap.step e = some heap') :
    Moved heap heap' := by
  cases e with
  | relocate p capacity => exact absurd trivial he
  | destroy n => exact absurd trivial he
  | destroyPool p => exact absurd trivial he
  | append p =>
    cases h
    refine Moved.pool p fun c hc => ?_
    rcases List.mem_append.mp hc with hold | hnew
    · exact Or.inl hold
    · rw [List.mem_singleton.mp hnew]
      exact Or.inr rfl
  | connect place outcome =>
    simp only [step] at h
    split at h
    · cases h
    · rename_i conn hat
      cases h
      exact moved_connect hat
  | prepare place prepares strings =>
    simp only [step] at h
    split at h
    · cases h
    · rename_i conn hat
      cases h
      refine Moved.put_held place fun handle hhandle => ⟨place, handleAt_eq_some.mpr ⟨conn, hat, ?_⟩⟩
      simpa [SQLConnection.initPreparedStatements, SQLConnection.prepareFrom_eq] using hhandle
  | counted p count =>
    cases h
    exact Moved.pool p fun c hc => Or.inl hc
  | construct n info =>
    simp only [step] at h
    split at h
    · cases h
      exact Moved.put_held _ fun handle hhandle => by cases hhandle
    · cases h
  | moveConstruct n other left =>
    simp only [step] at h
    split at h
    · rename_i conn hfree hat
      cases h
      have hheld : ∀ handle, conn.mySqlHandle = some handle →
          ∃ q, heap.handleAt q = some handle :=
        fun handle hhandle => ⟨other, handleAt_eq_some.mpr ⟨conn, hat, hhandle⟩⟩
      exact Moved.put_put _ _ hheld hheld
    · cases h
  | moveAssign place other left =>
    simp only [step] at h
    split at h
    · cases h
    · split at h
      · rename_i conn conn' hat hat'
        cases h
        obtain ⟨hfirst, hsecond⟩ := moveAssign_mySqlHandle conn conn' left
        refine Moved.put_put _ _ (fun handle hhandle => ⟨other, ?_⟩) fun handle hhandle => ⟨other, ?_⟩
        · rcases hfirst with hnone | hsame
          · rw [hnone] at hhandle
            cases hhandle
          · exact handleAt_eq_some.mpr ⟨conn', hat', hsame ▸ hhandle⟩
        · exact handleAt_eq_some.mpr ⟨conn', hat', hsecond ▸ hhandle⟩
      · cases h

/-- These handles, all of them held, are closed, and nobody holds anything new. -/
structure Closes (heap heap' : Heap) (handles : List MYSQL) : Prop where
  closed : heap'.client.closed = heap.client.closed ++ handles
  opened : heap'.client.opened = heap.client.opened
  from_ : ∀ handle ∈ handles, ∃ q, heap.handleAt q = some handle
  held : ∀ place handle, heap'.handleAt place = some handle →
    ∃ q, heap.handleAt q = some handle

/-- The heap is in order, and handles are numbered as they are opened. -/
structure Sound (heap : Heap) : Prop where
  owned : heap.holdings.Owned
  heldBelow : ∀ place handle, heap.handleAt place = some handle → handle < heap.client.opened
  closedBelow : ∀ handle ∈ heap.client.closed, handle < heap.client.opened

theorem Moved.sound (h : Moved heap heap') (hs : heap.Sound) : heap'.Sound := by
  refine ⟨?_, fun place handle hheld => ?_, fun handle hmem => ?_⟩
  · rw [holdings, h.closed]
    refine hs.owned.move fun place handle hheld => ?_
    rcases h.held place handle hheld with hold | ⟨hle, -⟩
    · exact Or.inl hold
    · exact Or.inr fun hmem => absurd (hs.closedBelow handle hmem) (Nat.not_lt.mpr hle)
  · rcases h.held place handle hheld with ⟨q, hq⟩ | ⟨-, hlt⟩
    · exact Nat.lt_of_lt_of_le (hs.heldBelow q handle hq) h.opened
    · exact hlt
  · rw [h.closed] at hmem
    exact Nat.lt_of_lt_of_le (hs.closedBelow handle hmem) h.opened

theorem Closes.owned_iff {handles : List MYSQL} (h : Closes heap heap' handles) (hs : heap.Sound) :
    heap'.holdings.Owned ↔
      handles.Nodup ∧ ∀ place handle, heap'.handleAt place = some handle → handle ∉ handles := by
  rw [holdings, h.closed]
  exact hs.owned.close_iff h.from_ h.held

theorem Closes.sound {handles : List MYSQL} (h : Closes heap heap' handles) (hs : heap.Sound)
    (howned : heap'.holdings.Owned) : heap'.Sound := by
  refine ⟨howned, fun place handle hheld => ?_, fun handle hmem => ?_⟩
  · obtain ⟨q, hq⟩ := h.held place handle hheld
    rw [h.opened]
    exact hs.heldBelow q handle hq
  · rw [h.closed] at hmem
    rw [h.opened]
    rcases List.mem_append.mp hmem with hold | hnew
    · exact hs.closedBelow handle hold
    · obtain ⟨q, hq⟩ := h.from_ handle hnew
      exact hs.heldBelow q handle hq

/-! ## The events that destroy something -/

theorem mem_handles_iff {p : Nat} {handle : MYSQL} :
    handle ∈ (heap.pool p).connections.filterMap (·.mySqlHandle) ↔
      ∃ k, heap.handleAt (.element p k) = some handle := by
  rw [List.mem_filterMap]
  constructor
  · intro h
    obtain ⟨conn, hmem, hhandle⟩ := h
    obtain ⟨k, hk⟩ := List.mem_iff_getElem?.mp hmem
    exact ⟨k, handleAt_eq_some.mpr ⟨conn, hk, hhandle⟩⟩
  · intro h
    obtain ⟨k, hk⟩ := h
    obtain ⟨conn, hat, hhandle⟩ := handleAt_eq_some.mp hk
    exact ⟨conn, List.mem_of_getElem? hat, hhandle⟩

theorem handleAt_relocate (heap : Heap) (p capacity : Nat) (place : Place) :
    (heap.withSpawn p ((heap.spawnState p).relocate capacity)).handleAt place =
      heap.handleAt place := by
  cases place with
  | object n => rfl
  | element p' k =>
    by_cases hp : p' = p
    · subst hp
      simp [handleAt, at_, withSpawn, SpawnState.relocate, spawnState]
    · simp [handleAt, at_, withSpawn, Function.update_of_ne hp]

theorem closes_relocate (heap : Heap) (p capacity : Nat) :
    Closes heap (heap.withSpawn p ((heap.spawnState p).relocate capacity))
      ((heap.pool p).connections.filterMap (·.mySqlHandle)) := by
  refine ⟨rfl, rfl, fun handle hmem => ?_, fun place handle hheld => ⟨place, ?_⟩⟩
  · obtain ⟨k, hk⟩ := mem_handles_iff.mp hmem
    exact ⟨_, hk⟩
  · rwa [handleAt_relocate] at hheld

/-- A vector that grows keeps the handles it closes. -/
theorem relocate_owned_iff (hs : heap.Sound) (p capacity : Nat) :
    (heap.withSpawn p ((heap.spawnState p).relocate capacity)).holdings.Owned ↔
      ∀ conn ∈ (heap.pool p).connections, conn.mySqlHandle = none := by
  rw [(closes_relocate heap p capacity).owned_iff hs]
  simp only [handleAt_relocate]
  constructor
  · intro h conn hmem
    cases hhandle : conn.mySqlHandle with
    | none => rfl
    | some handle =>
      have hclosed := List.mem_filterMap.mpr ⟨conn, hmem, hhandle⟩
      obtain ⟨k, hk⟩ := mem_handles_iff.mp hclosed
      exact absurd hclosed (h.2 _ handle hk)
  · intro h
    have hnil : (heap.pool p).connections.filterMap (·.mySqlHandle) = [] :=
      List.filterMap_eq_nil_iff.mpr h
    rw [hnil]
    exact ⟨List.nodup_nil, fun _ _ _ hmem => (nomatch hmem)⟩

section Destroy

variable {n : Nat}

theorem handleAt_destroyed {handle : MYSQL} :
    (heap.destroyed n conn).handleAt place = some handle ↔
      place ≠ .object n ∧ heap.handleAt place = some handle := by
  cases place with
  | element p k => simp [handleAt, at_, destroyed, close]
  | object m =>
    by_cases hm : m = n
    · subst hm
      simp [handleAt, at_, destroyed]
    · simp [handleAt, at_, destroyed, hm]

theorem closes_destroyed (h : heap.object n = some conn) :
    Closes heap (heap.destroyed n conn) ([conn].filterMap (·.mySqlHandle)) := by
  refine ⟨rfl, rfl, fun handle hmem => ⟨.object n, handleAt_eq_some.mpr ⟨conn, h, ?_⟩⟩,
    fun place handle hheld => ⟨place, (handleAt_destroyed.mp hheld).2⟩⟩
  obtain ⟨c, hc, hhandle⟩ := List.mem_filterMap.mp hmem
  rwa [List.mem_singleton.mp hc] at hhandle

theorem destroyed_owned_iff (hs : heap.Sound) (h : heap.object n = some conn) :
    (heap.destroyed n conn).holdings.Owned ↔
      ∀ handle, heap.handleAt (.object n) = some handle →
        ∀ place, heap.handleAt place = some handle → place = .object n := by
  have hat : heap.handleAt (.object n) = conn.mySqlHandle := by simp [handleAt, at_, h]
  rw [(closes_destroyed h).owned_iff hs, hat]
  cases hhandle : conn.mySqlHandle with
  | none => simp [hhandle]
  | some handle =>
    simp only [List.filterMap_cons, hhandle, List.filterMap_nil, List.nodup_cons, List.not_mem_nil,
      not_false_eq_true, List.nodup_nil, and_self, true_and, List.mem_singleton,
      Option.some.injEq]
    constructor
    · rintro hleft x rfl place hplace
      by_contra hne
      exact hleft place handle (handleAt_destroyed.mpr ⟨hne, hplace⟩) rfl
    · rintro hsole place x hplace rfl
      obtain ⟨hne, hheld⟩ := handleAt_destroyed.mp hplace
      exact hne (hsole x rfl place hheld)

end Destroy

section DestroyPool

variable {p : Nat}

theorem handleAt_poolDestroyed {handle : MYSQL} :
    (heap.poolDestroyed p).handleAt place = some handle ↔
      (∀ k, place ≠ .element p k) ∧ heap.handleAt place = some handle := by
  cases place with
  | object n => simp [handleAt, at_, poolDestroyed, close]
  | element p' k =>
    by_cases hp : p' = p
    · subst hp
      simp [handleAt, at_, poolDestroyed, SQLConnectionPool.ofInfo]
    · simp [handleAt, at_, poolDestroyed, hp]

theorem closes_poolDestroyed (heap : Heap) (p : Nat) :
    Closes heap (heap.poolDestroyed p)
      ((heap.pool p).connections.filterMap (·.mySqlHandle)) := by
  refine ⟨rfl, rfl, fun handle hmem => ?_,
    fun place handle hheld => ⟨place, (handleAt_poolDestroyed.mp hheld).2⟩⟩
  obtain ⟨k, hk⟩ := mem_handles_iff.mp hmem
  exact ⟨_, hk⟩

theorem poolDestroyed_owned_iff (hs : heap.Sound) :
    (heap.poolDestroyed p).holdings.Owned ↔
      ((heap.pool p).connections.filterMap (·.mySqlHandle)).Nodup ∧
        ∀ k handle, heap.handleAt (.element p k) = some handle →
          ∀ place, heap.handleAt place = some handle → ∃ j, place = .element p j := by
  rw [(closes_poolDestroyed heap p).owned_iff hs]
  refine and_congr_right fun _ => ?_
  constructor
  · intro hleft k handle hk place hplace
    by_contra hno
    refine hleft place handle (handleAt_poolDestroyed.mpr ⟨fun j hj => hno ⟨j, hj⟩, hplace⟩) ?_
    exact mem_handles_iff.mpr ⟨k, hk⟩
  · intro hsole place handle hplace hmem
    obtain ⟨hout, hheld⟩ := handleAt_poolDestroyed.mp hplace
    obtain ⟨k, hk⟩ := mem_handles_iff.mp hmem
    obtain ⟨j, hj⟩ := hsole k handle hk place hheld
    exact hout j hj

end DestroyPool

/-! ## One event -/

/-- Move assignment hands over what it should exactly if the target has a handle, or there is nothing
to hand over. -/
theorem transferred_iff {other : Place} {left : SQLConnectionInfo}
    (h : heap.step (.moveAssign place other left) = some heap') :
    Transferred heap heap' (.moveAssign place other left) ↔
      heap.Allowed (.moveAssign place other left) := by
  simp only [step] at h
  split at h
  · cases h
  · rename_i hne
    split at h
    · rename_i conn conn' hat hat'
      cases h
      have hplace : ((heap.put (conn.moveAssign conn' left).2 other).put
          (conn.moveAssign conn' left).1 place).at_ place = some (conn.moveAssign conn' left).1 :=
        at_put_self (by rw [at_put_other hne]; exact hat)
      simp only [Transferred, Allowed, hplace, hat, hat', Option.some.injEq, exists_eq_left']
      constructor
      · rintro htransferred _ _ rfl rfl hnone
        simpa [SQLConnection.moveAssign, hnone, eq_comm] using htransferred conn' rfl
      · rintro hallowed _ rfl
        cases hhandle : conn.mySqlHandle with
        | none =>
          have hempty := hallowed conn conn' rfl rfl hhandle
          simp [SQLConnection.moveAssign, hhandle, hempty]
        | some handle => simp [SQLConnection.moveAssign, hhandle]
    · cases h

/-- **What one event keeps, and when.** -/
theorem step_iff {e : Event} (hs : heap.Sound) (h : heap.step e = some heap') :
    (heap'.holdings.Owned ∧ Transferred heap heap' e ↔ heap.Allowed e) ∧
      (heap'.holdings.Owned → heap'.Sound) := by
  by_cases hclosing : Closing e
  · cases e with
    | relocate p capacity =>
      cases h
      exact ⟨(and_iff_left trivial).trans (relocate_owned_iff hs p capacity),
        (closes_relocate heap p capacity).sound hs⟩
    | destroy n =>
      simp only [step] at h
      split at h
      · cases h
      · rename_i conn hobject
        cases h
        exact ⟨(and_iff_left trivial).trans (destroyed_owned_iff hs hobject),
          (closes_destroyed hobject).sound hs⟩
    | destroyPool p =>
      cases h
      exact ⟨(and_iff_left trivial).trans (poolDestroyed_owned_iff hs),
        (closes_poolDestroyed heap p).sound hs⟩
    | _ => exact absurd hclosing id
  · have hsound := (moved_of_step hclosing h).sound hs
    refine ⟨?_, fun _ => hsound⟩
    cases e with
    | moveAssign place other left =>
      rw [transferred_iff h]
      exact and_iff_right hsound.owned
    | relocate p capacity => exact absurd trivial hclosing
    | destroy n => exact absurd trivial hclosing
    | destroyPool p => exact absurd trivial hclosing
    | _ => exact iff_of_true ⟨hsound.owned, trivial⟩ trivial

theorem sound_new (infos : Nat → SQLConnectionPoolInfo) : (new infos).Sound := by
  have hnone : ∀ place, (new infos).handleAt place = none := by
    intro place
    cases place <;> simp [handleAt, at_, new, SQLConnectionPool.ofInfo]
  refine ⟨⟨List.nodup_nil, fun place handle h => ?_⟩, fun place handle h => ?_, by simp [new]⟩
  · have hheld : (new infos).handleAt place = some handle := h
    rw [hnone] at hheld
    cases hheld
  · rw [hnone] at h
    cases h

theorem sound_of_reachable {infos : Nat → SQLConnectionPoolInfo}
    (h : (allowedSystem infos).Reachable heap) : heap.Sound := by
  refine h.invariant (P := Sound) ?_ ?_
  · intro start hstart
    rw [show start = new infos from hstart]
    exact sound_new infos
  · rintro heap heap' - hs ⟨e, hallowed, hstep⟩
    obtain ⟨hiff, hsound⟩ := step_iff hs hstep
    exact hsound (hiff.mpr hallowed).1

/-! ## A call is its events -/

section Calls

variable {infos : Nat → SQLConnectionPoolInfo} {p i left : Nat} {a : SpawnAnswers}
  {s s₁ s₂ : SpawnState}

theorem step_relocate (heap : Heap) (p capacity : Nat) (s : SpawnState) :
    (heap.withSpawn p s).step (.relocate p capacity) =
      some (heap.withSpawn p (s.relocate capacity)) := by
  simp [step, withSpawn, spawnState, SpawnState.relocate]

/-- Either nothing grew, or the vector moved to other storage. -/
def Grown (s s₁ : SpawnState) : Prop :=
  s₁ = s ∨ ∃ capacity, capacity ≠ s.capacity ∧ s₁ = s.relocate capacity

theorem run_grow (h : Grown s s₁) (es : List Event) :
    (machine infos).run (heap.withSpawn p s) (growEvents p s s₁ ++ es) =
      (machine infos).run (heap.withSpawn p s₁) es := by
  rcases h with rfl | ⟨capacity, hne, rfl⟩
  · simp [growEvents]
  · have hgrow : growEvents p s (s.relocate capacity) = [.relocate p capacity] := if_neg hne
    rw [hgrow]
    exact Machine.run_step (step_relocate heap p capacity s) es

theorem grown_reserve {n : Nat} (h : s.reserve a n = some s₁) : Grown s s₁ := by
  unfold SpawnState.reserve at h
  split at h
  · exact Or.inl (Option.some.inj h).symm
  · rename_i hmore
    split at h
    · exact Or.inr ⟨n, by omega, (Option.some.inj h).symm⟩
    · cases h

/-- `emplace_back` grows the vector if it has to, and appends. -/
theorem emplaceBack_cases (h : s.emplaceBack a = some s₁) :
    ∃ s', Grown s s' ∧ s₁ = { s' with pool := { s.pool with
      connections := s.pool.connections ++
        [.ofInfo s.pool.connectionPoolInfo.toSQLConnectionInfo] } } := by
  unfold SpawnState.emplaceBack at h
  simp only at h
  split at h
  · exact ⟨s, Or.inl rfl, (Option.some.inj h).symm⟩
  · rename_i hfull
    split at h
    · exact ⟨_, Or.inr ⟨_, by omega, rfl⟩, (Option.some.inj h).symm⟩
    · cases h

theorem run_emplaceBack (h : s.emplaceBack a = some s₁) (es : List Event) :
    (machine infos).run (heap.withSpawn p s) (growEvents p s s₁ ++ .append p :: es) =
      (machine infos).run (heap.withSpawn p s₁) es := by
  obtain ⟨s', hgrown, hs₁⟩ := emplaceBack_cases h
  have hpool : s'.pool = s.pool := by
    rcases hgrown with rfl | ⟨capacity, -, rfl⟩
    · rfl
    · rfl
  have hgrow : growEvents p s s₁ = growEvents p s s' := by
    rw [hs₁]
    rfl
  rw [hgrow, run_grow hgrown]
  refine Machine.run_step ?_ es
  simp [machine, step, withSpawn, hpool, hs₁]

theorem run_connectAt {status : Status} (h : s.connectAt a i = some (status, s₁))
    (es : List Event) :
    (machine infos).run (heap.withSpawn p s) (connectEvents p a i s ++ es) =
      (machine infos).run (heap.withSpawn p s₁) es := by
  unfold SpawnState.connectAt at h
  split at h
  · cases h
  · split at h
    · cases h
    · rename_i conn hconn
      have hlt : i < s.pool.connections.length := (List.getElem?_eq_some_iff.mp hconn).1
      by_cases hout : a.connect i = .connected
      · simp only [hout] at h
        cases h
        simp only [connectEvents, hout, if_true, List.cons_append, List.nil_append]
        let opened := { conn with mySqlHandle := some s.client.opened }
        have hfirst : (heap.withSpawn p s).step (.connect (.element p i) .connected) =
            some (heap.withSpawn p { s with
              pool := { s.pool with connections := s.pool.connections.set i opened }
              client := { s.client with opened := s.client.opened + 1 } }) := by
          simp [step, at_, withSpawn, hconn, SQLConnection.connect, put, opened]
        rw [Machine.run_step hfirst]
        refine Machine.run_step ?_ es
        simp [machine, step, SQLConnection.connect, SQLConnection.connectAndPrepare, put, at_,
          withSpawn, hlt, opened]
      · simp only [SQLConnection.connectAndPrepare_unconnected hout] at h
        cases h
        simp only [connectEvents, if_neg hout]
        refine Machine.run_step ?_ es
        simp [machine, step, at_, withSpawn, hconn, put]

/-- Induction on what is left of the loop. -/
theorem run_loopEvents (heap : Heap) (p : Nat) (a : SpawnAnswers) (left i : Nat) (s : SpawnState)
    (es : List Event) :
    (machine infos).run (heap.withSpawn p s) (loopEvents p a left i s ++ es) =
      (machine infos).run (heap.withSpawn p (SpawnState.spawnLoop a left i s).2) es := by
  induction left generalizing i s with
  | zero => rfl
  | succ left ih =>
    unfold loopEvents SpawnState.spawnLoop
    cases hemplace : s.emplaceBack a with
    | none => rfl
    | some s₁ =>
      simp only [List.append_assoc, List.cons_append, run_emplaceBack hemplace]
      cases hconnect : s₁.connectAt a i with
      | none => rfl
      | some result =>
        obtain ⟨status, s₂⟩ := result
        cases status with
        | OK =>
          simp only [List.append_assoc, run_connectAt hconnect]
          by_cases hmax : i = 2 ^ 31 - 1
          · simp only [hmax, if_true, List.nil_append]
          · simp only [hmax, if_false]
            exact ih (i + 1) s₂
        | FAILED => exact run_connectAt hconnect es
        | UNKNOWN => exact run_connectAt hconnect es

theorem run_call (infos : Nat → SQLConnectionPoolInfo) (heap : Heap) (p : Nat) (a : SpawnAnswers)
    (s : SpawnState) :
    (machine infos).run (heap.withSpawn p s) (callEvents p a s) =
      some (heap.withSpawn p (SpawnState.spawnConnections a s).2) := by
  unfold callEvents SpawnState.spawnConnections
  simp only
  split
  · rfl
  · split
    · cases hreserve : s.reserve a s.pool.connectionPoolInfo.connectionCount.toNat with
      | none => rfl
      | some s₁ =>
        simp only [List.append_assoc, run_grow (grown_reserve hreserve), run_loopEvents]
        generalize SpawnState.spawnLoop a _ _ s₁ = ended
        obtain ⟨e, s₂⟩ := ended
        cases e with
        | returned status =>
          cases status with
          | OK =>
            refine Machine.run_step ?_ []
            simp [machine, step, withSpawn]
          | FAILED => rfl
          | UNKNOWN => rfl
        | threw => rfl
        | undefined => rfl
    · rfl

/-- **A call of `SpawnConnections` is the run of its events.** -/
theorem run_callEvents (infos : Nat → SQLConnectionPoolInfo) (heap : Heap) (p : Nat)
    (a : SpawnAnswers) :
    (machine infos).run heap (callEvents p a (heap.spawnState p)) =
      some (heap.withSpawn p (SpawnState.spawnConnections a (heap.spawnState p)).2) := by
  have hself : heap.withSpawn p (heap.spawnState p) = heap := by
    simp [withSpawn, spawnState]
  have hrun := run_call infos heap p a (heap.spawnState p)
  rwa [hself] at hrun

end Calls

/-! ## All runs -/

/-- **When every handle has one owner.** In every run whose events are all allowed, at every moment,
nothing is closed twice and no object refers to what is closed; an event keeps this, and a move
assignment hands over what it should, exactly if it is allowed; and a call of `SpawnConnections` on
any heap, with any answers, is a run of such events. -/
theorem handles_owned (infos : Nat → SQLConnectionPoolInfo) :
    (∀ heap, (allowedSystem infos).Reachable heap → heap.holdings.Owned ∧
      ∀ e heap', heap.step e = some heap' →
        (heap'.holdings.Owned ∧ Transferred heap heap' e ↔ heap.Allowed e)) ∧
    ∀ heap p a, (machine infos).run heap (callEvents p a (heap.spawnState p)) =
      some (heap.withSpawn p (SpawnState.spawnConnections a (heap.spawnState p)).2) := by
  refine ⟨fun heap hr => ?_, run_callEvents infos⟩
  have hs := sound_of_reachable hr
  exact ⟨hs.owned, fun e heap' hstep => (step_iff hs hstep).1⟩

/-- Pools of one connection, for the examples. -/
def singles (_ : Nat) : SQLConnectionPoolInfo := { SQLDatabase.sampleInfo with connectionCount := 1 }

/-- The events of one successful `SpawnConnections`, and the pool is destroyed with its connection. -/
theorem handles_owned_destroyPool :
    ∃ heap, (allowedSystem singles).Reachable heap ∧ heap.client.closed = [0] ∧
      heap.holdings.Owned := by
  have h₁ : (allowedSystem singles).Reachable _ := (System.Reachable.start rfl).next
    ⟨.relocate 0 1, fun conn hconn => (nomatch hconn), rfl⟩
  have h₂ := h₁.next ⟨.append 0, trivial, rfl⟩
  have h₃ := h₂.next ⟨.connect (.element 0 0) .connected, trivial, rfl⟩
  have h₄ := h₃.next ⟨.counted 0 1, trivial, rfl⟩
  have h₅ := h₄.next ⟨.destroyPool 0, ⟨by decide, fun k handle _ place hplace => ?_⟩, rfl⟩
  · exact ⟨_, h₅, rfl, ((handles_owned singles).1 _ h₅).1⟩
  · -- No other pool has been opened, and there are no other objects.
    cases place with
    | object n => cases hplace
    | element p k =>
      by_cases hp : p = 0
      · exact ⟨k, by rw [hp]⟩
      · simp [handleAt, at_, put, withSpawn, spawnState, SpawnState.relocate, hp, new,
          SQLConnectionPool.ofInfo] at hplace

/-- A connection is moved out of its pool, and the object it was moved to is destroyed: the element
left behind refers to a closed handle. -/
theorem not_handles_owned_moved :
    ¬ ∀ infos es heap, (machine infos).run (new infos) es = some heap → heap.holdings.Owned := by
  intro hall
  let info := SQLDatabase.sampleInfo.toSQLConnectionInfo
  have hdangling : ∃ heap, (machine singles).run (new singles)
      (callEvents 0 (SpawnState.answering fun _ => .connected) ((new singles).spawnState 0) ++
        [.moveConstruct 0 (.element 0 0) info, .destroy 0]) = some heap ∧
      heap.handleAt (.element 0 0) = some 0 ∧ 0 ∈ heap.client.closed :=
    ⟨_, rfl, rfl, List.mem_singleton.mpr rfl⟩
  obtain ⟨heap, hrun, hheld, hclosed⟩ := hdangling
  exact (hall singles _ heap hrun).live _ 0 hheld hclosed

end Heap

end ServerTest.Database
