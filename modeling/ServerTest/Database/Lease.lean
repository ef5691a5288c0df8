import Mathlib.Data.Finset.Basic
import ServerTest.Lib.Lease
import ServerTest.Database.SQLDatabase

/-!
# Leasing a connection

`SQLConnectionPool::GetAvaliableSQLConnection` scans the vector and takes the first connection
whose `IsAvaliable` it can flip from `true` to `false`; `SQLOperationBase::FreeUpConnection` flips
it back. Both are one `compare_exchange_strong` per connection and nothing else, so there are two
models of them here.

* `scan` and `SQLDatabase.freeUpConnection` are the functions, run to completion by one thread.
  The modules about `Execute` use these.
* `LeaseState.step` is the same scan cut at every compare-and-exchange, for any number of
  operations: between two steps of one scan every other operation may take or free anything.

`scan_steps` ties them together: a scan that is not interrupted is the function. That leases stay
exclusive over all interleavings is by simulation of `Lib.Lease.system`.
-/

set_option autoImplicit false

namespace ServerTest.Database

open Lib

/-! ## The functions -/

/-- The loop of `GetAvaliableSQLConnection`: the index of the connection taken, if any, and the
vector afterwards. -/
def scan : List SQLConnection → Option Nat × List SQLConnection
  | [] => (none, [])
  | conn :: rest =>
    match compareExchangeStrong conn.isAvaliable true false with
    | (true, flag) => (some 0, { conn with isAvaliable := flag } :: rest)
    | (false, _) => ((scan rest).1.map (· + 1), conn :: (scan rest).2)

def SQLConnectionPool.getAvaliableSQLConnection (pool : SQLConnectionPool) :
    Option Nat × SQLConnectionPool :=
  ((scan pool.connections).1, { pool with connections := (scan pool.connections).2 })

/-- A non-null `SQLConnection*`: a slot of a pool's vector. -/
structure ConnectionRef where
  pool : Nat
  index : Nat
  deriving DecidableEq, Repr

namespace SQLDatabase

/-- `SQLDatabase::GetAvaliableSQLConnection`. The subscript of the pool is unchecked. -/
def getAvaliableSQLConnection (db : SQLDatabase) (schemaIndex : Nat) :
    Except Fault (Option ConnectionRef × SQLDatabase) := do
  let pool ← subscript db.connectionPool schemaIndex
  let (found, pool') := pool.getAvaliableSQLConnection
  return (found.map (⟨schemaIndex, ·⟩),
    { db with connectionPool := db.connectionPool.set schemaIndex pool' })

/-- `SQLOperationBase::FreeUpConnection`. -/
def freeUpConnection (db : SQLDatabase) (conn : ConnectionRef) : Except Fault SQLDatabase := do
  let pool ← subscript db.connectionPool conn.pool
  let c ← subscript pool.connections conn.index
  let freed := { c with isAvaliable := (compareExchangeStrong c.isAvaliable false true).2 }
  let pool' := { pool with connections := pool.connections.set conn.index freed }
  return { db with connectionPool := db.connectionPool.set conn.pool pool' }

/-- The connections whose flag is up, as pairs of a pool and an index in it. -/
def available (db : SQLDatabase) : Set (Nat × Nat) :=
  {pc | ∃ pool conn, db.connectionPool[pc.1]? = some pool ∧
    pool.connections[pc.2]? = some conn ∧ conn.isAvaliable = true}

end SQLDatabase

/-- A scan takes the first available connection and touches no other, or finds none. -/
theorem scan_cases (conns : List SQLConnection) :
    (scan conns = (none, conns) ∧ conns.find? (·.isAvaliable) = none) ∨
    ∃ k conn, conns[k]? = some conn ∧ conns.find? (·.isAvaliable) = some conn ∧
      scan conns = (some k, conns.set k { conn with isAvaliable := false }) := by
  induction conns with
  | nil => exact Or.inl ⟨rfl, rfl⟩
  | cons conn rest ih =>
    cases hflag : conn.isAvaliable with
    | true =>
      refine Or.inr ⟨0, conn, rfl, by simp [hflag], ?_⟩
      simp [scan, compareExchangeStrong, hflag]
    | false =>
      rcases ih with ⟨hscan, hnone⟩ | ⟨k, c, hk, hfirst, hscan⟩
      · refine Or.inl ⟨?_, by rw [List.find?_cons_of_neg (by simp [hflag]), hnone]⟩
        simp [scan, compareExchangeStrong, hflag, hscan]
      · refine Or.inr ⟨k + 1, c, by simpa using hk, ?_, ?_⟩
        · rw [List.find?_cons_of_neg (by simp [hflag]), hfirst]
        · simp [scan, compareExchangeStrong, hflag, hscan]

/-! ## The interleaved scan -/

/-- A pool and the operations using it. `scanning i` is the position of operation `i`'s scan, if it
is inside `GetAvaliableSQLConnection`; `held i` is what it has taken and not freed. -/
structure LeaseState (ι : Type) where
  connections : List SQLConnection
  scanning : ι → Option Nat
  held : ι → Finset Nat

/-- One step of operation `i`: enter the scan, try the connection the scan stands at (past the end,
return `nullptr`), or free a connection it holds. -/
inductive LeaseStep (ι : Type) where
  | call (i : ι)
  | compareExchange (i : ι)
  | freeUpConnection (i : ι) (c : Nat)

namespace LeaseState

variable {ι : Type} [DecidableEq ι]

/-- The step, where the operation can take it. An operation that left `Execute` without freeing
keeps its lease in `held` and may call again: leaks are runs of this model too. -/
def step (s : LeaseState ι) : LeaseStep ι → Option (LeaseState ι)
  | .call i =>
    match s.scanning i with
    | some _ => none
    | none => some { s with scanning := Function.update s.scanning i (some 0) }
  | .compareExchange i =>
    match s.scanning i with
    | none => none
    | some k =>
      match s.connections[k]? with
      | none => some { s with scanning := Function.update s.scanning i none }
      | some conn =>
        match compareExchangeStrong conn.isAvaliable true false with
        | (true, flag) => some
            { connections := s.connections.set k { conn with isAvaliable := flag }
              scanning := Function.update s.scanning i none
              held := Function.update s.held i (insert k (s.held i)) }
        | (false, _) => some { s with scanning := Function.update s.scanning i (some (k + 1)) }
  | .freeUpConnection i c =>
    if c ∈ s.held i then
      match s.connections[c]? with
      | none => none
      | some conn => some
          { s with
            connections := s.connections.set c
              { conn with isAvaliable := (compareExchangeStrong conn.isAvaliable false true).2 }
            held := Function.update s.held i ((s.held i).erase c) }
    else none

/-- Any pool, fresh from its constructors: every flag is up and nobody holds or scans anything. -/
def Fresh (s : LeaseState ι) : Prop :=
  (∀ c ∈ s.connections, c.isAvaliable = true) ∧ (∀ i, s.scanning i = none) ∧ ∀ i, s.held i = ∅

variable (ι) in
/-- Every interleaving of the steps of every operation. -/
def system : System (LeaseState ι) where
  init := Fresh
  step s t := ∃ e, s.step e = some t

/-- The flag of connection `c`; slots the vector does not have count as never taken. -/
def flag (s : LeaseState ι) (c : Nat) : Bool :=
  (s.connections[c]?.map (·.isAvaliable)).getD true

/-! ### Every interleaving is exclusive -/

/-- What the flags and notes of a state describe. -/
abbrev Describes (s : LeaseState ι) (h : Lib.Lease.Holders Nat ι) : Prop :=
  Lib.Lease.Represents s.flag (fun i c => c ∈ s.held i) h

omit [DecidableEq ι] in
theorem flag_eq_of_getElem? {s : LeaseState ι} {c : Nat} {conn : SQLConnection}
    (h : s.connections[c]? = some conn) : s.flag c = conn.isAvaliable := by
  simp [flag, h]

omit [DecidableEq ι] in
/-- Writing one connection's flag writes that flag and no other. -/
theorem flag_set {s t : LeaseState ι} {k : Nat} {conn : SQLConnection} {b : Bool}
    (hk : s.connections[k]? = some conn)
    (ht : t.connections = s.connections.set k { conn with isAvaliable := b }) (c : Nat) :
    t.flag c = if c = k then b else s.flag c := by
  have hlt : k < s.connections.length := (List.getElem?_eq_some_iff.mp hk).1
  by_cases hc : c = k
  · subst hc
    simp [flag, ht, hlt]
  · simp [flag, ht, hc, List.getElem?_set_ne (Ne.symm hc)]

/-- An exchange that took connection `k` is an acquisition. -/
theorem Describes.take {s t : LeaseState ι} {h : Lib.Lease.Holders Nat ι} (hd : s.Describes h)
    {i : ι} {k : Nat} {conn : SQLConnection} (hk : s.connections[k]? = some conn)
    (hup : conn.isAvaliable = true)
    (hconnections : t.connections = s.connections.set k { conn with isAvaliable := false })
    (hheld : t.held = Function.update s.held i (insert k (s.held i))) :
    ∃ h', Relation.ReflTransGen Lib.Lease.Step h h' ∧ t.Describes h' := by
  have hflag : s.flag k = true := by rw [flag_eq_of_getElem? hk, hup]
  refine ⟨Function.update h k (some i), .single (.acquire k i ((hd.available_iff k).mp hflag)),
    hd.acquire hflag (flag_set hk hconnections) ?_⟩
  intro j c
  rw [hheld]
  by_cases hj : j = i
  · subst hj
    simp
  · simp [hj]

/-- The exchange of a holder is a release: its flag is down, so the exchange succeeds. -/
theorem Describes.free {s t : LeaseState ι} {h : Lib.Lease.Holders Nat ι} (hd : s.Describes h)
    {i : ι} {c : Nat} {conn : SQLConnection} (hc : s.connections[c]? = some conn)
    (hmem : c ∈ s.held i)
    (hconnections : t.connections = s.connections.set c
      { conn with isAvaliable := (compareExchangeStrong conn.isAvaliable false true).2 })
    (hheld : t.held = Function.update s.held i ((s.held i).erase c)) :
    ∃ h', Relation.ReflTransGen Lib.Lease.Step h h' ∧ t.Describes h' := by
  have hdown : conn.isAvaliable = false := by
    rw [← flag_eq_of_getElem? hc]
    exact (hd.unavailable_iff c).mpr ⟨i, hmem⟩
  rw [hdown] at hconnections
  refine ⟨Function.update h c none, .single (.release c i ((hd.holds_iff i c).mp hmem)),
    hd.release hmem (flag_set hc hconnections) ?_⟩
  intro j x
  rw [hheld]
  by_cases hj : j = i
  · subst hj
    simp
  · simp [hj]

/-- One step of the pool is one move of the specification, or none: a failed compare-and-exchange
and the two ends of a scan change neither a flag nor a lease. -/
theorem step_describes {s t : LeaseState ι} {e : LeaseStep ι} {h : Lib.Lease.Holders Nat ι}
    (hd : s.Describes h) (hst : s.step e = some t) :
    ∃ h', Relation.ReflTransGen Lib.Lease.Step h h' ∧ t.Describes h' := by
  cases e with
  | call i =>
    simp only [step] at hst
    split at hst
    · cases hst
    · cases hst
      exact ⟨h, .refl, hd⟩
  | compareExchange i =>
    simp only [step] at hst
    split at hst
    · cases hst
    · rename_i k hscan
      split at hst
      · cases hst
        exact ⟨h, .refl, hd⟩
      · rename_i conn hk
        cases hup : conn.isAvaliable with
        | false =>
          simp only [compareExchangeStrong, hup, Bool.false_eq_true, if_false] at hst
          cases hst
          exact ⟨h, .refl, hd⟩
        | true =>
          simp only [compareExchangeStrong, hup, if_true] at hst
          cases hst
          exact hd.take hk hup rfl rfl
  | freeUpConnection i c =>
    simp only [step] at hst
    split at hst
    · rename_i hheld
      split at hst
      · cases hst
      · rename_i conn hc
        cases hst
        exact hd.free hc hheld rfl rfl
    · cases hst

omit [DecidableEq ι] in
theorem fresh_describes {s : LeaseState ι} (h : s.Fresh) : s.Describes fun _ => none where
  available_iff c := by
    cases hc : s.connections[c]? with
    | none => simp [flag, hc]
    | some conn => simp [flag, hc, h.1 conn (List.mem_of_getElem? hc)]
  holds_iff i c := by simp [h.2.2 i]

/-- The pool implements exclusive leases. -/
theorem simulates : Simulation (system ι) (Lib.Lease.system Nat ι) Describes where
  init _ hs := ⟨fun _ => none, fun _ => rfl, fresh_describes hs⟩
  step _ _ _ hd := fun ⟨_, hst⟩ => step_describes hd hst

/-- **No connection has two holders, and a flag is down exactly while its connection has one** —
for any number of operations, any pool and any interleaving of their compare-and-exchanges. -/
theorem leases_exclusive {s : LeaseState ι} (h : (system ι).Reachable s) :
    (∀ i j c, c ∈ s.held i → c ∈ s.held j → i = j) ∧
    ∀ c conn, s.connections[c]? = some conn → (conn.isAvaliable = false ↔ ∃ i, c ∈ s.held i) := by
  obtain ⟨holders, -, hd⟩ := simulates.reachable h
  refine ⟨fun i j c hi hj => hd.exclusive hi hj, fun c conn hc => ?_⟩
  rw [← flag_eq_of_getElem? hc]
  exact hd.unavailable_iff c

/-- One operation, one connection: it takes it, and the two halves of the theorem say so. -/
theorem leases_exclusive_one :
    ∃ s : LeaseState Bool, (system Bool).Reachable s ∧ 0 ∈ s.held true ∧
      (∀ i j c, c ∈ s.held i → c ∈ s.held j → i = j) ∧
      ∀ c conn, s.connections[c]? = some conn →
        (conn.isAvaliable = false ↔ ∃ i, c ∈ s.held i) := by
  let conn : SQLConnection := ⟨some 0, [], SQLDatabase.sampleInfo.toSQLConnectionInfo, true⟩
  have h₀ : (system Bool).Reachable ⟨[conn], fun _ => none, fun _ => ∅⟩ :=
    .start ⟨by simp [conn], fun _ => rfl, fun _ => rfl⟩
  have h₂ := (h₀.next ⟨.call true, rfl⟩).next ⟨.compareExchange true, rfl⟩
  exact ⟨_, h₂, by simp, leases_exclusive h₂⟩

/-! ### An uninterrupted scan is the function -/

/-- The state `GetAvaliableSQLConnection` leaves when operation `i` runs it alone. -/
def afterScan (s : LeaseState ι) (i : ι) : LeaseState ι where
  connections := (scan s.connections).2
  scanning := Function.update s.scanning i none
  held :=
    match (scan s.connections).1 with
    | some k => Function.update s.held i (insert k (s.held i))
    | none => s.held

theorem scan_append_down {before : List SQLConnection} (hdown : ∀ c ∈ before, c.isAvaliable = false)
    (rest : List SQLConnection) :
    scan (before ++ rest) = ((scan rest).1.map (· + before.length), before ++ (scan rest).2) := by
  induction before with
  | nil => simp
  | cons conn before ih =>
    have hfirst : conn.isAvaliable = false := hdown conn (by simp)
    have hrest := ih fun c hc => hdown c (by simp [hc])
    simp [scan, compareExchangeStrong, hfirst, hrest, Function.comp_def, Nat.add_assoc]

/-- The rest of a scan whose position is behind connections that are all taken. Induction on what
is left of the vector. -/
theorem scan_steps_from (i : ι) :
    ∀ (rest before : List SQLConnection) (s : LeaseState ι), s.connections = before ++ rest →
      s.scanning i = some before.length → (∀ c ∈ before, c.isAvaliable = false) →
      Relation.ReflTransGen (system ι).step s (s.afterScan i) := by
  intro rest
  induction rest with
  | nil =>
    intro before s hconns hpos hdown
    have hscan : scan s.connections = (none, s.connections) := by
      rw [hconns, scan_append_down hdown]
      simp [scan]
    have hat : s.connections[before.length]? = none := by simp [hconns]
    refine .single ⟨.compareExchange i, ?_⟩
    simp only [step, hpos, hat, afterScan, hscan]
  | cons conn rest ih =>
    intro before s hconns hpos hdown
    have hat : s.connections[before.length]? = some conn := by simp [hconns]
    cases hflag : conn.isAvaliable with
    | true =>
      have hscan : scan s.connections =
          (some before.length, s.connections.set before.length { conn with isAvaliable := false }) := by
        rw [hconns, scan_append_down hdown]
        simp [scan, compareExchangeStrong, hflag]
      refine .single ⟨.compareExchange i, ?_⟩
      simp only [step, hpos, hat, afterScan, hscan, compareExchangeStrong, hflag, if_true]
    | false =>
      -- The exchange fails, the position moves on, and the state is otherwise the same.
      let next : LeaseState ι :=
        { s with scanning := Function.update s.scanning i (some (before.length + 1)) }
      have hstep : (system ι).step s next := by
        refine ⟨.compareExchange i, ?_⟩
        simp only [step, hpos, hat, compareExchangeStrong, hflag, Bool.false_eq_true, if_false, next]
      have hrun := ih (before ++ [conn]) next (by simp [next, hconns]) (by simp [next])
        fun c hc => by
          rcases List.mem_append.mp hc with hc | hc
          · exact hdown c hc
          · rw [List.mem_singleton.mp hc, hflag]
      have hsame : next.afterScan i = s.afterScan i := by simp [afterScan, next]
      exact (Relation.ReflTransGen.single hstep).trans (hsame ▸ hrun)

/-- **A scan nobody interrupts is `GetAvaliableSQLConnection`.** -/
theorem scan_steps {s : LeaseState ι} {i : ι} (hidle : s.scanning i = none) :
    Relation.ReflTransGen (system ι).step s (s.afterScan i) := by
  let entered : LeaseState ι := { s with scanning := Function.update s.scanning i (some 0) }
  have hstep : (system ι).step s entered := ⟨.call i, by simp [step, hidle, entered]⟩
  have hrun := scan_steps_from i entered.connections [] entered rfl (by simp [entered]) (by simp)
  have hsame : entered.afterScan i = s.afterScan i := by simp [afterScan, entered]
  exact (Relation.ReflTransGen.single hstep).trans (hsame ▸ hrun)

end LeaseState

end ServerTest.Database
