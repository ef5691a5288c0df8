import Mathlib.Data.Set.Insert
import ServerTest.Database.Lease

/-!
# What every SQL operation does with its connection

`SQLOperationBase.{h,cpp}`. A statement and a transaction begin alike: take a connection from the
pool of the operation's schema, read its handle, and only then ask whether there was a connection.
`getMySQLHandle` of no connection is therefore a fault, and the test both `Execute`s make
afterwards is never reached with `nullptr`.

`SQLDatabase.offer` says what the pool would hand out without handing it out; conditions on the
state before a call are stated with it.
-/

set_option autoImplicit false

namespace ServerTest.Database

open Lib

/-- `SQLOperationBase::SQLOperationStatus`. -/
inductive SQLOperationStatus where
  | Success
  | Failed
  | Running
  deriving DecidableEq, Repr

namespace SQLDatabase

/-- `SQLOperationBase::GetMySQLHandle`, which checks nothing. -/
def getMySQLHandle (db : SQLDatabase) : Option ConnectionRef → Except Fault (Option MYSQL)
  | none => .error .nullPointer
  | some conn => do
    let pool ← subscript db.connectionPool conn.pool
    let c ← subscript pool.connections conn.index
    return c.mySqlHandle

/-- The connection the pool of `schemaIndex` would hand out next, if it has one. -/
def offer (db : SQLDatabase) (schemaIndex : Nat) : Option SQLConnection :=
  match db.connectionPool[schemaIndex]? with
  | none => none
  | some pool => pool.connections.find? (·.isAvaliable)

/-- The connection on offer has a handle. Without one every run faults at its first call. -/
def OffersLive (db : SQLDatabase) (schemaIndex : Nat) : Prop :=
  ∃ conn handle, db.offer schemaIndex = some conn ∧ conn.mySqlHandle = some handle

/-- `taken` is `db` with the connection `conn` leased, and nothing else different: its handle can be
read, and freeing it gives `db` back. -/
structure Leased (db : SQLDatabase) (handle : Option MYSQL) (conn : ConnectionRef)
    (taken : SQLDatabase) : Prop where
  handle : taken.getMySQLHandle (some conn) = .ok handle
  freed : taken.freeUpConnection conn = .ok db
  wasAvailable : (conn.pool, conn.index) ∈ db.available
  available : taken.available = db.available \ {(conn.pool, conn.index)}

/-- A leased connection is not available, so a call that keeps it changed the set. -/
theorem Leased.available_ne {db taken : SQLDatabase} {handle : Option MYSQL} {conn : ConnectionRef}
    (h : db.Leased handle conn taken) : taken.available ≠ db.available := by
  intro heq
  have hmem := h.wasAvailable
  rw [← heq, h.available] at hmem
  exact hmem.2 rfl

/-- Writing the flag of one connection of one pool. -/
theorem available_set {db : SQLDatabase} {i k : Nat} {pool : SQLConnectionPool}
    {conn : SQLConnection} (hpool : db.connectionPool[i]? = some pool)
    (hconn : pool.connections[k]? = some conn) :
    available ⟨db.connectionPool.set i
      { pool with connections := pool.connections.set k { conn with isAvaliable := false } }⟩ =
    db.available \ {(i, k)} := by
  have hi : i < db.connectionPool.length := (List.getElem?_eq_some_iff.mp hpool).1
  have hk : k < pool.connections.length := (List.getElem?_eq_some_iff.mp hconn).1
  ext ⟨j, l⟩
  simp only [available, Set.mem_sdiff, Set.mem_singleton_iff, Set.mem_ofPred_eq, Prod.mk.injEq]
  by_cases hj : j = i
  · subst hj
    by_cases hl : l = k
    · subst hl
      simp [hi, hk]
    · simp [List.getElem?_set_self hi, hpool, hl, List.getElem?_set_ne (Ne.symm hl)]
  · simp [hj, List.getElem?_set_ne (Ne.symm hj)]

/-- The pool is there and every connection of it is leased; an empty pool is. -/
def Exhausted (db : SQLDatabase) (schemaIndex : Nat) : Prop :=
  ∃ pool, db.connectionPool[schemaIndex]? = some pool ∧
    ∀ conn ∈ pool.connections, conn.isAvaliable = false

/-- An exhausted pool hands out `nullptr`. -/
theorem Exhausted.getAvaliableSQLConnection {db : SQLDatabase} {schemaIndex : Nat}
    (h : db.Exhausted schemaIndex) :
    db.getAvaliableSQLConnection schemaIndex = .ok (none, db) := by
  obtain ⟨pool, hpool, hleased⟩ := h
  rcases scan_cases pool.connections with ⟨hscan, -⟩ | ⟨k, conn, hk, hfirst, -⟩
  · simp only [SQLDatabase.getAvaliableSQLConnection, subscript, hpool, bind, Except.bind, pure,
      Except.pure, SQLConnectionPool.getAvaliableSQLConnection, hscan, set_of_getElem? hpool]
    rfl
  · have hup : conn.isAvaliable = true := by simpa using List.find?_some hfirst
    rw [hleased conn (List.mem_of_getElem? hk)] at hup
    cases hup

/-- **What asking for a connection can do.** With nothing on offer it faults or returns `nullptr`
and changes nothing; otherwise it leases exactly the connection on offer. -/
theorem offer_cases (db : SQLDatabase) (schemaIndex : Nat) :
    (db.offer schemaIndex = none ∧
      ((∃ fault, db.getAvaliableSQLConnection schemaIndex = .error fault) ∨
        db.getAvaliableSQLConnection schemaIndex = .ok (none, db))) ∨
    ∃ conn ref taken, db.offer schemaIndex = some conn ∧
      db.getAvaliableSQLConnection schemaIndex = .ok (some ref, taken) ∧
      db.Leased conn.mySqlHandle ref taken := by
  cases hpool : db.connectionPool[schemaIndex]? with
  | none =>
    refine Or.inl ⟨by simp [offer, hpool], Or.inl ⟨.outOfBounds, ?_⟩⟩
    simp only [getAvaliableSQLConnection, subscript, hpool]
    rfl
  | some pool =>
    have hi : schemaIndex < db.connectionPool.length := (List.getElem?_eq_some_iff.mp hpool).1
    rcases scan_cases pool.connections with ⟨-, hnone⟩ | ⟨k, conn, hk, hfirst, hscan⟩
    · refine Or.inl ⟨by simp [offer, hpool, hnone], Or.inr ?_⟩
      have hexhausted : db.Exhausted schemaIndex :=
        ⟨pool, hpool, by simpa using List.find?_eq_none.mp hnone⟩
      exact hexhausted.getAvaliableSQLConnection
    · have hlt : k < pool.connections.length := (List.getElem?_eq_some_iff.mp hk).1
      have hup : conn.isAvaliable = true := by simpa using List.find?_some hfirst
      refine Or.inr ⟨conn, ⟨schemaIndex, k⟩, _, by simp [offer, hpool, hfirst], ?_, ?_, ?_, ?_,
        available_set hpool hk⟩
      · simp only [getAvaliableSQLConnection, subscript, hpool, bind, Except.bind, pure,
          Except.pure, SQLConnectionPool.getAvaliableSQLConnection, hscan]
        rfl
      · simp only [getMySQLHandle, subscript, List.getElem?_set_self hi, List.getElem?_set_self hlt,
          bind, Except.bind, pure, Except.pure]
      · -- Two writes to the same slots, the second with the old values.
        have hflag : ({ conn with isAvaliable := true } : SQLConnection) = conn := by
          rw [← hup]
        simp only [freeUpConnection, subscript, List.getElem?_set_self hi,
          List.getElem?_set_self hlt, compareExchangeStrong, if_true, List.set_set, hflag, bind,
          Except.bind, pure, Except.pure, set_of_getElem? hk, set_of_getElem? hpool]
      · exact ⟨pool, conn, hpool, hk, hup⟩

/-- Without a live connection, the two calls every operation starts with fault or give no handle. -/
theorem not_offersLive {db : SQLDatabase} {schemaIndex : Nat} (h : ¬ db.OffersLive schemaIndex) :
    (∃ fault, db.getAvaliableSQLConnection schemaIndex = .error fault) ∨
    db.getAvaliableSQLConnection schemaIndex = .ok (none, db) ∨
    ∃ ref taken, db.getAvaliableSQLConnection schemaIndex = .ok (some ref, taken) ∧
      taken.getMySQLHandle (some ref) = .ok none := by
  rcases db.offer_cases schemaIndex with ⟨-, hfault | hnull⟩ |
    ⟨conn, ref, taken, hoffer, hget, hleased⟩
  · exact Or.inl hfault
  · exact Or.inr (Or.inl hnull)
  · have hnone : conn.mySqlHandle = none := by
      cases hh : conn.mySqlHandle with
      | none => rfl
      | some handle => exact absurd ⟨conn, handle, hoffer, hh⟩ h
    exact Or.inr (Or.inr ⟨ref, taken, hget, by rw [hleased.handle, hnone]⟩)

/-- A live connection on offer is leased with its handle. -/
theorem OffersLive.lease {db : SQLDatabase} {schemaIndex : Nat} (h : db.OffersLive schemaIndex) :
    ∃ handle ref taken, db.getAvaliableSQLConnection schemaIndex = .ok (some ref, taken) ∧
      db.Leased (some handle) ref taken := by
  obtain ⟨conn, handle, hoffer, hlive⟩ := h
  rcases db.offer_cases schemaIndex with ⟨hnone, -⟩ | ⟨c, ref, taken, hc, hget, hleased⟩
  · rw [hoffer] at hnone
    cases hnone
  · rw [hoffer] at hc
    obtain rfl := Option.some.inj hc
    rw [hlive] at hleased
    exact ⟨handle, ref, taken, hget, hleased⟩

/-- A pool offers a connection exactly when one of its flags is up. -/
theorem offer_isSome_iff {db : SQLDatabase} {schemaIndex : Nat} :
    (db.offer schemaIndex).isSome ↔ ∃ k, (schemaIndex, k) ∈ db.available := by
  simp only [available, Set.mem_ofPred_eq]
  cases hpool : db.connectionPool[schemaIndex]? with
  | none => simp [offer, hpool]
  | some pool =>
    simp only [offer, hpool, List.find?_isSome]
    constructor
    · intro h
      obtain ⟨conn, hmem, hup⟩ := h
      obtain ⟨k, hk⟩ := List.mem_iff_getElem?.mp hmem
      exact ⟨k, pool, conn, rfl, hk, hup⟩
    · intro h
      obtain ⟨k, pool', conn, hp, hk, hup⟩ := h
      obtain rfl := Option.some.inj hp
      exact ⟨conn, List.mem_of_getElem? hk, hup⟩

end SQLDatabase

end ServerTest.Database
