import Mathlib.Data.List.Nodup
import ServerTest.Lib.Cpp
import ServerTest.Configuration.ConfigFile

/-!
# Connections, pools and the database

`SQLConnection.h`, `SQLConnectionPool.{h,cpp}`, `SQLDatabase.cpp`: the data the operations of the
next modules run on, and the registration of schemas.

The names are the source's, misspelling included (`IsAvaliable`). A `uint32` is `UInt32` and wraps;
a `std::vector` is a list. Two members are left out because no modelled function reads them:
`SQLDatabase::ConnectionPoolInfo` and the task queue.
-/

set_option autoImplicit false

namespace ServerTest.Database

open Lib

/-- A live `MYSQL*`: which of the connections opened so far it is. -/
abbrev MYSQL := Nat

structure SQLConnectionInfo where
  hostname : Bytes
  username : Bytes
  password : Bytes
  schema : Bytes
  port : UInt32
  deriving DecidableEq, Repr

structure SQLConnectionPoolInfo extends SQLConnectionInfo where
  connectionCount : UInt32
  deriving DecidableEq, Repr

/-- `static const int32 InvalidConnectionPool = -1`, as it reads after the assignment to the
`uint32` member `ConnectionCount`. -/
def SQLConnectionPoolInfo.invalidConnectionPool : UInt32 := -1

structure SQLConnection where
  mySqlHandle : Option MYSQL
  preparedStatements : List Bytes
  connectionInfo : SQLConnectionInfo
  isAvaliable : Bool
  deriving DecidableEq, Repr

structure SQLConnectionPool where
  connectionPoolInfo : SQLConnectionPoolInfo
  activeConnectionCount : UInt32
  connections : List SQLConnection
  preparedStatementStrings : List Bytes
  deriving DecidableEq, Repr

structure SQLDatabase where
  connectionPool : List SQLConnectionPool
  deriving DecidableEq, Repr

/-- `SQLConnectionPool::SQLConnectionPool(SQLConnectionPoolInfo&)`. -/
def SQLConnectionPool.ofInfo (info : SQLConnectionPoolInfo) : SQLConnectionPool where
  connectionPoolInfo := info
  activeConnectionCount := 0
  connections := []
  preparedStatementStrings := []

/-- The info of a default-constructed pool. The constructor assigns only `ConnectionCount`: the
strings are empty and `Port` keeps whatever the memory held, which is the argument. -/
def SQLConnectionPoolInfo.placeholder (port : UInt32) : SQLConnectionPoolInfo where
  hostname := []
  username := []
  password := []
  schema := []
  port := port
  connectionCount := invalidConnectionPool

/-- `SQLConnectionPool::SQLConnectionPool()`, which `resize` runs for every new slot. -/
def SQLConnectionPool.placeholder (port : UInt32) : SQLConnectionPool :=
  .ofInfo (.placeholder port)

namespace SQLDatabase

/-- `ConnectionPool.resize(n)`. `junk i` is what the `Port` of slot `i` holds when its pool is
default-constructed. -/
def resize (junk : Nat → UInt32) (pools : List SQLConnectionPool) (n : Nat) :
    List SQLConnectionPool :=
  pools.take n ++ (List.range' pools.length (n - pools.length)).map
    fun i => .placeholder (junk i)

/-- `SQLDatabase::AddSchema`. The assignment is inside the branch that grows the vector, and
`schemaIndex + 1` is `uint32` arithmetic. -/
def addSchema (junk : Nat → UInt32) (db : SQLDatabase) (schemaIndex : UInt32)
    (poolInfo : SQLConnectionPoolInfo) : Except Fault SQLDatabase :=
  if db.connectionPool.length ≤ schemaIndex.toNat then do
    let grown := resize junk db.connectionPool (schemaIndex + 1).toNat
    let pools ← store grown schemaIndex.toNat (.ofInfo poolInfo)
    return { db with connectionPool := pools }
  else
    return db

/-- The registrations of `regs`, in that order. -/
def addSchemas (junk : Nat → UInt32) (db : SQLDatabase)
    (regs : List (UInt32 × SQLConnectionPoolInfo)) : Except Fault SQLDatabase :=
  regs.foldlM (fun db p => db.addSchema junk p.1 p.2) db

/-- The database before any registration. -/
def empty : SQLDatabase := ⟨[]⟩

theorem addSchemas_cons {junk : Nat → UInt32} {db db' : SQLDatabase}
    {p : UInt32 × SQLConnectionPoolInfo} {regs : List (UInt32 × SQLConnectionPoolInfo)} :
    db.addSchemas junk (p :: regs) = .ok db' ↔
      ∃ db₁, db.addSchema junk p.1 p.2 = .ok db₁ ∧ db₁.addSchemas junk regs = .ok db' :=
  bind_returns

/-! ## What one registration does -/

theorem length_resize {junk : Nat → UInt32} {pools : List SQLConnectionPool} {n : Nat}
    (h : pools.length ≤ n) : (resize junk pools n).length = n := by
  simp only [resize, List.length_append, List.length_take, List.length_map, List.length_range']
  omega

theorem resize_getElem?_old {junk : Nat → UInt32} {pools : List SQLConnectionPool} {n i : Nat}
    (h : pools.length ≤ n) (hi : i < pools.length) :
    (resize junk pools n)[i]? = pools[i]? := by
  rw [resize, List.take_of_length_le h, List.getElem?_append_left hi]

theorem resize_getElem?_new {junk : Nat → UInt32} {pools : List SQLConnectionPool} {n i : Nat}
    (hi : pools.length ≤ i) (hn : i < n) :
    (resize junk pools n)[i]? = some (.placeholder (junk i)) := by
  rw [resize, List.take_of_length_le (by omega), List.getElem?_append_right hi, List.getElem?_map,
    List.getElem?_range' (by omega)]
  simp [Nat.add_sub_cancel' hi]

/-- The whole effect of a registration whose index is not the last `uint32`: nothing, or growth to
exactly that index with the info in the new last slot. -/
theorem addSchema_eq {junk : Nat → UInt32} {db : SQLDatabase} {i : UInt32}
    {info : SQLConnectionPoolInfo} (hi : i ≠ -1) :
    db.addSchema junk i info = .ok (if db.connectionPool.length ≤ i.toNat
      then ⟨(resize junk db.connectionPool (i.toNat + 1)).set i.toNat (.ofInfo info)⟩ else db) := by
  have hsucc : (i + 1).toNat = i.toNat + 1 := by
    have hlt : i.toNat < 2 ^ 32 := i.toNat_lt
    have hne : i.toNat ≠ 2 ^ 32 - 1 := fun h => hi (UInt32.toNat_inj.mp (by simpa using h))
    rw [UInt32.toNat_add, UInt32.toNat_one]
    omega
  unfold addSchema
  by_cases hlen : db.connectionPool.length ≤ i.toNat
  · have hin : i.toNat < (resize junk db.connectionPool (i.toNat + 1)).length := by
      rw [length_resize (by omega)]
      omega
    simp only [hlen, if_true, hsucc, store, hin]
    rfl
  · simp only [hlen, if_false]
    rfl

/-- Registering the last `uint32` wraps: `resize(0)` destroys every pool and the assignment then
writes outside the empty vector. -/
theorem addSchema_last {junk : Nat → UInt32} {db : SQLDatabase} {info : SQLConnectionPoolInfo}
    (h : db.connectionPool.length ≤ (-1 : UInt32).toNat) :
    db.addSchema junk (-1) info = .error .outOfBounds := by
  have hwrap : ((-1 : UInt32) + 1).toNat = 0 := by decide
  have hnone : resize junk db.connectionPool 0 = [] := by simp [resize]
  simp only [addSchema, h, if_true, hwrap, hnone]
  rfl

/-- A registration that returns leaves every existing slot alone. -/
theorem addSchema_keeps {junk : Nat → UInt32} {db db' : SQLDatabase} {i : UInt32}
    {info : SQLConnectionPoolInfo} (h : db.addSchema junk i info = .ok db') {j : Nat}
    {pool : SQLConnectionPool} (hj : db.connectionPool[j]? = some pool) :
    db'.connectionPool[j]? = some pool := by
  have hlt : j < db.connectionPool.length := (List.getElem?_eq_some_iff.mp hj).1
  by_cases hi : i = -1
  · subst hi
    by_cases hlen : db.connectionPool.length ≤ (-1 : UInt32).toNat
    · rw [addSchema_last hlen] at h
      cases h
    · simp only [addSchema, hlen, if_false] at h
      cases h
      exact hj
  · rw [addSchema_eq hi] at h
    cases h
    split
    · rename_i hlen
      rw [List.getElem?_set_ne (by omega), resize_getElem?_old (by omega) hlt]
      exact hj
    · exact hj

/-! ## Sequences of registrations

What a sequence leaves behind is not what it registered. The vector ends at the largest index,
that slot carries its info, and every other slot carries the info of some registration *or is a
placeholder*: a registration below the current size is dropped. `Registered` says exactly this, and
the order in which the slots were filled is what it cannot say. -/

/-- The state after the registrations `regs`, as far as it does not depend on their order. -/
structure Registered (junk : Nat → UInt32) (regs : List (UInt32 × SQLConnectionPoolInfo))
    (db : SQLDatabase) : Prop where
  below : ∀ p ∈ regs, p.1.toNat < db.connectionPool.length
  last : regs ≠ [] → ∃ p ∈ regs, db.connectionPool.length = p.1.toNat + 1 ∧
    db.connectionPool[p.1.toNat]? = some (.ofInfo p.2)
  slot : ∀ i < db.connectionPool.length,
    db.connectionPool[i]? = some (.placeholder (junk i)) ∨
      ∃ p ∈ regs, p.1.toNat = i ∧ db.connectionPool[i]? = some (.ofInfo p.2)
  none : regs = [] → db.connectionPool = []

theorem Registered.empty (junk : Nat → UInt32) : Registered junk [] SQLDatabase.empty :=
  ⟨by simp, fun h => absurd rfl h, by simp [SQLDatabase.empty], fun _ => rfl⟩

section AddSchema

variable {junk : Nat → UInt32} {regs : List (UInt32 × SQLConnectionPoolInfo)} {db : SQLDatabase}
  {i : UInt32}

/-- The vector grows: the new last slot is this registration's. -/
theorem Registered.grow (h : Registered junk regs db) (hlen : db.connectionPool.length ≤ i.toNat)
    (info : SQLConnectionPoolInfo) :
    Registered junk (regs ++ [(i, info)]) { db with connectionPool :=
      (resize junk db.connectionPool (i.toNat + 1)).set i.toNat (.ofInfo info) } := by
  have hsize : (resize junk db.connectionPool (i.toNat + 1)).length = i.toNat + 1 :=
    length_resize (by omega)
  have hset : ((resize junk db.connectionPool (i.toNat + 1)).set i.toNat (.ofInfo info))[i.toNat]?
      = some (.ofInfo info) := List.getElem?_set_self (by omega)
  refine ⟨?_, ?_, ?_, by simp⟩
  · intro q hq
    simp only [List.length_set, hsize]
    rcases List.mem_append.mp hq with hq | hq
    · have := h.below q hq
      omega
    · obtain rfl := List.mem_singleton.mp hq
      exact Nat.lt_succ_self _
  · intro _
    exact ⟨(i, info), by simp, by simp only [List.length_set, hsize], hset⟩
  · intro j hj
    simp only [List.length_set, hsize] at hj
    by_cases hji : j = i.toNat
    · subst hji
      exact Or.inr ⟨(i, info), by simp, rfl, hset⟩
    · simp only [List.getElem?_set_ne (Ne.symm hji)]
      by_cases hold : j < db.connectionPool.length
      · rw [resize_getElem?_old (by omega) hold]
        rcases h.slot j hold with hpl | ⟨q, hq, hqj, hval⟩
        · exact Or.inl hpl
        · exact Or.inr ⟨q, List.mem_append_left _ hq, hqj, hval⟩
      · exact Or.inl (resize_getElem?_new (by omega) (by omega))

/-- The index is below the size: the call does nothing. -/
theorem Registered.ignore (h : Registered junk regs db) (hlen : i.toNat < db.connectionPool.length)
    (info : SQLConnectionPoolInfo) : Registered junk (regs ++ [(i, info)]) db := by
  have hne : regs ≠ [] := by
    intro hnil
    rw [h.none hnil] at hlen
    exact absurd hlen (Nat.not_lt_zero _)
  refine ⟨?_, ?_, ?_, by simp⟩
  · intro q hq
    rcases List.mem_append.mp hq with hq | hq
    · exact h.below q hq
    · rw [List.mem_singleton.mp hq]
      exact hlen
  · intro _
    obtain ⟨q, hq, hval⟩ := h.last hne
    exact ⟨q, List.mem_append_left _ hq, hval⟩
  · intro j hj
    rcases h.slot j hj with hpl | ⟨q, hq, hval⟩
    · exact Or.inl hpl
    · exact Or.inr ⟨q, List.mem_append_left _ hq, hval⟩

theorem Registered.addSchema {p : UInt32 × SQLConnectionPoolInfo} (h : Registered junk regs db)
    (hp : p.1 ≠ -1) :
    ∃ db', db.addSchema junk p.1 p.2 = .ok db' ∧ Registered junk (regs ++ [p]) db' := by
  obtain ⟨i, info⟩ := p
  refine ⟨_, addSchema_eq hp, ?_⟩
  by_cases hlen : db.connectionPool.length ≤ i.toNat
  · rw [if_pos hlen]
    exact h.grow hlen info
  · rw [if_neg hlen]
    exact h.ignore (Nat.lt_of_not_le hlen) info

end AddSchema

/-- Every sequence that avoids the last `uint32` returns. -/
theorem addSchemas_registered (junk : Nat → UInt32) {regs : List (UInt32 × SQLConnectionPoolInfo)}
    (h : ∀ p ∈ regs, p.1 ≠ -1) :
    ∃ db, SQLDatabase.empty.addSchemas junk regs = .ok db ∧ Registered junk regs db :=
  foldlM_returns (I := Registered junk) (P := fun p => p.1 ≠ -1) (Registered.empty junk)
    (fun _ _ _ hp hI => hI.addSchema hp) regs h

/-- A database in which a slot is already filled keeps it through any further registrations. -/
theorem addSchemas_keeps {junk : Nat → UInt32} {regs : List (UInt32 × SQLConnectionPoolInfo)}
    {db db' : SQLDatabase} (h : db.addSchemas junk regs = .ok db') {j : Nat}
    {pool : SQLConnectionPool} (hj : db.connectionPool[j]? = some pool) :
    db'.connectionPool[j]? = some pool :=
  foldlM_keeps (P := fun d : SQLDatabase => d.connectionPool[j]? = some pool)
    (fun _ _ _ hd hstep => addSchema_keeps hstep hd) hj h

/-! ## Registration order

The property the vector is meant to have, and exactly when it has it. -/

/-- Registering the pairs of `regs` in any two orders gives the same vector, in which every
registered index carries its own info. -/
def OrderIndependent (junk : Nat → UInt32) (regs : List (UInt32 × SQLConnectionPoolInfo)) : Prop :=
  ∀ l₁ l₂ : List (UInt32 × SQLConnectionPoolInfo), l₁.Perm regs → l₂.Perm regs →
    ∃ db, SQLDatabase.empty.addSchemas junk l₁ = .ok db ∧
      SQLDatabase.empty.addSchemas junk l₂ = .ok db ∧
      ∀ p ∈ regs, (db.connectionPool[p.1.toNat]?).map (·.connectionPoolInfo) = some p.2

/-- With distinct indices, and nothing to lose below the largest one, the vector is a function of
the *set* of registrations: a placeholder everywhere but in the last slot. -/
theorem Registered.slot_eq {junk : Nat → UInt32} {regs l : List (UInt32 × SQLConnectionPoolInfo)}
    {db : SQLDatabase} (h : Registered junk l db) (hl : l.Perm regs)
    (hlow : ∀ p ∈ regs, ∀ q ∈ regs, p.1 < q.1 → p.2 = .placeholder (junk p.1.toNat))
    {q : UInt32 × SQLConnectionPoolInfo} (hq : q ∈ regs)
    (hlen : db.connectionPool.length = q.1.toNat + 1) {i : Nat} (hi : i < q.1.toNat) :
    db.connectionPool[i]? = some (.placeholder (junk i)) := by
  rcases h.slot i (by omega) with hpl | ⟨p, hp, rfl, hval⟩
  · exact hpl
  · rw [hval, hlow p (hl.mem_iff.mp hp) q hq (UInt32.lt_iff_toNat_lt.mpr hi)]
    rfl

theorem Registered.unique {junk : Nat → UInt32}
    {regs l₁ l₂ : List (UInt32 × SQLConnectionPoolInfo)} {db₁ db₂ : SQLDatabase}
    (h₁ : Registered junk l₁ db₁) (h₂ : Registered junk l₂ db₂) (hl₁ : l₁.Perm regs)
    (hl₂ : l₂.Perm regs) (hd : (regs.map Prod.fst).Nodup)
    (hlow : ∀ p ∈ regs, ∀ q ∈ regs, p.1 < q.1 → p.2 = .placeholder (junk p.1.toNat)) :
    db₁ = db₂ := by
  by_cases hnil : regs = []
  · subst hnil
    have e₁ := h₁.none hl₁.eq_nil
    have e₂ := h₂.none hl₂.eq_nil
    cases db₁
    cases db₂
    simp_all
  · obtain ⟨q₁, hq₁, hlen₁, hval₁⟩ := h₁.last fun e => hnil (e ▸ hl₁).symm.eq_nil
    obtain ⟨q₂, hq₂, hlen₂, hval₂⟩ := h₂.last fun e => hnil (e ▸ hl₂).symm.eq_nil
    have hm₁ := hl₁.mem_iff.mp hq₁
    have hm₂ := hl₂.mem_iff.mp hq₂
    -- Both vectors end at the largest index, and the index determines the pair.
    have hidx : q₁.1 = q₂.1 := by
      have a := h₁.below q₂ (hl₁.mem_iff.mpr hm₂)
      have b := h₂.below q₁ (hl₂.mem_iff.mpr hm₁)
      exact UInt32.toNat_inj.mp (by omega)
    have hq : q₁ = q₂ := List.inj_on_of_nodup_map hd hm₁ hm₂ hidx
    subst hq
    have hpools : db₁.connectionPool = db₂.connectionPool := by
      apply List.ext_getElem?
      intro i
      rcases Nat.lt_trichotomy i q₁.1.toNat with hi | rfl | hi
      · rw [h₁.slot_eq hl₁ hlow hm₁ hlen₁ hi, h₂.slot_eq hl₂ hlow hm₁ hlen₂ hi]
      · rw [hval₁, hval₂]
      · rw [List.getElem?_eq_none (by omega), List.getElem?_eq_none (by omega)]
    cases db₁
    cases db₂
    simp_all

/-- Order-independent registrations avoid the last `uint32`: put the offending pair first, and the
very first call faults. -/
theorem OrderIndependent.ne_last {junk : Nat → UInt32}
    {regs : List (UInt32 × SQLConnectionPoolInfo)} (h : OrderIndependent junk regs)
    {p : UInt32 × SQLConnectionPoolInfo} (hp : p ∈ regs) : p.1 ≠ -1 := by
  intro hlast
  have hperm : (p :: regs.erase p).Perm regs := (List.perm_cons_erase hp).symm
  obtain ⟨db, hrun, -, -⟩ := h _ _ hperm hperm
  obtain ⟨db₁, hfirst, -⟩ := addSchemas_cons.mp hrun
  rw [hlast, addSchema_last (by simp [SQLDatabase.empty])] at hfirst
  cases hfirst

/-- …and lose nothing below another registration: put the larger index first, and the smaller
registration finds a placeholder in its slot, which is never filled. -/
theorem OrderIndependent.lower_eq {junk : Nat → UInt32}
    {regs : List (UInt32 × SQLConnectionPoolInfo)} (h : OrderIndependent junk regs)
    {p q : UInt32 × SQLConnectionPoolInfo} (hp : p ∈ regs) (hq : q ∈ regs) (hlt : p.1 < q.1) :
    p.2 = .placeholder (junk p.1.toNat) := by
  have hperm : (q :: regs.erase q).Perm regs := (List.perm_cons_erase hq).symm
  obtain ⟨db, hrun, -, hinfo⟩ := h _ _ hperm hperm
  obtain ⟨db₁, hfirst, hrest⟩ := addSchemas_cons.mp hrun
  have hslot : db₁.connectionPool[p.1.toNat]? = some (.placeholder (junk p.1.toNat)) := by
    have hlt' : p.1.toNat < q.1.toNat := UInt32.lt_iff_toNat_lt.mp hlt
    rw [addSchema_eq (h.ne_last hq)] at hfirst
    cases hfirst
    simp only [SQLDatabase.empty, List.length_nil, Nat.zero_le, if_true]
    rw [List.getElem?_set_ne (by omega), resize_getElem?_new (by simp) (by omega)]
  have hkept := hinfo p hp
  rw [addSchemas_keeps hrest hslot] at hkept
  simpa [SQLConnectionPool.placeholder, SQLConnectionPool.ofInfo] using hkept.symm

/-- **When registration is order-independent.** Exactly when no index is the last `uint32` and every
registration below another one asks for what a placeholder already holds — that is, when losing it
cannot be noticed. Two pools that are really configured never qualify. -/
theorem orderIndependent_iff (junk : Nat → UInt32)
    (regs : List (UInt32 × SQLConnectionPoolInfo)) (hd : (regs.map Prod.fst).Nodup) :
    OrderIndependent junk regs ↔
      (∀ p ∈ regs, p.1 ≠ -1) ∧
      ∀ p ∈ regs, ∀ q ∈ regs, p.1 < q.1 → p.2 = .placeholder (junk p.1.toNat) := by
  constructor
  · intro h
    exact ⟨fun p hp => h.ne_last hp, fun p hp q hq hlt => h.lower_eq hp hq hlt⟩
  · rintro ⟨hne, hlow⟩ l₁ l₂ hl₁ hl₂
    obtain ⟨db₁, hrun₁, hreg₁⟩ :=
      addSchemas_registered junk fun p hp => hne p (hl₁.mem_iff.mp hp)
    obtain ⟨db₂, hrun₂, hreg₂⟩ :=
      addSchemas_registered junk fun p hp => hne p (hl₂.mem_iff.mp hp)
    obtain rfl := hreg₁.unique hreg₂ hl₁ hl₂ hd hlow
    refine ⟨db₁, hrun₁, hrun₂, fun p hp => ?_⟩
    obtain ⟨q, hq, hlen, hval⟩ := hreg₁.last fun e => by
      have hnil := (e ▸ hl₁).symm.eq_nil
      simp [hnil] at hp
    have hmq := hl₁.mem_iff.mp hq
    have hb := hreg₁.below p (hl₁.mem_iff.mpr hp)
    by_cases hpq : p.1 = q.1
    · obtain rfl := List.inj_on_of_nodup_map hd hp hmq hpq
      rw [hval]
      rfl
    · have hlt : p.1.toNat < q.1.toNat := by
        have : p.1.toNat ≠ q.1.toNat := fun e => hpq (UInt32.toNat_inj.mp e)
        omega
      rw [hreg₁.slot_eq hl₁ hlow hmq hlen hlt,
        hlow p hp q hmq (UInt32.lt_iff_toNat_lt.mpr hlt)]
      rfl

/-- A configured pool, for the examples: two connections to `db` on `localhost`. -/
def sampleInfo : SQLConnectionPoolInfo where
  hostname := ascii "localhost"
  username := ascii "root"
  password := ascii "password"
  schema := ascii "db"
  port := 3306
  connectionCount := 2

theorem orderIndependent_single : OrderIndependent (fun _ => 0) [(3, sampleInfo)] :=
  (orderIndependent_iff (fun _ => 0) [(3, sampleInfo)] (by decide)).mpr ⟨by decide, by decide⟩

/-- Schemas 0 and 1, registered as 1 then 0: the second call is dropped. -/
theorem not_orderIndependent_pair :
    ¬ OrderIndependent (fun _ => 0) [(0, sampleInfo), (1, sampleInfo)] := by
  intro h
  have hlost := h.lower_eq (p := (0, sampleInfo)) (q := (1, sampleInfo)) (by simp) (by simp)
    (by decide)
  exact absurd hlost (by decide)

end SQLDatabase

end ServerTest.Database
