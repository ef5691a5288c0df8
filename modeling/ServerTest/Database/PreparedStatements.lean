import ServerTest.Database.SpawnConnections

/-!
# Prepared statements by index

A pool is given the texts of its prepared statements by index, and a connection prepares all of them
when it is opened, in that order, so that the statement of a text is found under the same index. That
is `StableIndices`.

Two things are in the way. `AddPreparedStatementString` writes to a vector that nothing ever gives a
size, so on a pool as it is constructed every index is outside it. And a connection *appends* what it
prepares and goes on after a failure: behind a text that could not be prepared every statement is one
index further down. The law is stated for a vector of any size, because the second would stay behind
if the first were mended.
-/

set_option autoImplicit false

namespace ServerTest.Database

open Lib

namespace SQLConnectionPool

/-- `AddPreparedStatementString`, "TODO: Error checking". -/
def addPreparedStatementString (pool : SQLConnectionPool) (statementStringIndex : UInt32)
    (statementString : Bytes) : Except Fault (Status × SQLConnectionPool) := do
  let strings ← store pool.preparedStatementStrings statementStringIndex.toNat statementString
  return (.OK, { pool with preparedStatementStrings := strings })

def addPreparedStatementStrings (pool : SQLConnectionPool) (adds : List (UInt32 × Bytes)) :
    Except Fault SQLConnectionPool :=
  adds.foldlM (fun pool p => do
    let (_, pool) ← pool.addPreparedStatementString p.1 p.2
    return pool) pool

/-- The call returns, with the text at its index and everything else as it was. -/
def Stores (pool : SQLConnectionPool) (statementStringIndex : UInt32) (statementString : Bytes) :
    Prop :=
  ∃ strings, pool.addPreparedStatementString statementStringIndex statementString =
      .ok (.OK, { pool with preparedStatementStrings := strings }) ∧
    strings[statementStringIndex.toNat]? = some statementString ∧
    ∀ j, j ≠ statementStringIndex.toNat → strings[j]? = pool.preparedStatementStrings[j]?

end SQLConnectionPool

/-- What was last stored at index `i`: by one of these calls, or before them. -/
def lastStored (strings : List Bytes) (adds : List (UInt32 × Bytes)) (i : Nat) : Option Bytes :=
  match adds.reverse.find? fun p => p.1.toNat = i with
  | some p => some p.2
  | none => strings[i]?

/-- Every call stores its text, and if `SpawnConnections` is then `OK`, every connection has under
every index the statement of the text last stored there. -/
structure StableIndices (a : SpawnAnswers) (s : SpawnState) (adds : List (UInt32 × Bytes)) :
    Prop where
  stores : ∀ before p, before ++ [p] <+: adds → ∃ pool,
    s.pool.addPreparedStatementStrings before = .ok pool ∧ pool.Stores p.1 p.2
  spawned : ∀ pool s', s.pool.addPreparedStatementStrings adds = .ok pool →
    SpawnState.spawnConnections a { s with pool := pool } = (.returned .OK, s') →
    ∀ conn ∈ s'.pool.connections, ∀ i,
      conn.preparedStatements[i]? = lastStored s.pool.preparedStatementStrings adds i

/-! ## Storing -/

/-- The vector after these calls, if they are all inside it. -/
def storeAll (strings : List Bytes) (adds : List (UInt32 × Bytes)) : List Bytes :=
  adds.foldl (fun strings p => strings.set p.1.toNat p.2) strings

theorem length_storeAll (strings : List Bytes) (adds : List (UInt32 × Bytes)) :
    (storeAll strings adds).length = strings.length := by
  unfold storeAll
  induction adds generalizing strings with
  | nil => rfl
  | cons p rest ih => rw [List.foldl_cons, ih, List.length_set]

theorem getElem?_storeAll {strings : List Bytes} {adds : List (UInt32 × Bytes)}
    (h : ∀ p ∈ adds, p.1.toNat < strings.length) (i : Nat) :
    (storeAll strings adds)[i]? = lastStored strings adds i := by
  induction adds using List.reverseRecOn with
  | nil => rfl
  | append_singleton adds p ih =>
    have hlen : p.1.toNat < (storeAll strings adds).length := by
      rw [length_storeAll]
      exact h p (by simp)
    have hsplit : storeAll strings (adds ++ [p]) = (storeAll strings adds).set p.1.toNat p.2 := by
      simp [storeAll, List.foldl_append]
    rw [hsplit, lastStored, List.reverse_append, List.reverse_singleton, List.singleton_append,
      List.find?_cons]
    by_cases hi : p.1.toNat = i
    · subst hi
      simp [List.getElem?_set_self hlen]
    · rw [List.getElem?_set_ne hi, ih fun q hq => h q (List.mem_append_left _ hq)]
      simp [hi, lastStored]

theorem addPreparedStatementStrings_eq_ok {pool pool' : SQLConnectionPool}
    {adds : List (UInt32 × Bytes)} :
    pool.addPreparedStatementStrings adds = .ok pool' ↔
      (∀ p ∈ adds, p.1.toNat < pool.preparedStatementStrings.length) ∧
        { pool with
          preparedStatementStrings := storeAll pool.preparedStatementStrings adds } = pool' := by
  induction adds generalizing pool with
  | nil => simp [SQLConnectionPool.addPreparedStatementStrings, storeAll, pure, Except.pure]
  | cons p rest ih =>
    rw [SQLConnectionPool.addPreparedStatementStrings, List.foldlM_cons]
    by_cases hp : p.1.toNat < pool.preparedStatementStrings.length
    · have hstep : pool.addPreparedStatementString p.1 p.2 = .ok (.OK, { pool with
          preparedStatementStrings := pool.preparedStatementStrings.set p.1.toNat p.2 }) := by
        simp [SQLConnectionPool.addPreparedStatementString, store, hp, bind, Except.bind, pure,
          Except.pure]
      have hrest := @ih { pool with
        preparedStatementStrings := pool.preparedStatementStrings.set p.1.toNat p.2 }
      rw [SQLConnectionPool.addPreparedStatementStrings] at hrest
      simp only [hstep, bind, Except.bind, pure, Except.pure] at hrest ⊢
      rw [hrest]
      simp [storeAll, hp]
    · have hstep : pool.addPreparedStatementString p.1 p.2 = .error .outOfBounds := by
        simp [SQLConnectionPool.addPreparedStatementString, store, hp, bind, Except.bind]
      simp [hstep, hp, bind, Except.bind]

theorem stores_iff {pool : SQLConnectionPool} {i : UInt32} {text : Bytes} :
    pool.Stores i text ↔ i.toNat < pool.preparedStatementStrings.length := by
  constructor
  · intro h
    obtain ⟨strings, hrun, -⟩ := h
    by_contra hout
    simp [SQLConnectionPool.addPreparedStatementString, store, hout, bind, Except.bind] at hrun
  · intro h
    refine ⟨pool.preparedStatementStrings.set i.toNat text, ?_, List.getElem?_set_self h,
      fun j hj => List.getElem?_set_ne (Ne.symm hj)⟩
    simp [SQLConnectionPool.addPreparedStatementString, store, h, bind, Except.bind, pure,
      Except.pure]

/-! ## Preparing -/

namespace SQLConnection

theorem length_preparedOf_le (prepares : Nat → PrepareOutcome) (k : Nat) (strings : List Bytes) :
    (preparedOf prepares k strings).length ≤ strings.length := by
  induction strings generalizing k with
  | nil => exact Nat.le_refl 0
  | cons stmt rest ih =>
    rw [preparedOf]
    have hrest := ih (k + 1)
    split <;> simp only [List.length_cons] <;> omega

/-- Nothing is missing only if nothing failed. -/
theorem preparedOf_eq_self_iff {prepares : Nat → PrepareOutcome} {k : Nat} {strings : List Bytes} :
    preparedOf prepares k strings = strings ↔
      ∀ j < strings.length, prepares (k + j) = .prepared := by
  induction strings generalizing k with
  | nil => simp [preparedOf]
  | cons stmt rest ih =>
    have hshift : ∀ j, k + 1 + j = k + (j + 1) := by omega
    rw [preparedOf, List.length_cons, Nat.forall_lt_succ_left]
    split
    case isTrue hk =>
      rw [List.cons_inj_right, ih]
      simp [hk, hshift]
    case isFalse hk =>
      refine iff_of_false (fun h => ?_) (fun h => hk h.1)
      have hle := length_preparedOf_le prepares (k + 1) rest
      rw [h, List.length_cons] at hle
      omega

end SQLConnection

namespace SpawnState

variable {a : SpawnAnswers} {s s' : SpawnState} {i left : Nat}

/-- Induction on what is left: each iteration opens one connection, with its own statements. -/
theorem InStep.spawnLoop_statements (h : s.InStep i left) (hi : i < 2 ^ 31)
    (hrun : SpawnState.spawnLoop a left i s = (.returned .OK, s')) :
    ∃ added, s'.pool.connections = s.pool.connections ++ added ∧
      ∀ k conn, added[k]? = some conn → conn.preparedStatements =
        SQLConnection.preparedOf (a.prepares (i + k)) 0 s.pool.preparedStatementStrings := by
  induction left generalizing i s with
  | zero =>
    cases hrun
    exact ⟨[], by simp, by simp⟩
  | succ left ih =>
    obtain ⟨s₁, s₂, conn, status, hemplace, hconnect, hit, hcases⟩ := h.iterate (a := a) hi
    rcases hcases with ⟨-, rfl, -, hstatements, -⟩ | ⟨-, rfl, -⟩
    · simp only [SpawnState.spawnLoop, hemplace, hconnect] at hrun
      split at hrun
      · cases hrun
      · obtain ⟨added, hadded, hall⟩ := ih (hit.inStep h) (by omega) hrun
        refine ⟨conn :: added, by rw [hadded, hit.connections]; simp, ?_⟩
        intro k c hk
        cases k with
        | zero =>
          obtain rfl := Option.some.inj hk
          exact hstatements
        | succ k =>
          rw [hall k c hk, hit.strings, show i + 1 + k = i + (k + 1) by omega]
    · simp only [SpawnState.spawnLoop, hemplace, hconnect] at hrun
      cases hrun

/-- **The statements of a first call that returned `OK`**: the `j`-th connection has what it could
prepare of the pool's strings. -/
theorem Unopened.statements (hs : s.Unopened)
    (hrun : SpawnState.spawnConnections a s = (.returned .OK, s')) :
    ∀ j conn, s'.pool.connections[j]? = some conn → conn.preparedStatements =
      SQLConnection.preparedOf (a.prepares j) 0 s.pool.preparedStatementStrings := by
  intro j conn hconn
  by_cases hnone : s.count = 0
  · rw [SpawnState.spawnConnections, if_pos (count_eq_zero_iff.mp hnone)] at hrun
    cases hrun
    rw [hs.connections] at hconn
    cases hconn
  · rw [hs.spawnConnections_eq hnone] at hrun
    split at hrun
    · generalize hloop : spawnLoop a s.count 0 (s.relocate s.count) = ended at hrun
      obtain ⟨e, s₁⟩ := ended
      have hended : e = .returned .OK ∧ s₁.pool.connections = s'.pool.connections := by
        unfold counted at hrun
        split at hrun
        · cases hrun
          rename_i heq
          cases heq
          exact ⟨rfl, rfl⟩
        · cases hrun
          exact ⟨rfl, rfl⟩
      obtain ⟨rfl, hsame⟩ := hended
      obtain ⟨added, hadded, hall⟩ := hs.inStep.spawnLoop_statements (by omega) hloop
      have hempty : (s.relocate s.count).pool.connections = [] := hs.connections
      rw [hempty, List.nil_append] at hadded
      rw [← hsame, hadded] at hconn
      have hstmts := hall j conn hconn
      rwa [Nat.zero_add] at hstmts
    · cases hrun

/-- A first call on a pool the loop passes returns `OK`, with as many connections as configured. -/
theorem Unopened.returns_of_passes (hs : s.Unopened)
    (hbelow : ∀ handle ∈ s.client.closed, handle < s.client.opened) (hpasses : Passes a s.count) :
    ∃ s', SpawnState.spawnConnections a s = (.returned .OK, s') ∧
      s'.pool.connections.length = s.count := by
  have hfirst := hs.spawnConnections (a := a) hbelow
  generalize SpawnState.spawnConnections a s = ended at hfirst ⊢
  cases hfirst with
  | nothing none => exact ⟨s, rfl, by rw [hs.connections, none]; rfl⟩
  | passed s' some memory connected fits info capacity attempts active size live =>
    exact ⟨s', rfl, size⟩
  | refused some memory => exact absurd hpasses (not_passes_of_refused some memory)
  | failed s' memory j below unconnected =>
    exact absurd hpasses (not_passes_of_unconnected below unconnected)
  | overflowed s' memory long => exact absurd hpasses (not_passes_of_long long)

/-- …and no other call with anything to open does. -/
theorem Unopened.passes_of_returns (hs : s.Unopened)
    (hbelow : ∀ handle ∈ s.client.closed, handle < s.client.opened)
    (hrun : SpawnState.spawnConnections a s = (.returned .OK, s')) :
    Passes a s.count ∧ s'.pool.connections.length = s.count := by
  have hfirst := hs.spawnConnections (a := a) hbelow
  rw [hrun] at hfirst
  cases hfirst with
  | nothing none => exact ⟨Or.inl none, by rw [hs.connections, none]; rfl⟩
  | passed _ some memory connected fits info capacity attempts active size live =>
    exact ⟨Or.inr ⟨memory, fits, connected⟩, size⟩

/-- Every connection of a call that returned `OK` has all the statements, exactly if none of its
prepares failed. -/
theorem Unopened.statements_iff (hs : s.Unopened)
    (hbelow : ∀ handle ∈ s.client.closed, handle < s.client.opened) :
    (∀ s', SpawnState.spawnConnections a s = (.returned .OK, s') →
      ∀ conn ∈ s'.pool.connections, conn.preparedStatements = s.pool.preparedStatementStrings) ↔
    (Passes a s.count → ∀ j < s.count, ∀ k < s.pool.preparedStatementStrings.length,
      a.prepares j k = .prepared) := by
  constructor
  · intro h hpasses j hj k hk
    obtain ⟨s', hrun, hsize⟩ := hs.returns_of_passes hbelow hpasses
    have hlt : j < s'.pool.connections.length := by rwa [hsize]
    have hconn : s'.pool.connections[j]? = some s'.pool.connections[j] :=
      List.getElem?_eq_getElem hlt
    have hall := h s' hrun _ (List.getElem_mem hlt)
    rw [hs.statements hrun j _ hconn, SQLConnection.preparedOf_eq_self_iff] at hall
    have hprepared := hall k hk
    rwa [Nat.zero_add] at hprepared
  · intro h s' hrun conn hmem
    obtain ⟨hpasses, hsize⟩ := hs.passes_of_returns hbelow hrun
    obtain ⟨j, hj⟩ := List.mem_iff_getElem?.mp hmem
    have hlt : j < s.count := by
      rw [← hsize]
      exact (List.getElem?_eq_some_iff.mp hj).1
    rw [hs.statements hrun j conn hj, SQLConnection.preparedOf_eq_self_iff]
    intro k hk
    rw [Nat.zero_add]
    exact h hpasses j hlt k hk

end SpawnState

/-! ## The law -/

/-- **When prepared statements keep their indices.** Exactly when every index is inside the vector
and, if every connection is opened, every one of them can prepare every text. On a pool as it is
constructed the vector is empty, and no text can be added. -/
theorem stableIndices_iff (info : SQLConnectionPoolInfo) (strings : List Bytes) (a : SpawnAnswers)
    (adds : List (UInt32 × Bytes)) :
    StableIndices a (.ofPool ⟨0, []⟩ { SQLConnectionPool.ofInfo info with
        preparedStatementStrings := strings }) adds ↔
      (∀ p ∈ adds, p.1.toNat < strings.length) ∧
      (Passes a info.connectionCount.toNat → ∀ j < info.connectionCount.toNat,
        ∀ k < strings.length, a.prepares j k = .prepared) := by
  let pool : SQLConnectionPool := { SQLConnectionPool.ofInfo info with
    preparedStatementStrings := strings }
  -- The pool after the calls, where they return.
  let s : SpawnState := .ofPool ⟨0, []⟩ { pool with preparedStatementStrings := storeAll strings adds }
  have hstatements := SpawnState.Unopened.statements_iff (a := a) (s := s) ⟨rfl, rfl, rfl⟩
    (by simp [s, SpawnState.ofPool])
  have hlength : s.pool.preparedStatementStrings.length = strings.length :=
    length_storeAll strings adds
  rw [hlength] at hstatements
  have hcount : s.count = info.connectionCount.toNat := rfl
  rw [hcount] at hstatements
  constructor
  · intro h
    have hinside : ∀ p ∈ adds, p.1.toNat < strings.length := by
      intro p hp
      obtain ⟨before, after, rfl⟩ := List.append_of_mem hp
      obtain ⟨pool', hrun, hstores⟩ := h.stores before p ⟨after, by simp⟩
      obtain ⟨-, rfl⟩ := addPreparedStatementStrings_eq_ok.mp hrun
      rw [stores_iff] at hstores
      exact (length_storeAll strings before) ▸ hstores
    refine ⟨hinside, hstatements.mp fun s' hrun conn hconn => List.ext_getElem? fun i => ?_⟩
    rw [h.spawned _ s' (addPreparedStatementStrings_eq_ok.mpr ⟨hinside, rfl⟩) hrun conn hconn i]
    exact (getElem?_storeAll hinside i).symm
  · intro h
    obtain ⟨hinside, hprepared⟩ := h
    refine ⟨fun before p hpre => ?_, fun pool' s' hrun hspawn conn hconn i => ?_⟩
    · have hsub : ∀ q ∈ before ++ [p], q.1.toNat < strings.length :=
        fun q hq => hinside q (hpre.subset hq)
      refine ⟨_, addPreparedStatementStrings_eq_ok.mpr
        ⟨fun q hq => hsub q (List.mem_append_left _ hq), rfl⟩, stores_iff.mpr ?_⟩
      show p.1.toNat < (storeAll strings before).length
      rw [length_storeAll]
      exact hsub p (by simp)
    · obtain ⟨-, rfl⟩ := addPreparedStatementStrings_eq_ok.mp hrun
      rw [hstatements.mpr hprepared s' hspawn conn hconn]
      exact getElem?_storeAll hinside i

/-- Room for two texts, and both are prepared on both connections. -/
theorem stableIndices_two :
    StableIndices (SpawnState.answering fun _ => .connected)
      (.ofPool ⟨0, []⟩ { SQLConnectionPool.ofInfo SQLDatabase.sampleInfo with
        preparedStatementStrings := [[], []] })
      [(1, ascii "SELECT ?"), (0, ascii "DELETE FROM t WHERE i = ?")] :=
  (stableIndices_iff SQLDatabase.sampleInfo [[], []] _ _).mpr
    ⟨by decide, fun _ _ _ _ _ => rfl⟩

/-- The first text added to a pool is written outside the vector. -/
theorem not_stableIndices_first :
    ¬ StableIndices (SpawnState.answering fun _ => .connected)
      (.ofPool ⟨0, []⟩ (.ofInfo SQLDatabase.sampleInfo)) [(0, ascii "SELECT ?")] := by
  intro h
  obtain ⟨pool, hrun, strings, hstore, -⟩ := h.stores [] _ (List.prefix_refl _)
  cases hrun
  cases hstore

end ServerTest.Database
