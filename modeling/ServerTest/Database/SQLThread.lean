import Mathlib.Logic.Nontrivial.Basic
import ServerTest.Core.ProducerConsumerQueue

/-!
# `SQLThread`

The workers of `SQLThreadPool`: every one runs `SQLThread::Main` on the one task queue of the
connection pool, and has a cancelation token of its own. `~SQLThread` sets the token, cancels *the
queue* and joins the thread.

A worker is where its `Main` stands (`MainAt`), and one step of it is one critical section of the
queue, one `Call` or one look at the token; everything else in the loop is local. What is not here:
the first loop of `Main`, which waits for the queue pointer to be set, because the constructor sets
it before it starts the thread; and the null operation, which nobody can execute.

The design splits at the queue. `taskQueue` is a `Core.QueueMonitor` and every step of the workers is
a step of it or leaves it alone (`Consistent.queue`), so what holds of the queue under every
interleaving holds of it here.
-/

set_option autoImplicit false

namespace ServerTest.Database

open Lib ServerTest.Core

/-- Where `Main` of a worker stands. -/
inductive MainAt (α : Type) where
  /-- at the top of the loop, about to call `WaitAndPop` -/
  | loop
  /-- inside `WaitAndPop` -/
  | waiting
  /-- `WaitAndPop` came back without an operation: `while (!operation)` -/
  | polling
  /-- about to `Call` the operation -/
  | holding (operation : α)
  /-- `Call` is over, the token not yet looked at -/
  | called
  | returned
  deriving DecidableEq, Repr

/-- How far `~SQLThread` is. Its first line, setting the token, is what starts it here. -/
inductive DestructorAt where
  | cancelling | joining | done
  deriving DecidableEq, Repr

/-- The workers, the queue they share, and the operations they have called. At most one worker is
being destroyed. -/
structure SQLThreads (ι α : Type) where
  taskQueue : QueueMonitor ι α
  main : ι → MainAt α
  cancelationToken : ι → Bool
  destructor : Option (ι × DestructorAt)
  executed : List α

inductive SQLThreadStep (ι α : Type) where
  | push (operation : α) (chosen : Option ι)
  /-- the next step of a worker's `Main` -/
  | main (i : ι)
  /-- `~SQLThread` starts: `CancelationToken = true` -/
  | destroy (i : ι)
  /-- `SQLOperationTaskQueue->Cancel()` -/
  | cancel
  /-- `WorkingThread.join()` -/
  | join
  deriving DecidableEq

namespace SQLThreads

variable {ι α : Type}

/-- After `SpawnThreads`: every worker at the top of its loop. -/
def new : SQLThreads ι α where
  taskQueue := .new
  main _ := .loop
  cancelationToken _ := false
  destructor := none
  executed := []

variable [DecidableEq ι]

def moveTo (s : SQLThreads ι α) (i : ι) (at_ : MainAt α) : SQLThreads ι α :=
  { s with main := Function.update s.main i at_ }

/-- Worker `i` runs the loop of `WaitAndPop` on `taskQueue`, and goes where that leaves it. -/
def waitAndPop (s : SQLThreads ι α) (i : ι) (taskQueue : QueueMonitor ι α) : SQLThreads ι α :=
  match taskQueue.attempt i with
  | (none, after) => moveTo { s with taskQueue := after } i .waiting
  | (some none, after) => moveTo { s with taskQueue := after } i .polling
  | (some (some operation), after) => moveTo { s with taskQueue := after } i (.holding operation)

/-- One step of `Main`. -/
def mainStep (s : SQLThreads ι α) (i : ι) : Option (SQLThreads ι α) :=
  match s.main i with
  | .loop => some (s.waitAndPop i s.taskQueue)
  | .waiting => some (s.waitAndPop i
      { s.taskQueue with condition := s.taskQueue.condition.resume i })
  | .polling => some (if s.cancelationToken i then s.moveTo i .returned else s)
  | .holding operation => some
      (moveTo { s with executed := s.executed ++ [operation] } i .called)
  | .called => some (if s.cancelationToken i then s.moveTo i .returned else s.moveTo i .loop)
  | .returned => none

def step (s : SQLThreads ι α) : SQLThreadStep ι α → Option (SQLThreads ι α)
  | .push operation chosen =>
    match s.taskQueue.push operation chosen with
    | none => none
    | some taskQueue => some { s with taskQueue := taskQueue }
  | .main i => s.mainStep i
  | .destroy i =>
    match s.destructor with
    | none => some
        { s with
          cancelationToken := Function.update s.cancelationToken i true
          destructor := some (i, .cancelling) }
    | some _ => none
  | .cancel =>
    match s.destructor with
    | some (i, .cancelling) => some
        { s with taskQueue := s.taskQueue.cancel, destructor := some (i, .joining) }
    | _ => none
  | .join =>
    match s.destructor with
    | some (i, .joining) =>
      match s.main i with
      | .returned => some { s with destructor := some (i, .done) }
      | _ => none
    | _ => none

variable (ι α) in
def machine : Machine (SQLThreads ι α) (SQLThreadStep ι α) where
  start := .new
  step := step

/-- Worker `i` is the one whose destructor runs or has run. -/
def BeingDestroyed (s : SQLThreads ι α) (i : ι) : Prop := ∃ p, s.destructor = some (i, p)

/-- Destroying one worker takes nothing from the others: every operation pushed is still queued,
held by a worker or executed, none was destroyed, and the queue is open while a worker that is not
being destroyed is alive. -/
structure Intact (s : SQLThreads ι α) : Prop where
  kept : ∀ operation ∈ s.taskQueue.pushed, operation ∈ s.taskQueue.q.queue ∨
    (∃ i, s.main i = .holding operation) ∨ operation ∈ s.executed
  undestroyed : s.taskQueue.destroyed = []
  obtainable : (∃ i, ¬ s.BeingDestroyed i ∧ s.main i ≠ .returned) →
    s.taskQueue.q.shutdown = false

variable {s t : SQLThreads ι α} {i : ι}

/-! ## What holds of every run, whatever is destroyed -/

/-- The workers use the queue as its own model says: one is inside `WaitAndPop` exactly when the
condition variable knows it, what the queue returned is held or executed, a token is up only for
the worker being destroyed, and only such a worker leaves `Main`. -/
structure Consistent (s : SQLThreads ι α) : Prop where
  queue : (QueueMonitor.system ι α).Reachable s.taskQueue
  blocked : ∀ i, s.taskQueue.condition.Blocked i ↔ s.main i = .waiting
  held : ∀ operation ∈ s.taskQueue.returned,
    (∃ i, s.main i = .holding operation) ∨ operation ∈ s.executed
  token : ∀ i, s.cancelationToken i = true → s.BeingDestroyed i
  alive : ∀ i, s.main i = .returned → s.cancelationToken i = true

theorem Consistent.new : (SQLThreads.new : SQLThreads ι α).Consistent where
  queue := .start rfl
  blocked i := by simp [SQLThreads.new, QueueMonitor.new, ConditionVariable.Blocked,
    ConditionVariable.idle]
  held operation h := by simp [SQLThreads.new, QueueMonitor.new] at h
  token i h := by simp [SQLThreads.new] at h
  alive i h := by simp [SQLThreads.new] at h

theorem main_moveTo_self (at_ : MainAt α) : (s.moveTo i at_).main i = at_ := by
  simp only [moveTo, Function.update_self]

theorem main_moveTo_of_ne (at_ : MainAt α) {j : ι} (h : j ≠ i) :
    (s.moveTo i at_).main j = s.main j := by
  simp only [moveTo, Function.update_of_ne h]

/-- Who is inside `WaitAndPop` after one worker moved, asked of that worker and of the others. -/
theorem blocked_moveTo {Blocked : ι → Prop} {at_ : MainAt α}
    (hothers : ∀ j, j ≠ i → (Blocked j ↔ s.main j = .waiting)) (hself : Blocked i ↔ at_ = .waiting)
    (j : ι) : Blocked j ↔ (s.moveTo i at_).main j = .waiting := by
  by_cases hj : j = i
  · subst hj
    rw [main_moveTo_self]
    exact hself
  · rw [main_moveTo_of_ne at_ hj]
    exact hothers j hj

/-- A worker that moves may drop only an operation it has executed. -/
theorem Consistent.held_moveTo (hs : s.Consistent) (at_ : MainAt α)
    (hheld : ∀ operation, s.main i = .holding operation → operation ∈ s.executed) {operation : α}
    (h : operation ∈ s.taskQueue.returned) :
    (∃ j, (s.moveTo i at_).main j = .holding operation) ∨ operation ∈ s.executed := by
  rcases hs.held operation h with ⟨j, hj⟩ | hdone
  · by_cases hji : j = i
    · subst hji
      exact Or.inr (hheld operation hj)
    · exact Or.inl ⟨j, by rw [main_moveTo_of_ne at_ hji, hj]⟩
  · exact Or.inr hdone

theorem Consistent.alive_moveTo (hs : s.Consistent) {at_ : MainAt α}
    (hreturn : at_ = .returned → s.cancelationToken i = true) (j : ι)
    (h : (s.moveTo i at_).main j = .returned) : s.cancelationToken j = true := by
  by_cases hj : j = i
  · subst hj
    rw [main_moveTo_self] at h
    exact hreturn h
  · rw [main_moveTo_of_ne at_ hj] at h
    exact hs.alive j h

/-- A worker that moves from one place outside `WaitAndPop` to another. -/
theorem Consistent.moveTo (hs : s.Consistent) {at_ : MainAt α} (hfrom : s.main i ≠ .waiting)
    (hto : at_ ≠ .waiting) (hreturn : at_ = .returned → s.cancelationToken i = true)
    (hheld : ∀ operation, s.main i = .holding operation → operation ∈ s.executed) :
    (s.moveTo i at_).Consistent where
  queue := hs.queue
  blocked := by
    apply blocked_moveTo
    · intro j _
      exact hs.blocked j
    · exact iff_of_false (fun h => hfrom ((hs.blocked i).mp h)) hto
  held _ h := hs.held_moveTo at_ hheld h
  token := hs.token
  alive := hs.alive_moveTo hreturn

/-- `WaitAndPop`, entered or resumed: `taskQueue` is the queue without worker `i` inside. -/
theorem Consistent.waitAndPop (hs : s.Consistent) {taskQueue : QueueMonitor ι α}
    (hreach : (QueueMonitor.system ι α).Reachable (taskQueue.attempt i).2)
    (hsame : taskQueue.returned = s.taskQueue.returned)
    (hout : ∀ j, taskQueue.condition.Blocked j ↔ j ≠ i ∧ s.taskQueue.condition.Blocked j)
    (hfree : ∀ operation, s.main i ≠ .holding operation) :
    (s.waitAndPop i taskQueue).Consistent := by
  have hheld : ∀ at_, ∀ operation ∈ taskQueue.returned,
      (∃ j, (s.moveTo i at_).main j = .holding operation) ∨ operation ∈ s.executed := by
    intro at_ operation h
    refine hs.held_moveTo at_ ?_ (hsame ▸ h)
    intro op hop
    exact absurd hop (hfree op)
  have hothers : ∀ j, j ≠ i → (taskQueue.condition.Blocked j ↔ s.main j = .waiting) := by
    intro j hj
    rw [hout j, hs.blocked j]
    exact ⟨And.right, fun h => ⟨hj, h⟩⟩
  have hself : ¬ taskQueue.condition.Blocked i := fun h => ((hout i).mp h).1 rfl
  rcases taskQueue.attempt_cases i with ⟨-, h⟩ | ⟨-, h⟩ | ⟨operation, rest, -, h⟩
  · simp only [SQLThreads.waitAndPop, h] at hreach ⊢
    refine ⟨hreach, blocked_moveTo ?_ ?_, hheld .waiting, hs.token, hs.alive_moveTo (by simp)⟩
    · intro j hj
      refine ConditionVariable.blocked_wait.trans ?_
      rw [hothers j hj]
      exact ⟨fun h => h.elim (fun e => absurd e hj) id, Or.inr⟩
    · exact iff_of_true (ConditionVariable.blocked_wait.mpr (Or.inl rfl)) rfl
  · simp only [SQLThreads.waitAndPop, h] at hreach ⊢
    exact ⟨hreach, blocked_moveTo hothers (iff_of_false hself (by simp)), hheld .polling, hs.token,
      hs.alive_moveTo (by simp)⟩
  · simp only [SQLThreads.waitAndPop, h] at hreach ⊢
    refine ⟨hreach, blocked_moveTo hothers (iff_of_false hself (by simp)), ?_, hs.token,
      hs.alive_moveTo (by simp)⟩
    intro op hop
    rcases List.mem_append.mp hop with hop | hop
    · exact hheld (.holding operation) op hop
    · rw [List.mem_singleton.mp hop]
      exact Or.inl ⟨i, main_moveTo_self _⟩

theorem Consistent.mainStep (hs : s.Consistent) (h : s.mainStep i = some t) : t.Consistent := by
  cases hat : s.main i with
  | loop =>
    simp only [SQLThreads.mainStep, hat] at h
    cases h
    have hidle : ¬ s.taskQueue.condition.Blocked i := by simp [hs.blocked i, hat]
    refine hs.waitAndPop ?_ rfl ?_ (by simp [hat])
    · exact hs.queue.next ⟨.waitAndPop i, if_neg hidle⟩
    · intro j
      exact ⟨fun hj => ⟨fun e => hidle (e ▸ hj), hj⟩, And.right⟩
  | waiting =>
    simp only [SQLThreads.mainStep, hat] at h
    cases h
    have hinside : s.taskQueue.condition.Blocked i := (hs.blocked i).mpr hat
    refine hs.waitAndPop ?_ rfl ?_ (by simp [hat])
    · exact hs.queue.next ⟨.wake i, if_pos hinside⟩
    · intro j
      exact ConditionVariable.blocked_resume
  | polling =>
    simp only [SQLThreads.mainStep, hat] at h
    cases h
    -- The loop spins until its own token is up.
    split
    · rename_i htoken
      exact hs.moveTo (by simp [hat]) (by simp) (fun _ => htoken) (by simp [hat])
    · exact hs
  | holding operation =>
    simp only [SQLThreads.mainStep, hat] at h
    cases h
    have hdone : Consistent { s with executed := s.executed ++ [operation] } :=
      { hs with held := fun op hop => (hs.held op hop).imp_right (List.mem_append_left _) }
    refine hdone.moveTo (by simp [hat]) (by simp) (by simp) ?_
    intro op hop
    rw [show s.main i = .holding operation from hat] at hop
    cases hop
    simp
  | called =>
    simp only [SQLThreads.mainStep, hat] at h
    cases h
    split
    · rename_i htoken
      exact hs.moveTo (by simp [hat]) (by simp) (fun _ => htoken) (by simp [hat])
    · exact hs.moveTo (by simp [hat]) (by simp) (by simp) (by simp [hat])
  | returned =>
    simp only [SQLThreads.mainStep, hat] at h
    cases h

/-- The steps of the destructor and of the producers, as far as they go. -/
theorem step_push {operation : α} {chosen : Option ι}
    (h : s.step (.push operation chosen) = some t) :
    ∃ taskQueue, s.taskQueue.push operation chosen = some taskQueue ∧
      t = { s with taskQueue := taskQueue } := by
  simp only [step] at h
  split at h
  · cases h
  · rename_i taskQueue hpush
    exact ⟨taskQueue, hpush, (Option.some.inj h).symm⟩

theorem step_destroy (h : s.step (.destroy i) = some t) :
    s.destructor = none ∧ t = { s with
      cancelationToken := Function.update s.cancelationToken i true
      destructor := some (i, .cancelling) } := by
  simp only [step] at h
  split at h
  · rename_i hnone
    exact ⟨hnone, (Option.some.inj h).symm⟩
  · cases h

theorem step_cancel (h : s.step .cancel = some t) :
    ∃ i, s.destructor = some (i, .cancelling) ∧
      t = { s with taskQueue := s.taskQueue.cancel, destructor := some (i, .joining) } := by
  simp only [step] at h
  split at h
  · rename_i i hat
    exact ⟨i, hat, (Option.some.inj h).symm⟩
  · cases h

theorem step_join (h : s.step .join = some t) :
    ∃ i, s.destructor = some (i, .joining) ∧ t = { s with destructor := some (i, .done) } := by
  simp only [step] at h
  split at h
  · rename_i i hat
    split at h
    · exact ⟨i, hat, (Option.some.inj h).symm⟩
    · cases h
  · cases h

/-- Only the worker being destroyed has its token up. -/
theorem Consistent.token_eq (hs : s.Consistent) {i j : ι} {p : DestructorAt}
    (hat : s.destructor = some (i, p)) (hj : s.cancelationToken j = true) : j = i := by
  obtain ⟨p', hp⟩ := hs.token j hj
  rw [hat] at hp
  cases hp
  rfl

theorem Consistent.step {e : SQLThreadStep ι α} (hs : s.Consistent) (h : s.step e = some t) :
    t.Consistent := by
  cases e with
  | push operation chosen =>
    obtain ⟨taskQueue, hpush, rfl⟩ := step_push h
    have hreach := hs.queue.next ⟨.push operation chosen, hpush⟩
    obtain ⟨condition, hnotify, rfl⟩ := QueueMonitor.push_cases hpush
    refine ⟨hreach, ?_, hs.held, hs.token, hs.alive⟩
    intro j
    exact (ConditionVariable.blocked_notifyOne hnotify).trans (hs.blocked j)
  | main i => exact hs.mainStep h
  | destroy i =>
    obtain ⟨hnone, rfl⟩ := step_destroy h
    refine ⟨hs.queue, hs.blocked, hs.held, ?_, ?_⟩
    · intro j hj
      by_cases hji : j = i
      · exact ⟨.cancelling, by rw [hji]⟩
      · simp only [Function.update_of_ne hji] at hj
        obtain ⟨p, hp⟩ := hs.token j hj
        rw [hnone] at hp
        cases hp
    · intro j hj
      by_cases hji : j = i
      · simp only [hji, Function.update_self]
      · simp only [Function.update_of_ne hji]
        exact hs.alive j hj
  | cancel =>
    obtain ⟨i, hat, rfl⟩ := step_cancel h
    refine ⟨hs.queue.next ⟨.cancel, rfl⟩, ?_, hs.held, ?_, hs.alive⟩
    · intro j
      exact ConditionVariable.blocked_notifyAll.trans (hs.blocked j)
    · intro j hj
      rw [hs.token_eq hat hj]
      exact ⟨.joining, rfl⟩
  | join =>
    obtain ⟨i, hat, rfl⟩ := step_join h
    refine ⟨hs.queue, hs.blocked, hs.held, ?_, hs.alive⟩
    intro j hj
    rw [hs.token_eq hat hj]
    exact ⟨.done, rfl⟩

theorem run_consistent {es : List (SQLThreadStep ι α)} (h : (machine ι α).run .new es = some s) :
    s.Consistent :=
  Machine.run_keeps Consistent.new (fun _ _ _ _ hs hst => hs.step hst) h

/-! ## Who shuts the queue down -/

theorem waitAndPop_flags (s : SQLThreads ι α) (i : ι) (taskQueue : QueueMonitor ι α) :
    (s.waitAndPop i taskQueue).taskQueue.q.shutdown = taskQueue.q.shutdown ∧
      (s.waitAndPop i taskQueue).taskQueue.destroyed = taskQueue.destroyed := by
  have hflags := taskQueue.attempt_flags i
  unfold waitAndPop
  split
  · rename_i after h
    rw [h] at hflags
    exact hflags
  · rename_i after h
    rw [h] at hflags
    exact hflags
  · rename_i operation after h
    rw [h] at hflags
    exact hflags

theorem mainStep_flags (h : s.mainStep i = some t) :
    t.taskQueue.q.shutdown = s.taskQueue.q.shutdown ∧
      t.taskQueue.destroyed = s.taskQueue.destroyed := by
  unfold mainStep at h
  split at h
  · cases h
    exact s.waitAndPop_flags i s.taskQueue
  · cases h
    exact s.waitAndPop_flags i _
  · cases h
    split
    · exact ⟨rfl, rfl⟩
    · exact ⟨rfl, rfl⟩
  · cases h
    exact ⟨rfl, rfl⟩
  · cases h
    split
    · exact ⟨rfl, rfl⟩
    · exact ⟨rfl, rfl⟩
  · cases h

/-- Only the `Cancel` of the destructor does. -/
theorem step_flags {e : SQLThreadStep ι α} (he : e ≠ .cancel) (h : s.step e = some t) :
    t.taskQueue.q.shutdown = s.taskQueue.q.shutdown ∧
      t.taskQueue.destroyed = s.taskQueue.destroyed := by
  cases e with
  | push operation chosen =>
    obtain ⟨taskQueue, hpush, rfl⟩ := step_push h
    obtain ⟨condition, -, rfl⟩ := QueueMonitor.push_cases hpush
    exact ⟨rfl, rfl⟩
  | main i => exact mainStep_flags h
  | destroy i =>
    obtain ⟨-, rfl⟩ := step_destroy h
    exact ⟨rfl, rfl⟩
  | cancel => exact absurd rfl he
  | join =>
    obtain ⟨i, -, rfl⟩ := step_join h
    exact ⟨rfl, rfl⟩

theorem step_shutdown {e : SQLThreadStep ι α} (h : s.step e = some t)
    (hs : s.taskQueue.q.shutdown = true ∨ e = .cancel) : t.taskQueue.q.shutdown = true := by
  by_cases he : e = .cancel
  · subst he
    obtain ⟨i, -, rfl⟩ := step_cancel h
    simp [QueueMonitor.cancel]
  · rw [(step_flags he h).1]
    exact hs.resolve_right he

theorem run_open {es : List (SQLThreadStep ι α)} (h : (machine ι α).run .new es = some s)
    (hes : .cancel ∉ es) : s.taskQueue.q.shutdown = false ∧ s.taskQueue.destroyed = [] := by
  refine Machine.run_keeps (P := fun s : SQLThreads ι α =>
    s.taskQueue.q.shutdown = false ∧ s.taskQueue.destroyed = []) ⟨rfl, rfl⟩ ?_ h
  intro s e t he hs hst
  have hne : e ≠ .cancel := fun heq => hes (heq ▸ he)
  rw [(step_flags hne hst).1, (step_flags hne hst).2]
  exact hs

theorem run_shutdown {es : List (SQLThreadStep ι α)} {s t : SQLThreads ι α}
    (h : (machine ι α).run s es = some t)
    (hes : s.taskQueue.q.shutdown = true ∨ .cancel ∈ es) : t.taskQueue.q.shutdown = true := by
  induction es generalizing s with
  | nil =>
    cases h
    exact hes.resolve_right (List.not_mem_nil)
  | cons e es ih =>
    obtain ⟨u, hfirst, hrest⟩ := Machine.run_cons.mp h
    have hfirst : s.step e = some u := hfirst
    apply ih hrest
    rcases hes with hshut | hmem
    · exact Or.inl (step_shutdown hfirst (Or.inl hshut))
    · rcases List.mem_cons.mp hmem with rfl | hmem
      · exact Or.inl (step_shutdown hfirst (Or.inr rfl))
      · exact Or.inr hmem

/-- With two workers there is always one that is not being destroyed, and it is alive: its token is
down, and `Main` returns only on its token. -/
theorem Consistent.bystander [Nontrivial ι] (hs : s.Consistent) :
    ∃ i, ¬ s.BeingDestroyed i ∧ s.main i ≠ .returned := by
  have hother : ∃ i, ¬ s.BeingDestroyed i := by
    cases hd : s.destructor with
    | none =>
      obtain ⟨i⟩ := (inferInstance : Nonempty ι)
      exact ⟨i, fun ⟨p, hp⟩ => by simp [hd] at hp⟩
    | some dp =>
      obtain ⟨i, hi⟩ := exists_ne dp.1
      refine ⟨i, fun ⟨p, hp⟩ => hi ?_⟩
      rw [hd] at hp
      cases hp
      rfl
  obtain ⟨i, hi⟩ := hother
  exact ⟨i, hi, fun hret => hi (hs.token i (hs.alive i hret))⟩

/-- **When stopping a worker leaves the others alone.** Exactly as long as its destructor has not
come to `SQLOperationTaskQueue->Cancel()`: from then on the queue is shut down for everybody, and
what was queued is gone. -/
theorem intact_iff [Nontrivial ι] (es : List (SQLThreadStep ι α)) (s : SQLThreads ι α)
    (h : (machine ι α).run .new es = some s) : s.Intact ↔ .cancel ∉ es := by
  have hs : s.Consistent := run_consistent h
  constructor
  · intro hintact hcancel
    -- Some other worker is still there, and finds the queue shut down.
    have hopen := hintact.obtainable hs.bystander
    rw [run_shutdown h (Or.inr hcancel)] at hopen
    cases hopen
  · intro hes
    obtain ⟨hopen, hdestroyed⟩ := run_open h hes
    refine ⟨?_, hdestroyed, fun _ => hopen⟩
    intro operation hop
    rw [QueueMonitor.reachable_conserved hs.queue, hdestroyed, List.append_nil] at hop
    rcases List.mem_append.mp hop with hop | hop
    · exact Or.inr (hs.held operation hop)
    · exact Or.inl hop

/-- Two workers, one operation pushed and taken, the destructor of the other worker started. -/
theorem intact_before_cancel :
    ∃ s, (machine Bool Nat).run .new [.push 7 none, .main true, .destroy false] = some s ∧
      s.Intact := by
  have hrun : ∃ s, (machine Bool Nat).run .new [.push 7 none, .main true, .destroy false] =
      some s := ⟨_, rfl⟩
  obtain ⟨s, hrun⟩ := hrun
  exact ⟨s, hrun, (intact_iff _ s hrun).mpr (by decide)⟩

/-- Two workers and an operation nobody has taken yet: the destructor of one of them deletes it, and
the queue is shut down for the other one. -/
theorem not_intact_after_cancel :
    ¬ ∀ (es : List (SQLThreadStep Bool Nat)) (s : SQLThreads Bool Nat),
      (machine Bool Nat).run .new es = some s → s.Intact := by
  intro hall
  have hrun : ∃ s, (machine Bool Nat).run .new [.push 7 none, .destroy false, .cancel] = some s ∧
      s.taskQueue.destroyed = [7] := ⟨_, rfl, rfl⟩
  obtain ⟨s, hrun, hdestroyed⟩ := hrun
  have hintact := (hall _ s hrun).undestroyed
  rw [hdestroyed] at hintact
  cases hintact

end SQLThreads

end ServerTest.Database
