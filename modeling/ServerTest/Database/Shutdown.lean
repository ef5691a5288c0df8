import Mathlib.Algebra.BigOperators.Fin
import Mathlib.Logic.Function.Iterate
import ServerTest.Database.SQLThread

/-!
# Stopping the workers

`~SQLThread` sets the token of its worker, cancels the queue all workers share, and joins. Whether the
`join` returns is up to the worker: it may be anywhere in `Main`, the others go on, and producers go on
pushing. It returns after two more steps of its own worker at most, whatever the others do
(`worker_is_joined`). The price is paid by the others: their tokens are down, the queue hands out nothing
any more, and the third step from there at the latest they are in the loop that waits for the token, for
good.

`~SQLThreadPool` is the same for one worker after the other, and ends (`pool_is_destroyed`).
-/

set_option autoImplicit false

namespace ServerTest.Database

open Lib ServerTest.Core

/-- A step of worker `i`. -/
def SQLThreadStep.isMain {ι α : Type} [DecidableEq ι] (i : ι) : SQLThreadStep ι α → Bool
  | .main j => j = i
  | _ => false

/-- How many steps of a run are steps of worker `i`. -/
def turns {ι α : Type} [DecidableEq ι] (i : ι) (es : List (SQLThreadStep ι α)) : Nat :=
  es.countP (SQLThreadStep.isMain i)

/-- Where `Main` goes on a queue that is shut down. -/
def MainAt.next {α : Type} (token : Bool) : MainAt α → MainAt α
  | .loop => .polling
  | .waiting => .polling
  | .polling => if token then .returned else .polling
  | .holding _ => .called
  | .called => if token then .returned else .loop
  | .returned => .returned

/-- How many steps a worker whose token is up takes before it returns. -/
def MainAt.toReturn {α : Type} : MainAt α → Nat
  | .loop => 2
  | .waiting => 2
  | .polling => 1
  | .holding _ => 2
  | .called => 1
  | .returned => 0

theorem MainAt.toReturn_le {α : Type} (at_ : MainAt α) : at_.toReturn ≤ 2 := by
  cases at_ <;> simp [toReturn]

theorem MainAt.next_ne_holding {α : Type} (token : Bool) (at_ : MainAt α) (operation : α) :
    at_.next token ≠ .holding operation := by
  cases at_ <;> cases token <;> nofun

/-- Three steps lead any other worker into the loop that waits for the token. -/
theorem MainAt.polling_of_three {α : Type} {at_ : MainAt α} (h : at_ ≠ .returned) {n : Nat}
    (hn : 3 ≤ n) : (MainAt.next false)^[n] at_ = .polling := by
  obtain ⟨k, rfl⟩ := Nat.exists_eq_add_of_le' hn
  have hstay : ∀ k, (MainAt.next false)^[k] (.polling : MainAt α) = .polling :=
    Function.iterate_fixed rfl
  rw [Function.iterate_add_apply]
  cases at_ with
  | returned => exact absurd rfl h
  | _ => exact hstay k

namespace SQLThreads

variable {ι α : Type} [DecidableEq ι] {s t : SQLThreads ι α} {i : ι}

/-! ## One worker -/

/-- `WaitAndPop` on a queue that is shut down comes back without an operation. -/
theorem waitAndPop_shutdown {taskQueue : QueueMonitor ι α} (h : taskQueue.q.shutdown = true) :
    s.waitAndPop i taskQueue = moveTo { s with taskQueue := taskQueue } i .polling := by
  rcases taskQueue.attempt_cases i with ⟨hq, -⟩ | ⟨-, hattempt⟩ | ⟨value, rest, hq, -⟩
  · rw [hq] at h
    cases h
  · simp only [waitAndPop, hattempt]
  · rw [hq] at h
    cases h

/-- What becomes of a run once the queue is shut down: nothing is handed out any more, and only what
was held is executed. -/
structure Closing (s t : SQLThreads ι α) : Prop where
  shutdown : t.taskQueue.q.shutdown = true
  returned : t.taskQueue.returned = s.taskQueue.returned
  tokens : t.cancelationToken = s.cancelationToken
  executed : ∀ operation ∈ t.executed, operation ∈ s.executed ∨ ∃ j, s.main j = .holding operation
  holding : ∀ j operation, t.main j = .holding operation → s.main j = .holding operation

omit [DecidableEq ι] in
theorem Closing.refl (hshut : s.taskQueue.q.shutdown = true) : Closing s s :=
  ⟨hshut, rfl, rfl, fun _ => Or.inl, fun _ _ => id⟩

omit [DecidableEq ι] in
theorem Closing.trans {u : SQLThreads ι α} (h : Closing s t) (h' : Closing t u) : Closing s u where
  shutdown := h'.shutdown
  returned := h'.returned.trans h.returned
  tokens := h'.tokens.trans h.tokens
  executed operation hop := by
    rcases h'.executed operation hop with hdone | ⟨j, hj⟩
    · exact h.executed operation hdone
    · exact Or.inr ⟨j, h.holding j operation hj⟩
  holding j operation hj := h.holding j operation (h'.holding j operation hj)

/-- A worker that moves where `next` says. -/
theorem closing_moveTo {taskQueue : QueueMonitor ι α} {executed : List α}
    (hshut : taskQueue.q.shutdown = true) (hreturned : taskQueue.returned = s.taskQueue.returned)
    (hexecuted : ∀ operation ∈ executed, operation ∈ s.executed ∨
      ∃ j, s.main j = .holding operation) :
    Closing s (moveTo { s with taskQueue := taskQueue, executed := executed } i
      ((s.main i).next (s.cancelationToken i))) where
  shutdown := hshut
  returned := hreturned
  tokens := rfl
  executed := hexecuted
  holding j operation hj := by
    by_cases hji : j = i
    · rw [hji, main_moveTo_self] at hj
      exact (MainAt.next_ne_holding _ _ operation hj).elim
    · rwa [main_moveTo_of_ne _ hji] at hj

/-! The step of a worker by where it stands. -/

theorem mainStep_loop (hat : s.main i = .loop) :
    s.mainStep i = some (s.waitAndPop i s.taskQueue) := by
  rw [mainStep, hat]

theorem mainStep_waiting (hat : s.main i = .waiting) :
    s.mainStep i = some (s.waitAndPop i
      { s.taskQueue with condition := s.taskQueue.condition.resume i }) := by
  rw [mainStep, hat]

theorem mainStep_polling (hat : s.main i = .polling) :
    s.mainStep i = some (if s.cancelationToken i then s.moveTo i .returned else s) := by
  rw [mainStep, hat]

theorem mainStep_holding {operation : α} (hat : s.main i = .holding operation) :
    s.mainStep i = some
      (moveTo { s with executed := s.executed ++ [operation] } i .called) := by
  rw [mainStep, hat]

theorem mainStep_called (hat : s.main i = .called) :
    s.mainStep i = some
      (if s.cancelationToken i then s.moveTo i .returned else s.moveTo i .loop) := by
  rw [mainStep, hat]

theorem mainStep_returned (hat : s.main i = .returned) : s.mainStep i = none := by
  rw [mainStep, hat]

/-- **One step of a worker** on a queue that is shut down. -/
theorem mainStep_closing (hshut : s.taskQueue.q.shutdown = true) (h : s.mainStep i = some t) :
    ∃ taskQueue executed, Closing s t ∧
      t = moveTo { s with taskQueue := taskQueue, executed := executed } i
        ((s.main i).next (s.cancelationToken i)) := by
  have hsame : ∀ operation ∈ s.executed, operation ∈ s.executed ∨
      ∃ j, s.main j = .holding operation := fun _ => Or.inl
  have hstay := closing_moveTo (s := s) (i := i) hshut rfl hsame
  cases hat : s.main i with
  | loop =>
    rw [mainStep_loop hat, waitAndPop_shutdown hshut] at h
    cases h
    rw [hat] at hstay
    exact ⟨s.taskQueue, s.executed, hstay, rfl⟩
  | waiting =>
    let resumed : QueueMonitor ι α :=
      { s.taskQueue with condition := s.taskQueue.condition.resume i }
    have hresumed : resumed.q.shutdown = true := hshut
    have hmoved := closing_moveTo (s := s) (i := i) hresumed rfl hsame
    rw [mainStep_waiting hat, waitAndPop_shutdown hresumed] at h
    cases h
    rw [hat] at hmoved
    exact ⟨resumed, s.executed, hmoved, rfl⟩
  | polling =>
    rw [mainStep_polling hat] at h
    cases h
    rw [hat] at hstay
    cases htoken : s.cancelationToken i with
    | true =>
      rw [htoken] at hstay
      exact ⟨s.taskQueue, s.executed, hstay, rfl⟩
    | false =>
      refine ⟨s.taskQueue, s.executed, .refl hshut, ?_⟩
      have hspins : s.moveTo i .polling = s := by
        rw [moveTo, ← hat, Function.update_eq_self]
      exact hspins.symm
  | holding operation =>
    rw [mainStep_holding hat] at h
    cases h
    have hexecuted : ∀ op ∈ s.executed ++ [operation], op ∈ s.executed ∨
        ∃ j, s.main j = .holding op := by
      intro op hop
      rcases List.mem_append.mp hop with hold | hnew
      · exact Or.inl hold
      · rw [List.mem_singleton.mp hnew]
        exact Or.inr ⟨i, hat⟩
    have hmoved := closing_moveTo (s := s) (i := i) hshut rfl hexecuted
    rw [hat] at hmoved
    exact ⟨s.taskQueue, s.executed ++ [operation], hmoved, rfl⟩
  | called =>
    rw [mainStep_called hat] at h
    cases h
    rw [hat] at hstay
    cases htoken : s.cancelationToken i with
    | true =>
      rw [htoken] at hstay
      exact ⟨s.taskQueue, s.executed, hstay, rfl⟩
    | false =>
      rw [htoken] at hstay
      exact ⟨s.taskQueue, s.executed, hstay, rfl⟩
  | returned =>
    rw [mainStep_returned hat] at h
    cases h

/-- A destructor that has cancelled the queue. -/
def Cancelled (s : SQLThreads ι α) (i : ι) : Prop :=
  s.destructor = some (i, .joining) ∨ s.destructor = some (i, .done)

/-- **One step of anybody** after that: it moves the worker it is a step of, if any. -/
theorem step_closing {e : SQLThreadStep ι α} (hshut : s.taskQueue.q.shutdown = true)
    (hcancelled : s.Cancelled i) (h : s.step e = some t) :
    Closing s t ∧ t.Cancelled i ∧ ∀ j, t.main j =
      if e.isMain j then (s.main j).next (s.cancelationToken j) else s.main j := by
  cases e with
  | push operation chosen =>
    obtain ⟨taskQueue, hpush, rfl⟩ := step_push h
    obtain ⟨condition, -, rfl⟩ := QueueMonitor.push_cases hpush
    exact ⟨⟨hshut, rfl, rfl, fun _ => Or.inl, fun _ _ => id⟩, hcancelled, fun _ => rfl⟩
  | main k =>
    obtain ⟨taskQueue, executed, hclosing, rfl⟩ := mainStep_closing hshut h
    refine ⟨hclosing, hcancelled, ?_⟩
    intro j
    by_cases hj : j = k
    · rw [hj, main_moveTo_self]
      simp [SQLThreadStep.isMain]
    · rw [main_moveTo_of_ne _ hj]
      simp [SQLThreadStep.isMain, Ne.symm hj]
  | destroy k =>
    obtain ⟨hnone, -⟩ := step_destroy h
    rcases hcancelled with hat | hat <;> rw [hnone] at hat <;> cases hat
  | cancel =>
    obtain ⟨k, hk, -⟩ := step_cancel h
    rcases hcancelled with hat | hat <;> rw [hk] at hat <;> cases hat
  | join =>
    obtain ⟨k, hk, rfl⟩ := step_join h
    have hki : k = i := by
      rcases hcancelled with hat | hat <;> rw [hk] at hat <;> cases hat
      rfl
    exact ⟨⟨hshut, rfl, rfl, fun _ => Or.inl, fun _ _ => id⟩, Or.inr (by rw [hki]), fun _ => rfl⟩

/-- **A run** from there: every worker goes its own way, as many steps as it took. -/
theorem run_closing {es : List (SQLThreadStep ι α)} (hshut : s.taskQueue.q.shutdown = true)
    (hcancelled : s.Cancelled i) (h : (machine ι α).run s es = some t) :
    Closing s t ∧ t.Cancelled i ∧
      ∀ j, t.main j = (MainAt.next (s.cancelationToken j))^[turns j es] (s.main j) := by
  induction es generalizing s with
  | nil =>
    cases h
    exact ⟨.refl hshut, hcancelled, fun _ => rfl⟩
  | cons e es ih =>
    obtain ⟨u, hfirst, hrest⟩ := Machine.run_cons.mp h
    obtain ⟨hclosing, hcancelled', hmain⟩ := step_closing hshut hcancelled hfirst
    obtain ⟨hlater, hend, hmains⟩ := ih hclosing.shutdown hcancelled' hrest
    refine ⟨hclosing.trans hlater, hend, ?_⟩
    intro j
    rw [hmains j, hmain j, hclosing.tokens, turns, turns, List.countP_cons]
    split
    · rw [Function.iterate_add_apply, Function.iterate_one]
    · rfl

/-- A worker whose token is up gets one step nearer to its end with each of its steps. -/
theorem run_toReturn {es : List (SQLThreadStep ι α)} (hshut : s.taskQueue.q.shutdown = true)
    (hcancelled : s.Cancelled i) (htoken : s.cancelationToken i = true)
    (h : (machine ι α).run s es = some t) :
    turns i es + (t.main i).toReturn = (s.main i).toReturn := by
  induction es generalizing s with
  | nil =>
    cases h
    exact Nat.zero_add _
  | cons e es ih =>
    obtain ⟨u, hfirst, hrest⟩ := Machine.run_cons.mp h
    obtain ⟨hclosing, hcancelled', hmain⟩ := step_closing hshut hcancelled hfirst
    have hlater := ih hclosing.shutdown hcancelled' (by rw [hclosing.tokens, htoken]) hrest
    have hmain := hmain i
    rw [turns] at hlater ⊢
    rw [List.countP_cons]
    cases hmine : e.isMain i with
    | false =>
      rw [hmine, if_neg nofun] at hmain
      rw [hmain] at hlater
      simpa using hlater
    | true =>
      -- It was a step of worker `i`, so `i` had not returned.
      have hnot : s.main i ≠ .returned := by
        intro hret
        cases e with
        | main k =>
          have hk : k = i := by simpa [SQLThreadStep.isMain] using hmine
          have hnone : s.mainStep k = none := by simp only [mainStep, hk, hret]
          have hfirst : s.mainStep k = some u := hfirst
          rw [hnone] at hfirst
          cases hfirst
        | _ => cases hmine
      rw [hmine, if_pos rfl, htoken] at hmain
      have hone : ((s.main i).next true).toReturn + 1 = (s.main i).toReturn := by
        cases hat : s.main i with
        | returned => exact absurd hat hnot
        | _ => rfl
      rw [hmain] at hlater
      simp only [if_true]
      omega

theorem mainStep_frame (h : s.mainStep i = some t) :
    t.destructor = s.destructor ∧ t.cancelationToken = s.cancelationToken := by
  have hpop : ∀ taskQueue, (s.waitAndPop i taskQueue).destructor = s.destructor ∧
      (s.waitAndPop i taskQueue).cancelationToken = s.cancelationToken := by
    intro taskQueue
    unfold waitAndPop
    split <;> exact ⟨rfl, rfl⟩
  unfold mainStep at h
  split at h
  · cases h
    exact hpop _
  · cases h
    exact hpop _
  · cases h
    split <;> exact ⟨rfl, rfl⟩
  · cases h
    exact ⟨rfl, rfl⟩
  · cases h
    split <;> exact ⟨rfl, rfl⟩
  · cases h

/-- What a destructor at its `join` has done already. -/
structure Joins (s : SQLThreads ι α) : Prop where
  token : ∀ i p, s.destructor = some (i, p) → s.cancelationToken i = true
  shutdown : ∀ i, s.destructor = some (i, .joining) → s.taskQueue.q.shutdown = true

theorem Joins.step {e : SQLThreadStep ι α} (hs : s.Joins) (h : s.step e = some t) : t.Joins := by
  cases e with
  | push operation chosen =>
    have hflags := step_flags (by simp) h
    obtain ⟨taskQueue, -, rfl⟩ := step_push h
    exact ⟨hs.token, fun i hi => hflags.1.trans (hs.shutdown i hi)⟩
  | main k =>
    obtain ⟨hdestructor, htokens⟩ := mainStep_frame h
    have hflags := mainStep_flags h
    refine ⟨?_, ?_⟩
    · rw [hdestructor, htokens]
      exact hs.token
    · rw [hdestructor, hflags.1]
      exact hs.shutdown
  | destroy k =>
    obtain ⟨-, rfl⟩ := step_destroy h
    refine ⟨?_, nofun⟩
    intro i p hp
    cases hp
    exact Function.update_self ..
  | cancel =>
    have hshut := step_shutdown h (Or.inr rfl)
    obtain ⟨k, hk, rfl⟩ := step_cancel h
    refine ⟨?_, fun _ _ => hshut⟩
    intro i p hp
    cases hp
    exact hs.token k _ hk
  | join =>
    obtain ⟨k, hk, rfl⟩ := step_join h
    refine ⟨?_, nofun⟩
    intro i p hp
    cases hp
    exact hs.token k _ hk

theorem run_joins {es : List (SQLThreadStep ι α)} (h : (machine ι α).run .new es = some s) :
    s.Joins := by
  have hnew : (SQLThreads.new : SQLThreads ι α).Joins :=
    ⟨fun _ _ hp => (nomatch hp), fun _ hp => (nomatch hp)⟩
  exact Machine.run_keeps hnew (fun _ _ _ _ hs hst => hs.step hst) h

/-- **The `join` of a destructor returns.** Take any run up to a destructor's `join`, and any continuation
of it, with whatever steps of the other workers and of producers. In it the worker takes two steps at
most, and the `join` waits for nothing else: as long as it has not returned, the worker has a step to
take, or the `join` has. Meanwhile the queue hands nothing out, only operations that were held at the
start are executed, and every other worker that takes three steps is in the loop that waits for its
token. -/
theorem worker_is_joined (es es' : List (SQLThreadStep ι α)) (s t : SQLThreads ι α) (i : ι)
    (h : (machine ι α).run .new es = some s) (hat : s.destructor = some (i, .joining))
    (h' : (machine ι α).run s es' = some t) :
    turns i es' ≤ 2 ∧
    (t.destructor = some (i, .joining) →
      (∃ u, t.step (.main i) = some u) ∨ ∃ u, t.step .join = some u) ∧
    t.taskQueue.returned = s.taskQueue.returned ∧
    (∀ operation ∈ t.executed, operation ∈ s.executed ∨ ∃ j, s.main j = .holding operation) ∧
    ∀ j, j ≠ i → 3 ≤ turns j es' → t.main j = .polling := by
  have hjoins := run_joins h
  have hconsistent := run_consistent h
  have hshut := hjoins.shutdown i hat
  have htoken := hjoins.token i _ hat
  obtain ⟨hclosing, -, hmain⟩ := run_closing hshut (Or.inl hat) h'
  refine ⟨?_, ?_, hclosing.returned, hclosing.executed, ?_⟩
  · have hturns := run_toReturn hshut (Or.inl hat) htoken h'
    have hleft := (s.main i).toReturn_le
    omega
  · intro hjoining
    cases hend : t.main i with
    | returned => exact Or.inr ⟨_, by simp only [step, hjoining, hend]; rfl⟩
    | _ => exact Or.inl ⟨_, by simp only [step, mainStep, hend]; rfl⟩
  · intro j hj hthree
    have hdown : s.cancelationToken j = false := by
      cases hup : s.cancelationToken j with
      | false => rfl
      | true => exact absurd (hconsistent.token_eq hat hup) hj
    have halive : s.main j ≠ .returned := by
      intro hret
      rw [hconsistent.alive j hret] at hdown
      cases hdown
    rw [hmain j, hdown]
    exact MainAt.polling_of_three halive hthree

/-- Two workers, one of them executing; the other one is destroyed, and then they go on. -/
theorem worker_is_joined_two :
    ∃ (s t : SQLThreads Bool Nat), (machine Bool Nat).run .new
        [.push 7 none, .main true, .destroy false, .cancel] = some s ∧
      (machine Bool Nat).run s [.main true, .main false, .main true, .push 8 none, .main true,
        .main false] = some t ∧
      t.executed = [7] ∧ t.main true = .polling ∧ (∃ u, t.step .join = some u) := by
  have hrun : ∃ s t, (machine Bool Nat).run .new
      [.push 7 none, .main true, .destroy false, .cancel] = some s ∧
      (machine Bool Nat).run s [.main true, .main false, .main true, .push 8 none, .main true,
        .main false] = some t ∧ s.destructor = some (false, .joining) ∧ t.executed = [7] ∧
      t.destructor = some (false, .joining) ∧ t.main false = .returned :=
    ⟨_, _, rfl, rfl, rfl, rfl, rfl, rfl⟩
  obtain ⟨s, t, hs, ht, hat, hexecuted, hend, hret⟩ := hrun
  obtain ⟨-, hjoin, -, -, hothers⟩ := worker_is_joined _ _ s t false hs hat ht
  refine ⟨s, t, hs, ht, hexecuted, hothers true (by decide) (by decide), ?_⟩
  rcases hjoin hend with ⟨u, hu⟩ | hu
  · simp only [step, mainStep, hret] at hu
    cases hu
  · exact hu

/-! ## All workers -/

/-- Whether a worker can get on: one that waits has been notified, and one that polls has its token
up. -/
def runnable (s : SQLThreads ι α) (i : ι) : Bool :=
  match s.main i with
  | .waiting => i ∈ s.taskQueue.condition.notified
  | .polling => s.cancelationToken i
  | .returned => false
  | _ => true

theorem runnable_waiting (h : s.main i = .waiting) :
    s.runnable i = decide (i ∈ s.taskQueue.condition.notified) := by
  rw [runnable, h]

theorem runnable_polling (h : s.main i = .polling) : s.runnable i = s.cancelationToken i := by
  rw [runnable, h]

/-- How much a worker may still do without the queue giving it anything. -/
def rank : MainAt α → Nat
  | .returned => 0
  | .polling => 1
  | .waiting => 2
  | .loop => 3
  | .called => 4
  | .holding _ => 5

/-- What the queue can still make workers do: an operation sends one around its loop, and a
notification lets one look. -/
def queueWork (taskQueue : QueueMonitor ι α) : Nat :=
  4 * taskQueue.q.queue.length + taskQueue.condition.notified.card

/-- The workers use the queue as its own model says. -/
structure Monitored (s : SQLThreads ι α) : Prop where
  queue : (QueueMonitor.system ι α).Reachable s.taskQueue
  blocked : ∀ i, s.taskQueue.condition.Blocked i ↔ s.main i = .waiting

/-- `WaitAndPop`, entered or resumed: `taskQueue` is the queue without worker `i` inside. -/
theorem Monitored.waitAndPop (hs : s.Monitored) {taskQueue : QueueMonitor ι α}
    (hreach : (QueueMonitor.system ι α).Reachable (taskQueue.attempt i).2)
    (hout : ∀ j, taskQueue.condition.Blocked j ↔ j ≠ i ∧ s.taskQueue.condition.Blocked j) :
    (s.waitAndPop i taskQueue).Monitored ∧
      ∃ at_, (s.waitAndPop i taskQueue).main = Function.update s.main i at_ ∧
        queueWork (s.waitAndPop i taskQueue).taskQueue + rank at_ ≤ queueWork taskQueue + 2 := by
  have hothers : ∀ j, j ≠ i → (taskQueue.condition.Blocked j ↔ s.main j = .waiting) := by
    intro j hj
    rw [hout j, hs.blocked j]
    exact ⟨And.right, fun h => ⟨hj, h⟩⟩
  have hself : ¬ taskQueue.condition.Blocked i := fun h => ((hout i).mp h).1 rfl
  rcases taskQueue.attempt_cases i with ⟨-, h⟩ | ⟨-, h⟩ | ⟨operation, rest, hq, h⟩
  · simp only [SQLThreads.waitAndPop, h] at hreach ⊢
    refine ⟨⟨hreach, blocked_moveTo ?_ ?_⟩, .waiting, rfl, ?_⟩
    · intro j hj
      refine ConditionVariable.blocked_wait.trans ?_
      rw [hothers j hj]
      exact ⟨fun h => h.elim (fun e => absurd e hj) id, Or.inr⟩
    · exact iff_of_true (ConditionVariable.blocked_wait.mpr (Or.inl rfl)) rfl
    · have hfewer := Finset.card_erase_le (s := taskQueue.condition.notified) (a := i)
      simp only [queueWork, SQLThreads.moveTo, ConditionVariable.wait, rank]
      omega
  · simp only [SQLThreads.waitAndPop, h] at hreach ⊢
    refine ⟨⟨hreach, blocked_moveTo hothers (iff_of_false hself (by simp))⟩, .polling, rfl, ?_⟩
    simp only [queueWork, SQLThreads.moveTo, rank]
    omega
  · simp only [SQLThreads.waitAndPop, h] at hreach ⊢
    refine ⟨⟨hreach, blocked_moveTo hothers (iff_of_false hself (by simp))⟩, .holding operation, rfl,
      ?_⟩
    simp only [queueWork, SQLThreads.moveTo, rank, hq, List.length_cons]
    omega

theorem Monitored.moveTo (hs : s.Monitored) {at_ : MainAt α} (hfrom : s.main i ≠ .waiting)
    (hto : at_ ≠ .waiting) : (s.moveTo i at_).Monitored where
  queue := hs.queue
  blocked := by
    apply blocked_moveTo
    · intro j _
      exact hs.blocked j
    · exact iff_of_false (fun h => hfrom ((hs.blocked i).mp h)) hto

/-- **A worker that gets on** has less to do afterwards. -/
theorem Monitored.mainStep (hs : s.Monitored) (hrun : s.runnable i = true)
    (h : s.mainStep i = some t) :
    t.Monitored ∧ ∃ at_, t.main = Function.update s.main i at_ ∧
      queueWork t.taskQueue + rank at_ < queueWork s.taskQueue + rank (s.main i) := by
  cases hat : s.main i with
  | loop =>
    rw [mainStep_loop hat] at h
    cases h
    have hidle : ¬ s.taskQueue.condition.Blocked i := by simp [hs.blocked i, hat]
    have hreach : (QueueMonitor.system ι α).Reachable (s.taskQueue.attempt i).2 :=
      hs.queue.next ⟨.waitAndPop i, if_neg hidle⟩
    obtain ⟨hmonitored, at_, hmain, hwork⟩ := hs.waitAndPop hreach
      (fun j => ⟨fun hj => ⟨fun e => hidle (e ▸ hj), hj⟩, And.right⟩)
    refine ⟨hmonitored, at_, hmain, ?_⟩
    rw [rank]
    omega
  | waiting =>
    have hinside : s.taskQueue.condition.Blocked i := (hs.blocked i).mpr hat
    have hnotified : i ∈ s.taskQueue.condition.notified :=
      of_decide_eq_true ((runnable_waiting hat).symm.trans hrun)
    obtain ⟨resumed, hresumed⟩ : ∃ resumed : QueueMonitor ι α,
      resumed = { s.taskQueue with condition := s.taskQueue.condition.resume i } := ⟨_, rfl⟩
    rw [mainStep_waiting hat, ← hresumed] at h
    cases h
    have hreach : (QueueMonitor.system ι α).Reachable (resumed.attempt i).2 :=
      hresumed ▸ hs.queue.next ⟨.wake i, if_pos hinside⟩
    obtain ⟨hmonitored, at_, hmain, hwork⟩ := hs.waitAndPop hreach
      (fun j => hresumed ▸ ConditionVariable.blocked_resume)
    refine ⟨hmonitored, at_, hmain, ?_⟩
    have hless : queueWork resumed < queueWork s.taskQueue := by
      have hone := Finset.card_erase_lt_of_mem hnotified
      simp only [hresumed, queueWork, ConditionVariable.resume]
      omega
    rw [rank]
    omega
  | polling =>
    have htoken : s.cancelationToken i = true := (runnable_polling hat).symm.trans hrun
    rw [mainStep_polling hat, if_pos htoken] at h
    cases h
    refine ⟨hs.moveTo (by simp [hat]) (by simp), .returned, rfl, ?_⟩
    exact Nat.lt_succ_self _
  | holding operation =>
    rw [mainStep_holding hat] at h
    cases h
    have hdone : Monitored { s with executed := s.executed ++ [operation] } := ⟨hs.queue, hs.blocked⟩
    refine ⟨hdone.moveTo (by simp [hat]) (by simp), .called, rfl, ?_⟩
    exact Nat.lt_succ_self _
  | called =>
    rw [mainStep_called hat] at h
    cases h
    split
    · refine ⟨hs.moveTo (by simp [hat]) (by simp), .returned, rfl, ?_⟩
      simp only [rank, SQLThreads.moveTo]
      omega
    · refine ⟨hs.moveTo (by simp [hat]) (by simp), .loop, rfl, ?_⟩
      exact Nat.lt_succ_self _
  | returned =>
    rw [mainStep_returned hat] at h
    cases h

end SQLThreads

/-! ## The destructor of the pool -/

/-- `~SQLThreadPool`: the workers whose `SQLThread` is still to be destroyed, in the order in which
they will be. -/
structure PoolShutdown (ι α : Type) where
  threads : SQLThreads ι α
  remaining : List ι

/-- Nobody pushes any more. -/
inductive ShutdownStep (ι : Type) where
  | worker (i : ι)
  /-- the next `~SQLThread` starts -/
  | destroy
  | cancel
  | join

namespace PoolShutdown

variable {ι α : Type} [DecidableEq ι]

/-- One step. The steps of a worker that would only look again are left out, and so are spurious
wake-ups: nothing here may depend on them. -/
def step (p : PoolShutdown ι α) : ShutdownStep ι → Option (PoolShutdown ι α)
  | .worker i =>
    if p.threads.runnable i then (p.threads.mainStep i).map (⟨·, p.remaining⟩) else none
  | .destroy =>
    match p.threads.destructor, p.remaining with
    | some (_, .cancelling), _ => none
    | some (_, .joining), _ => none
    | _, [] => none
    | _, i :: rest => some
        { threads := { p.threads with
            cancelationToken := Function.update p.threads.cancelationToken i true
            destructor := some (i, .cancelling) }
          remaining := rest }
  | .cancel => (p.threads.step .cancel).map (⟨·, p.remaining⟩)
  | .join => (p.threads.step .join).map (⟨·, p.remaining⟩)

/-- From any state of the workers. -/
def machine (s : SQLThreads ι α) (order : List ι) : Machine (PoolShutdown ι α) (ShutdownStep ι) where
  start := ⟨s, order⟩
  step := step

variable [Fintype ι]

/-- What a destructor that was started still has to do; a `Cancel` may wake everybody. -/
def destructorWork (ι : Type) [Fintype ι] : Option (ι × DestructorAt) → Nat
  | some (_, .cancelling) => Fintype.card ι + 2
  | some (_, .joining) => 1
  | _ => 0

def work (p : PoolShutdown ι α) : Nat :=
  SQLThreads.queueWork p.threads.taskQueue + ∑ i, SQLThreads.rank (p.threads.main i) +
    destructorWork ι p.threads.destructor + (Fintype.card ι + 3) * p.remaining.length

/-- Every worker is still to be destroyed, is being destroyed, or has returned. -/
structure Inv (p : PoolShutdown ι α) : Prop where
  monitored : p.threads.Monitored
  joins : p.threads.Joins
  accounted : ∀ i, i ∈ p.remaining ∨
    (∃ q, q ≠ .done ∧ p.threads.destructor = some (i, q)) ∨ p.threads.main i = .returned

variable {p p' : PoolShutdown ι α}

theorem sum_rank_update (main : ι → MainAt α) (i : ι) (at_ : MainAt α) :
    ∑ j, SQLThreads.rank (Function.update main i at_ j) + SQLThreads.rank (main i) =
      ∑ j, SQLThreads.rank (main j) + SQLThreads.rank at_ := by
  have hupdate : (fun j => SQLThreads.rank (Function.update main i at_ j)) =
      Function.update (fun j => SQLThreads.rank (main j)) i (SQLThreads.rank at_) :=
    Function.comp_update SQLThreads.rank main i at_
  rw [hupdate, Finset.sum_update_of_mem (Finset.mem_univ i), Finset.sdiff_singleton_eq_erase,
    ← Finset.add_sum_erase Finset.univ (fun j => SQLThreads.rank (main j)) (Finset.mem_univ i)]
  omega

theorem Inv.worker (hp : p.Inv) {i : ι} {t : SQLThreads ι α} (hrun : p.threads.runnable i = true)
    (h : p.threads.mainStep i = some t) :
    Inv ⟨t, p.remaining⟩ ∧ work ⟨t, p.remaining⟩ < p.work := by
  obtain ⟨hmonitored, at_, hmain, hless⟩ := hp.monitored.mainStep hrun h
  obtain ⟨hdestructor, -⟩ := SQLThreads.mainStep_frame h
  have hnot : p.threads.main i ≠ .returned := by
    intro hret
    simp [SQLThreads.runnable, hret] at hrun
  refine ⟨⟨hmonitored, hp.joins.step (e := .main i) h, ?_⟩, ?_⟩
  · intro j
    rcases hp.accounted j with hleft | hactive | hret
    · exact Or.inl hleft
    · rw [← hdestructor] at hactive
      exact Or.inr (Or.inl hactive)
    · have hji : j ≠ i := by
        rintro rfl
        exact hnot hret
      refine Or.inr (Or.inr ?_)
      show t.main j = .returned
      rw [hmain, Function.update_of_ne hji]
      exact hret
  · have hsum := sum_rank_update p.threads.main i at_
    simp only [work, hmain, hdestructor]
    omega

theorem step_destroy (h : p.step .destroy = some p') :
    ∃ i rest, p.remaining = i :: rest ∧ destructorWork ι p.threads.destructor = 0 ∧
      (∀ j q, p.threads.destructor = some (j, q) → q = .done) ∧
      p' = ⟨{ p.threads with
          cancelationToken := Function.update p.threads.cancelationToken i true
          destructor := some (i, .cancelling) }, rest⟩ := by
  simp only [step] at h
  split at h
  · cases h
  · cases h
  · cases h
  · rename_i i rest hrest hcancelling hjoining
    cases h
    have hdone : ∀ j q, p.threads.destructor = some (j, q) → q = .done := by
      intro j q hq
      cases q with
      | cancelling => exact absurd hq (hcancelling j)
      | joining => exact absurd hq (hjoining j)
      | done => rfl
    refine ⟨i, rest, hrest, ?_, hdone, rfl⟩
    cases hd : p.threads.destructor with
    | none => rfl
    | some at_ =>
      obtain ⟨j, q⟩ := at_
      rw [hdone j q hd]
      rfl

theorem Inv.destroy (hp : p.Inv) (h : p.step .destroy = some p') : p'.Inv ∧ p'.work < p.work := by
  obtain ⟨i, rest, hrest, hzero, hdone, rfl⟩ := step_destroy h
  refine ⟨⟨⟨hp.monitored.queue, hp.monitored.blocked⟩, ⟨?_, nofun⟩, ?_⟩, ?_⟩
  · intro j q hq
    cases hq
    exact Function.update_self ..
  · intro j
    rcases hp.accounted j with hleft | ⟨q, hq, hat⟩ | hret
    · rw [hrest] at hleft
      rcases List.mem_cons.mp hleft with rfl | hlater
      · exact Or.inr (Or.inl ⟨.cancelling, nofun, rfl⟩)
      · exact Or.inl hlater
    · exact absurd (hdone j q hat) hq
    · exact Or.inr (Or.inr hret)
  · simp only [work, hrest, hzero, List.length_cons, Nat.mul_add]
    simp only [destructorWork]
    omega

theorem Inv.cancel (hp : p.Inv) {t : SQLThreads ι α} (h : p.threads.step .cancel = some t) :
    Inv ⟨t, p.remaining⟩ ∧ work ⟨t, p.remaining⟩ < p.work := by
  have hjoins := hp.joins.step h
  obtain ⟨i, hat, rfl⟩ := SQLThreads.step_cancel h
  refine ⟨⟨⟨hp.monitored.queue.next ⟨.cancel, rfl⟩, ?_⟩, hjoins, ?_⟩, ?_⟩
  · intro j
    exact ConditionVariable.blocked_notifyAll.trans (hp.monitored.blocked j)
  · intro j
    rcases hp.accounted j with hleft | ⟨q, -, hactive⟩ | hret
    · exact Or.inl hleft
    · rw [hat] at hactive
      cases hactive
      exact Or.inr (Or.inl ⟨.joining, nofun, rfl⟩)
    · exact Or.inr (Or.inr hret)
  · -- Everybody who waited has been notified, and nothing is left in the queue.
    have hall : (p.threads.taskQueue.condition.waiting ∪
        p.threads.taskQueue.condition.notified).card ≤
          Fintype.card ι + p.threads.taskQueue.condition.notified.card :=
      (Finset.card_union_le _ _).trans (Nat.add_le_add_right (Finset.card_le_univ _) _)
    simp only [work, SQLThreads.queueWork, QueueMonitor.cancel, ProducerConsumerQueue.cancel_eq,
      ConditionVariable.notifyAll, List.length_nil, hat, destructorWork]
    omega

theorem Inv.join (hp : p.Inv) {t : SQLThreads ι α} (h : p.threads.step .join = some t) :
    Inv ⟨t, p.remaining⟩ ∧ work ⟨t, p.remaining⟩ < p.work := by
  have hjoins := hp.joins.step h
  have hret : ∀ i, p.threads.destructor = some (i, .joining) → p.threads.main i = .returned := by
    intro i hat
    simp only [SQLThreads.step, hat] at h
    split at h
    · assumption
    · cases h
  obtain ⟨i, hat, rfl⟩ := SQLThreads.step_join h
  refine ⟨⟨⟨hp.monitored.queue, hp.monitored.blocked⟩, hjoins, ?_⟩, ?_⟩
  · intro j
    rcases hp.accounted j with hleft | ⟨q, -, hactive⟩ | hover
    · exact Or.inl hleft
    · rw [hat] at hactive
      cases hactive
      exact Or.inr (Or.inr (hret i hat))
    · exact Or.inr (Or.inr hover)
  · simp only [work, hat, destructorWork]
    omega

/-- **One step** leaves less to do. -/
theorem Inv.step (hp : p.Inv) {e : ShutdownStep ι} (h : p.step e = some p') :
    p'.Inv ∧ p'.work < p.work := by
  cases e with
  | worker i =>
    simp only [PoolShutdown.step] at h
    split at h
    · rename_i hrun
      obtain ⟨t, ht, rfl⟩ := Option.map_eq_some_iff.mp h
      exact hp.worker hrun ht
    · cases h
  | destroy => exact hp.destroy h
  | cancel =>
    obtain ⟨t, ht, rfl⟩ := Option.map_eq_some_iff.mp h
    exact hp.cancel ht
  | join =>
    obtain ⟨t, ht, rfl⟩ := Option.map_eq_some_iff.mp h
    exact hp.join ht

omit [Fintype ι] in
/-- As long as a worker is left, there is a step to take. -/
theorem Inv.all_returned (hp : p.Inv) (hstuck : ∀ e, p.step e = none) :
    p.remaining = [] ∧ ∀ i, p.threads.main i = .returned := by
  have hover : ∀ i q, p.threads.destructor = some (i, q) → q = .done := by
    intro i q hat
    cases q with
    | done => rfl
    | cancelling =>
      have hnone := hstuck .cancel
      simp [PoolShutdown.step, SQLThreads.step, hat] at hnone
    | joining =>
      have hshut := hp.joins.shutdown i hat
      have htoken := hp.joins.token i _ hat
      have hworker := hstuck (.worker i)
      have hjoin := hstuck .join
      cases hmain : p.threads.main i with
      | returned => simp [PoolShutdown.step, SQLThreads.step, hat, hmain] at hjoin
      | waiting =>
        -- A queue that is shut down has no waiter that was not notified.
        have hblocked := (hp.monitored.blocked i).mpr hmain
        have hnobody := (QueueMonitor.reachable_wakesUp hp.monitored.queue).released hshut
        have hnotified : i ∈ p.threads.taskQueue.condition.notified := by
          rcases hblocked with hwaits | hnotified
          · rw [hnobody] at hwaits
            exact absurd hwaits (Finset.notMem_empty i)
          · exact hnotified
        simp [PoolShutdown.step, SQLThreads.runnable, SQLThreads.mainStep, hmain, hnotified] at hworker
      | polling =>
        simp [PoolShutdown.step, SQLThreads.runnable, SQLThreads.mainStep, hmain, htoken] at hworker
      | _ => simp [PoolShutdown.step, SQLThreads.runnable, SQLThreads.mainStep, hmain] at hworker
  have hempty : p.remaining = [] := by
    cases hrest : p.remaining with
    | nil => rfl
    | cons i rest =>
      have hnone := hstuck .destroy
      simp only [PoolShutdown.step, hrest] at hnone
      split at hnone
      · rename_i j hat
        cases hover j _ hat
      · rename_i j hat
        cases hover j _ hat
      · rename_i hnil _ _
        cases hnil
      · cases hnone
  refine ⟨hempty, ?_⟩
  intro i
  rcases hp.accounted i with hleft | ⟨q, hq, hat⟩ | hret
  · rw [hempty] at hleft
    cases hleft
  · exact absurd (hover i q hat) hq
  · exact hret

/-- **The destructor of the pool returns.** Start it in any state the workers can be in, with every
worker to be destroyed, in any order. However the steps of the workers and of the destructors are
interleaved, a run is no longer than `work` of its start, can always be carried on until nothing is left
to do, and then every worker has returned and been joined. -/
theorem pool_is_destroyed (es : List (SQLThreadStep ι α)) (s : SQLThreads ι α)
    (h : (SQLThreads.machine ι α).run .new es = some s) (order : List ι) (hall : ∀ i, i ∈ order)
    (es' : List (ShutdownStep ι)) (p : PoolShutdown ι α)
    (h' : (machine s order).run ⟨s, order⟩ es' = some p) :
    es'.length ≤ work ⟨s, order⟩ ∧
    (∃ es'' p', (machine s order).run p es'' = some p' ∧ ∀ e, p'.step e = none) ∧
    ((∀ e, p.step e = none) → p.remaining = [] ∧ ∀ i, p.threads.main i = .returned) := by
  have hconsistent := SQLThreads.run_consistent h
  have hstart : Inv ⟨s, order⟩ :=
    ⟨⟨hconsistent.queue, hconsistent.blocked⟩, SQLThreads.run_joins h, fun i => Or.inl (hall i)⟩
  obtain ⟨hp, hshort, es'', p', -, hrun, -, hend⟩ := Machine.comes_to_rest (M := machine s order)
    (E := fun _ => True) (fun _ _ _ _ hp hst => hp.step hst) hstart (fun _ _ => trivial) h'
  exact ⟨hshort, ⟨es'', p', hrun, fun e => hend e trivial⟩, hp.all_returned⟩

/-- Two workers, one of them about to execute an operation, and another operation queued. -/
theorem pool_is_destroyed_two :
    ∃ (s : SQLThreads Bool Nat) (es : List (ShutdownStep Bool)) (p : PoolShutdown Bool Nat),
      (SQLThreads.machine Bool Nat).run .new [.push 7 none, .push 8 none, .main true] = some s ∧
      (machine s [false, true]).run ⟨s, [false, true]⟩ es = some p ∧
      es.length ≤ work ⟨s, [false, true]⟩ ∧ ∀ i, p.threads.main i = .returned := by
  have hrun : ∃ s, (SQLThreads.machine Bool Nat).run .new [.push 7 none, .push 8 none, .main true] =
      some s := ⟨_, rfl⟩
  obtain ⟨s, hs⟩ := hrun
  have hall : ∀ i, i ∈ [false, true] := by decide
  obtain ⟨-, ⟨es, p, hes, hstuck⟩, -⟩ :=
    pool_is_destroyed _ s hs [false, true] hall [] ⟨s, [false, true]⟩ rfl
  obtain ⟨hshort, -, hend⟩ := pool_is_destroyed _ s hs [false, true] hall es p hes
  exact ⟨s, es, p, hs, hes, hshort, (hend hstuck).2⟩

end PoolShutdown

end ServerTest.Database
