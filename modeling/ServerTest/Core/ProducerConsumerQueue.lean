import ServerTest.Lib.ConditionVariable
import ServerTest.Lib.Fifo

/-!
# `ProducerConsumerQueue`

A `std::queue` behind a mutex, with a condition variable for consumers that find it empty and a
shutdown flag. The critical sections are the functions of `ProducerConsumerQueue`; `QueueMonitor`
is the object as several threads use it, and one step of it is one critical section. `WaitAndPop` is
the only one that is not a single section: it gives the mutex up inside `wait`, so it is one step
that may end inside the condition variable and, later, a step that starts there.

Which thread pushes, pops or cancels plays no part: only a thread inside `WaitAndPop` is ever known
to the object. So only that operation carries a thread.

`pushed`, `returned` and `destroyed` are what the outside has seen. Two facts hold of every run: the
object is a first-in first-out stream (by simulation of `Lib.Fifo`), and no wake-up is lost (by
`ConditionVariable.Covers`, which counts notified consumers against queued elements). A third does
not: a value pushed after `Cancel` is never taken out again.
-/

set_option autoImplicit false

namespace ServerTest.Core

open Lib

/-! ## The critical sections -/

structure ProducerConsumerQueue (α : Type) where
  queue : List α
  shutdown : Bool
  deriving DecidableEq, Repr

namespace ProducerConsumerQueue

variable {α : Type}

/-- The constructor. -/
def new : ProducerConsumerQueue α := ⟨[], false⟩

/-- `Push`, up to its `notify_one`. The flag is not looked at: a queue that was shut down still
accepts. -/
def push (q : ProducerConsumerQueue α) (value : α) : ProducerConsumerQueue α :=
  { q with queue := q.queue ++ [value] }

def empty (q : ProducerConsumerQueue α) : Bool := q.queue.isEmpty

/-- `Pop`: what it stored in its argument if it returned `true`, and the queue afterwards. -/
def pop (q : ProducerConsumerQueue α) : Option α × ProducerConsumerQueue α :=
  if q.queue.isEmpty || q.shutdown then (none, q)
  else (q.queue.head?, { q with queue := q.queue.tail })

/-- What `WaitAndPop` does with the mutex in hand: go into `wait`, or return, having stored a value
or not. -/
inductive WaitAndPop (α : Type) where
  | waits
  | returns (value : Option α) (after : ProducerConsumerQueue α)

/-- One evaluation of the loop condition of `WaitAndPop` and, if it is false, the rest of the
function, which is the text of `Pop` again. -/
def waitAndPop (q : ProducerConsumerQueue α) : WaitAndPop α :=
  if q.queue.isEmpty && !q.shutdown then .waits
  else .returns q.pop.1 q.pop.2

/-- The loop of `Cancel`: the values it passes to `DeleteQueuedObject`, in that order, and what it
leaves in the queue. -/
def deleteQueuedObjects : List α → List α × List α
  | [] => ([], [])
  | value :: rest =>
    let (deleted, left) := deleteQueuedObjects rest
    (value :: deleted, left)

/-- `Cancel`, up to its `notify_all`. -/
def cancel (q : ProducerConsumerQueue α) : List α × ProducerConsumerQueue α :=
  ((deleteQueuedObjects q.queue).1, ⟨(deleteQueuedObjects q.queue).2, true⟩)

theorem deleteQueuedObjects_eq (l : List α) : deleteQueuedObjects l = (l, []) := by
  induction l with
  | nil => rfl
  | cons value rest ih => simp only [deleteQueuedObjects, ih]

@[simp] theorem cancel_eq (q : ProducerConsumerQueue α) : q.cancel = (q.queue, ⟨[], true⟩) := by
  rw [cancel, deleteQueuedObjects_eq]

/-- `Pop` takes the front of an open queue, and otherwise does nothing. -/
theorem pop_cases (q : ProducerConsumerQueue α) :
    (q.pop = (none, q) ∧ (q.queue = [] ∨ q.shutdown = true)) ∨
    ∃ value rest, q = ⟨value :: rest, false⟩ ∧ q.pop = (some value, ⟨rest, false⟩) := by
  obtain ⟨queue, shutdown⟩ := q
  cases queue with
  | nil => exact Or.inl ⟨by simp [pop], Or.inl rfl⟩
  | cons value rest =>
    cases shutdown with
    | true => exact Or.inl ⟨by simp [pop], Or.inr rfl⟩
    | false => exact Or.inr ⟨value, rest, rfl, by simp [pop]⟩

end ProducerConsumerQueue

/-! ## The object and the threads using it -/

/-- The object, the consumers inside `WaitAndPop`, and what has happened so far: the values pushed,
those returned by `Pop` or `WaitAndPop`, and those `Cancel` destroyed, each in order. -/
structure QueueMonitor (ι α : Type) where
  q : ProducerConsumerQueue α
  condition : ConditionVariable ι
  pushed : List α
  returned : List α
  destroyed : List α

/-- One critical section. The scheduler chooses whom `Push` notifies; `wake i` is consumer `i`
getting the mutex back inside `wait`, notified or not. -/
inductive QueueStep (ι α : Type) where
  | push (value : α) (chosen : Option ι)
  | empty
  | pop
  | waitAndPop (i : ι)
  | wake (i : ι)
  | cancel

namespace QueueMonitor

variable {ι α : Type}

def new : QueueMonitor ι α where
  q := .new
  condition := .idle
  pushed := []
  returned := []
  destroyed := []

variable [DecidableEq ι]

/-- `Push(value)`. -/
def push (s : QueueMonitor ι α) (value : α) (chosen : Option ι) : Option (QueueMonitor ι α) :=
  match s.condition.notifyOne chosen with
  | none => none
  | some condition => some
      { s with q := s.q.push value, condition := condition, pushed := s.pushed ++ [value] }

/-- Consumer `i` has the mutex and runs the loop of `WaitAndPop`: `none` if it went into `wait`,
and otherwise what the function returned with. -/
def attempt (s : QueueMonitor ι α) (i : ι) : Option (Option α) × QueueMonitor ι α :=
  match s.q.waitAndPop with
  | .waits => (none, { s with condition := s.condition.wait i })
  | .returns value after =>
    (some value, { s with q := after, returned := s.returned ++ value.toList })

/-- `Cancel()`. -/
def cancel (s : QueueMonitor ι α) : QueueMonitor ι α :=
  let (deleted, q) := s.q.cancel
  { s with q := q, condition := s.condition.notifyAll, destroyed := s.destroyed ++ deleted }

def step (s : QueueMonitor ι α) : QueueStep ι α → Option (QueueMonitor ι α)
  | .push value chosen => s.push value chosen
  | .empty => some s
  | .pop => some { s with q := s.q.pop.2, returned := s.returned ++ s.q.pop.1.toList }
  | .waitAndPop i => if s.condition.Blocked i then none else some (s.attempt i).2
  | .wake i =>
    if s.condition.Blocked i then
      some (attempt { s with condition := s.condition.resume i } i).2
    else none
  | .cancel => some s.cancel

variable (ι α) in
def machine : Machine (QueueMonitor ι α) (QueueStep ι α) where
  start := .new
  step := step

variable (ι α) in
/-- Every interleaving, from the constructor on. -/
def system : System (QueueMonitor ι α) := (machine ι α).system

variable {s t : QueueMonitor ι α} {i : ι}

/-! ## What one section does -/

theorem push_cases {value : α} {chosen : Option ι} (h : s.push value chosen = some t) :
    ∃ condition, s.condition.notifyOne chosen = some condition ∧
      t = { s with q := s.q.push value, condition := condition, pushed := s.pushed ++ [value] } := by
  simp only [push] at h
  split at h
  · cases h
  · rename_i condition hnotify
    exact ⟨condition, hnotify, (Option.some.inj h).symm⟩

/-- The three ends of `WaitAndPop`: it waits on an open empty queue, gives up on one that is shut
down, and otherwise takes the front. -/
theorem attempt_cases (s : QueueMonitor ι α) (i : ι) :
    (s.q = ⟨[], false⟩ ∧ s.attempt i = (none, { s with condition := s.condition.wait i })) ∨
    (s.q.shutdown = true ∧ s.attempt i = (some none, s)) ∨
    ∃ value rest, s.q = ⟨value :: rest, false⟩ ∧
      s.attempt i = (some (some value),
        { s with q := ⟨rest, false⟩, returned := s.returned ++ [value] }) := by
  obtain ⟨⟨queue, shutdown⟩, condition, pushed, returned, destroyed⟩ := s
  cases shutdown with
  | true =>
    refine Or.inr (Or.inl ⟨rfl, ?_⟩)
    simp [attempt, ProducerConsumerQueue.waitAndPop, ProducerConsumerQueue.pop]
  | false =>
    cases queue with
    | nil => exact Or.inl ⟨rfl, by simp [attempt, ProducerConsumerQueue.waitAndPop]⟩
    | cons value rest =>
      refine Or.inr (Or.inr ⟨value, rest, rfl, ?_⟩)
      simp [attempt, ProducerConsumerQueue.waitAndPop, ProducerConsumerQueue.pop]

/-- An attempt neither shuts the queue down nor destroys anything. -/
theorem attempt_flags (s : QueueMonitor ι α) (i : ι) :
    (s.attempt i).2.q.shutdown = s.q.shutdown ∧ (s.attempt i).2.destroyed = s.destroyed := by
  rcases s.attempt_cases i with ⟨-, h⟩ | ⟨-, h⟩ | ⟨value, rest, hq, h⟩
  · rw [h]
    exact ⟨rfl, rfl⟩
  · rw [h]
    exact ⟨rfl, rfl⟩
  · rw [h, hq]
    exact ⟨rfl, rfl⟩

/-- A step of `WaitAndPop`, first or later, is an attempt by a consumer that has left the condition
variable; an entering consumer was not in it. -/
theorem step_attempt {e : QueueStep ι α} (he : e = .waitAndPop i ∨ e = .wake i)
    (h : s.step e = some t) :
    ∃ condition, (condition = s.condition ∨ condition = s.condition.resume i) ∧
      t = (attempt { s with condition := condition } i).2 := by
  rcases he with rfl | rfl
  · simp only [step] at h
    split at h
    · cases h
    · exact ⟨s.condition, Or.inl rfl, (Option.some.inj h).symm⟩
  · simp only [step] at h
    split at h
    · exact ⟨_, Or.inr rfl, (Option.some.inj h).symm⟩
    · cases h

/-! ## A first-in first-out stream -/

/-- The object as a stream. A value is out once it was returned *or destroyed*. -/
def fifo (s : QueueMonitor ι α) : Fifo α := ⟨s.pushed, s.returned ++ s.destroyed, s.q.queue⟩

/-- Nothing is destroyed as long as the queue is open. This is what keeps `returned ++ destroyed` in
order: once there is something in the second list, nothing is added to the first. -/
def Open (s : QueueMonitor ι α) : Prop := s.q.shutdown = false → s.destroyed = []

omit [DecidableEq ι] in
/-- Taking the front of an open queue. -/
theorem fifo_take {value : α} {rest : List α} (hopen : s.Open) (hq : s.q = ⟨value :: rest, false⟩) :
    Fifo.Step s.fifo
      (fifo { s with q := ⟨rest, false⟩, returned := s.returned ++ [value] }) := by
  have hnone : s.destroyed = [] := hopen (by rw [hq])
  have htake := Fifo.Step.take s.fifo 1
  simpa [fifo, hq, hnone] using htake

theorem attempt_fifo (hopen : s.Open) (i : ι) :
    Relation.ReflTransGen Fifo.Step s.fifo (s.attempt i).2.fifo ∧ (s.attempt i).2.Open := by
  rcases s.attempt_cases i with ⟨-, h⟩ | ⟨-, h⟩ | ⟨value, rest, hq, h⟩
  · rw [h]
    exact ⟨.refl, hopen⟩
  · rw [h]
    exact ⟨.refl, hopen⟩
  · rw [h]
    exact ⟨.single (fifo_take hopen hq), fun _ => hopen (by rw [hq])⟩

theorem step_fifo {e : QueueStep ι α} (hopen : s.Open) (h : s.step e = some t) :
    Relation.ReflTransGen Fifo.Step s.fifo t.fifo ∧ t.Open := by
  cases e with
  | push value chosen =>
    obtain ⟨condition, -, rfl⟩ := push_cases h
    refine ⟨.single ?_, hopen⟩
    exact Fifo.Step.put s.fifo [value]
  | empty =>
    cases h
    exact ⟨.refl, hopen⟩
  | pop =>
    cases h
    rcases s.q.pop_cases with ⟨hpop, -⟩ | ⟨value, rest, hq, hpop⟩
    · simp only [hpop, Option.toList_none, List.append_nil]
      exact ⟨.refl, hopen⟩
    · simp only [hpop, Option.toList_some]
      exact ⟨.single (fifo_take hopen hq), fun _ => hopen (by rw [hq])⟩
  | waitAndPop i =>
    obtain ⟨condition, -, rfl⟩ := step_attempt (Or.inl rfl) h
    exact attempt_fifo (s := { s with condition := condition }) hopen i
  | wake i =>
    obtain ⟨condition, -, rfl⟩ := step_attempt (Or.inr rfl) h
    exact attempt_fifo (s := { s with condition := condition }) hopen i
  | cancel =>
    cases h
    refine ⟨.single ?_, ?_⟩
    · have htake := Fifo.Step.take s.fifo s.q.queue.length
      simpa [fifo, cancel] using htake
    · intro hfalse
      simp [cancel] at hfalse

theorem simulates_fifo :
    Simulation (system ι α) (Fifo.system α) (fun s f => f = s.fifo ∧ s.Open) where
  init s h₀ := by
    obtain rfl : s = QueueMonitor.new := h₀
    exact ⟨⟨[], [], []⟩, rfl, rfl, fun _ => rfl⟩
  step s t f hf hst := by
    obtain ⟨rfl, hopen⟩ := hf
    obtain ⟨e, he⟩ := hst
    obtain ⟨hsteps, hopen'⟩ := step_fifo hopen he
    exact ⟨t.fifo, hsteps, rfl, hopen'⟩

theorem reachable_conserved (h : (system ι α).Reachable s) :
    s.pushed = s.returned ++ s.destroyed ++ s.q.queue := by
  obtain ⟨f, hf, rfl, -⟩ := simulates_fifo.reachable h
  exact (Fifo.conserved hf).symm

/-- **The queue is lossless.** What was pushed is what was returned, then what `Cancel` destroyed,
then what is still queued; so what was returned is an initial segment of what was pushed, and every
value is accounted for as often as it was pushed. -/
theorem pushed_eq (s : QueueMonitor ι α) (h : (system ι α).Reachable s) :
    s.pushed = s.returned ++ s.destroyed ++ s.q.queue ∧ s.returned <+: s.pushed ∧
      ∀ p : α → Bool, s.pushed.countP p =
        s.returned.countP p + s.destroyed.countP p + s.q.queue.countP p := by
  have heq : s.pushed = s.returned ++ s.destroyed ++ s.q.queue := reachable_conserved h
  refine ⟨heq, ?_, ?_⟩
  · rw [heq, List.append_assoc]
    exact List.prefix_append _ _
  · intro p
    rw [heq, List.countP_append, List.countP_append]

/-- A consumer waits, is handed the first of two values, and the second is destroyed; what is pushed
afterwards stays in the queue. -/
theorem pushed_eq_cancelled :
    ∃ s, (system Bool Nat).Reachable s ∧ s.returned = [1] ∧ s.destroyed = [2] ∧ s.q.queue = [3] ∧
      s.pushed = [1, 2, 3] ∧ s.pushed = s.returned ++ s.destroyed ++ s.q.queue := by
  have hrun : ∃ s, (machine Bool Nat).run .new [.waitAndPop true, .push 1 (some true),
      .push 2 none, .wake true, .cancel, .push 3 none] = some s ∧ s.returned = [1] ∧
      s.destroyed = [2] ∧ s.q.queue = [3] ∧ s.pushed = [1, 2, 3] := ⟨_, rfl, rfl, rfl, rfl, rfl⟩
  obtain ⟨s, hrun, hreturned, hdestroyed, hqueue, hpushed⟩ := hrun
  have hreach : (system Bool Nat).Reachable s := Machine.run_reachable hrun
  exact ⟨s, hreach, hreturned, hdestroyed, hqueue, hpushed, (pushed_eq s hreach).1⟩

/-! ## No lost wake-up -/

/-- An open queue has as many notified consumers as elements, unless nobody waits; a queue that was
shut down has no waiter. -/
structure WakesUp (s : QueueMonitor ι α) : Prop where
  covered : s.q.shutdown = false → s.condition.Covers s.q.queue.length
  released : s.q.shutdown = true → s.condition.waiting = ∅

omit [DecidableEq ι] in
theorem WakesUp.new : (QueueMonitor.new : QueueMonitor ι α).WakesUp where
  covered _ := ConditionVariable.covers_zero _
  released _ := rfl

theorem WakesUp.push {value : α} {chosen : Option ι} (hw : s.WakesUp)
    (h : s.push value chosen = some t) : t.WakesUp := by
  obtain ⟨condition, hnotify, rfl⟩ := push_cases h
  constructor
  · intro hopen
    have hcover := (hw.covered hopen).notifyOne hnotify
    simpa [ProducerConsumerQueue.push] using hcover
  · intro hshut
    have hnone : s.condition.waiting = ∅ := hw.released hshut
    exact Finset.subset_empty.mp (hnone ▸ ConditionVariable.waiting_notifyOne_subset hnotify)

omit [DecidableEq ι] in
/-- An element less needs no more than before. -/
theorem WakesUp.take {value : α} {rest returned : List α} (hw : s.WakesUp)
    (hq : s.q = ⟨value :: rest, false⟩) :
    WakesUp { s with q := ⟨rest, false⟩, returned := returned } := by
  constructor
  · intro _
    have hcover := hw.covered (by rw [hq])
    rw [hq] at hcover
    exact hcover.mono (Nat.le_succ _)
  · intro hshut
    cases hshut

/-- An attempt, on either side of the condition variable. The consumer that resumes takes one
element with it, which is what its own notification was counted for. -/
theorem WakesUp.attempt (hw : s.WakesUp) {condition : ConditionVariable ι}
    (hc : condition = s.condition ∨ condition = s.condition.resume i) :
    (attempt { s with condition := condition } i).2.WakesUp := by
  rcases attempt_cases { s with condition := condition } i with ⟨hq, h⟩ | ⟨hshut, h⟩ |
      ⟨value, rest, hq, h⟩
  · rw [h]
    constructor
    · intro _
      show (condition.wait i).Covers s.q.queue.length
      rw [show s.q = ⟨[], false⟩ from hq]
      exact ConditionVariable.covers_zero _
    · intro hshut
      rw [show s.q = ⟨[], false⟩ from hq] at hshut
      cases hshut
  · rw [h]
    constructor
    · intro hopen
      rw [show s.q.shutdown = true from hshut] at hopen
      cases hopen
    · intro _
      have hnone : s.condition.waiting = ∅ := hw.released hshut
      rcases hc with rfl | rfl
      · exact hnone
      · exact Finset.subset_empty.mp (hnone ▸ s.condition.waiting_resume_subset i)
  · rw [h]
    have hq' : s.q = ⟨value :: rest, false⟩ := hq
    rcases hc with rfl | rfl
    · exact hw.take hq'
    · -- One notified consumer less, and one element less.
      constructor
      · intro _
        have hcover := hw.covered (by rw [hq'])
        rw [hq'] at hcover
        exact hcover.resume i
      · intro hshut
        cases hshut

theorem WakesUp.step {e : QueueStep ι α} (hw : s.WakesUp) (h : s.step e = some t) :
    t.WakesUp := by
  cases e with
  | push value chosen => exact hw.push h
  | empty =>
    cases h
    exact hw
  | pop =>
    cases h
    rcases s.q.pop_cases with ⟨hpop, -⟩ | ⟨value, rest, hq, hpop⟩
    · simp only [hpop]
      exact ⟨hw.covered, hw.released⟩
    · simp only [hpop]
      exact hw.take hq
  | waitAndPop i =>
    obtain ⟨condition, hc, rfl⟩ := step_attempt (Or.inl rfl) h
    exact hw.attempt hc
  | wake i =>
    obtain ⟨condition, hc, rfl⟩ := step_attempt (Or.inr rfl) h
    exact hw.attempt hc
  | cancel =>
    cases h
    exact ⟨fun hopen => by simp [QueueMonitor.cancel] at hopen, fun _ => rfl⟩

theorem reachable_wakesUp (h : (system ι α).Reachable s) : s.WakesUp :=
  Machine.invariant (M := machine ι α) WakesUp.new (fun _ _ _ hw hst => hw.step hst) h

/-- A queue that is shut down stays so. -/
theorem step_shutdown {e : QueueStep ι α} (hshut : s.q.shutdown = true) (h : s.step e = some t) :
    t.q.shutdown = true := by
  cases e with
  | push value chosen =>
    obtain ⟨condition, -, rfl⟩ := push_cases h
    exact hshut
  | empty =>
    cases h
    exact hshut
  | pop =>
    cases h
    simp [ProducerConsumerQueue.pop, hshut]
  | waitAndPop i =>
    obtain ⟨condition, -, rfl⟩ := step_attempt (Or.inl rfl) h
    rw [(attempt_flags _ i).1]
    exact hshut
  | wake i =>
    obtain ⟨condition, -, rfl⟩ := step_attempt (Or.inr rfl) h
    rw [(attempt_flags _ i).1]
    exact hshut
  | cancel =>
    cases h
    simp [cancel]

theorem shutdown_after_cancel (hrun : Relation.ReflTransGen (system ι α).step s.cancel t) :
    t.q.shutdown = true := by
  induction hrun with
  | refl => simp [cancel]
  | tail _ hlast ih =>
    obtain ⟨e, he⟩ := hlast
    exact step_shutdown ih he

/-- **No wake-up is lost.** While the queue is open and holds something, a consumer that waits
un-notified has at least as many notified ones ahead of it as there are elements; and from a
`Cancel` on nobody waits un-notified, whatever happens next. -/
theorem no_lost_wakeup (s : QueueMonitor ι α) (h : (system ι α).Reachable s) :
    ¬ (s.q.queue ≠ [] ∧ s.q.shutdown = false ∧ s.condition.waiting ≠ ∅ ∧
        s.condition.notified.card < s.q.queue.length) ∧
      ∀ t, Relation.ReflTransGen (system ι α).step s.cancel t → t.condition.waiting = ∅ := by
  constructor
  · intro hlost
    obtain ⟨-, hopen, hwaits, hfew⟩ := hlost
    rcases (reachable_wakesUp h).covered hopen with hnone | hle
    · exact hwaits hnone
    · exact absurd hfew (Nat.not_lt.mpr hle)
  · -- What is reached from a `Cancel` is reached from the start, with the flag up.
    intro t hrun
    have hcancel : (system ι α).Reachable s.cancel := h.next ⟨.cancel, rfl⟩
    obtain ⟨s₀, h₀, hpre⟩ := hcancel
    exact (reachable_wakesUp ⟨s₀, h₀, hpre.trans hrun⟩).released (shutdown_after_cancel hrun)

/-- Two consumers wait and one value arrives: one of them is notified and the other rightly waits
on. After a `Cancel` it does not. -/
theorem no_lost_wakeup_two :
    ∃ s, (system Bool Nat).Reachable s ∧ s.q.queue = [1] ∧ s.condition.waiting = {false} ∧
      s.condition.notified = {true} ∧
      ¬ (s.q.queue ≠ [] ∧ s.q.shutdown = false ∧ s.condition.waiting ≠ ∅ ∧
        s.condition.notified.card < s.q.queue.length) ∧ s.cancel.condition.waiting = ∅ := by
  have hrun : ∃ s, (machine Bool Nat).run .new [.waitAndPop true, .waitAndPop false,
      .push 1 (some true)] = some s ∧ s.q.queue = [1] ∧ s.condition.waiting = {false} ∧
      s.condition.notified = {true} := ⟨_, rfl, rfl, by decide, by decide⟩
  obtain ⟨s, hrun, hqueue, hwaiting, hnotified⟩ := hrun
  have hreach : (system Bool Nat).Reachable s := Machine.run_reachable hrun
  have h := no_lost_wakeup s hreach
  exact ⟨s, hreach, hqueue, hwaiting, hnotified, h.1, h.2 _ .refl⟩

/-! ## After shutdown

`Cancel` empties the queue and from then on no consumer is handed anything, so a value that comes
later can only stay. The consumers look at the flag; `Push` does not. -/

/-- In every state from a `Cancel` on the queue is empty: all that was pushed has been returned or
destroyed. -/
def NothingStranded (steps : List (QueueStep ι α)) : Prop :=
  ∀ before after s, steps = before ++ after → QueueStep.cancel ∈ before →
    (machine ι α).run .new before = some s →
    s.q.queue = [] ∧ s.pushed = s.returned ++ s.destroyed

/-- No `Push` comes after a `Cancel`. -/
def NoLatePush (steps : List (QueueStep ι α)) : Prop :=
  ∀ before value chosen after, steps = before ++ QueueStep.push value chosen :: after →
    QueueStep.cancel ∉ before

/-- A queue that was shut down empty stays so under everything but a `Push`. -/
theorem step_closed {e : QueueStep ι α} (hq : s.q = ⟨[], true⟩)
    (he : ∀ value chosen, e ≠ .push value chosen) (h : s.step e = some t) : t.q = ⟨[], true⟩ := by
  cases e with
  | push value chosen => exact absurd rfl (he value chosen)
  | empty =>
    cases h
    exact hq
  | pop =>
    cases h
    simp [ProducerConsumerQueue.pop, hq]
  | waitAndPop i =>
    obtain ⟨condition, -, rfl⟩ := step_attempt (Or.inl rfl) h
    simp [attempt, ProducerConsumerQueue.waitAndPop, ProducerConsumerQueue.pop, hq]
  | wake i =>
    obtain ⟨condition, -, rfl⟩ := step_attempt (Or.inr rfl) h
    simp [attempt, ProducerConsumerQueue.waitAndPop, ProducerConsumerQueue.pop, hq]
  | cancel =>
    cases h
    simp [cancel]

/-- Induction from the end of the run: the last step is the `Cancel`, or there was one before it and
the step is no `Push`. -/
theorem NoLatePush.closed {steps : List (QueueStep ι α)} (hlate : NoLatePush steps)
    (hcancel : QueueStep.cancel ∈ steps) (hrun : (machine ι α).run .new steps = some s) :
    s.q = ⟨[], true⟩ := by
  induction steps using List.reverseRecOn generalizing s with
  | nil => cases hcancel
  | append_singleton steps e ih =>
    obtain ⟨t, hpre, hlast⟩ := Machine.run_append.mp hrun
    obtain ⟨u, hstep, hend⟩ := Machine.run_cons.mp hlast
    cases hend
    by_cases he : e = .cancel
    · subst he
      cases hstep
      simp [cancel]
    · have hbefore : QueueStep.cancel ∈ steps := by
        rcases List.mem_append.mp hcancel with hmem | hmem
        · exact hmem
        · exact absurd (List.mem_singleton.mp hmem).symm he
      have hpush : ∀ value chosen, e ≠ .push value chosen := by
        rintro value chosen rfl
        exact hlate steps value chosen [] rfl hbefore
      have hpre_late : NoLatePush steps := by
        intro before value chosen after hsplit
        exact hlate before value chosen (after ++ [e]) (by rw [hsplit]; simp)
      exact step_closed (ih hpre_late hbefore hpre) hpush hstep

/-- **When nothing is stranded.** A run leaves nothing behind exactly when it pushes nothing after a
`Cancel`. -/
theorem nothingStranded_iff (steps : List (QueueStep ι α)) (s : QueueMonitor ι α)
    (hrun : (machine ι α).run .new steps = some s) :
    NothingStranded steps ↔ NoLatePush steps := by
  constructor
  · intro h before value chosen after hsplit hcancel
    have hsplit' : steps = (before ++ [.push value chosen]) ++ after := by
      rw [hsplit]
      simp
    rw [hsplit'] at hrun
    obtain ⟨t, hpre, -⟩ := Machine.run_append.mp hrun
    have hempty := (h _ _ t hsplit' (List.mem_append_left _ hcancel) hpre).1
    -- The value just pushed is the last one queued.
    obtain ⟨u, -, hlast⟩ := Machine.run_append.mp hpre
    obtain ⟨v, hstep, hend⟩ := Machine.run_cons.mp hlast
    cases hend
    obtain ⟨condition, -, rfl⟩ := push_cases hstep
    exact absurd hempty (by simp [ProducerConsumerQueue.push])
  · intro hlate before after t hsplit hcancel hpre
    have hpre_late : NoLatePush before := by
      intro front value chosen rest hfront
      exact hlate front value chosen (rest ++ after) (by rw [hsplit, hfront]; simp)
    have hclosed := hpre_late.closed hcancel hpre
    have hempty : t.q.queue = [] := by rw [hclosed]
    refine ⟨hempty, ?_⟩
    rw [reachable_conserved (Machine.run_reachable hpre), hempty, List.append_nil]

/-- A value is pushed and destroyed, and a consumer comes too late for it. -/
theorem nothingStranded_cancel :
    NothingStranded ([.push 1 none, .cancel, .waitAndPop true] : List (QueueStep Bool Nat)) := by
  have hrun : ∃ s, (machine Bool Nat).run .new [.push 1 none, .cancel, .waitAndPop true] = some s :=
    ⟨_, rfl⟩
  obtain ⟨s, hrun⟩ := hrun
  refine (nothingStranded_iff _ s hrun).mpr ?_
  intro before value chosen after hsplit hcancel
  -- The only `Push` is the first step.
  cases before with
  | nil => cases hcancel
  | cons e before =>
    obtain ⟨-, hrest⟩ := List.cons.inj hsplit
    have hmem : QueueStep.push value chosen ∈
        ([.cancel, .waitAndPop true] : List (QueueStep Bool Nat)) := by
      rw [hrest]
      simp
    simp at hmem

/-- A producer that is still running when the queue is cancelled. -/
theorem not_nothingStranded_push :
    ¬ NothingStranded ([.cancel, .push 1 none] : List (QueueStep Bool Nat)) := by
  intro h
  obtain ⟨hempty, -⟩ := h [.cancel, .push 1 none] [] _ (by simp) (by simp) rfl
  exact absurd hempty (by decide)

end QueueMonitor

end ServerTest.Core
