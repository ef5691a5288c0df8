import Mathlib.Data.Finset.Card
import Mathlib.Tactic.Tauto

/-!
# Condition variables

A condition variable as the threads inside `wait` see it: those still waiting, and those that have
been notified and only need the mutex back. `notify_one` moves one waiter from the first set to the
second, any one; `notify_all` moves all of them. Leaving `wait` is always allowed, notified or not,
because the standard allows spurious wake-ups.

The two sets are disjoint by construction: a notification is addressed to a thread that was waiting,
and stops it from being addressed again.

`Covers c n` is what a program that hands `n` items to its waiters has to keep: nobody waits, or
there are at least `n` notified threads on their way. That is the statement "no wake-up is lost"
turned into something inductive, and the lemmas below say how each operation moves it. They are the
whole argument; a program only has to show that its operations pair up with them.
-/

set_option autoImplicit false

namespace ServerTest.Lib

structure ConditionVariable (ι : Type*) where
  waiting : Finset ι
  notified : Finset ι
  apart : Disjoint waiting notified

namespace ConditionVariable

variable {ι : Type*}

/-- Nobody inside `wait`. -/
def idle : ConditionVariable ι := ⟨∅, ∅, Finset.disjoint_empty_left ∅⟩

@[simp] theorem waiting_idle : (idle : ConditionVariable ι).waiting = ∅ := rfl

/-- Nobody waits, or at least `n` notified threads are on their way. -/
def Covers (c : ConditionVariable ι) (n : Nat) : Prop := c.waiting = ∅ ∨ n ≤ c.notified.card

theorem covers_zero (c : ConditionVariable ι) : c.Covers 0 := Or.inr (Nat.zero_le _)

theorem Covers.mono {c : ConditionVariable ι} {m n : Nat} (h : c.Covers n) (hmn : m ≤ n) :
    c.Covers m :=
  h.imp_right hmn.trans

variable [DecidableEq ι]

/-- `i` is inside `wait`. -/
def Blocked (c : ConditionVariable ι) (i : ι) : Prop := i ∈ c.waiting ∨ i ∈ c.notified

instance (c : ConditionVariable ι) (i : ι) : Decidable (c.Blocked i) :=
  inferInstanceAs (Decidable (_ ∨ _))

/-- Thread `i` enters `wait`. -/
def wait (c : ConditionVariable ι) (i : ι) : ConditionVariable ι where
  waiting := insert i c.waiting
  notified := c.notified.erase i
  apart := by
    rw [Finset.disjoint_insert_left]
    exact ⟨Finset.notMem_erase i _, c.apart.mono_right (Finset.erase_subset i _)⟩

/-- Thread `i` leaves `wait`: it has the mutex again and is no longer known here. -/
def resume (c : ConditionVariable ι) (i : ι) : ConditionVariable ι where
  waiting := c.waiting.erase i
  notified := c.notified.erase i
  apart := c.apart.mono (Finset.erase_subset i _) (Finset.erase_subset i _)

/-- `notify_one`. The scheduler chooses the waiter, and chooses nobody only if nobody waits. -/
def notifyOne (c : ConditionVariable ι) : Option ι → Option (ConditionVariable ι)
  | none => if c.waiting = ∅ then some c else none
  | some i => if i ∈ c.waiting then some
      { waiting := c.waiting.erase i
        notified := insert i c.notified
        apart := by
          rw [Finset.disjoint_insert_right]
          exact ⟨Finset.notMem_erase i _, c.apart.mono_left (Finset.erase_subset i _)⟩ }
    else none

def notifyAll (c : ConditionVariable ι) : ConditionVariable ι where
  waiting := ∅
  notified := c.waiting ∪ c.notified
  apart := Finset.disjoint_empty_left _

@[simp] theorem waiting_notifyAll (c : ConditionVariable ι) : c.notifyAll.waiting = ∅ := rfl

/-- Everything a `notify_one` can do. -/
theorem notifyOne_cases {c c' : ConditionVariable ι} {chosen : Option ι}
    (h : c.notifyOne chosen = some c') :
    (c.waiting = ∅ ∧ c' = c) ∨
    ∃ i ∈ c.waiting, c'.waiting = c.waiting.erase i ∧ c'.notified = insert i c.notified := by
  cases chosen with
  | none =>
    simp only [notifyOne] at h
    split at h
    · rename_i hnone
      exact Or.inl ⟨hnone, (Option.some.inj h).symm⟩
    · cases h
  | some i =>
    simp only [notifyOne] at h
    split at h
    · rename_i hi
      cases h
      exact Or.inr ⟨i, hi, rfl, rfl⟩
    · cases h

/-! ## Who is inside `wait` -/

theorem blocked_wait {c : ConditionVariable ι} {i j : ι} :
    (c.wait i).Blocked j ↔ j = i ∨ c.Blocked j := by
  simp only [Blocked, wait, Finset.mem_insert, Finset.mem_erase]
  tauto

theorem blocked_resume {c : ConditionVariable ι} {i j : ι} :
    (c.resume i).Blocked j ↔ j ≠ i ∧ c.Blocked j := by
  simp only [Blocked, resume, Finset.mem_erase]
  tauto

theorem blocked_notifyAll {c : ConditionVariable ι} {j : ι} :
    c.notifyAll.Blocked j ↔ c.Blocked j := by
  simp [Blocked, notifyAll]

theorem blocked_notifyOne {c c' : ConditionVariable ι} {chosen : Option ι}
    (h : c.notifyOne chosen = some c') {j : ι} : c'.Blocked j ↔ c.Blocked j := by
  rcases notifyOne_cases h with ⟨-, rfl⟩ | ⟨i, hi, hw, hn⟩
  · exact Iff.rfl
  · simp only [Blocked, hw, hn, Finset.mem_erase, Finset.mem_insert]
    by_cases hj : j = i
    · simp [hj, hi]
    · simp [hj]

theorem waiting_resume_subset (c : ConditionVariable ι) (i : ι) :
    (c.resume i).waiting ⊆ c.waiting :=
  Finset.erase_subset i c.waiting

theorem waiting_notifyOne_subset {c c' : ConditionVariable ι} {chosen : Option ι}
    (h : c.notifyOne chosen = some c') : c'.waiting ⊆ c.waiting := by
  rcases notifyOne_cases h with ⟨-, rfl⟩ | ⟨i, -, hw, -⟩
  · exact Finset.Subset.refl _
  · rw [hw]
    exact Finset.erase_subset i _

/-! ## How the operations move `Covers` -/

/-- One more item, one notification. -/
theorem Covers.notifyOne {c c' : ConditionVariable ι} {chosen : Option ι} {n : Nat}
    (h : c.Covers n) (hc : c.notifyOne chosen = some c') : c'.Covers (n + 1) := by
  rcases notifyOne_cases hc with ⟨hnone, rfl⟩ | ⟨i, hi, -, hn⟩
  · exact Or.inl hnone
  · -- The waiter was not notified before, so the second set really grows.
    have hnew : i ∉ c.notified := Finset.disjoint_left.mp c.apart hi
    rcases h with hnone | hle
    · rw [hnone] at hi
      exact absurd hi (Finset.notMem_empty i)
    · refine Or.inr ?_
      rw [hn, Finset.card_insert_of_notMem hnew]
      exact Nat.succ_le_succ hle

/-- One item less, whether or not the thread that took it had been notified. -/
theorem Covers.resume {c : ConditionVariable ι} {n : Nat} (h : c.Covers (n + 1)) (i : ι) :
    (c.resume i).Covers n := by
  rcases h with hnone | hle
  · refine Or.inl (Finset.subset_empty.mp ?_)
    exact hnone ▸ c.waiting_resume_subset i
  · refine Or.inr ?_
    have hcard : c.notified.card - 1 ≤ (c.notified.erase i).card := Finset.pred_card_le_card_erase
    show n ≤ (c.notified.erase i).card
    omega

end ConditionVariable

end ServerTest.Lib
