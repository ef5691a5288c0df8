import Mathlib.Data.Option.Basic
import Mathlib.Logic.Function.Basic
import ServerTest.Lib.Transition
import ServerTest.Network.MessageBuffer

/-!
# A `MessageBuffer` is a byte queue

What the class is for: bytes go in at one end, come out at the other, and how the vector is laid out
in between is nobody's business. This module runs any number of buffers through any sequence of the
operations of the class, next to as many byte queues, and shows that they never part.

The queues do what the operation *means* (`ByteQueueOp`): most operations mean nothing at all.
`WriteCompleted(n)` means that the `n` bytes at the write pointer were written; who put them there,
and in how many pieces, the class does not know, and `fill` is the caller doing it.

**Memory.** `_storage.resize` and the copies ask for memory, and whether they get it is decided
outside this program: `grants n` says that a vector may hold `n` bytes. An operation that is refused
throws, and a run ends there. `EnsureFreeSpace` multiplies the size by three in 64 bits, so what it
relies on is that no vector fills the address space; `hgrants` states the bound the hardware has,
57 bits, which is far more than enough.
-/

set_option autoImplicit false

namespace ServerTest.Network

open Lib

/-! ## The queues -/

/-- What can happen to one byte queue. -/
inductive ByteQueueOp where
  | put (bytes : Bytes)
  | take (n : Nat)
  | keep
  | clear

def ByteQueueOp.apply : ByteQueueOp → Bytes → Bytes
  | .put bytes, queue => queue ++ bytes
  | .take n, queue => queue.drop n
  | .keep, queue => queue
  | .clear, _ => []

/-! ## The operations -/

/-- The members that work on one buffer, and a caller storing bytes through the write pointer. -/
inductive MemberOp where
  | write (data : Bytes)
  | fill (data : Bytes)
  | writeCompleted (bytes : Nat)
  | readCompleted (bytes : Nat)
  | normalize
  | ensureFreeSpace
  | reset
  | resize (bytes : Nat)

namespace MemberOp

/-- The buffer afterwards. `none` when the caller may not make the call (it would write past the
storage, read past the written bytes, or cut into them) or when memory is refused. -/
def exec (grants : Nat → Bool) (b : MessageBuffer) : MemberOp → Option (Except Fault MessageBuffer)
  | .write data => if data.length ≤ b.getRemainingSpace then some (b.write data) else none
  | .fill data => if data.length ≤ b.getRemainingSpace then some (b.fill data) else none
  | .writeCompleted n =>
    if n ≤ b.getRemainingSpace then some (.ok (b.writeCompleted n)) else none
  | .readCompleted n => if n ≤ b.getActiveSize then some (.ok (b.readCompleted n)) else none
  | .normalize => some b.normalize
  | .ensureFreeSpace =>
    if b.getRemainingSpace = 0 ∧ grants b.grownSize = false then none
    else some (.ok b.ensureFreeSpace)
  | .reset => some (.ok b.reset)
  | .resize n => if b.wpos ≤ n ∧ grants n = true then some (.ok (b.resize n)) else none

/-- What the call means for the queue. -/
def meaning (b : MessageBuffer) : MemberOp → ByteQueueOp
  | .write data => .put data
  | .fill _ => .keep
  | .writeCompleted n => .put (b.written n)
  | .readCompleted n => .take n
  | .normalize => .keep
  | .ensureFreeSpace => .keep
  | .reset => .clear
  | .resize _ => .keep

end MemberOp

/-- Objects are named; `on` is a member call, the others make or assign whole objects. -/
inductive BufferOp (κ : Type) where
  | construct (k : κ)
  | constructSized (k : κ) (initialSize : Nat)
  | copyConstruct (k source : κ)
  | moveConstruct (k source : κ)
  | copyAssign (k source : κ)
  | moveAssign (k source : κ) (swaps : Bool)
  | on (k : κ) (op : MemberOp)

/-- The objects that exist, and the queues they are to be. -/
structure BufferState (κ : Type) where
  buffers : κ → Option MessageBuffer
  queues : κ → Option Bytes

namespace BufferState

variable {κ : Type} [DecidableEq κ]

def set (s : BufferState κ) (k : κ) (b : MessageBuffer) (queue : Option Bytes) : BufferState κ where
  buffers := Function.update s.buffers k (some b)
  queues := Function.update s.queues k queue

/-- One operation. Making needs an unused name, everything else existing objects. The buffers decide
alone whether it happens; the queues follow: a copy gives the target the source's bytes, a move does
and leaves the source without any, a member call does what it means. -/
def step (grants : Nat → Bool) (s : BufferState κ) :
    BufferOp κ → Option (Except Fault (BufferState κ))
  | .construct k =>
    match s.buffers k with
    | none => if grants 4096 then some (.ok (s.set k .new (some []))) else none
    | some _ => none
  | .constructSized k n =>
    match s.buffers k with
    | none => if grants n then some (.ok (s.set k (.ofSize n) (some []))) else none
    | some _ => none
  | .copyConstruct k source =>
    match s.buffers k, s.buffers source with
    | none, some right =>
      if grants right.storage.length then some (.ok (s.set k right (s.queues source))) else none
    | _, _ => none
  | .moveConstruct k source =>
    match s.buffers k, s.buffers source with
    | none, some right =>
      let (made, left) := right.moveConstruct
      some (.ok ((s.set k made (s.queues source)).set source left (some [])))
    | _, _ => none
  | .copyAssign k source =>
    match s.buffers k, s.buffers source with
    | some _, some right =>
      if k = source then some (.ok s)
      else if grants right.storage.length then some (.ok (s.set k right (s.queues source))) else none
    | _, _ => none
  | .moveAssign k source swaps =>
    match s.buffers k, s.buffers source with
    | some target, some right =>
      if k = source then some (.ok s)
      else
        let (assigned, left) := target.moveAssign right swaps
        some (.ok ((s.set k assigned (s.queues source)).set source left (some [])))
    | _, _ => none
  | .on k op =>
    match s.buffers k with
    | some b =>
      match op.exec grants b with
      | some result => some do
          let b' ← result
          return s.set k b' ((s.queues k).map (op.meaning b).apply)
      | none => none
    | none => none

variable (κ) in
/-- Runs from no objects at all. A run that faulted goes no further. -/
def machine (grants : Nat → Bool) : Machine (Except Fault (BufferState κ)) (BufferOp κ) where
  start := .ok ⟨fun _ => none, fun _ => none⟩
  step r op :=
    match r with
    | .ok s => s.step grants op
    | .error _ => none

variable (κ) in
def system (grants : Nat → Bool) : System (Except Fault (BufferState κ)) := (machine κ grants).system

end BufferState

/-! ## The refinement -/

/-- The most a vector can hold: virtual addresses have 57 bits. -/
def addressSpace : Nat := 2 ^ 57

/-- A buffer and the queue it is. -/
structure Holds (b : MessageBuffer) (queue : Bytes) : Prop where
  wellFormed : b.WellFormed
  bounded : b.storage.length ≤ addressSpace
  active : b.active = queue

theorem lt_of_le_addressSpace {n : Nat} (h : n ≤ addressSpace) : n * 3 < 2 ^ 64 ∧ n < 2 ^ 64 := by
  simp only [addressSpace] at h
  omega

theorem holds_of_zero {storage : Bytes} (h : storage.length ≤ addressSpace) :
    Holds ⟨0, 0, storage⟩ [] :=
  have hlt := (lt_of_le_addressSpace h).2
  ⟨MessageBuffer.wellFormed_of_zero hlt, h, MessageBuffer.active_of_zero hlt⟩

theorem holds_ofSize {n : Nat} (hn : n ≤ addressSpace) : Holds (.ofSize n) [] := by
  apply holds_of_zero
  rw [MessageBuffer.length_resizeStorage]
  exact hn

section Refinement

variable {grants : Nat → Bool} (hgrants : ∀ n, grants n = true → n ≤ addressSpace)

/-- A buffer that took what one of its members made of it. -/
theorem Holds.of_bounded {b b' : MessageBuffer} {queue queue' : Bytes} (hb : Holds b queue)
    (hwf : b'.WellFormed) (hlen : b'.storage.length = b.storage.length)
    (hactive : b'.active = queue') : Holds b' queue' :=
  ⟨hwf, Nat.le_trans (Nat.le_of_eq hlen) hb.bounded, hactive⟩

theorem Holds.resize {b : MessageBuffer} {queue : Bytes} {n : Nat} (hb : Holds b queue)
    (hwpos : b.wpos ≤ n) (hn : n ≤ addressSpace) : Holds (b.resize n) queue := by
  obtain ⟨hwf, hactive⟩ := hb.wellFormed.resize hwpos (lt_of_le_addressSpace hn).2
  refine ⟨hwf, ?_, hactive.trans hb.active⟩
  show (MessageBuffer.resizeStorage b.storage n).length ≤ addressSpace
  rw [MessageBuffer.length_resizeStorage]
  exact hn

/-- Whether or not it grows. -/
theorem Holds.ensureFreeSpace {b : MessageBuffer} {queue : Bytes} (hb : Holds b queue)
    (hgrown : b.getRemainingSpace = 0 → b.grownSize ≤ addressSpace) :
    Holds b.ensureFreeSpace queue := by
  obtain ⟨hwf, hactive, -, -⟩ :=
    hb.wellFormed.ensureFreeSpace (lt_of_le_addressSpace hb.bounded).1
  refine ⟨hwf, ?_, hactive.trans hb.active⟩
  unfold MessageBuffer.ensureFreeSpace
  split
  · rename_i hfull
    show (MessageBuffer.resizeStorage b.storage b.grownSize).length ≤ addressSpace
    rw [MessageBuffer.length_resizeStorage]
    exact hgrown hfull
  · exact hb.bounded

include hgrants

/-- Every member call that is made returns, and does to the bytes what it means. -/
theorem Holds.exec {b : MessageBuffer} {queue : Bytes} {op : MemberOp}
    {result : Except Fault MessageBuffer} (hb : Holds b queue)
    (h : op.exec grants b = some result) :
    ∃ b', result = .ok b' ∧ Holds b' ((op.meaning b).apply queue) := by
  have hwf := hb.wellFormed
  have hqueue := hb.active
  cases op with
  | write data =>
    obtain ⟨hd, hrun⟩ := Option.ite_none_right_eq_some.mp h
    cases hrun
    obtain ⟨b', hrun, hwf', hactive, hlen⟩ := hwf.write hd
    rw [hqueue] at hactive
    exact ⟨b', hrun, hb.of_bounded hwf' hlen hactive⟩
  | fill data =>
    obtain ⟨hd, hrun⟩ := Option.ite_none_right_eq_some.mp h
    cases hrun
    obtain ⟨b', hrun, hwf', hactive, hlen, -, -⟩ := hwf.fill hd
    exact ⟨b', hrun, hb.of_bounded hwf' hlen (hactive.trans hqueue)⟩
  | writeCompleted n =>
    obtain ⟨hn, hrun⟩ := Option.ite_none_right_eq_some.mp h
    cases hrun
    obtain ⟨hwf', hactive⟩ := hwf.writeCompleted hn
    rw [hqueue] at hactive
    exact ⟨_, rfl, hb.of_bounded hwf' rfl hactive⟩
  | readCompleted n =>
    obtain ⟨hn, hrun⟩ := Option.ite_none_right_eq_some.mp h
    cases hrun
    have hactive := hwf.active_readCompleted hn
    rw [hqueue] at hactive
    exact ⟨_, rfl, hb.of_bounded (hwf.readCompleted hn) rfl hactive⟩
  | normalize =>
    cases h
    obtain ⟨b', hrun, hwf', hactive, hlen⟩ := hwf.normalize
    exact ⟨b', hrun, hb.of_bounded hwf' hlen (hactive.trans hqueue)⟩
  | ensureFreeSpace =>
    obtain ⟨hgranted, hrun⟩ := Option.ite_none_left_eq_some.mp h
    cases hrun
    refine ⟨_, rfl, hb.ensureFreeSpace ?_⟩
    intro hfull
    refine hgrants _ ?_
    cases hg : grants b.grownSize with
    | true => rfl
    | false => exact absurd ⟨hfull, hg⟩ hgranted
  | reset =>
    cases h
    exact ⟨_, rfl, holds_of_zero hb.bounded⟩
  | resize n =>
    obtain ⟨hn, hrun⟩ := Option.ite_none_right_eq_some.mp h
    cases hrun
    exact ⟨_, rfl, hb.resize hn.1 (hgrants n hn.2)⟩

end Refinement

namespace BufferState

variable {κ : Type} [DecidableEq κ] {s : BufferState κ}

/-- Every object and its queue exist together, and the object is the queue. -/
def Tracks (s : BufferState κ) : Prop := ∀ k, Option.Rel Holds (s.buffers k) (s.queues k)

omit [DecidableEq κ] in
theorem Tracks.queue (hs : s.Tracks) {k : κ} {b : MessageBuffer} (hk : s.buffers k = some b) :
    ∃ queue, s.queues k = some queue ∧ Holds b queue := by
  have hrel := hs k
  rw [hk] at hrel
  cases hq : s.queues k with
  | none =>
    rw [hq] at hrel
    cases hrel
  | some queue =>
    rw [hq] at hrel
    cases hrel with
    | some h => exact ⟨queue, rfl, h⟩

theorem Tracks.set (hs : s.Tracks) (k : κ) {b : MessageBuffer} {queue : Bytes}
    (h : Holds b queue) : (s.set k b (some queue)).Tracks := by
  intro j
  by_cases hj : j = k
  · subst hj
    simpa only [BufferState.set, Function.update_self] using Option.Rel.some h
  · simpa only [BufferState.set, Function.update_of_ne hj] using hs j

/-- A copy: the target takes the source's bytes and its queue. -/
theorem Tracks.copy (hs : s.Tracks) (k : κ) {source : κ} {right : MessageBuffer}
    (hsource : s.buffers source = some right) : (s.set k right (s.queues source)).Tracks := by
  obtain ⟨queue, hqueue, hright⟩ := hs.queue hsource
  rw [hqueue]
  exact hs.set k hright

/-- A move: a copy that leaves the source with no bytes, in whatever storage. -/
theorem Tracks.move (hs : s.Tracks) (k : κ) {source : κ} {right : MessageBuffer} {left : Bytes}
    (hsource : s.buffers source = some right) (hleft : left.length ≤ addressSpace) :
    ((s.set k right (s.queues source)).set source ⟨0, 0, left⟩ (some [])).Tracks :=
  (hs.copy k hsource).set source (holds_of_zero hleft)

section

variable {grants : Nat → Bool} (hgrants : ∀ n, grants n = true → n ≤ addressSpace)

include hgrants

/-- No operation faults, and the buffers and the queues stay together. -/
theorem Tracks.step (hs : s.Tracks) {op : BufferOp κ} {r : Except Fault (BufferState κ)}
    (h : s.step grants op = some r) : ∃ t, r = .ok t ∧ t.Tracks := by
  cases op with
  | construct k =>
    simp only [BufferState.step] at h
    split at h
    · obtain ⟨hgrant, hdone⟩ := Option.ite_none_right_eq_some.mp h
      cases hdone
      exact ⟨_, rfl, hs.set k (holds_ofSize (hgrants _ hgrant))⟩
    · cases h
  | constructSized k n =>
    simp only [BufferState.step] at h
    split at h
    · obtain ⟨hgrant, hdone⟩ := Option.ite_none_right_eq_some.mp h
      cases hdone
      exact ⟨_, rfl, hs.set k (holds_ofSize (hgrants _ hgrant))⟩
    · cases h
  | copyConstruct k source =>
    simp only [BufferState.step] at h
    split at h
    · rename_i right _ hsource
      obtain ⟨-, hdone⟩ := Option.ite_none_right_eq_some.mp h
      cases hdone
      exact ⟨_, rfl, hs.copy k hsource⟩
    · cases h
  | moveConstruct k source =>
    simp only [BufferState.step] at h
    split at h
    · rename_i right _ hsource
      cases h
      exact ⟨_, rfl, hs.move k hsource (Nat.zero_le _)⟩
    · cases h
  | copyAssign k source =>
    simp only [BufferState.step] at h
    split at h
    · rename_i right _ hsource
      split at h
      · cases h
        exact ⟨s, rfl, hs⟩
      · obtain ⟨-, hdone⟩ := Option.ite_none_right_eq_some.mp h
        cases hdone
        exact ⟨_, rfl, hs.copy k hsource⟩
    · cases h
  | moveAssign k source swaps =>
    simp only [BufferState.step] at h
    split at h
    · rename_i target right htarget hsource
      obtain ⟨old, -, hold⟩ := hs.queue htarget
      split at h
      · cases h
        exact ⟨s, rfl, hs⟩
      · cases h
        refine ⟨_, rfl, hs.move k hsource ?_⟩
        -- What the library leaves in the source is nothing, or the target's old storage.
        cases swaps with
        | true => exact hold.bounded
        | false => exact Nat.zero_le _
    · cases h
  | on k member =>
    simp only [BufferState.step] at h
    split at h
    · rename_i b hk
      obtain ⟨queue, hqueue, hb⟩ := hs.queue hk
      split at h
      · rename_i result hexec
        obtain ⟨b', rfl, hb'⟩ := hb.exec hgrants hexec
        cases h
        rw [hqueue]
        exact ⟨_, rfl, hs.set k hb'⟩
      · cases h
    · cases h

/-- **The class is a byte queue.** In every run, from any constructor, every object has its cursors
in order and inside its storage, and the bytes between them are those of its queue; and no run
faults. -/
theorem buffers_are_queues (r : Except Fault (BufferState κ))
    (h : (system κ grants).Reachable r) :
    ∃ s, r = .ok s ∧ ∀ k,
      (s.buffers k = none ∧ s.queues k = none) ∨
      ∃ b queue, s.buffers k = some b ∧ s.queues k = some queue ∧ b.rpos ≤ b.wpos ∧
        b.wpos ≤ b.storage.length ∧ (b.storage.take b.wpos).drop b.rpos = queue := by
  have htracks : ∃ s : BufferState κ, r = .ok s ∧ s.Tracks := by
    refine Machine.invariant (M := machine κ grants)
      (P := fun r => ∃ s : BufferState κ, r = .ok s ∧ s.Tracks) ⟨_, rfl, fun _ => .none⟩ ?_ h
    intro r₁ op r₂ hr₁ hstep
    obtain ⟨s, rfl, hs⟩ := hr₁
    exact hs.step hgrants hstep
  obtain ⟨s, rfl, hs⟩ := htracks
  refine ⟨s, rfl, ?_⟩
  intro k
  cases hk : s.buffers k with
  | none =>
    have hrel := hs k
    rw [hk] at hrel
    cases hq : s.queues k with
    | none => exact Or.inl ⟨rfl, rfl⟩
    | some queue =>
      rw [hq] at hrel
      cases hrel
  | some b =>
    obtain ⟨queue, hqueue, hb⟩ := hs.queue hk
    exact Or.inr ⟨b, queue, rfl, hqueue, hb.wellFormed.rpos_le_wpos, hb.wellFormed.wpos_le_size,
      hb.wellFormed.active_eq.symm.trans hb.active⟩

end

/-- A buffer of three bytes is filled, read from, normalized and moved: the target has the two bytes
that were not read, the source none. -/
theorem buffers_are_queues_moved :
    ∃ s : BufferState Bool, (system Bool (· ≤ 4096)).Reachable (.ok s) ∧
      s.queues false = some [2, 3] ∧ s.queues true = some [] ∧
      ∃ b, s.buffers false = some b ∧ (b.storage.take b.wpos).drop b.rpos = [2, 3] := by
  have hrun : ∃ s : BufferState Bool, (machine Bool (· ≤ 4096)).run
      (machine Bool (· ≤ 4096)).start [.constructSized true 3, .on true (.write [1, 2, 3]),
        .on true (.readCompleted 1), .on true .normalize, .moveConstruct false true] =
        some (.ok s) ∧ s.queues false = some [2, 3] ∧ s.queues true = some [] :=
    ⟨_, rfl, rfl, rfl⟩
  obtain ⟨s, hrun, hfalse, htrue⟩ := hrun
  have hreach : (system Bool (· ≤ 4096)).Reachable (.ok s) := Machine.run_reachable hrun
  have hgrants : ∀ n, decide (n ≤ 4096) = true → n ≤ addressSpace := by
    intro n hn
    have hle : n ≤ 4096 := of_decide_eq_true hn
    simp only [addressSpace]
    omega
  obtain ⟨s', hsame, hall⟩ := buffers_are_queues hgrants (.ok s) hreach
  cases hsame
  rcases hall false with ⟨-, hnone⟩ | ⟨b, queue, hb, hqueue, -, -, hbytes⟩
  · rw [hfalse] at hnone
    cases hnone
  · rw [hfalse] at hqueue
    cases hqueue
    exact ⟨s, hreach, hfalse, htrue, b, hb, hbytes⟩

end BufferState

end ServerTest.Network
