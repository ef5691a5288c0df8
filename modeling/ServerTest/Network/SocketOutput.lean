import ServerTest.Lib.Fifo
import ServerTest.Network.Socket

/-!
# What a socket sends

The write side of `Socket` implements a first-in first-out byte stream, `Lib.Fifo`: the packets
queued are what is put in, the bytes the stream accepted are what comes out, and the active bytes
of `WriteQueue` are what is inside. `Inv` is the invariant that carries this through partial
writes, re-arming and both write loops, and every reachable state has it (`reachable_inv`).

It holds of the polling loop only while no write fails outright with bytes still to send. Such a
failure makes `HandleQueue` pop the message and carry on, where `WriteHandler` closes the socket
and never writes again: after the pop, bytes of a later packet follow the part of the dropped one
that was already sent. `Answer.KeepsUnsent` says that this does not happen, and nothing less will
do: a single such failure can be completed to a run whose output is not framed.
-/

set_option autoImplicit false

namespace ServerTest.Network

open Lib

/-! ## Answers -/

/-- A write that succeeds takes at most what was offered, and something if anything was. -/
def Answer.Lawful (answer : Answer) : Prop :=
  ∀ offered bytes, answer offered = .sent bytes → bytes ≤ offered ∧ (bytes = 0 → offered = 0)

/-- No write fails with an error other than `would_block` and `try_again`. -/
def Answer.NoHardError (answer : Answer) : Prop :=
  ∀ offered value, answer offered ≠ .failed (.other value)

/-- A hard error hits only writes of no bytes. A size is a `std::size_t`. -/
def Answer.KeepsUnsent (answer : Answer) : Prop :=
  ∀ offered value, offered < 2 ^ 64 → answer offered = .failed (.other value) → offered = 0

/-- The answers of a stream on which no write fails for good. -/
def Answer.Soft (answer : Answer) : Prop := answer.Lawful ∧ answer.NoHardError

/-- The answers under which a build's output stays framed. -/
def Answer.Framing (build : Build) (answer : Answer) : Prop :=
  answer.Lawful ∧ (build = .polling → answer.KeepsUnsent)

theorem Answer.Soft.framing {answer : Answer} (h : answer.Soft) (build : Build) :
    answer.Framing build :=
  ⟨h.1, fun _ offered value _ hfail => absurd hfail (h.2 offered value)⟩

theorem lawful_sendAll : Answer.Lawful .sent := by
  intro offered bytes h
  obtain rfl := WriteResult.sent.inj h
  exact ⟨Nat.le_refl _, id⟩

theorem lawful_failed (error : ErrorCode) : Answer.Lawful fun _ => .failed error :=
  fun _ _ h => nomatch h

namespace Socket

/-! ## The invariant -/

/-- What the queue holds, front to back. -/
def pending (s : Socket) : Bytes := s.writeQueue.flatMap MessageBuffer.active

/-- The socket as a byte stream. -/
def fifo (s : Socket) : Fifo UInt8 := ⟨s.packets.flatten, s.socketImpl.accepted, s.pending⟩

/-- `WriteHandler` has been called with an error. -/
def Broken (s : Socket) : Prop := ∃ call ∈ s.closeCalls, call.cause = .writeError

/-- What an outstanding write was given: in the IOCP build the active bytes of the front of the
queue, which is still there; in the polling one nothing. -/
def InFlight : Build → List MessageBuffer → Bytes → Prop
  | .iocp, queue, buffer => ∃ m rest, queue = m :: rest ∧ m.active = buffer
  | .polling, _, buffer => buffer = []

structure Inv (build : Build) (s : Socket) : Prop where
  /-- the socket refines the stream -/
  stream : (Fifo.system UInt8).Reachable s.fifo
  wellFormed : ∀ m ∈ s.writeQueue, m.WellFormed
  single : s.socketImpl.outstanding.length ≤ 1
  flag : s.isWritingAsync = true ↔ s.socketImpl.outstanding.length = 1 ∨ s.Broken
  broken : s.Broken → build = .iocp ∧ s.isClosed = true ∧ s.socketImpl.outstanding = []
  inFlight : ∀ buffer ∈ s.socketImpl.outstanding, InFlight build s.writeQueue buffer
  drained : ∀ call ∈ s.closeCalls, call.cause = .delayedClose →
    call.writeQueue = [] ∧ call.accepted = call.packets.flatten

variable {build : Build} {s t : Socket}

theorem inv_new (build : Build) : Inv build new where
  stream := .start rfl
  wellFormed := by simp [new]
  single := by simp [new]
  flag := by simp [new, Broken]
  broken := by simp [new, Broken]
  inFlight := by simp [new]
  drained := by simp [new]

theorem Inv.conserved (h : Inv build s) :
    s.socketImpl.accepted ++ s.pending = s.packets.flatten :=
  Fifo.conserved h.stream

/-- A write in flight is the only one, and none has failed. -/
theorem Inv.of_outstanding (h : Inv build s) {i : Nat} {buffer : Bytes}
    (hi : s.socketImpl.outstanding[i]? = some buffer) :
    i = 0 ∧ s.socketImpl.outstanding = [buffer] ∧ ¬ s.Broken := by
  have hsingle := h.single
  have hnone := h.broken
  match hout : s.socketImpl.outstanding with
  | [] => simp [hout] at hi
  | [one] =>
    have hi0 : i = 0 := by
      have hlt := (List.getElem?_eq_some_iff.mp hi).1
      simpa [hout] using hlt
    subst hi0
    refine ⟨rfl, by simpa [hout] using hi, fun hb => ?_⟩
    simp [hout] at hnone
    exact (hnone hb).elim
  | _ :: _ :: _ => simp [hout] at hsingle

/-! ## What each operation does to it -/

theorem Inv.delayedCloseSocket (h : Inv build s) : Inv build s.delayedCloseSocket where
  stream := h.stream
  wellFormed := h.wellFormed
  single := h.single
  flag := h.flag
  broken := h.broken
  inFlight := h.inFlight
  drained := h.drained

/-- Send or drop at the front of the queue while nothing that points into it is in flight. -/
theorem Inv.advance (h : Inv build s) (hidle : build = .iocp → s.socketImpl.outstanding = [])
    {queue : List MessageBuffer} {accepted : Bytes} (hwf : ∀ m ∈ queue, m.WellFormed)
    (hstream : (Fifo.system UInt8).Reachable
      ⟨s.packets.flatten, accepted, queue.flatMap MessageBuffer.active⟩) :
    Inv build { s with
      writeQueue := queue, socketImpl := { s.socketImpl with accepted := accepted } } where
  stream := hstream
  wellFormed := hwf
  single := h.single
  flag := h.flag
  broken := h.broken
  inFlight := by
    intro buffer hb
    cases build with
    | iocp => simp [hidle rfl] at hb
    | polling => exact h.inFlight buffer hb
  drained := h.drained

/-- A completion: the write is no longer in flight and the flag is down. -/
theorem Inv.completed (h : Inv build s) {i : Nat} {buffer : Bytes}
    (hi : s.socketImpl.outstanding[i]? = some buffer) :
    Inv build { s with
      isWritingAsync := false, socketImpl := { s.socketImpl with outstanding := [] } } := by
  obtain ⟨-, -, hok⟩ := h.of_outstanding hi
  exact {
    stream := h.stream
    wellFormed := h.wellFormed
    single := Nat.zero_le 1
    flag := iff_of_false Bool.false_ne_true (not_or.mpr ⟨Nat.zero_ne_one, hok⟩)
    broken := fun hb => (hok hb).elim
    inFlight := by simp
    drained := h.drained }

/-- `CloseSocket` on the delayed-close path, which both builds take only on an empty queue. -/
theorem Inv.closeSocket_delayed (h : Inv build s) (hempty : s.writeQueue = []) :
    Inv build (s.closeSocket .delayedClose) := by
  have haccepted : s.socketImpl.accepted = s.packets.flatten := by
    simpa [pending, hempty] using h.conserved
  have hbroken : (s.closeSocket .delayedClose).Broken ↔ s.Broken := by
    simp [Broken, or_and_right, exists_or]
  exact {
    stream := by simpa [fifo, pending] using h.stream
    wellFormed := by simpa using h.wellFormed
    single := by simpa using h.single
    flag := by simpa [hbroken] using h.flag
    broken := by
      intro hb
      obtain ⟨hiocp, -, hnone⟩ := h.broken (hbroken.mp hb)
      exact ⟨hiocp, isClosed_closeSocket s _, by simpa using hnone⟩
    inFlight := by simpa using h.inFlight
    drained := by
      intro call hcall hcause
      rw [closeCalls_closeSocket, List.mem_append, List.mem_singleton] at hcall
      rcases hcall with hold | rfl
      · exact h.drained call hold hcause
      · exact ⟨hempty, haccepted⟩ }

theorem Inv.closeWhenDrained (h : Inv build s) : Inv build s.closeWhenDrained := by
  unfold Socket.closeWhenDrained
  split
  · rename_i hcond
    rw [Bool.and_eq_true, List.isEmpty_iff] at hcond
    exact h.closeSocket_delayed hcond.2
  · exact h

/-- Starting a write while none is in flight keeps everything but the two fields it writes. -/
theorem Inv.startWrite (h : Inv build s) (hidle : s.isWritingAsync = false) {buffer : Bytes}
    (hbuffer : InFlight build s.writeQueue buffer) :
    Inv build { s with
      isWritingAsync := true, socketImpl := s.socketImpl.asyncWriteSome buffer } := by
  have hdown : ¬ (s.socketImpl.outstanding.length = 1 ∨ s.Broken) := by
    rw [← h.flag, hidle]
    exact Bool.false_ne_true
  obtain ⟨hlen, hok⟩ := not_or.mp hdown
  have hnone : s.socketImpl.outstanding = [] := by
    have hsingle := h.single
    exact List.length_eq_zero_iff.mp (by omega)
  exact {
    stream := h.stream
    wellFormed := h.wellFormed
    single := by simp [Stream.asyncWriteSome, hnone]
    flag := by simp [Stream.asyncWriteSome, hnone]
    broken := fun hb => (hok hb).elim
    inFlight := by
      intro other hother
      have heq : other = buffer := by simpa [Stream.asyncWriteSome, hnone] using hother
      rw [heq]
      exact hbuffer
    drained := h.drained }

/-- `AsyncProcessQueue` with something to point at. In the IOCP build that is the front of the
queue, so the queue must not be empty; the flag is what keeps a second write from being started. -/
theorem Inv.asyncProcessQueue (h : Inv build s) (hqueue : build = .iocp → s.writeQueue ≠ []) :
    ∃ t, asyncProcessQueue build s = .ok (false, t) ∧ Inv build t := by
  unfold Socket.asyncProcessQueue
  cases hflag : s.isWritingAsync with
  | true => exact ⟨s, rfl, h⟩
  | false =>
    cases build with
    | iocp =>
      obtain ⟨m, rest, hm⟩ := List.exists_cons_of_ne_nil (hqueue rfl)
      refine ⟨_, ?_, h.startWrite hflag ⟨m, rest, hm, rfl⟩⟩
      simp [hm, subscript, bind, Except.bind, pure, Except.pure]
    | polling => exact ⟨_, rfl, h.startWrite hflag rfl⟩

/-- A packet at the back of the queue is one move of the stream. -/
theorem Inv.push (h : Inv build s) (packet : Packet) :
    Inv build { s with
      writeQueue := s.writeQueue ++ [packet.val]
      packets := s.packets ++ [packet.val.active] } where
  stream := by
    have hstep := h.stream.next (Fifo.Step.put s.fifo packet.val.active)
    simpa [fifo, pending] using hstep
  wellFormed := by
    intro m hm
    rcases List.mem_append.mp hm with hm | hm
    · exact h.wellFormed m hm
    · rw [List.mem_singleton.mp hm]
      exact packet.property
  single := h.single
  flag := h.flag
  broken := h.broken
  inFlight := by
    intro buffer hb
    cases build with
    | iocp =>
      obtain ⟨m, rest, hm, hactive⟩ := h.inFlight buffer hb
      exact ⟨m, rest ++ [packet.val], by simp [hm], hactive⟩
    | polling => exact h.inFlight buffer hb
  drained := h.drained

theorem Inv.queuePacket (h : Inv build s) (packet : Packet) :
    ∃ t, s.queuePacket build packet.val = .ok t ∧ Inv build t := by
  cases build with
  | polling => exact ⟨_, rfl, h.push packet⟩
  | iocp =>
    obtain ⟨t, ht, hinv⟩ := (h.push packet).asyncProcessQueue (by simp)
    refine ⟨t, ?_, hinv⟩
    simp only [Socket.queuePacket, MessageBuffer.moveConstruct_fst, ht]
    rfl

/-- Sending `bytes` bytes of the front message is one move of the stream. -/
theorem Inv.send (h : Inv build s) {m : MessageBuffer} {rest : List MessageBuffer}
    (hqueue : s.writeQueue = m :: rest) {bytes : Nat} (hle : bytes ≤ m.getActiveSize) :
    (Fifo.system UInt8).Reachable ⟨s.packets.flatten, s.socketImpl.accepted ++ m.active.take bytes,
      m.active.drop bytes ++ rest.flatMap MessageBuffer.active⟩ := by
  have hwf : m.WellFormed := h.wellFormed m (by simp [hqueue])
  have hfront : s.fifo = ⟨s.packets.flatten, s.socketImpl.accepted,
      m.active ++ rest.flatMap MessageBuffer.active⟩ := by
    simp [fifo, pending, hqueue]
  have hstep := Fifo.take_front s.packets.flatten s.socketImpl.accepted m.active
    (rest.flatMap MessageBuffer.active) (hwf.length_active ▸ hle)
  exact (hfront ▸ h.stream).next hstep

/-- What a partial write leaves. -/
theorem Inv.sendSome (h : Inv build s) (hidle : build = .iocp → s.socketImpl.outstanding = [])
    {m : MessageBuffer} {rest : List MessageBuffer} (hqueue : s.writeQueue = m :: rest)
    {bytes : Nat} (hle : bytes ≤ m.getActiveSize) :
    Inv build { s with
      writeQueue := m.readCompleted bytes :: rest
      socketImpl := { s.socketImpl with accepted := s.socketImpl.accepted ++ m.active.take bytes } } := by
  have hwf : ∀ x ∈ m :: rest, x.WellFormed := hqueue ▸ h.wellFormed
  have hm : m.WellFormed := hwf m List.mem_cons_self
  refine h.advance hidle ?_ ?_
  · intro x hx
    rcases List.mem_cons.mp hx with rfl | hx
    · exact hm.readCompleted hle
    · exact hwf x (List.mem_cons_of_mem m hx)
  · rw [List.flatMap_cons, hm.active_readCompleted hle]
    exact h.send hqueue hle

/-- What a complete write leaves, once the message is popped. -/
theorem Inv.popSent (h : Inv build s) (hidle : build = .iocp → s.socketImpl.outstanding = [])
    {m : MessageBuffer} {rest : List MessageBuffer} (hqueue : s.writeQueue = m :: rest) :
    Inv build { s with
      writeQueue := rest
      socketImpl := { s.socketImpl with accepted := s.socketImpl.accepted ++ m.active } } := by
  have hwf : ∀ x ∈ m :: rest, x.WellFormed := hqueue ▸ h.wellFormed
  have hlen := (hwf m List.mem_cons_self).length_active
  have hsend := h.send hqueue (Nat.le_refl m.getActiveSize)
  rw [← hlen, List.take_length, List.drop_length, List.nil_append] at hsend
  exact h.advance hidle (fun x hx => hwf x (List.mem_cons_of_mem m hx)) hsend

/-- Popping a message that has nothing left to send. -/
theorem Inv.popEmpty (h : Inv .polling s) {m : MessageBuffer} {rest : List MessageBuffer}
    (hqueue : s.writeQueue = m :: rest) (hempty : m.active = []) :
    Inv .polling { s with writeQueue := rest } := by
  have hpop := h.popSent (fun hb => nomatch hb) hqueue
  rwa [hempty, List.append_nil] at hpop

theorem Inv.handleQueue (h : Inv .polling s) {answer : Answer} (hlawful : answer.Lawful)
    (hkeeps : answer.KeepsUnsent) :
    ∃ again t, handleQueue answer s = .ok (again, t) ∧ Inv .polling t := by
  obtain ⟨impl, queue, isClosed, isClosing, isWritingAsync, packets, closeCalls⟩ := s
  cases queue with
  | nil => exact ⟨false, _, rfl, h⟩
  | cons m rest =>
    have hm : m.WellFormed := h.wellFormed m List.mem_cons_self
    have hlen := hm.length_active
    unfold Socket.handleQueue Stream.writeSome
    dsimp only
    cases hanswer : answer m.active.length with
    | failed error =>
      cases error with
      | wouldBlock =>
        obtain ⟨t, ht, hinv⟩ := h.asyncProcessQueue fun hb => nomatch hb
        exact ⟨false, t, ht, hinv⟩
      | tryAgain =>
        obtain ⟨t, ht, hinv⟩ := h.asyncProcessQueue fun hb => nomatch hb
        exact ⟨false, t, ht, hinv⟩
      | other value =>
        have hempty : m.active = [] :=
          List.length_eq_zero_iff.mp (hkeeps _ value hm.length_active_lt hanswer)
        exact ⟨false, _, rfl, (h.popEmpty rfl hempty).closeWhenDrained⟩
    | sent bytesSent =>
      obtain ⟨hle, hzero⟩ := hlawful _ _ hanswer
      dsimp only
      by_cases hnone : bytesSent = 0
      · have hempty : m.active = [] := List.length_eq_zero_iff.mp (hzero hnone)
        rw [if_pos hnone, hempty, List.take_nil, List.append_nil]
        exact ⟨false, _, rfl, (h.popEmpty rfl hempty).closeWhenDrained⟩
      · rw [if_neg hnone]
        by_cases hpart : bytesSent < m.getActiveSize
        · have hsent := h.sendSome (fun hb => nomatch hb) rfl (Nat.le_of_lt hpart)
          obtain ⟨t, ht, hinv⟩ := hsent.asyncProcessQueue fun hb => nomatch hb
          rw [if_pos hpart]
          exact ⟨false, t, ht, hinv⟩
        · have hall : bytesSent = m.active.length := by omega
          rw [if_neg hpart, hall, List.take_length]
          exact ⟨_, _, rfl, (h.popSent (fun hb => nomatch hb) rfl).closeWhenDrained⟩

/-- The loop of `Update`, by induction on the length of the queue. -/
theorem Inv.handleQueueLoop (h : Inv .polling s) {answers : Nat → Answer}
    (hanswers : ∀ i, (answers i).Lawful ∧ (answers i).KeepsUnsent) :
    ∃ t, handleQueueLoop answers s = .ok t ∧ Inv .polling t := by
  fun_induction Socket.handleQueueLoop answers s with
  | case1 answers s fault hcall =>
    obtain ⟨again, t, ht, -⟩ := h.handleQueue (hanswers 0).1 (hanswers 0).2
    rw [ht] at hcall
    cases hcall
  | case2 answers s t hcall ih =>
    obtain ⟨again, t', ht, hinv⟩ := h.handleQueue (hanswers 0).1 (hanswers 0).2
    rw [ht] at hcall
    cases hcall
    exact ih hinv fun i => hanswers (i + 1)
  | case3 answers s t hcall =>
    obtain ⟨again, t', ht, hinv⟩ := h.handleQueue (hanswers 0).1 (hanswers 0).2
    rw [ht] at hcall
    cases hcall
    exact ⟨t, rfl, hinv⟩

theorem Inv.update (h : Inv build s) {answers : Nat → Answer}
    (hanswers : ∀ i, (answers i).Framing build) :
    ∃ isOpen t, update build answers s = .ok (isOpen, t) ∧ Inv build t := by
  unfold Socket.update
  split
  · exact ⟨false, s, rfl, h⟩
  · cases build with
    | iocp => exact ⟨true, s, rfl, h⟩
    | polling =>
      dsimp only
      split
      · exact ⟨true, s, rfl, h⟩
      · obtain ⟨t, ht, hinv⟩ :=
          h.handleQueueLoop fun i => ⟨(hanswers i).1, (hanswers i).2 rfl⟩
        exact ⟨true, t, by rw [ht]; rfl, hinv⟩

/-- `WriteHandlerWrapper` after a completed write of no bytes. -/
theorem Inv.writeHandlerWrapper (h : Inv .polling s) {i : Nat} {result retry : Answer}
    {reported : WriteResult} {impl : Stream} (hlawful : retry.Lawful) (hkeeps : retry.KeepsUnsent)
    (hdone : s.socketImpl.complete i result = some (reported, impl)) :
    ∃ t, { s with socketImpl := impl }.writeHandlerWrapper retry = .ok t ∧ Inv .polling t := by
  obtain ⟨buffer, hi, hwrite⟩ := Option.map_eq_some_iff.mp hdone
  obtain ⟨rfl, hout, -⟩ := h.of_outstanding hi
  have hnull : buffer = [] := h.inFlight buffer (by simp [hout])
  have himpl : impl = { s.socketImpl with outstanding := [] } := by
    subst hnull
    unfold Stream.writeSome at hwrite
    split at hwrite <;> simp_all
  subst himpl
  obtain ⟨again, t, ht, hinv⟩ := (h.completed hi).handleQueue hlawful hkeeps
  refine ⟨t, ?_, hinv⟩
  unfold Socket.writeHandlerWrapper
  rw [ht]
  rfl

/-- `WriteHandler` after a failed write: the socket is closed, and the flag that stays up keeps it
from ever writing again. -/
theorem Inv.writeHandler_failed (h : Inv .iocp s) {buffer : Bytes}
    (hi : s.socketImpl.outstanding = [buffer]) :
    Inv .iocp ({ s with socketImpl := { s.socketImpl with outstanding := [] } }.closeSocket
      .writeError) where
  stream := by simpa [fifo, pending] using h.stream
  wellFormed := by simpa using h.wellFormed
  single := by simp
  flag := by
    have hup : s.isWritingAsync = true := h.flag.mpr (Or.inl (by simp [hi]))
    simp [hup, Broken]
  broken := fun _ => ⟨rfl, isClosed_closeSocket _ _, by simp⟩
  inFlight := by simp
  drained := by
    intro call hcall hcause
    rw [closeCalls_closeSocket, List.mem_append, List.mem_singleton] at hcall
    rcases hcall with hold | rfl
    · exact h.drained call hold hcause
    · cases hcause

theorem Inv.writeNext (h : Inv .iocp s) : ∃ t, s.writeNext = .ok t ∧ Inv .iocp t := by
  unfold Socket.writeNext
  cases hqueue : s.writeQueue with
  | nil =>
    cases hclosing : s.isClosing with
    | true => exact ⟨_, rfl, h.closeSocket_delayed hqueue⟩
    | false => exact ⟨s, rfl, h⟩
  | cons m rest =>
    obtain ⟨t, ht, hinv⟩ := h.asyncProcessQueue fun _ => by simp [hqueue]
    exact ⟨t, by rw [ht]; rfl, hinv⟩

/-- `WriteHandler` after a write that took `bytes` of the front message. -/
theorem Inv.writeHandler_sent {m : MessageBuffer} {rest : List MessageBuffer}
    (h : Inv .iocp s) (hqueue : s.writeQueue = m :: rest) (hidle : s.socketImpl.outstanding = [])
    (hflag : s.isWritingAsync = false) {bytes : Nat} (hle : bytes ≤ m.getActiveSize) :
    ∃ t, { s with socketImpl :=
        { s.socketImpl with accepted := s.socketImpl.accepted ++ m.active.take bytes }
      }.writeHandler (.sent bytes) = .ok t ∧ Inv .iocp t := by
  have hm : m.WellFormed := h.wellFormed m (by simp [hqueue])
  let after : Socket := { s with socketImpl :=
    { s.socketImpl with accepted := s.socketImpl.accepted ++ m.active.take bytes } }
  show ∃ t, after.writeHandler (.sent bytes) = .ok t ∧ Inv .iocp t
  rw [writeHandler_sent_eq (s := after) hqueue, ← hflag]
  by_cases hdone : (m.readCompleted bytes).getActiveSize = 0
  · -- The message is popped, so all of it was sent.
    have hall : m.active.take bytes = m.active := by
      have hleft := (hm.readCompleted hle).active_eq_nil_iff.mpr hdone
      rw [hm.active_readCompleted hle, List.drop_eq_nil_iff] at hleft
      exact List.take_of_length_le hleft
    have hpop := h.popSent (fun _ => hidle) hqueue
    rw [← hall] at hpop
    rw [if_pos hdone]
    exact hpop.writeNext
  · rw [if_neg hdone]
    exact (h.sendSome (fun _ => hidle) hqueue hle).writeNext

theorem Inv.writeHandler (h : Inv .iocp s) {i : Nat} {result : Answer} {reported : WriteResult}
    {impl : Stream} (hlawful : result.Lawful)
    (hdone : s.socketImpl.complete i result = some (reported, impl)) :
    ∃ t, { s with socketImpl := impl }.writeHandler reported = .ok t ∧ Inv .iocp t := by
  obtain ⟨buffer, hi, hwrite⟩ := Option.map_eq_some_iff.mp hdone
  obtain ⟨rfl, hout, -⟩ := h.of_outstanding hi
  obtain ⟨m, rest, hqueue, rfl⟩ := h.inFlight buffer (by simp [hout])
  unfold Stream.writeSome at hwrite
  cases hresult : result m.active.length with
  | failed error =>
    simp only [hresult, hout, List.eraseIdx_cons_zero] at hwrite
    obtain ⟨rfl, rfl⟩ := Prod.mk.inj hwrite
    exact ⟨_, rfl, h.writeHandler_failed hout⟩
  | sent bytes =>
    simp only [hresult, hout, List.eraseIdx_cons_zero] at hwrite
    obtain ⟨rfl, rfl⟩ := Prod.mk.inj hwrite
    have hm : m.WellFormed := h.wellFormed m (by simp [hqueue])
    have hle : bytes ≤ m.getActiveSize := hm.length_active ▸ (hlawful _ _ hresult).1
    -- The handler lowers the flag itself, so it does not matter that it is lowered here first.
    exact (h.completed hi).writeHandler_sent hqueue rfl rfl hle

/-! ## Runs -/

/-- One event keeps the invariant, and the code it runs returns. -/
theorem Inv.step (h : Inv build s) {e : Event} (he : e.Answered (Answer.Framing build))
    {r : Except Fault Socket} (hstep : step build s e = some r) : ∃ t, r = .ok t ∧ Inv build t := by
  cases e with
  | queuePacket buffer =>
    cases hstep
    exact h.queuePacket buffer
  | update answers =>
    cases hstep
    obtain ⟨isOpen, t, ht, hinv⟩ := h.update he
    exact ⟨t, by rw [ht]; rfl, hinv⟩
  | delayedCloseSocket =>
    cases hstep
    exact ⟨_, rfl, h.delayedCloseSocket⟩
  | completion i result retry =>
    obtain ⟨hresult, hretry⟩ := he
    obtain ⟨⟨reported, impl⟩, hdone, rfl⟩ := Option.map_eq_some_iff.mp hstep
    cases build with
    | iocp => exact h.writeHandler hresult.1 hdone
    | polling => exact h.writeHandlerWrapper hretry.1 (hretry.2 rfl) hdone

/-- **The socket refines the stream**, over every run with framing answers. -/
theorem reachable_inv (h : (system build (Answer.Framing build)).Reachable s) : Inv build s := by
  refine h.invariant (P := Inv build) ?_ ?_
  · intro s₀ h₀
    subst h₀
    exact inv_new build
  · intro s₁ s₂ _ hinv hstep
    obtain ⟨e, he, hst⟩ := hstep
    obtain ⟨t, ht, hinv'⟩ := hinv.step he hst
    cases ht
    exact hinv'

theorem reachable_mono {P Q : Answer → Prop} (hPQ : ∀ answer, P answer → Q answer)
    (h : (system build P).Reachable s) : (system build Q).Reachable s := by
  apply System.Reachable.mono _ _ h
  · intro s₀ h₀
    exact h₀
  · intro s₁ s₂ hstep
    obtain ⟨e, he, hst⟩ := hstep
    exact ⟨e, he.mono hPQ, hst⟩

/-- **Without hard errors the output is an exact byte stream**, in both builds and over every
interleaving of packets, updates, delayed closes and completions. At most one write is in flight.
The flag says whether one is, except after `WriteHandler` has been given an error: then the socket
is closed, nothing is in flight and the flag stays up. A delayed close finds the queue empty and
everything sent. No event that can happen makes the code fault. -/
theorem output_exact (h : (system build Answer.Soft).Reachable s) :
    s.socketImpl.accepted ++ s.pending = s.packets.flatten ∧
    s.socketImpl.outstanding.length ≤ 1 ∧
    (s.isWritingAsync = true ↔ s.socketImpl.outstanding.length = 1 ∨ s.Broken) ∧
    (s.Broken → build = .iocp ∧ s.isClosed = true ∧ s.socketImpl.outstanding = []) ∧
    (∀ call ∈ s.closeCalls, call.cause = .delayedClose →
      call.writeQueue = [] ∧ call.accepted = call.packets.flatten) ∧
    ∀ e : Event, e.Answered Answer.Soft → ∀ r, step build s e = some r → ∃ t, r = .ok t := by
  have hsoft : ∀ answer : Answer, answer.Soft → answer.Framing build :=
    fun _ ha => ha.framing build
  have hinv : Inv build s := reachable_inv (reachable_mono hsoft h)
  refine ⟨hinv.conserved, hinv.single, hinv.flag, hinv.broken, hinv.drained, ?_⟩
  intro e he r hst
  obtain ⟨t, ht, -⟩ := hinv.step (he.mono hsoft) hst
  exact ⟨t, ht⟩

/-- The IOCP socket with one packet queued: its write is in flight. -/
theorem reachable_writing (P : Answer → Prop) : ∃ m : MessageBuffer, (system .iocp P).Reachable
    ⟨⟨[], [[7]], false⟩, [m], false, false, true, [[7]], []⟩ := by
  let packet := packetOf [7] (by simp)
  have hactive : packet.val.active = [7] := active_packetOf [7] _
  refine ⟨packet.val, (System.Reachable.start rfl).next ⟨.queuePacket packet, trivial, ?_⟩⟩
  simp [step, queuePacket, asyncProcessQueue, subscript, new, Stream.asyncWriteSome, hactive,
    bind, Except.bind, pure, Except.pure]

theorem output_exact_writing : ∃ s, (system .iocp Answer.Soft).Reachable s ∧
    s.socketImpl.accepted ++ s.pending = s.packets.flatten ∧
    s.socketImpl.outstanding.length ≤ 1 ∧
    (s.isWritingAsync = true ↔ s.socketImpl.outstanding.length = 1 ∨ s.Broken) ∧
    (s.Broken → Build.iocp = .iocp ∧ s.isClosed = true ∧ s.socketImpl.outstanding = []) ∧
    (∀ call ∈ s.closeCalls, call.cause = .delayedClose →
      call.writeQueue = [] ∧ call.accepted = call.packets.flatten) ∧
    ∀ e : Event, e.Answered Answer.Soft → ∀ r, step .iocp s e = some r → ∃ t, r = .ok t := by
  obtain ⟨m, h⟩ := reachable_writing Answer.Soft
  exact ⟨_, h, output_exact h⟩

/-- `WriteHandler` does not tell `would_block` from any other error: it closes the socket and leaves
the flag up, with nothing in flight. -/
theorem not_flag_iff_outstanding :
    ¬ ∀ (build : Build) (s : Socket), (system build Answer.Soft).Reachable s →
      (s.isWritingAsync = true ↔ s.socketImpl.outstanding.length = 1) := by
  intro h
  have hsoft : Answer.Soft fun _ => .failed .wouldBlock := ⟨lawful_failed _, fun _ _ h => nomatch h⟩
  obtain ⟨m, hwriting⟩ := reachable_writing Answer.Soft
  have hclosed := hwriting.next
    ⟨.completion 0 (fun _ => .failed .wouldBlock) fun _ => .failed .wouldBlock, ⟨hsoft, hsoft⟩, rfl⟩
  exact Nat.zero_ne_one ((h .iocp _ hclosed).mp rfl)

/-- What the stream has accepted is a prefix of what was queued, and the rest of it is still in the
queue: nothing was dropped. -/
def Framed (s : Socket) : Prop :=
  s.socketImpl.accepted <+: s.packets.flatten ∧
  s.socketImpl.accepted ++ s.pending = s.packets.flatten

theorem framed_of_framing (h : (system build (Answer.Framing build)).Reachable s) : s.Framed :=
  ⟨Fifo.delivered_prefix (reachable_inv h).stream, (reachable_inv h).conserved⟩

section PollingRuns

variable {P : Answer → Prop}

theorem reachable_queuePacket (h : (system .polling P).Reachable s) (packet : Packet) :
    (system .polling P).Reachable { s with
      writeQueue := s.writeQueue ++ [packet.val]
      packets := s.packets ++ [packet.val.active] } :=
  h.next ⟨.queuePacket packet, trivial, rfl⟩

/-- An `Update` whose loop ends after one message. -/
theorem reachable_update (h : (system .polling P).Reachable s) {answer : Answer} (ha : P answer)
    (hopen : s.isClosed = false) (hidle : s.isWritingAsync = false) (hqueue : s.writeQueue ≠ [])
    (hcall : handleQueue answer s = .ok (false, t)) : (system .polling P).Reachable t := by
  refine h.next ⟨.update fun _ => answer, fun _ => ha, ?_⟩
  simp [step, update, hopen, hidle, hqueue, handleQueueLoop_of_done (fun _ => answer) hcall, bind,
    Except.bind, pure, Except.pure]

/-- A hard error on a message with bytes left drops it, and the next packet's bytes are accepted in
its place. -/
theorem not_framed_of_hardError {answer : Answer} (hanswer : P answer) (hall : P .sent)
    {offered value : Nat} (hlt : offered < 2 ^ 64) (hpos : offered ≠ 0)
    (hfail : answer offered = .failed (.other value)) :
    ∃ s, (system .polling P).Reachable s ∧ ¬ s.Framed := by
  let zeros : Bytes := List.replicate offered 0
  have hlength : zeros.length = offered := List.length_replicate
  let first := packetOf zeros (hlength ▸ hlt)
  let second := packetOf [1] (by simp)
  have hfirst : first.val.active = zeros := active_packetOf zeros _
  have hsecond : second.val.active = [1] := active_packetOf [1] _
  have hsize : second.val.getActiveSize = 1 := getActiveSize_packetOf [1] _
  have hqueued : (system .polling P).Reachable
      ⟨⟨[], [], false⟩, [first.val], false, false, false, [zeros], []⟩ := by
    simpa [new, hfirst] using reachable_queuePacket (.start rfl) first
  have hdropped : (system .polling P).Reachable
      ⟨⟨[], [], false⟩, [], false, false, false, [zeros], []⟩ := by
    refine reachable_update hqueued hanswer rfl rfl (by simp) ?_
    simp [handleQueue, closeWhenDrained, Stream.writeSome, hfirst, hlength, hfail]
  have hnext : (system .polling P).Reachable
      ⟨⟨[], [], false⟩, [second.val], false, false, false, [zeros, [1]], []⟩ := by
    simpa [hsecond] using reachable_queuePacket hdropped second
  have hsent : (system .polling P).Reachable
      ⟨⟨[1], [], false⟩, [], false, false, false, [zeros, [1]], []⟩ := by
    refine reachable_update hnext hall rfl rfl (by simp) ?_
    simp [handleQueue, closeWhenDrained, Stream.writeSome, hsecond, hsize]
  refine ⟨_, hsent, fun hframed => ?_⟩
  -- The first byte queued is a zero, the first byte accepted is not.
  obtain ⟨rest, hrest⟩ := hframed.1
  obtain ⟨n, hn⟩ := Nat.exists_eq_succ_of_ne_zero hpos
  simp [zeros, hn, List.replicate_succ] at hrest

end PollingRuns

/-- **Hard errors do not break the framing of what an IOCP socket sends, and of what a polling one
sends exactly if they hit no message with bytes left.** For any set of lawful answers in which the
stream may also accept everything it is offered, every state of every run is framed if and only if
the build is IOCP or the hard errors among the answers are for writes of no bytes. -/
theorem output_framed_iff (build : Build) (P : Answer → Prop)
    (hlawful : ∀ answer, P answer → answer.Lawful) (hall : P .sent) :
    (∀ s, (system build P).Reachable s → s.Framed) ↔
      (build = .polling → ∀ answer, P answer → answer.KeepsUnsent) := by
  constructor
  · intro hframed hpolling answer hanswer offered value hlt hfail
    subst hpolling
    by_contra hpos
    obtain ⟨s, hs, hnot⟩ := not_framed_of_hardError hanswer hall hlt hpos hfail
    exact hnot (hframed s hs)
  · intro hkeeps s hs
    apply framed_of_framing
    apply reachable_mono _ hs
    intro answer hanswer
    exact ⟨hlawful answer hanswer, fun hpolling => hkeeps hpolling answer hanswer⟩

/-- A polling socket on a stream without hard errors. -/
theorem output_framed_iff_soft :
    Answer.Soft .sent ∧
      ((∀ s, (system .polling Answer.Soft).Reachable s → s.Framed) ↔
        (Build.polling = .polling → ∀ answer, Answer.Soft answer → answer.KeepsUnsent)) := by
  have hall : Answer.Soft .sent := ⟨lawful_sendAll, fun _ _ h => nomatch h⟩
  exact ⟨hall, output_framed_iff .polling Answer.Soft (fun _ h => h.1) hall⟩

/-- A polling socket is given a packet of two bytes and sends one; the retry fails; a packet queued
later is sent. The stream has accepted the first byte of one packet and the byte of another. -/
theorem not_framed_after_error :
    ¬ ∀ (build : Build) (s : Socket), (system build Answer.Lawful).Reachable s →
      s.socketImpl.accepted <+: s.packets.flatten := by
  intro h
  let S := system .polling Answer.Lawful
  let first := packetOf [1, 2] (by simp)
  let second := packetOf [3] (by simp)
  have hfirst : first.val.active = [1, 2] := active_packetOf [1, 2] _
  have hsecond : second.val.active = [3] := active_packetOf [3] _
  have hsize : first.val.getActiveSize = 2 := getActiveSize_packetOf [1, 2] _
  have hsize' : second.val.getActiveSize = 1 := getActiveSize_packetOf [3] _
  let sendOne : Answer := fun offered => .sent (min 1 offered)
  let fail : Answer := fun _ => .failed (.other 104)
  have hone : Answer.Lawful sendOne := by
    intro offered bytes hsent
    obtain rfl := WriteResult.sent.inj hsent
    omega
  let left := first.val.readCompleted 1
  have hqueued : S.Reachable ⟨⟨[], [], false⟩, [first.val], false, false, false, [[1, 2]], []⟩ := by
    simpa [new, hfirst] using reachable_queuePacket (.start rfl) first
  have hpart : S.Reachable ⟨⟨[1], [[]], false⟩, [left], false, false, true, [[1, 2]], []⟩ := by
    refine reachable_update hqueued hone rfl rfl (by simp) ?_
    simp [handleQueue, asyncProcessQueue, sendOne, Stream.writeSome, Stream.asyncWriteSome,
      hfirst, hsize, left, pure, Except.pure]
  have hdropped : S.Reachable ⟨⟨[1], [], false⟩, [], false, false, false, [[1, 2]], []⟩ := by
    refine hpart.next ⟨.completion 0 .sent fail, ⟨lawful_sendAll, lawful_failed _⟩, ?_⟩
    simp [step, writeHandlerWrapper, handleQueue, closeWhenDrained, fail, Stream.complete,
      Stream.writeSome, bind, Except.bind, pure, Except.pure]
  have hnext : S.Reachable
      ⟨⟨[1], [], false⟩, [second.val], false, false, false, [[1, 2], [3]], []⟩ := by
    simpa [hsecond] using reachable_queuePacket hdropped second
  have hsent : S.Reachable ⟨⟨[1, 3], [], false⟩, [], false, false, false, [[1, 2], [3]], []⟩ := by
    refine reachable_update hnext lawful_sendAll rfl rfl (by simp) ?_
    simp [handleQueue, closeWhenDrained, Stream.writeSome, hsecond, hsize']
  exact absurd (h .polling _ hsent) (by decide)

end Socket

end ServerTest.Network
