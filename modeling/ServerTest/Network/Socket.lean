import ServerTest.Lib.Transition
import ServerTest.Network.MessageBuffer

/-!
# `Socket`, the write side

`Socket` sends what is queued on it through one of two write loops, chosen at compile time.

* With `SOCKET_HAS_IOCP` an asynchronous write of the front buffer is started as soon as something
  is queued, and its completion handler `WriteHandler` starts the next one.
* Without it `Update` writes synchronously until the stream would block; then an asynchronous write
  of *no* bytes is started, whose completion only says that the stream is writable again.

**The stream.** `asio` is a parameter: what it answers is an input. An `Answer` maps the number of
bytes offered to the result, and only its value at the size really offered matters: stating which
answers are lawful then needs no state. `write_some` answers at once; `async_write_some` only notes
the buffer it was given, and the answer comes with the completion. Bytes count as accepted when the
stream reports them.

**History.** `packets` and `closeCalls` are not in the class and nothing here reads them. They
record what was queued and how `CloseSocket` was called, so that a statement about a run can be a
statement about the state it ends in.

`asio` runs handlers from its own loop and never inside the call that starts a write, so a step is
one whole call or one whole handler.
-/

set_option autoImplicit false

namespace ServerTest.Network

open Lib

/-- Whether `SOCKET_HAS_IOCP` is defined. -/
inductive Build where
  | iocp
  | polling
  deriving DecidableEq, Repr

/-! ## The stream -/

/-- The values of `asio::error_code` the code tells apart. -/
inductive ErrorCode where
  | wouldBlock
  | tryAgain
  | other (value : Nat)
  deriving DecidableEq, Repr

/-- What a write reports: an error, or the number of bytes taken. -/
inductive WriteResult where
  | failed (error : ErrorCode)
  | sent (bytes : Nat)
  deriving DecidableEq, Repr

/-- The stream's answer to one write, by the number of bytes offered. -/
abbrev Answer := Nat → WriteResult

/-- `SocketImpl`. `outstanding` holds the buffer of every asynchronous write whose completion
handler has not run. -/
structure Stream where
  accepted : Bytes
  outstanding : List Bytes
  sendShutDown : Bool
  deriving DecidableEq, Repr

namespace Stream

def writeSome (impl : Stream) (buffer : Bytes) (answer : Answer) : WriteResult × Stream :=
  match answer buffer.length with
  | .failed error => (.failed error, impl)
  | .sent bytes => (.sent bytes, { impl with accepted := impl.accepted ++ buffer.take bytes })

def asyncWriteSome (impl : Stream) (buffer : Bytes) : Stream :=
  { impl with outstanding := impl.outstanding ++ [buffer] }

/-- The end of the `i`-th outstanding write; its handler runs with the result. -/
def complete (impl : Stream) (i : Nat) (answer : Answer) : Option (WriteResult × Stream) :=
  impl.outstanding[i]?.map fun buffer =>
    { impl with outstanding := impl.outstanding.eraseIdx i }.writeSome buffer answer

end Stream

/-! ## The socket -/

/-- The two reasons the code has for calling `CloseSocket` on the write side. -/
inductive CloseCause where
  | delayedClose
  | writeError
  deriving DecidableEq, Repr

/-- A call of `CloseSocket`: its reason, and what it found. -/
structure CloseCall where
  cause : CloseCause
  writeQueue : List MessageBuffer
  accepted : Bytes
  packets : List Bytes
  deriving DecidableEq, Repr

structure Socket where
  socketImpl : Stream
  writeQueue : List MessageBuffer
  isClosed : Bool
  isClosing : Bool
  isWritingAsync : Bool
  packets : List Bytes
  closeCalls : List CloseCall
  deriving DecidableEq, Repr

namespace Socket

/-- The constructor, as far as the members kept here go. `RemoteAddress` and `RemotePort` are left out:
their initialisers ask the parameter for its endpoint after it has been moved from, where `asio`
throws. What follows is about a socket that has been constructed. -/
def new : Socket := ⟨⟨[], [], false⟩, [], false, false, false, [], []⟩

def delayedCloseSocket (s : Socket) : Socket := { s with isClosing := true }

/-- `CloseSocket`; `OnClose` is empty. -/
def closeSocket (s : Socket) (cause : CloseCause) : Socket :=
  let s := { s with
    closeCalls := s.closeCalls ++ [⟨cause, s.writeQueue, s.socketImpl.accepted, s.packets⟩] }
  if s.isClosed then s
  else { s with isClosed := true, socketImpl := { s.socketImpl with sendShutDown := true } }

section

variable (s : Socket) (cause : CloseCause)

@[simp] theorem isClosed_closeSocket : (s.closeSocket cause).isClosed = true := by
  by_cases h : s.isClosed <;> simp [closeSocket, h]

@[simp] theorem closeCalls_closeSocket : (s.closeSocket cause).closeCalls =
    s.closeCalls ++ [⟨cause, s.writeQueue, s.socketImpl.accepted, s.packets⟩] := by
  by_cases h : s.isClosed <;> simp [closeSocket, h]

@[simp] theorem writeQueue_closeSocket : (s.closeSocket cause).writeQueue = s.writeQueue := by
  by_cases h : s.isClosed <;> simp [closeSocket, h]

@[simp] theorem isWritingAsync_closeSocket :
    (s.closeSocket cause).isWritingAsync = s.isWritingAsync := by
  by_cases h : s.isClosed <;> simp [closeSocket, h]

@[simp] theorem packets_closeSocket : (s.closeSocket cause).packets = s.packets := by
  by_cases h : s.isClosed <;> simp [closeSocket, h]

@[simp] theorem accepted_closeSocket :
    (s.closeSocket cause).socketImpl.accepted = s.socketImpl.accepted := by
  by_cases h : s.isClosed <;> simp [closeSocket, h]

@[simp] theorem outstanding_closeSocket :
    (s.closeSocket cause).socketImpl.outstanding = s.socketImpl.outstanding := by
  by_cases h : s.isClosed <;> simp [closeSocket, h]

end

def asyncProcessQueue (build : Build) (s : Socket) : Except Fault (Bool × Socket) :=
  if s.isWritingAsync then .ok (false, s)
  else
    let s := { s with isWritingAsync := true }
    match build with
    | .iocp => do
      -- `WriteQueue.front()`
      let buffer ← subscript s.writeQueue 0
      return (false, { s with socketImpl := s.socketImpl.asyncWriteSome buffer.active })
    | .polling =>
      -- `asio::null_buffers()`
      return (false, { s with socketImpl := s.socketImpl.asyncWriteSome [] })

def queuePacket (build : Build) (s : Socket) (buffer : MessageBuffer) : Except Fault Socket :=
  let s := { s with
    writeQueue := s.writeQueue ++ [buffer.moveConstruct.1]
    packets := s.packets ++ [buffer.active] }
  match build with
  | .iocp => do
    let (_, s) ← asyncProcessQueue .iocp s
    return s
  | .polling => return s

/-- `if (IsClosing && WriteQueue.empty()) CloseSocket();` -/
def closeWhenDrained (s : Socket) : Socket :=
  if s.isClosing && s.writeQueue.isEmpty then s.closeSocket .delayedClose else s

/-! ### Without `SOCKET_HAS_IOCP` -/

def handleQueue (answer : Answer) (s : Socket) : Except Fault (Bool × Socket) :=
  match s.writeQueue with
  | [] => .ok (false, s)
  | queuedMessage :: rest =>
    let bytesToSend := queuedMessage.getActiveSize
    let (result, impl) := s.socketImpl.writeSome queuedMessage.active answer
    let s := { s with socketImpl := impl }
    match result with
    | .failed .wouldBlock => asyncProcessQueue .polling s
    | .failed .tryAgain => asyncProcessQueue .polling s
    | .failed (.other _) => .ok (false, { s with writeQueue := rest }.closeWhenDrained)
    | .sent bytesSent =>
      if bytesSent = 0 then .ok (false, { s with writeQueue := rest }.closeWhenDrained)
      else if bytesSent < bytesToSend then
        asyncProcessQueue .polling
          { s with writeQueue := queuedMessage.readCompleted bytesSent :: rest }
      else
        let s := { s with writeQueue := rest }.closeWhenDrained
        .ok (!s.writeQueue.isEmpty, s)

theorem asyncProcessQueue_fst {build : Build} {s : Socket} {r : Bool × Socket}
    (h : asyncProcessQueue build s = .ok r) : r.1 = false := by
  unfold asyncProcessQueue at h
  split at h
  · cases h
    rfl
  · cases build with
    | iocp =>
      obtain ⟨buffer, -, h⟩ := bind_returns.mp h
      cases h
      rfl
    | polling =>
      cases h
      rfl

@[simp] theorem writeQueue_closeWhenDrained (s : Socket) :
    s.closeWhenDrained.writeQueue = s.writeQueue := by
  unfold closeWhenDrained
  split
  · exact writeQueue_closeSocket s .delayedClose
  · rfl

/-- `HandleQueue` asks to be called again only after it has popped a message. -/
theorem handleQueue_again {answer : Answer} {s t : Socket}
    (h : handleQueue answer s = .ok (true, t)) : t.writeQueue.length < s.writeQueue.length := by
  unfold handleQueue at h
  split at h
  · cases h
  · rename_i queuedMessage rest hqueue
    dsimp only at h
    split at h
    · exact absurd (asyncProcessQueue_fst h) (by simp)
    · exact absurd (asyncProcessQueue_fst h) (by simp)
    · cases h
    · split at h
      · cases h
      · split at h
        · exact absurd (asyncProcessQueue_fst h) (by simp)
        · obtain ⟨-, rfl⟩ := Prod.mk.inj (Except.ok.inj h)
          rw [writeQueue_closeWhenDrained, hqueue]
          exact Nat.lt_succ_self rest.length

/-- `for (; HandleQueue();) ;`. The `i`-th call's write is answered by `answers i`. -/
def handleQueueLoop (answers : Nat → Answer) (s : Socket) : Except Fault Socket :=
  match h : handleQueue (answers 0) s with
  | .error fault => .error fault
  | .ok (true, t) => handleQueueLoop (fun i => answers (i + 1)) t
  | .ok (false, t) => .ok t
termination_by s.writeQueue.length
decreasing_by exact handleQueue_again h

theorem handleQueueLoop_of_done (answers : Nat → Answer) {s t : Socket}
    (h : handleQueue (answers 0) s = .ok (false, t)) : handleQueueLoop answers s = .ok t := by
  rw [handleQueueLoop]
  split
  · rename_i fault hcall
    rw [h] at hcall
    cases hcall
  · rename_i u hcall
    rw [h] at hcall
    cases hcall
  · rename_i u hcall
    rw [h] at hcall
    cases hcall
    rfl

/-- `WriteHandlerWrapper`, which ignores what its own write reported. -/
def writeHandlerWrapper (answer : Answer) (s : Socket) : Except Fault Socket := do
  let (_, s) ← handleQueue answer { s with isWritingAsync := false }
  return s

/-! ### With `SOCKET_HAS_IOCP` -/

/-- The end of `WriteHandler`: write the next buffer, or close if that was asked for. -/
def writeNext (s : Socket) : Except Fault Socket :=
  if !s.writeQueue.isEmpty then do
    let (_, s) ← asyncProcessQueue .iocp s
    return s
  else if s.isClosing then .ok (s.closeSocket .delayedClose)
  else .ok s

def writeHandler (result : WriteResult) (s : Socket) : Except Fault Socket :=
  match result with
  | .sent transferedBytes => do
    let s := { s with isWritingAsync := false }
    let buffer ← subscript s.writeQueue 0
    let buffer := buffer.readCompleted transferedBytes
    if buffer.getActiveSize = 0 then
      writeNext { s with writeQueue := s.writeQueue.tail }
    else
      writeNext { s with writeQueue := buffer :: s.writeQueue.tail }
  | .failed _ => .ok (s.closeSocket .writeError)

theorem writeHandler_sent_eq {s : Socket} {m : MessageBuffer} {rest : List MessageBuffer}
    (hqueue : s.writeQueue = m :: rest) (bytes : Nat) :
    s.writeHandler (.sent bytes) =
      if (m.readCompleted bytes).getActiveSize = 0 then
        writeNext { s with isWritingAsync := false, writeQueue := rest }
      else
        writeNext
          { s with isWritingAsync := false, writeQueue := m.readCompleted bytes :: rest } := by
  simp [writeHandler, subscript, hqueue, bind, Except.bind]

/-! ### Both builds -/

/-- `Update`: its return value and the socket afterwards. -/
def update (build : Build) (answers : Nat → Answer) (s : Socket) : Except Fault (Bool × Socket) :=
  if s.isClosed then .ok (false, s)
  else
    match build with
    | .iocp => .ok (true, s)
    | .polling =>
      if s.isWritingAsync || (s.writeQueue.isEmpty && !s.isClosing) then .ok (true, s)
      else do
        let s ← handleQueueLoop answers s
        return (true, s)

/-! ## Runs -/

/-- What can happen to a socket. `completion i result retry` is the end of the `i`-th outstanding
write with `result`; `retry` answers the `write_some` of the polling handler. -/
inductive Event where
  | queuePacket (buffer : Packet)
  | update (answers : Nat → Answer)
  | delayedCloseSocket
  | completion (i : Nat) (result retry : Answer)

/-- All answers in an event satisfy `P`. -/
def Event.Answered (P : Answer → Prop) : Event → Prop
  | .queuePacket _ | .delayedCloseSocket => True
  | .update answers => ∀ i, P (answers i)
  | .completion _ result retry => P result ∧ P retry

theorem Event.Answered.mono {P Q : Answer → Prop} (hPQ : ∀ answer, P answer → Q answer)
    {e : Event} (h : e.Answered P) : e.Answered Q := by
  cases e with
  | queuePacket => trivial
  | delayedCloseSocket => trivial
  | update answers => exact fun i => hPQ _ (h i)
  | completion i result retry => exact ⟨hPQ _ h.1, hPQ _ h.2⟩

/-- One event; `none` when it cannot happen, because no such write is outstanding. -/
def step (build : Build) (s : Socket) : Event → Option (Except Fault Socket)
  | .queuePacket buffer => some (s.queuePacket build buffer.val)
  | .update answers => some (do
      let (_, s) ← update build answers s
      return s)
  | .delayedCloseSocket => some (.ok s.delayedCloseSocket)
  | .completion i result retry =>
    (s.socketImpl.complete i result).map fun (reported, impl) =>
      match build with
      | .iocp => { s with socketImpl := impl }.writeHandler reported
      | .polling => { s with socketImpl := impl }.writeHandlerWrapper retry

/-- Every interleaving of the events, with answers in `P`. -/
def system (build : Build) (P : Answer → Prop) : System Socket where
  init s := s = new
  step s t := ∃ e : Event, e.Answered P ∧ step build s e = some (.ok t)

end Socket

end ServerTest.Network
