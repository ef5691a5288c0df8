import ServerTest.Network.Draining
import ServerTest.Network.SocketInput

/-!
# Two sockets and the wire between them

`SocketOutput` is about the bytes a socket hands to its stream, `SocketInput` about those a stream
hands to a socket. Here the stream of the one is the stream of the other: a byte that was accepted at
one end arrives at the other end once, and in order. That is all that is taken of TCP. How many bytes
an arrival has, and when it comes, is open; so is what the two programs do, how the writes of the
sender end, and when either end is closed.

The connection is one direction of it, with the write side of one socket and the read side of the
other. `delivered` is what the handlers of the receiver have found in its read buffer and taken.
-/

set_option autoImplicit false

namespace ServerTest.Network

open Lib

/-! ## What was accepted stays accepted -/

namespace Socket

variable {build : Build} {s t : Socket}

/-- `t` has sent what `s` has, and perhaps more. -/
def Accepts (s t : Socket) : Prop := s.socketImpl.accepted <+: t.socketImpl.accepted

theorem Accepts.refl (s : Socket) : Accepts s s := List.prefix_refl _

theorem Accepts.trans {u : Socket} (h : Accepts s t) (h' : Accepts t u) : Accepts s u :=
  List.IsPrefix.trans h h'

theorem prefix_writeSome (impl : Stream) (buffer : Bytes) (answer : Answer) :
    impl.accepted <+: (impl.writeSome buffer answer).2.accepted := by
  unfold Stream.writeSome
  split
  · exact List.prefix_refl _
  · exact List.prefix_append _ _

theorem accepts_asyncProcessQueue {r : Bool × Socket} (h : asyncProcessQueue build s = .ok r) :
    Accepts s r.2 := by
  unfold asyncProcessQueue at h
  split at h
  · cases h
    exact .refl s
  · cases build with
    | iocp =>
      obtain ⟨buffer, -, hret⟩ := bind_returns.mp h
      cases hret
      exact List.prefix_refl _
    | polling =>
      cases h
      exact List.prefix_refl _

theorem accepts_closeSocket (s : Socket) (cause : CloseCause) : Accepts s (s.closeSocket cause) := by
  have hsame := accepted_closeSocket s cause
  exact ⟨[], by rw [List.append_nil, hsame]⟩

theorem accepted_closeWhenDrained (s : Socket) :
    s.closeWhenDrained.socketImpl.accepted = s.socketImpl.accepted := by
  unfold closeWhenDrained
  split
  · exact accepted_closeSocket s .delayedClose
  · rfl

theorem accepts_handleQueue {answer : Answer} {again : Bool}
    (h : handleQueue answer s = .ok (again, t)) : Accepts s t := by
  unfold handleQueue at h
  split at h
  · cases h
    exact .refl s
  · rename_i m rest hqueue
    have hfirst := prefix_writeSome s.socketImpl m.active answer
    dsimp only at h
    split at h
    · exact hfirst.trans (accepts_asyncProcessQueue h)
    · exact hfirst.trans (accepts_asyncProcessQueue h)
    · cases h
      rw [Accepts, accepted_closeWhenDrained]
      exact hfirst
    · split at h
      · cases h
        rw [Accepts, accepted_closeWhenDrained]
        exact hfirst
      · split at h
        · exact hfirst.trans (accepts_asyncProcessQueue h)
        · cases h
          rw [Accepts, accepted_closeWhenDrained]
          exact hfirst

theorem accepts_handleQueueLoop {answers : Nat → Answer} {s t : Socket}
    (h : handleQueueLoop answers s = .ok t) : Accepts s t := by
  rw [handleQueueLoop] at h
  split at h
  · cases h
  · rename_i u hcall
    have hrest := accepts_handleQueueLoop h
    exact (accepts_handleQueue hcall).trans hrest
  · rename_i u hcall
    cases h
    exact accepts_handleQueue hcall
termination_by s.writeQueue.length
decreasing_by exact handleQueue_again ‹_›

theorem accepts_writeNext (h : s.writeNext = .ok t) : Accepts s t := by
  unfold writeNext at h
  split at h
  · obtain ⟨r, hcall, hret⟩ := bind_returns.mp h
    cases hret
    exact accepts_asyncProcessQueue hcall
  · split at h
    · cases h
      exact accepts_closeSocket s .delayedClose
    · cases h
      exact .refl s

theorem accepts_writeHandler {reported : WriteResult} (h : s.writeHandler reported = .ok t) :
    Accepts s t := by
  cases reported with
  | failed error =>
    cases h
    exact accepts_closeSocket s .writeError
  | sent bytes =>
    obtain ⟨front, -, hnext⟩ := bind_returns.mp h
    simp only at hnext
    split at hnext
    · have hwritten := accepts_writeNext hnext
      exact hwritten
    · have hwritten := accepts_writeNext hnext
      exact hwritten

/-- **The wire only grows.** -/
theorem accepts_step {e : Event} (h : step build s e = some (.ok t)) : Accepts s t := by
  cases e with
  | queuePacket buffer =>
    cases build with
    | iocp =>
      obtain ⟨r, hcall, hret⟩ := bind_returns.mp (Option.some.inj h)
      cases hret
      have hqueued := accepts_asyncProcessQueue hcall
      exact hqueued
    | polling =>
      cases h
      exact .refl s
  | update answers =>
    obtain ⟨⟨isOpen, u⟩, hcall, hret⟩ := bind_returns.mp (Option.some.inj h)
    cases hret
    unfold update at hcall
    split at hcall
    · cases hcall
      exact .refl s
    · cases build with
      | iocp =>
        cases hcall
        exact .refl s
      | polling =>
        dsimp only at hcall
        split at hcall
        · cases hcall
          exact .refl s
        · obtain ⟨v, hloop, hret⟩ := bind_returns.mp hcall
          cases hret
          exact accepts_handleQueueLoop hloop
  | delayedCloseSocket =>
    cases h
    exact .refl s
  | completion i result retry =>
    obtain ⟨⟨reported, impl⟩, hdone, hrun⟩ := Option.map_eq_some_iff.mp h
    obtain ⟨buffer, -, hwrite⟩ := Option.map_eq_some_iff.mp hdone
    have hfirst : s.socketImpl.accepted <+: impl.accepted := by
      have hsent := prefix_writeSome
        { s.socketImpl with outstanding := s.socketImpl.outstanding.eraseIdx i } buffer result
      rw [hwrite] at hsent
      exact hsent
    cases build with
    | iocp => exact hfirst.trans (accepts_writeHandler (s := { s with socketImpl := impl }) hrun)
    | polling =>
      obtain ⟨⟨again, u⟩, hcall, hret⟩ := bind_returns.mp hrun
      cases hret
      exact hfirst.trans (accepts_handleQueue hcall)

end Socket

/-! ## The connection -/

structure Connection where
  sender : Socket
  receiver : SocketInput
  delivered : Bytes
  deriving DecidableEq, Repr

inductive ConnectionEvent where
  | send (e : Socket.Event)
  /-- `CloseSocket` of the sender, called from its own read side or by its program -/
  | closeSender
  | receive (e : InputEvent)

/-- What the handler of the receiver takes in this event. -/
def InputEvent.taken (s : SocketInput) : InputEvent → Bytes
  | .consume bytes => s.readBuffer.active.take bytes
  | _ => []

/-- What arrives in this event. -/
def InputEvent.bytes : InputEvent → Bytes
  | .arrived bytes => bytes
  | _ => []

namespace Connection

def new : Connection := ⟨Socket.new, SocketInput.new, []⟩

/-- Accepted at the one end and not yet arrived at the other. -/
def wire (c : Connection) : Bytes := c.sender.socketImpl.accepted.drop c.receiver.received.length

def closeSender (c : Connection) : Connection :=
  if c.sender.isClosed then c
  else { c with sender :=
    { c.sender with
      isClosed := true
      socketImpl := { c.sender.socketImpl with sendShutDown := true } } }

/-- One event at one end. What arrives is what is next on the wire. -/
def step (build : Build) (c : Connection) : ConnectionEvent → Option (Except Fault Connection)
  | .send e => (c.sender.step build e).map fun r => r.map fun sender => { c with sender := sender }
  | .closeSender => some (.ok c.closeSender)
  | .receive e =>
    if e.bytes.isPrefixOf c.wire then
      (c.receiver.step e).map fun r => r.map fun receiver =>
        { c with receiver := receiver, delivered := c.delivered ++ e.taken c.receiver }
    else none

/-- The writes of the sender are answered as `P` says. -/
def Answered (P : Answer → Prop) : ConnectionEvent → Prop
  | .send e => e.Answered P
  | .closeSender | .receive _ => True

/-- The number of bytes that were ever queued. -/
def total (c : Connection) : Nat := c.sender.packets.flatten.length

/-- Every interleaving of the two ends, as long as fewer than `2 ^ 60` bytes are queued. -/
def system (build : Build) : System Connection where
  init c := c = new
  step c d := ∃ e, Answered (Answer.Framing build) e ∧ c.step build e = some (.ok d) ∧
    d.total < 2 ^ 60

end Connection

/-! ## The read buffer -/

namespace SocketInput

variable {s t : SocketInput}

/-- The buffer grows when it is full of active bytes, and by half of them. -/
theorem length_asyncRead (hs : s.Inv) (h : s.asyncRead = .ok t) :
    t.readBuffer.storage.length ≤
      max s.readBuffer.storage.length (2 * s.received.length) := by
  unfold SocketInput.asyncRead at h
  split at h
  · cases h
    exact Nat.le_max_left _ _
  · obtain ⟨b, hnormal, hret⟩ := bind_returns.mp h
    cases hret
    obtain ⟨b', hnormal', hwf, hactive, hlen⟩ := hs.wellFormed.normalize
    rw [hnormal] at hnormal'
    cases hnormal'
    obtain ⟨hrpos, -⟩ := hs.wellFormed.normalize_cursors hnormal
    show b.ensureFreeSpace.storage.length ≤ _
    unfold MessageBuffer.ensureFreeSpace
    split
    · rename_i hfull
      have hroom := hwf.getRemainingSpace_eq
      have hin := hwf.wpos_le_size
      have hcount : b.storage.length = b.active.length := by
        rw [hwf.length_active, hwf.getActiveSize_eq]
        omega
      have hless : b.active.length ≤ s.received.length := by
        rw [hactive, hs.active, List.length_drop]
        exact Nat.sub_le _ _
      have hgrown : (b.resize b.grownSize).storage.length = b.grownSize :=
        MessageBuffer.length_resizeStorage b.storage b.grownSize
      have hhalf : b.grownSize ≤ 2 * b.storage.length := by
        have hmod := Nat.mod_le (b.storage.length * 3) (2 ^ 64)
        unfold MessageBuffer.grownSize
        omega
      omega
    · rw [hlen]
      exact Nat.le_max_left _ _

/-- What an event does to the account, and to the size of the buffer. -/
theorem step_account (hs : s.Inv) {e : InputEvent} (h : s.step e = some (.ok t)) :
    t.received = s.received ++ e.bytes ∧
      t.received.take t.consumed = s.received.take s.consumed ++ e.taken s ∧
      t.readBuffer.storage.length ≤
        max s.readBuffer.storage.length (2 * s.received.length) := by
  cases e with
  | asyncRead =>
    simp only [SocketInput.step] at h
    split at h
    · have h := Option.some.inj h
      have hlen := length_asyncRead hs h
      unfold SocketInput.asyncRead at h
      split at h
      · cases h
        exact ⟨(List.append_nil _).symm, (List.append_nil _).symm, hlen⟩
      · obtain ⟨b, -, hret⟩ := bind_returns.mp h
        cases hret
        exact ⟨(List.append_nil _).symm, (List.append_nil _).symm, hlen⟩
    · cases h
  | arrived bytes =>
    simp only [SocketInput.step] at h
    split at h
    · cases h
    · split at h
      · obtain ⟨storage, hcopy, hret⟩ := bind_returns.mp (Option.some.inj h)
        cases hret
        have hlen : storage.length = s.readBuffer.storage.length := by
          unfold memcpy at hcopy
          split at hcopy
          · cases hcopy
            exact length_overwrite ‹_›
          · cases hcopy
        refine ⟨rfl, ?_, ?_⟩
        · show (s.received ++ bytes).take s.consumed = _
          rw [List.take_append_of_le_length hs.taken]
          exact (List.append_nil _).symm
        · show storage.length ≤ _
          rw [hlen]
          exact Nat.le_max_left _ _
      · cases h
  | failed =>
    simp only [SocketInput.step] at h
    split at h
    · cases h
    · cases h
      exact ⟨(List.append_nil _).symm, (List.append_nil _).symm, Nat.le_max_left _ _⟩
  | consume n =>
    simp only [SocketInput.step] at h
    split at h
    · split at h
      · cases h
        refine ⟨(List.append_nil _).symm, ?_, Nat.le_max_left _ _⟩
        show s.received.take (s.consumed + n) = _ ++ s.readBuffer.active.take n
        rw [hs.active, List.take_add]
      · cases h
    · cases h
  | closeSocket =>
    cases h
    exact ⟨(List.append_nil _).symm, (List.append_nil _).symm, Nat.le_max_left _ _⟩
  | delayedCloseSocket =>
    cases h
    exact ⟨(List.append_nil _).symm, (List.append_nil _).symm, Nat.le_max_left _ _⟩

end SocketInput

/-! ## Nothing is lost on the way -/

namespace Connection

variable {build : Build} {c d : Connection}

/-- Both ends are in order, what has arrived is the beginning of what was accepted, and what was
delivered the beginning of that. The read buffer is no larger than the bytes it had to hold. -/
structure Inv (build : Build) (c : Connection) : Prop where
  sender : Socket.Inv build c.sender
  armed : Socket.Armed build c.sender
  receiver : c.receiver.Inv
  arrived : c.receiver.received <+: c.sender.socketImpl.accepted
  delivered : c.delivered = c.receiver.received.take c.receiver.consumed
  size : c.receiver.readBuffer.storage.length ≤ 4096 + 2 * c.receiver.received.length
  small : c.total < 2 ^ 60

theorem inv_new (build : Build) : Inv build new where
  sender := Socket.inv_new build
  armed := fun _ hqueue => absurd rfl hqueue
  receiver := SocketInput.Inv.new
  arrived := List.prefix_refl _
  delivered := rfl
  size := Nat.le_of_eq SocketInput.length_new
  small := by decide

/-- What was accepted is what has arrived and what is on the wire. -/
theorem Inv.received_wire (h : Inv build c) :
    c.receiver.received ++ c.wire = c.sender.socketImpl.accepted := by
  obtain ⟨rest, hrest⟩ := h.arrived
  rw [wire, ← hrest, List.drop_left]

/-- **Every byte is somewhere**, in this order: taken by the handlers, in the read buffer, on the wire,
or in the queue. -/
theorem Inv.conserved (h : Inv build c) :
    c.delivered ++ c.receiver.readBuffer.active ++ c.wire ++ c.sender.pending =
      c.sender.packets.flatten := by
  rw [h.delivered, h.receiver.active, List.take_append_drop, h.received_wire, h.sender.conserved]

theorem Inv.length_received_le (h : Inv build c) : c.receiver.received.length ≤ c.total := by
  rw [total, ← h.sender.conserved, ← h.received_wire]
  simp only [List.length_append]
  omega

/-- An event at the sending end. -/
theorem Inv.send (h : Inv build c) {e : Socket.Event} (he : e.Answered (Answer.Framing build))
    {r : Except Fault Socket} (hstep : c.sender.step build e = some r) :
    ∃ t, r = .ok t ∧ (({ c with sender := t } : Connection).total < 2 ^ 60 →
      Inv build { c with sender := t }) := by
  obtain ⟨t, rfl, ht⟩ := h.sender.step he hstep
  refine ⟨t, rfl, fun hsmall => ?_⟩
  have hgrows : c.sender.socketImpl.accepted <+: t.socketImpl.accepted := Socket.accepts_step hstep
  have harmed : Socket.Armed build t := by
    cases build with
    | polling => exact fun h => nomatch h
    | iocp => exact Socket.armed_step h.sender h.armed hstep
  exact ⟨ht, harmed, h.receiver, h.arrived.trans hgrows, h.delivered, h.size, hsmall⟩

theorem Inv.closeSender (h : Inv build c) : Inv build c.closeSender := by
  unfold Connection.closeSender
  split
  · exact h
  · have hsender : Socket.Inv build
        { c.sender with
          isClosed := true
          socketImpl := { c.sender.socketImpl with sendShutDown := true } } :=
      ⟨h.sender.stream, h.sender.wellFormed, h.sender.single, h.sender.flag,
        fun hb => ⟨(h.sender.broken hb).1, rfl, (h.sender.broken hb).2.2⟩, h.sender.inFlight,
        h.sender.drained⟩
    exact ⟨hsender, h.armed, h.receiver, h.arrived, h.delivered, h.size, h.small⟩

/-- An event at the receiving end. -/
theorem Inv.receive (h : Inv build c) {e : InputEvent} (hwire : e.bytes <+: c.wire)
    {r : Except Fault SocketInput} (hstep : c.receiver.step e = some r) :
    ∃ t, r = .ok t ∧ Inv build
      { c with receiver := t, delivered := c.delivered ++ e.taken c.receiver } := by
  have hcount := h.length_received_le
  have hsmall := h.small
  have hsize := h.size
  have hbelow : SocketInput.Below r := by
    cases r with
    | error fault => trivial
    | ok t =>
      obtain ⟨-, -, hlen⟩ := SocketInput.step_account h.receiver hstep
      show t.readBuffer.storage.length < 2 ^ 62
      omega
  obtain ⟨t, rfl, ht⟩ := h.receiver.step hstep hbelow
  obtain ⟨hreceived, htaken, hlen⟩ := SocketInput.step_account h.receiver hstep
  refine ⟨t, rfl, h.sender, h.armed, ht, ?_, ?_, ?_, h.small⟩
  · show t.received <+: c.sender.socketImpl.accepted
    rw [hreceived, ← h.received_wire]
    exact (List.prefix_append_right_inj _).mpr hwire
  · show c.delivered ++ e.taken c.receiver = t.received.take t.consumed
    rw [htaken, h.delivered]
  · show t.readBuffer.storage.length ≤ 4096 + 2 * t.received.length
    rw [hreceived, List.length_append]
    omega

/-- **One event**, at either end. -/
theorem Inv.step (h : Inv build c) {e : ConnectionEvent} (he : Answered (Answer.Framing build) e)
    {r : Except Fault Connection} (hstep : c.step build e = some r) :
    ∃ d, r = .ok d ∧ (d.total < 2 ^ 60 → Inv build d) := by
  cases e with
  | send e =>
    obtain ⟨r', hr', rfl⟩ := Option.map_eq_some_iff.mp hstep
    obtain ⟨t, rfl, ht⟩ := h.send he hr'
    exact ⟨_, rfl, ht⟩
  | closeSender =>
    cases hstep
    exact ⟨_, rfl, fun _ => h.closeSender⟩
  | receive e =>
    simp only [Connection.step] at hstep
    split at hstep
    · rename_i hwire
      obtain ⟨r', hr', rfl⟩ := Option.map_eq_some_iff.mp hstep
      obtain ⟨t, rfl, ht⟩ := h.receive (List.isPrefixOf_iff_prefix.mp hwire) hr'
      exact ⟨_, rfl, fun _ => ht⟩
    · cases hstep

theorem reachable_inv (h : (system build).Reachable c) : Inv build c := by
  refine h.invariant (P := Inv build) ?_ ?_
  · rintro c₀ rfl
    exact inv_new build
  · intro c₁ c₂ _ hinv hst
    obtain ⟨e, he, hstep, hsmall⟩ := hst
    obtain ⟨d, hd, hnext⟩ := hinv.step he hstep
    cases hd
    exact hnext hsmall

/-- **A connection delivers what was queued, in order.** In every run of the two ends, in either build
of the sender: what the handlers of the receiver have taken, what is in its read buffer, what is on the
wire and what is still in the queue of the sender make up what was ever queued; and no event that can
happen faults at either end. -/
theorem delivers_in_order (h : (system build).Reachable c) :
    c.delivered ++ c.receiver.readBuffer.active ++ c.wire ++ c.sender.pending =
        c.sender.packets.flatten ∧
      ∀ e, Answered (Answer.Framing build) e → ∀ r, c.step build e = some r → ∃ d, r = .ok d := by
  have hinv := reachable_inv h
  refine ⟨hinv.conserved, ?_⟩
  intro e he r hstep
  obtain ⟨d, hd, -⟩ := hinv.step he hstep
  exact ⟨d, hd⟩

/-- A connection on which one packet was queued. -/
theorem reachable_queued : ∃ c, (system .iocp).Reachable c ∧ c.sender.isClosed = false ∧
    c.receiver.isOpen = true ∧ c.sender.packets = [[7]] := by
  let packet := packetOf [7] (by simp)
  have hactive : packet.val.active = [7] := active_packetOf [7] _
  obtain ⟨t, hstep, hpackets, hopen⟩ : ∃ t, Socket.step .iocp Socket.new (.queuePacket packet) =
      some (.ok t) ∧ t.packets = [[7]] ∧ t.isClosed = false := by
    refine ⟨⟨⟨[], [[7]], false⟩, [packet.val], false, false, true, [[7]], []⟩, ?_, rfl, rfl⟩
    simp [Socket.step, Socket.queuePacket, Socket.asyncProcessQueue, subscript, Socket.new,
      Stream.asyncWriteSome, hactive, bind, Except.bind, pure, Except.pure]
  refine ⟨{ new with sender := t }, ?_, hopen, rfl, hpackets⟩
  refine (System.Reachable.start rfl).next ⟨.send (.queuePacket packet), trivial, ?_, ?_⟩
  · simp only [step, new, hstep]
    rfl
  · rw [total, hpackets]
    decide

/-- The packet is on its way… -/
theorem delivers_in_order_queued : ∃ c, (system .iocp).Reachable c ∧ c.sender.packets = [[7]] ∧
    c.delivered ++ c.receiver.readBuffer.active ++ c.wire ++ c.sender.pending = [7] := by
  obtain ⟨c, hreach, -, -, hpackets⟩ := reachable_queued
  have hall := (delivers_in_order hreach).1
  rw [hpackets] at hall
  exact ⟨c, hreach, hpackets, hall⟩

end Connection

/-! ## Everything arrives -/

/-- The events of a read side whose peer sends and whose program goes on reading. -/
def InputEvent.Serving : InputEvent → Prop
  | .asyncRead => True
  | .arrived bytes => bytes ≠ []
  | .consume bytes => 0 < bytes
  | .failed | .closeSocket | .delayedCloseSocket => False

namespace SocketInput

variable {s t : SocketInput}

/-- What is left to do of `total` bytes: each of them arrives and is taken, and a read is asked for. -/
def work (total : Nat) (s : SocketInput) : Nat :=
  4 * (total - s.received.length) + 2 * (s.received.length - s.consumed) +
    if s.pending = none then 1 else 0

/-- **One event of a read side that is served** brings it nearer to the end. -/
theorem step_serving (hs : s.Inv) (hopen : s.isOpen = true) {e : InputEvent} (he : e.Serving)
    {total : Nat} (hfits : (s.received ++ e.bytes).length ≤ total)
    (h : s.step e = some (.ok t)) : t.isOpen = true ∧ work total t < work total s := by
  rw [List.length_append] at hfits
  have hflags : (!s.isClosed && !s.isClosing) = true := hopen
  cases e with
  | asyncRead =>
    simp only [SocketInput.step] at h
    split at h
    · rename_i hidle
      have h := Option.some.inj h
      rw [SocketInput.asyncRead, hopen] at h
      obtain ⟨b, -, hret⟩ := bind_returns.mp h
      cases hret
      refine ⟨hflags, ?_⟩
      simp only [work, hidle, if_true]
      simp
    · cases h
  | arrived bytes =>
    have hsome : 0 < bytes.length := List.length_pos_iff.mpr he
    have htaken := hs.taken
    simp only [SocketInput.step] at h
    split at h
    · cases h
    · rename_i offset room hpending
      split at h
      · obtain ⟨storage, -, hret⟩ := bind_returns.mp (Option.some.inj h)
        cases hret
        refine ⟨hflags, ?_⟩
        simp only [InputEvent.bytes] at hfits
        simp only [work, hpending, readHandlerInternal, Bool.false_eq_true, if_false, if_true,
          List.length_append, reduceCtorEq]
        omega
      · cases h
  | consume n =>
    have hn : 0 < n := he
    have hcount : s.readBuffer.getActiveSize = s.received.length - s.consumed := by
      rw [← hs.wellFormed.length_active, hs.active, List.length_drop]
    simp only [SocketInput.step] at h
    split at h
    · rename_i hidle
      split at h
      · cases h
        refine ⟨hflags, ?_⟩
        simp only [work, hidle, if_true]
        omega
      · cases h
    · cases h
  | failed => exact he.elim
  | closeSocket => exact he.elim
  | delayedCloseSocket => exact he.elim

end SocketInput

namespace Connection

variable {build : Build} {c d : Connection}

def Serving : ConnectionEvent → Prop
  | .send e => e.Serving
  | .closeSender => False
  | .receive e => e.Serving

/-- The events that have an effect. -/
def serve (build : Build) (c : Connection) (e : ConnectionEvent) : Option Connection :=
  match c.step build e with
  | some (.ok d) => if d = c then none else some d
  | _ => none

def serving (build : Build) : Machine Connection ConnectionEvent := ⟨new, serve build⟩

def work (c : Connection) : Nat := c.sender.work + c.receiver.work c.total

theorem serve_eq_some_iff {e : ConnectionEvent} :
    serve build c e = some d ↔ c.step build e = some (.ok d) ∧ d ≠ c := by
  unfold serve
  constructor
  · intro h
    split at h
    · rename_i d' hstep
      split at h
      · cases h
      · rename_i hne
        cases h
        exact ⟨hstep, hne⟩
    · cases h
  · rintro ⟨hstep, hne⟩
    rw [hstep]
    exact if_neg hne

/-- What holds while a connection that was open at `c` is served. -/
structure Served (build : Build) (c d : Connection) : Prop where
  inv : Inv build d
  sender : Socket.Served build c.sender d.sender
  reading : d.receiver.isOpen = true

theorem Served.total (h : Served build c d) : d.total = c.total := by
  rw [Connection.total, h.sender.packets]
  rfl

/-- **One event of a connection that is served.** -/
theorem Served.serve {d' : Connection} (h : Served build c d) {e : ConnectionEvent} (he : Serving e)
    (hserve : serve build d e = some d') : Served build c d' ∧ d'.work < d.work := by
  obtain ⟨hstep, hne⟩ := serve_eq_some_iff.mp hserve
  cases e with
  | closeSender => exact he.elim
  | send e =>
    obtain ⟨r, hr, hmap⟩ := Option.map_eq_some_iff.mp hstep
    obtain ⟨t, rfl, ht⟩ := h.inv.send (Socket.Event.Serving.framing he build) hr
    cases hmap
    have hchanged : t ≠ d.sender := by
      rintro rfl
      exact hne rfl
    have hsent : Socket.serve build d.sender e = some t := by
      rw [Socket.serve, hr]
      exact if_neg hchanged
    obtain ⟨hserved, hless⟩ := h.sender.serve he hsent
    have htotal : ({ d with sender := t } : Connection).total = d.total := by
      rw [Connection.total, Connection.total, hserved.packets, h.sender.packets]
    refine ⟨⟨ht (htotal ▸ h.inv.small), hserved, h.reading⟩, ?_⟩
    rw [work, work, htotal]
    exact Nat.add_lt_add_right hless _
  | receive e =>
    simp only [Connection.step] at hstep
    split at hstep
    · rename_i hwire
      have hwire := List.isPrefixOf_iff_prefix.mp hwire
      obtain ⟨r, hr, hmap⟩ := Option.map_eq_some_iff.mp hstep
      obtain ⟨t, rfl, ht⟩ := h.inv.receive hwire hr
      cases hmap
      have hfits : (d.receiver.received ++ e.bytes).length ≤ d.total := by
        have hbytes := hwire.length_le
        rw [Connection.total, ← h.inv.sender.conserved, ← h.inv.received_wire]
        simp only [List.length_append]
        omega
      obtain ⟨hopen, hless⟩ := SocketInput.step_serving h.inv.receiver h.reading he hfits hr
      exact ⟨⟨ht, h.sender, hopen⟩, Nat.add_lt_add_left hless _⟩
    · cases hstep

/-- A receiver at which nothing happens has asked for a read, and nothing is on the wire. -/
theorem Served.wire_empty (h : Served build c d)
    (hstuck : ∀ e, Serving e → Connection.serve build d e = none) : d.wire = [] := by
  -- An event that can happen and changes the receiver would have an effect.
  have hreceive : ∀ e : InputEvent, e.Serving → e.bytes <+: d.wire → ∀ r,
      d.receiver.step e = some r → r = .ok d.receiver := by
    intro e he hwire r hr
    obtain ⟨t, rfl, -⟩ := h.inv.receive hwire hr
    by_contra hne
    have hstep : d.step build (.receive e) = some (.ok
        { d with receiver := t, delivered := d.delivered ++ e.taken d.receiver }) := by
      simp only [Connection.step, List.isPrefixOf_iff_prefix.mpr hwire, if_true, hr]
      rfl
    have hchanged : ({ d with
        receiver := t, delivered := d.delivered ++ e.taken d.receiver } : Connection) ≠ d :=
      fun heq => hne (congrArg (Except.ok ∘ Connection.receiver) heq)
    have hserve := serve_eq_some_iff.mpr ⟨hstep, hchanged⟩
    rw [hstuck (.receive e) he] at hserve
    cases hserve
  cases hpending : d.receiver.pending with
  | none =>
    obtain ⟨t, hread, -⟩ := h.inv.receiver.asyncRead
    have hstep : d.receiver.step .asyncRead = some (.ok t) := by
      simp only [SocketInput.step, hpending, hread]
    cases hreceive .asyncRead trivial List.nil_prefix _ hstep
    rw [SocketInput.asyncRead, h.reading] at hread
    obtain ⟨b, -, hret⟩ := bind_returns.mp hread
    have hasked := congrArg SocketInput.pending (Except.ok.inj hret)
    rw [hpending] at hasked
    cases hasked
  | some offer =>
    obtain ⟨offset, room⟩ := offer
    cases hwire : d.wire with
    | nil => rfl
    | cons b rest =>
      obtain ⟨-, -, hroom⟩ := h.inv.receiver.offer offset room hpending
      have hfits : ([b] : Bytes).length ≤ room := hroom
      have hnext : (InputEvent.arrived [b]).bytes <+: d.wire := by
        rw [hwire]
        exact ⟨rest, rfl⟩
      obtain ⟨r, hr⟩ : ∃ r, d.receiver.step (.arrived [b]) = some r := by
        simp only [SocketInput.step, hpending, if_pos hfits]
        exact ⟨_, rfl⟩
      have hsame := hreceive (.arrived [b]) (by simp [InputEvent.Serving]) hnext r hr
      rw [hsame] at hr
      obtain ⟨hreceived, -⟩ := SocketInput.step_account h.inv.receiver hr
      have hlen := congrArg List.length hreceived
      simp [InputEvent.bytes] at hlen

/-- A sender at which nothing happens has sent everything. -/
theorem Served.drained (h : Served build c d)
    (hstuck : ∀ e, Serving e → Connection.serve build d e = none) :
    d.sender.writeQueue = [] ∧ d.sender.socketImpl.outstanding = [] := by
  refine h.sender.drained fun e he => ?_
  by_contra hsome
  obtain ⟨t, ht⟩ := Option.ne_none_iff_exists'.mp hsome
  obtain ⟨hstep, hne⟩ := Socket.serve_eq_some ht
  have hsent : d.step build (.send e) = some (.ok { d with sender := t }) := by
    simp only [Connection.step, hstep]
    rfl
  have hserve := serve_eq_some_iff.mpr ⟨hsent, fun heq => hne (congrArg Connection.sender heq)⟩
  rw [hstuck (.send e) he] at hserve
  cases hserve

/-- **Everything arrives.** Take any state a connection can get into with both ends open, and any run
from there in which the writes of the sender take something, bytes on the wire arrive and the receiver
takes bytes or asks for more, in whatever order. It is at most `work` events long; it can be carried on
to where no such event has an effect; and there everything that was queued has been taken by the
receiver or lies in its read buffer. -/
theorem everything_arrives (build : Build) (c : Connection) (h : (system build).Reachable c)
    (hopen : c.sender.isClosed = false) (hreading : c.receiver.isOpen = true)
    (es : List ConnectionEvent) (hes : ∀ e ∈ es, Serving e) (d : Connection)
    (hrun : (serving build).run c es = some d) :
    es.length ≤ c.work ∧
    (∃ es' u, (∀ e ∈ es', Serving e) ∧ (serving build).run d es' = some u ∧
      ∀ e, Serving e → serve build u e = none) ∧
    ((∀ e, Serving e → serve build d e = none) →
      d.delivered ++ d.receiver.readBuffer.active = c.sender.packets.flatten ∧
        d.wire = [] ∧ d.sender.writeQueue = [] ∧ d.sender.socketImpl.outstanding = []) := by
  have hinv := reachable_inv h
  have hc : Served build c c := ⟨hinv, .start hinv.sender hinv.armed hopen, hreading⟩
  have hstep : ∀ d e u, Serving e → Served build c d → (serving build).step d e = some u →
      Served build c u ∧ u.work < d.work := fun _ _ _ he hd hserve => hd.serve he hserve
  obtain ⟨hd, hshort, es', u, hes', hrun', -, hend⟩ := Machine.comes_to_rest hstep hc hes hrun
  refine ⟨hshort, ⟨es', u, hes', hrun', hend⟩, ?_⟩
  intro hstuck
  obtain ⟨hempty, hnone⟩ := hd.drained hstuck
  have hwire := hd.wire_empty hstuck
  have hall := hd.inv.conserved
  rw [hwire, Socket.pending, hempty, hd.sender.packets, List.flatMap_nil, List.append_nil,
    List.append_nil] at hall
  exact ⟨hall, hwire, hempty, hnone⟩

/-- …and arrives. -/
theorem everything_arrives_queued : ∃ c es d, (system .iocp).Reachable c ∧
    c.sender.packets = [[7]] ∧ (∀ e ∈ es, Serving e) ∧ (serving .iocp).run c es = some d ∧
      es.length ≤ c.work ∧ d.delivered ++ d.receiver.readBuffer.active = [7] := by
  obtain ⟨c, hreach, hopen, hreading, hpackets⟩ := reachable_queued
  obtain ⟨-, ⟨es, d, hes, hrun, hstuck⟩, -⟩ :=
    everything_arrives .iocp c hreach hopen hreading [] (by simp) c rfl
  obtain ⟨hshort, -, hend⟩ := everything_arrives .iocp c hreach hopen hreading es hes d hrun
  have hall := (hend hstuck).1
  rw [hpackets] at hall
  exact ⟨c, es, d, hreach, hpackets, hes, hrun, hshort, hall⟩

end Connection

end ServerTest.Network
