import ServerTest.Network.Socket

/-!
# Delayed closing

`DelayedCloseSocket` "marks the socket for closing after write buffer becomes empty". In the polling
build every place that pops a message closes a marked socket whose queue that has emptied
(`closeWhenDrained`), and `Update` lets a marked socket with an empty queue through to `HandleQueue`.
But `HandleQueue` returns at once when there is nothing to pop, so a socket that is marked when its
queue is already empty stays open.

Everything follows from one inversion, `handleQueue_handled`: what a call of `HandleQueue` can do to
the queue and the flags. What the stream answers plays no part, so the runs here are those with any
answers at all.
-/

set_option autoImplicit false

namespace ServerTest.Network

open Lib

namespace Socket

variable {s t : Socket}

/-- Every interleaving of packets, updates, delayed closes and completions in the polling build,
whatever the stream answers. -/
def pollingSystem : System Socket := system .polling fun _ => True

/-- Marked for closing, still open, and nothing left to send. -/
def Drained (s : Socket) : Prop := s.isClosing = true ∧ s.isClosed = false ∧ s.writeQueue = []

/-- A drained socket whose last write is over as well: it will not close by itself. -/
def Stuck (s : Socket) : Prop := s.Drained ∧ s.socketImpl.outstanding = []

/-- `Update` returns, and does not leave the socket stuck. -/
def TakesEffect (answers : Nat → Answer) (s : Socket) : Prop :=
  ∃ isOpen t, update .polling answers s = .ok (isOpen, t) ∧ ¬ t.Stuck

/-! ## What `HandleQueue` does -/

/-- There is nothing to do; or the front message stays and a write is in flight; or it is popped, and
a marked socket that has nothing left is closed. -/
inductive Handled (s : Socket) : Bool × Socket → Prop
  | idle (queue : s.writeQueue = []) : Handled s (false, s)
  | blocked (t : Socket) (queue : t.writeQueue ≠ []) (writing : t.isWritingAsync = true)
      (outstanding : s.isWritingAsync = false → ∃ buffer,
        t.socketImpl.outstanding = s.socketImpl.outstanding ++ [buffer]) : Handled s (false, t)
  | popped (again : Bool) (t : Socket) (open_ : ¬ t.Drained)
      (writing : t.isWritingAsync = s.isWritingAsync)
      (outstanding : t.socketImpl.outstanding = s.socketImpl.outstanding) : Handled s (again, t)

theorem handled_asyncProcessQueue {u : Socket} (hqueue : u.writeQueue ≠ [])
    (hwriting : u.isWritingAsync = s.isWritingAsync)
    (hout : u.socketImpl.outstanding = s.socketImpl.outstanding) :
    ∃ r, asyncProcessQueue .polling u = .ok r ∧ Handled s r := by
  unfold asyncProcessQueue
  split
  case isTrue hbusy =>
    refine ⟨_, rfl, .blocked u hqueue hbusy fun hidle => ?_⟩
    rw [← hwriting, hbusy] at hidle
    cases hidle
  case isFalse =>
    refine ⟨_, rfl, .blocked _ hqueue rfl fun _ => ⟨[], ?_⟩⟩
    rw [← hout]
    rfl

/-- Closing on an empty queue is what keeps a popping call from draining the socket. -/
theorem not_drained_closeWhenDrained (u : Socket) : ¬ u.closeWhenDrained.Drained := by
  rintro ⟨hclosing, hopen, hqueue⟩
  unfold closeWhenDrained at hclosing hopen hqueue
  split at hopen
  case isTrue hclose =>
    rw [isClosed_closeSocket] at hopen
    cases hopen
  case isFalse hkeep =>
    rw [if_neg hkeep] at hclosing hqueue
    exact hkeep (by simp [hclosing, hqueue])

theorem handled_closeWhenDrained (again : Bool) {u : Socket}
    (hwriting : u.isWritingAsync = s.isWritingAsync)
    (hout : u.socketImpl.outstanding = s.socketImpl.outstanding) :
    Handled s (again, u.closeWhenDrained) := by
  refine .popped again _ (not_drained_closeWhenDrained u) ?_ ?_
  · unfold closeWhenDrained
    split
    · rw [isWritingAsync_closeSocket, hwriting]
    · exact hwriting
  · unfold closeWhenDrained
    split
    · rw [outstanding_closeSocket, hout]
    · exact hout

theorem outstanding_writeSome (impl : Stream) (buffer : Bytes) (answer : Answer) :
    (impl.writeSome buffer answer).2.outstanding = impl.outstanding := by
  unfold Stream.writeSome
  split <;> rfl

/-- **What one call of `HandleQueue` can do.** The branches are those of the source. -/
theorem handleQueue_handled (answer : Answer) (s : Socket) :
    ∃ r, handleQueue answer s = .ok r ∧ Handled s r := by
  unfold handleQueue
  split
  case h_1 hqueue => exact ⟨_, rfl, .idle hqueue⟩
  case h_2 m rest hqueue =>
    have hout := outstanding_writeSome s.socketImpl m.active answer
    have hne : s.writeQueue ≠ [] := by simp [hqueue]
    dsimp only
    split
    · exact handled_asyncProcessQueue hne rfl hout
    · exact handled_asyncProcessQueue hne rfl hout
    · exact ⟨_, rfl, handled_closeWhenDrained false rfl hout⟩
    · split
      · exact ⟨_, rfl, handled_closeWhenDrained false rfl hout⟩
      · split
        · exact handled_asyncProcessQueue (by simp) rfl hout
        · exact ⟨_, rfl, handled_closeWhenDrained _ rfl hout⟩

/-! ## What runs keep -/

/-- The flag and the queue of a socket in the polling build: a write in flight is the only one, the
flag says so, and there is a message waiting for it. -/
structure Settled (s : Socket) : Prop where
  idle : s.isWritingAsync = false → s.socketImpl.outstanding = []
  busy : s.isWritingAsync = true →
    s.writeQueue ≠ [] ∧ ∃ buffer, s.socketImpl.outstanding = [buffer]

/-- With nothing queued nothing is in flight, so a drained socket is stuck. -/
theorem Settled.stuck_iff (h : s.Settled) : s.Stuck ↔ s.Drained := by
  refine ⟨fun hstuck => hstuck.1, fun hdrained => ⟨hdrained, ?_⟩⟩
  cases hflag : s.isWritingAsync with
  | false => exact h.idle hflag
  | true => exact absurd hdrained.2.2 (h.busy hflag).1

/-- One call of `HandleQueue` with no write in flight. -/
theorem Handled.settled {r : Bool × Socket} (h : Handled s r) (hs : s.Settled)
    (hidle : s.isWritingAsync = false) : r.2.Settled := by
  have hnone := hs.idle hidle
  cases h with
  | idle queue => exact hs
  | blocked t queue writing outstanding =>
    refine ⟨fun hflag => ?_, fun _ => ⟨queue, ?_⟩⟩
    · rw [writing] at hflag
      cases hflag
    · obtain ⟨buffer, hout⟩ := outstanding hidle
      exact ⟨buffer, by rw [hout, hnone]; rfl⟩
  | popped again t open_ writing outstanding =>
    refine ⟨fun _ => outstanding.trans hnone, fun hflag => ?_⟩
    rw [writing, hidle] at hflag
    cases hflag

/-- `HandleQueue` drains nothing that was not drained before. -/
theorem Handled.drained {r : Bool × Socket} (h : Handled s r) (hr : r.2.Drained) : s.Drained := by
  cases h with
  | idle queue => exact hr
  | blocked t queue writing outstanding => exact absurd hr.2.2 queue
  | popped again t open_ writing outstanding => exact absurd hr open_

/-- `HandleQueue` is called again only without a write in flight. -/
theorem Handled.idle_again (h : Handled s (true, t)) (hidle : s.isWritingAsync = false) :
    t.isWritingAsync = false := by
  cases h with
  | popped again t open_ writing outstanding => exact writing.trans hidle

/-- The loop of `Update`, by induction on its calls. -/
theorem handleQueueLoop_settled (answers : Nat → Answer) (hs : s.Settled)
    (hidle : s.isWritingAsync = false) :
    ∃ t, handleQueueLoop answers s = .ok t ∧ t.Settled ∧ (t.Drained → s.Drained) := by
  fun_induction handleQueueLoop answers s with
  | case1 answers s fault hcall =>
    obtain ⟨r, hr, -⟩ := handleQueue_handled (answers 0) s
    rw [hr] at hcall
    cases hcall
  | case2 answers s t hcall ih =>
    obtain ⟨r, hr, hhandled⟩ := handleQueue_handled (answers 0) s
    rw [hr] at hcall
    obtain rfl := Except.ok.inj hcall
    obtain ⟨u, hloop, hsettled, hback⟩ :=
      ih (hhandled.settled hs hidle) (hhandled.idle_again hidle)
    exact ⟨u, hloop, hsettled, fun hu => hhandled.drained (hback hu)⟩
  | case3 answers s t hcall =>
    obtain ⟨r, hr, hhandled⟩ := handleQueue_handled (answers 0) s
    rw [hr] at hcall
    obtain rfl := Except.ok.inj hcall
    exact ⟨t, rfl, hhandled.settled hs hidle, hhandled.drained⟩

/-- `Update` leaves exactly the sockets drained that it found so. -/
theorem update_settled (answers : Nat → Answer) (hs : s.Settled) :
    ∃ isOpen t, update .polling answers s = .ok (isOpen, t) ∧ t.Settled ∧
      (t.Drained ↔ s.Drained) := by
  unfold update
  by_cases hclosed : s.isClosed = true
  · exact ⟨false, s, if_pos hclosed, hs, Iff.rfl⟩
  · rw [if_neg hclosed]
    dsimp only
    by_cases hskip : (s.isWritingAsync || (s.writeQueue.isEmpty && !s.isClosing)) = true
    · exact ⟨true, s, if_pos hskip, hs, Iff.rfl⟩
    · rw [if_neg hskip]
      have hidle : s.isWritingAsync = false := by
        simp only [Bool.or_eq_true, not_or, Bool.not_eq_true] at hskip
        exact hskip.1
      by_cases hempty : s.writeQueue = []
      · -- Nothing to pop: the loop ends where it began.
        have hcall : handleQueue (answers 0) s = .ok (false, s) := by
          unfold handleQueue
          rw [hempty]
        refine ⟨true, s, ?_, hs, Iff.rfl⟩
        rw [handleQueueLoop_of_done answers hcall]
        rfl
      · obtain ⟨t, hloop, hsettled, hback⟩ := handleQueueLoop_settled answers hs hidle
        refine ⟨true, t, by rw [hloop]; rfl, hsettled, hback, fun hdrained => ?_⟩
        exact absurd hdrained.2.2 hempty

/-- A completion: the only write ends, and `HandleQueue` runs once. -/
theorem writeHandlerWrapper_settled {i : Nat} {result : Answer} (retry : Answer)
    {reported : WriteResult} {impl : Stream} (hs : s.Settled)
    (hdone : s.socketImpl.complete i result = some (reported, impl)) :
    ∃ t, { s with socketImpl := impl }.writeHandlerWrapper retry = .ok t ∧ t.Settled ∧
      (t.Drained → s.Drained) := by
  obtain ⟨buffer, hi, hwrite⟩ := Option.map_eq_some_iff.mp hdone
  have hbusy : s.isWritingAsync = true := by
    cases hflag : s.isWritingAsync with
    | true => rfl
    | false =>
      rw [hs.idle hflag] at hi
      cases hi
  obtain ⟨hqueue, one, hone⟩ := hs.busy hbusy
  have hnone : impl.outstanding = [] := by
    have hzero : i = 0 := by
      have hlt := (List.getElem?_eq_some_iff.mp hi).1
      simpa [hone] using hlt
    have hout := outstanding_writeSome
      { s.socketImpl with outstanding := s.socketImpl.outstanding.eraseIdx i } buffer result
    rw [hwrite] at hout
    rw [hout, hzero, hone]
    rfl
  have hsettled : Settled { s with socketImpl := impl, isWritingAsync := false } :=
    ⟨fun _ => hnone, fun hflag => nomatch hflag⟩
  obtain ⟨r, hr, hhandled⟩ :=
    handleQueue_handled retry { s with socketImpl := impl, isWritingAsync := false }
  refine ⟨r.2, ?_, hhandled.settled hsettled rfl, fun hdrained => hhandled.drained hdrained⟩
  unfold writeHandlerWrapper
  rw [hr]
  rfl

/-- Every event keeps a socket settled, and only a delayed close on an empty queue drains it. -/
theorem step_settled {e : Event} {r : Except Fault Socket} (hs : s.Settled)
    (h : step .polling s e = some r) :
    ∃ t, r = .ok t ∧ t.Settled ∧
      (t.Drained → s.Drained ∨
        e = .delayedCloseSocket ∧ s.writeQueue = [] ∧ s.isClosed = false) := by
  cases e with
  | queuePacket buffer =>
    cases h
    refine ⟨_, rfl, ⟨hs.idle, fun hflag => ⟨by simp, (hs.busy hflag).2⟩⟩, fun hdrained => ?_⟩
    exact absurd hdrained.2.2 (by simp)
  | update answers =>
    obtain ⟨isOpen, t, hupdate, hsettled, hback⟩ := update_settled answers hs
    cases h
    refine ⟨t, by rw [hupdate]; rfl, hsettled, fun hdrained => Or.inl (hback.mp hdrained)⟩
  | delayedCloseSocket =>
    cases h
    exact ⟨_, rfl, ⟨hs.idle, hs.busy⟩,
      fun hdrained => Or.inr ⟨rfl, hdrained.2.2, hdrained.2.1⟩⟩
  | completion i result retry =>
    obtain ⟨⟨reported, impl⟩, hdone, h⟩ := Option.map_eq_some_iff.mp h
    obtain ⟨t, hrun, hsettled, hback⟩ := writeHandlerWrapper_settled retry hs hdone
    exact ⟨t, h.symm.trans hrun, hsettled, fun hdrained => Or.inl (hback hdrained)⟩

theorem settled_new : new.Settled := ⟨fun _ => rfl, fun hflag => nomatch hflag⟩

theorem reachable_settled (h : pollingSystem.Reachable s) : s.Settled := by
  refine h.invariant (P := Settled) ?_ ?_
  · intro s₀ h₀
    rw [h₀]
    exact settled_new
  · rintro s t - hs ⟨e, -, hstep⟩
    obtain ⟨u, hu, hsettled, -⟩ := step_settled hs hstep
    obtain rfl := Except.ok.inj hu
    exact hsettled

/-! ## When a delayed close takes effect -/

/-- The condition on a step: whoever asks for a delayed close finds something queued, or the socket
closed. -/
def Timely (s : Socket) (e : Event) : Prop :=
  e = .delayedCloseSocket → s.writeQueue ≠ [] ∨ s.isClosed = true

/-- The runs all of whose steps are timely. -/
def timelySystem : System Socket where
  init s := s = new
  step s t := ∃ e, s.Timely e ∧ step .polling s e = some (.ok t)

theorem reachable_of_timely (h : timelySystem.Reachable s) : pollingSystem.Reachable s := by
  refine System.Reachable.mono (S := timelySystem) (T := pollingSystem) (fun _ h₀ => h₀) ?_ h
  rintro s t ⟨e, -, hstep⟩
  refine ⟨e, ?_, hstep⟩
  cases e with
  | queuePacket buffer => trivial
  | update answers => exact fun _ => trivial
  | delayedCloseSocket => trivial
  | completion i result retry => exact ⟨trivial, trivial⟩

theorem not_drained_of_timely (h : timelySystem.Reachable s) : ¬ s.Drained := by
  refine h.invariant (P := fun s => ¬ s.Drained) ?_ ?_
  · intro s₀ h₀ hdrained
    rw [h₀] at hdrained
    cases hdrained.1
  · rintro s t hr hs ⟨e, htimely, hstep⟩ hdrained
    obtain ⟨u, hu, -, hback⟩ := step_settled (reachable_settled (reachable_of_timely hr)) hstep
    obtain rfl := Except.ok.inj hu
    rcases hback hdrained with hbefore | ⟨rfl, hempty, hopen⟩
    · exact hs hbefore
    · rcases htimely rfl with hqueued | hclosed
      · exact hqueued hempty
      · rw [hopen] at hclosed
        cases hclosed

theorem takesEffect_iff (hs : s.Settled) (answers : Nat → Answer) :
    s.TakesEffect answers ↔ ¬ s.Drained := by
  obtain ⟨isOpen, t, hupdate, hsettled, hback⟩ := update_settled answers hs
  rw [← hback, ← hsettled.stuck_iff]
  constructor
  · rintro ⟨isOpen', t', hupdate', hnot⟩
    rw [hupdate] at hupdate'
    cases hupdate'
    exact hnot
  · intro hnot
    exact ⟨isOpen, t, hupdate, hnot⟩

/-- **When a delayed close takes effect.** From any reachable state, `Update` leaves no marked socket
open with nothing to send exactly when it did not find it so. And in every run in which a delayed
close is asked for only while there is something queued, it never does. -/
theorem delayed_close_takes_effect (s : Socket) :
    (pollingSystem.Reachable s → ∀ answers, s.TakesEffect answers ↔ ¬ s.Drained) ∧
    (timelySystem.Reachable s → ¬ s.Stuck ∧ ∀ answers, s.TakesEffect answers) := by
  refine ⟨fun h => takesEffect_iff (reachable_settled h), fun h => ?_⟩
  have hnot := not_drained_of_timely h
  have hs := reachable_settled (reachable_of_timely h)
  exact ⟨fun hstuck => hnot hstuck.1, fun answers => (takesEffect_iff hs answers).mpr hnot⟩

/-- A packet is queued, the socket is marked, and the next `Update` sends the one and closes the
other. -/
theorem delayed_close_after_packet : ∃ s t, timelySystem.Reachable s ∧ s.isClosing = true ∧
    update .polling (fun _ => .sent) s = .ok (true, t) ∧ t.isClosed = true ∧
    s.TakesEffect fun _ => .sent := by
  let packet := packetOf [7] (by simp)
  have hactive : packet.val.active = [7] := active_packetOf [7] _
  have hsize : packet.val.getActiveSize = 1 := getActiveSize_packetOf [7] _
  have hqueued : timelySystem.Reachable
      ⟨⟨[], [], false⟩, [packet.val], false, false, false, [[7]], []⟩ :=
    (System.Reachable.start rfl).next ⟨.queuePacket packet, fun h => (nomatch h), by
      simp [step, queuePacket, new, hactive, pure, Except.pure]⟩
  have hmarked : timelySystem.Reachable
      ⟨⟨[], [], false⟩, [packet.val], false, true, false, [[7]], []⟩ :=
    hqueued.next ⟨.delayedCloseSocket, fun _ => Or.inl (by simp), rfl⟩
  let closed : Socket :=
    Socket.closeSocket ⟨⟨[7], [], false⟩, [], false, true, false, [[7]], []⟩ .delayedClose
  have hcall : handleQueue .sent ⟨⟨[], [], false⟩, [packet.val], false, true, false, [[7]], []⟩ =
      .ok (false, closed) := by
    simp [handleQueue, closeWhenDrained, Stream.writeSome, hactive, hsize, closed]
  refine ⟨_, closed, hmarked, rfl, ?_, rfl, ((delayed_close_takes_effect _).2 hmarked).2 _⟩
  simp only [update, handleQueueLoop_of_done (fun _ => WriteResult.sent) hcall]
  rfl

/-- A socket that is marked with nothing queued stays open, `Update` or not. -/
theorem not_takesEffect_idle :
    ¬ ∀ s, pollingSystem.Reachable s → ∀ answers, s.TakesEffect answers := by
  intro h
  have hmarked : pollingSystem.Reachable { new with isClosing := true } :=
    (System.Reachable.start rfl).next ⟨.delayedCloseSocket, trivial, rfl⟩
  obtain ⟨isOpen, t, hupdate, hnot⟩ := h _ hmarked fun _ => .sent
  have hidle : update .polling (fun _ => .sent) { new with isClosing := true } =
      .ok (true, { new with isClosing := true }) := by
    have hcall : handleQueue .sent { new with isClosing := true } =
        .ok (false, { new with isClosing := true }) := rfl
    simp only [update, handleQueueLoop_of_done (fun _ => WriteResult.sent) hcall]
    rfl
  rw [hidle] at hupdate
  cases hupdate
  exact hnot ⟨⟨rfl, rfl, rfl⟩, rfl⟩

end Socket

end ServerTest.Network
