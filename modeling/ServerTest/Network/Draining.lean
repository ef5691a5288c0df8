import ServerTest.Network.SocketOutput

/-!
# A socket that is served drains

`SocketOutput` says that what a socket has sent is right, and that holds of a socket that sends
nothing. Here the stream answers: every write takes something, and the writes that were started
complete. Then the socket sends everything that was queued, in both builds and in whatever order the
completions and the calls of `Update` come, in a number of steps that is bounded by what was queued;
and a delayed close that was asked for while there was something to send happens at the end.

What can stop it is not here. A stream that reports errors closes the IOCP socket, and the polling one
sends nothing more once it is closed, also what is queued afterwards.
-/

set_option autoImplicit false

namespace ServerTest.Network

open Lib

/-- The write succeeds, and takes something if anything was offered. -/
def Answer.Accepting (answer : Answer) : Prop :=
  ∀ offered, ∃ bytes, answer offered = .sent bytes ∧ bytes ≤ offered ∧ (bytes = 0 → offered = 0)

theorem Answer.Accepting.lawful {answer : Answer} (h : answer.Accepting) : answer.Lawful := by
  intro offered bytes hsent
  obtain ⟨bytes', hsent', hbounds⟩ := h offered
  rw [hsent] at hsent'
  cases hsent'
  exact hbounds

theorem Answer.Accepting.keepsUnsent {answer : Answer} (h : answer.Accepting) :
    answer.KeepsUnsent := by
  intro offered value _ hfail
  obtain ⟨bytes, hsent, -⟩ := h offered
  rw [hfail] at hsent
  cases hsent

theorem accepting_sendAll : Answer.Accepting .sent :=
  fun offered => ⟨offered, rfl, Nat.le_refl _, id⟩

namespace Socket

/-- The events of a socket that is served: nothing new is asked of it, and its writes succeed. -/
def Event.Serving : Event → Prop
  | .queuePacket _ | .delayedCloseSocket => False
  | .update answers => ∀ i, (answers i).Accepting
  | .completion _ result retry => result.Accepting ∧ retry.Accepting

/-- The events that have an effect. `Update` of a socket that waits or has nothing to do has none. -/
def serve (build : Build) (s : Socket) (e : Event) : Option Socket :=
  match step build s e with
  | some (.ok t) => if t = s then none else some t
  | _ => none

def serving (build : Build) : Machine Socket Event := ⟨new, serve build⟩

/-! ## What is left to send -/

/-- Bytes and messages in the queue. -/
def load (s : Socket) : Nat := s.pending.length + s.writeQueue.length

/-- A write that was started is less than half of what it is for. -/
def work (s : Socket) : Nat := 2 * s.load + s.socketImpl.outstanding.length

variable {build : Build} {s t u : Socket}

/-- What writing at the front of the queue does. -/
structure Sends (s t : Socket) : Prop where
  packets : t.packets = s.packets
  closing : t.isClosing = s.isClosing
  less : t.load < s.load
  closes : t.isClosing = true → t.writeQueue = [] → t.isClosed = true
  closed : t.isClosed = true → s.isClosed = true ∨ t.writeQueue = []

theorem Sends.trans (h : Sends s t) (h' : Sends t u) : Sends s u where
  packets := h'.packets.trans h.packets
  closing := h'.closing.trans h.closing
  less := Nat.lt_trans h'.less h.less
  closes := h'.closes
  closed hu := by
    rcases h'.closed hu with ht | hempty
    · rcases h.closed ht with hs | hnone
      · exact Or.inl hs
      · -- Nothing is sent from an empty queue.
        have hzero : t.load = 0 := by simp [load, pending, hnone]
        have hless := h'.less
        omega
    · exact Or.inr hempty

theorem load_cons {m : MessageBuffer} {rest : List MessageBuffer} (h : s.writeQueue = m :: rest) :
    s.load = m.active.length + (rest.flatMap MessageBuffer.active).length + rest.length + 1 := by
  simp only [load, pending, h, List.flatMap_cons, List.length_append, List.length_cons]
  omega

@[simp] theorem isClosing_closeSocket (s : Socket) (cause : CloseCause) :
    (s.closeSocket cause).isClosing = s.isClosing := by
  by_cases h : s.isClosed <;> simp [closeSocket, h]

/-- The front message is done with, and the socket closes if it was the last and that was asked for. -/
theorem sends_pop {m : MessageBuffer} {rest : List MessageBuffer} (hqueue : s.writeQueue = m :: rest)
    (impl : Stream) :
    Sends s ({ s with writeQueue := rest, socketImpl := impl }.closeWhenDrained) ∧
      ({ s with writeQueue := rest, socketImpl := impl }.closeWhenDrained).socketImpl.outstanding =
        impl.outstanding := by
  have hless : ∀ t : Socket, t.writeQueue = rest → t.load < s.load := by
    intro t ht
    rw [load_cons hqueue, load, pending, ht]
    omega
  unfold closeWhenDrained
  split
  · rename_i hdrained
    simp only [Bool.and_eq_true, List.isEmpty_iff] at hdrained
    refine ⟨⟨?_, ?_, hless _ ?_, ?_, ?_⟩, ?_⟩
    · simp
    · simp
    · simp
    · simp
    · exact fun _ => Or.inr (by simpa using hdrained.2)
    · simp
  · rename_i hnot
    refine ⟨⟨rfl, rfl, hless _ rfl, ?_, ?_⟩, rfl⟩
    · intro hclosing hempty
      simp only [Bool.and_eq_true, List.isEmpty_iff] at hnot
      exact absurd ⟨hclosing, hempty⟩ hnot
    · exact Or.inl

/-- Part of the front message is sent. -/
theorem sends_part {m : MessageBuffer} {rest : List MessageBuffer} (hqueue : s.writeQueue = m :: rest)
    (hm : m.WellFormed) {bytes : Nat} (hle : bytes ≤ m.getActiveSize) (hsome : bytes ≠ 0)
    (impl : Stream) (isWritingAsync : Bool) :
    Sends s { s with
      writeQueue := m.readCompleted bytes :: rest
      socketImpl := impl
      isWritingAsync := isWritingAsync } where
  packets := rfl
  closing := rfl
  less := by
    rw [load_cons hqueue, load_cons rfl, hm.active_readCompleted hle, List.length_drop,
      hm.length_active]
    omega
  closes _ := nofun
  closed := Or.inl

/-! ## The polling build -/

/-- `AsyncProcessQueue` starts one write at most. -/
theorem asyncProcessQueue_polling (s : Socket) :
    ∃ impl isWritingAsync, asyncProcessQueue .polling s =
      .ok (false, { s with socketImpl := impl, isWritingAsync := isWritingAsync }) ∧
      impl.outstanding.length ≤ s.socketImpl.outstanding.length + 1 := by
  unfold asyncProcessQueue
  split
  · exact ⟨s.socketImpl, s.isWritingAsync, rfl, Nat.le_succ _⟩
  · refine ⟨s.socketImpl.asyncWriteSome [], true, rfl, ?_⟩
    simp [Stream.asyncWriteSome]

/-- `HandleQueue` with a message there. It asks to be called again only with another one there, and
without having started a write. -/
theorem handleQueue_sends {m : MessageBuffer} {rest : List MessageBuffer}
    (hqueue : s.writeQueue = m :: rest) (hm : m.WellFormed) {answer : Answer}
    (hanswer : answer.Accepting) :
    ∃ again t, handleQueue answer s = .ok (again, t) ∧ Sends s t ∧
      t.socketImpl.outstanding.length ≤ s.socketImpl.outstanding.length + 1 ∧
      (again = true → t.writeQueue ≠ [] ∧ t.socketImpl.outstanding = s.socketImpl.outstanding) := by
  obtain ⟨bytes, hsent, hle, hzero⟩ := hanswer m.active.length
  have hactive : m.active.length = m.getActiveSize := hm.length_active
  let impl : Stream := { s.socketImpl with accepted := s.socketImpl.accepted ++ m.active.take bytes }
  obtain ⟨hpop, hpopped⟩ := sends_pop hqueue impl
  unfold handleQueue Stream.writeSome
  simp only [hqueue, hsent]
  by_cases hnone : bytes = 0
  · rw [if_pos hnone]
    exact ⟨false, _, rfl, hpop, by rw [hpopped]; exact Nat.le_succ _, nofun⟩
  · rw [if_neg hnone]
    by_cases hpart : bytes < m.getActiveSize
    · rw [if_pos hpart]
      obtain ⟨impl', flag, hrun, hone⟩ := asyncProcessQueue_polling
        { s with socketImpl := impl, writeQueue := m.readCompleted bytes :: rest }
      exact ⟨false, _, hrun, sends_part hqueue hm (Nat.le_of_lt hpart) hnone impl' flag, hone, nofun⟩
    · rw [if_neg hpart]
      refine ⟨_, _, rfl, hpop, by rw [hpopped]; exact Nat.le_succ _, ?_⟩
      intro hagain
      exact ⟨by simpa using hagain, hpopped⟩

/-- The loop of `Update`, by induction on the length of the queue. -/
theorem handleQueueLoop_sends {s t : Socket} (h : Inv .polling s) (hqueue : s.writeQueue ≠ [])
    {answers : Nat → Answer} (hanswers : ∀ i, (answers i).Accepting)
    (hrun : handleQueueLoop answers s = .ok t) :
    Sends s t ∧ t.socketImpl.outstanding.length ≤ s.socketImpl.outstanding.length + 1 := by
  obtain ⟨m, rest, hcons⟩ := List.exists_cons_of_ne_nil hqueue
  have hm : m.WellFormed := h.wellFormed m (by simp [hcons])
  obtain ⟨again, u, hcall, hsends, hone, hagain⟩ := handleQueue_sends hcons hm (hanswers 0)
  obtain ⟨again', u', hcall', hinv⟩ :=
    h.handleQueue (hanswers 0).lawful (hanswers 0).keepsUnsent
  rw [hcall] at hcall'
  cases hcall'
  cases again with
  | false =>
    rw [handleQueueLoop_of_done answers hcall] at hrun
    cases hrun
    exact ⟨hsends, hone⟩
  | true =>
    have hnext : handleQueueLoop (fun i => answers (i + 1)) u = .ok t := by
      rw [handleQueueLoop] at hrun
      split at hrun
      · cases hrun
      · rename_i u' hu
        rw [hcall] at hu
        cases hu
        exact hrun
      · rename_i u' hu
        rw [hcall] at hu
        cases hu
    obtain ⟨hmore, hsame⟩ := hagain rfl
    obtain ⟨hlater, hlast⟩ := handleQueueLoop_sends hinv hmore (fun i => hanswers (i + 1)) hnext
    exact ⟨hsends.trans hlater, hsame ▸ hlast⟩
termination_by s.load
decreasing_by exact hsends.less

/-- `Update` of a socket with something to send and no write under way. -/
theorem update_sends (h : Inv .polling s) (hopen : s.isClosed = false)
    (hidle : s.isWritingAsync = false) (hqueue : s.writeQueue ≠ []) {answers : Nat → Answer}
    (hanswers : ∀ i, (answers i).Accepting) :
    ∃ t, update .polling answers s = .ok (true, t) ∧ Sends s t ∧
      t.socketImpl.outstanding.length ≤ s.socketImpl.outstanding.length + 1 := by
  obtain ⟨t, hrun, -⟩ := h.handleQueueLoop fun i => ⟨(hanswers i).lawful, (hanswers i).keepsUnsent⟩
  refine ⟨t, ?_, handleQueueLoop_sends h hqueue hanswers hrun⟩
  have hsome : s.writeQueue.isEmpty = false := by simpa using hqueue
  simp [update, hopen, hidle, hsome, hrun, bind, Except.bind, pure, Except.pure]

/-- …and of any other socket. -/
theorem update_idle {answers : Nat → Answer}
    (hno : s.isClosed = true ∨ s.isWritingAsync = true ∨ s.writeQueue = [])
    {isOpen : Bool} (h : update .polling answers s = .ok (isOpen, t)) : t = s := by
  unfold update at h
  split at h
  · cases h
    rfl
  · rename_i hopen
    dsimp only at h
    split at h
    · cases h
      rfl
    · rename_i hsend
      -- The queue is empty and a close was asked for.
      have hempty : s.writeQueue = [] := by
        rcases hno with hclosed | hwriting | hempty
        · exact absurd hclosed hopen
        · rw [hwriting] at hsend
          exact absurd rfl hsend
        · exact hempty
      have hdone : handleQueue (answers 0) s = .ok (false, s) := by
        simp only [handleQueue, hempty]
      rw [handleQueueLoop_of_done answers hdone] at h
      cases h
      rfl

/-- A completion has been dealt with: something was sent, or there was nothing to send. -/
structure Completes (s t : Socket) : Prop where
  less : t.work < s.work
  sends : Sends s t ∨ t.packets = s.packets ∧ t.isClosing = s.isClosing ∧
    t.isClosed = s.isClosed ∧ t.writeQueue = s.writeQueue

/-- If a write is under way, sending may start the next one. -/
theorem Sends.completes (h : Sends s t) (hone : s.socketImpl.outstanding.length = 1)
    (hnext : t.socketImpl.outstanding.length ≤ 1) : Completes s t where
  less := by
    have hless := h.less
    rw [work, work, hone]
    omega
  sends := Or.inl h

/-- The write of no bytes has completed. -/
theorem writeHandlerWrapper_completes (h : Inv .polling s) {i : Nat} {result retry : Answer}
    {reported : WriteResult} {impl : Stream} (hretry : retry.Accepting)
    (hdone : s.socketImpl.complete i result = some (reported, impl))
    (hrun : { s with socketImpl := impl }.writeHandlerWrapper retry = .ok t) : Completes s t := by
  obtain ⟨buffer, hi, hwrite⟩ := Option.map_eq_some_iff.mp hdone
  obtain ⟨rfl, hout, -⟩ := h.of_outstanding hi
  have hone : s.socketImpl.outstanding.length = 1 := by rw [hout]; rfl
  have hnone : impl.outstanding = [] := by
    rw [hout] at hwrite
    unfold Stream.writeSome at hwrite
    split at hwrite <;> cases hwrite <;> rfl
  obtain ⟨⟨again, u⟩, hcall, hret⟩ := bind_returns.mp hrun
  cases hret
  cases hqueue : s.writeQueue with
  | nil =>
    simp only [handleQueue, hqueue] at hcall
    cases hcall
    refine ⟨?_, Or.inr ⟨rfl, rfl, rfl, hqueue.symm⟩⟩
    simp only [work, load, pending, hqueue, hnone, hone]
    exact Nat.lt_succ_self _
  | cons m rest =>
    have hm : m.WellFormed := h.wellFormed m (by simp [hqueue])
    obtain ⟨again', u', hcall', hsends, hnext, -⟩ := handleQueue_sends
      (s := { s with socketImpl := impl, isWritingAsync := false }) hqueue hm hretry
    rw [hcall'] at hcall
    cases hcall
    rw [hnone] at hnext
    exact Sends.completes ⟨hsends.packets, hsends.closing, hsends.less, hsends.closes, hsends.closed⟩
      hone hnext

/-! ## The IOCP build -/

/-- The end of `WriteHandler`, after something was sent. -/
theorem writeNext_sends {a : Socket} (hpackets : s.packets = a.packets)
    (hclosing : s.isClosing = a.isClosing) (hclosed : s.isClosed = a.isClosed)
    (hless : s.load < a.load) (hnone : s.socketImpl.outstanding = [])
    (hrun : s.writeNext = .ok t) : Sends a t ∧ t.socketImpl.outstanding.length ≤ 1 := by
  unfold writeNext at hrun
  cases hqueue : s.writeQueue with
  | nil =>
    simp only [hqueue, List.isEmpty_nil, Bool.not_true, Bool.false_eq_true, if_false] at hrun
    split at hrun
    · cases hrun
      refine ⟨⟨by simpa using hpackets, by simpa using hclosing, ?_, by simp, ?_⟩, by simp [hnone]⟩
      · simpa [load, pending] using hless
      · exact fun _ => Or.inr (by simpa using hqueue)
    · rename_i hstays
      cases hrun
      refine ⟨⟨hpackets, hclosing, hless, ?_, ?_⟩, by simp [hnone]⟩
      · exact fun hc => absurd hc hstays
      · exact fun hc => Or.inl (hclosed ▸ hc)
  | cons m rest =>
    simp only [hqueue, List.isEmpty_cons, Bool.not_false, if_true] at hrun
    obtain ⟨⟨again, u⟩, hcall, hret⟩ := bind_returns.mp hrun
    cases hret
    unfold asyncProcessQueue at hcall
    split at hcall
    · cases hcall
      refine ⟨⟨hpackets, hclosing, hless, ?_, ?_⟩, by simp [hnone]⟩
      · intro _ hempty
        rw [hqueue] at hempty
        cases hempty
      · exact fun hc => Or.inl (hclosed ▸ hc)
    · obtain ⟨buffer, -, hret⟩ := bind_returns.mp hcall
      cases hret
      refine ⟨⟨hpackets, hclosing, hless, ?_, ?_⟩, by simp [Stream.asyncWriteSome, hnone]⟩
      · intro _ hempty
        rw [hqueue] at hempty
        cases hempty
      · exact fun hc => Or.inl (hclosed ▸ hc)

theorem writeHandler_completes (h : Inv .iocp s) {i : Nat} {result : Answer}
    {reported : WriteResult} {impl : Stream} (hresult : result.Accepting)
    (hdone : s.socketImpl.complete i result = some (reported, impl))
    (hrun : { s with socketImpl := impl }.writeHandler reported = .ok t) : Completes s t := by
  obtain ⟨buffer, hi, hwrite⟩ := Option.map_eq_some_iff.mp hdone
  obtain ⟨rfl, hout, -⟩ := h.of_outstanding hi
  have hone : s.socketImpl.outstanding.length = 1 := by rw [hout]; rfl
  obtain ⟨m, rest, hqueue, rfl⟩ := h.inFlight buffer (by simp [hout])
  have hm : m.WellFormed := h.wellFormed m (by simp [hqueue])
  obtain ⟨bytes, hsent, hle, hzero⟩ := hresult m.active.length
  unfold Stream.writeSome at hwrite
  simp only [hsent, hout, List.eraseIdx_cons_zero] at hwrite
  obtain ⟨rfl, rfl⟩ := Prod.mk.inj hwrite
  let after : Socket := { s with socketImpl :=
    ⟨s.socketImpl.accepted ++ m.active.take bytes, [], s.socketImpl.sendShutDown⟩ }
  have hrun : after.writeHandler (.sent bytes) = .ok t := hrun
  rw [writeHandler_sent_eq (s := after) hqueue] at hrun
  rw [hm.length_active] at hle hzero
  split at hrun
  · have hless : load { after with isWritingAsync := false, writeQueue := rest } < s.load := by
      show (rest.flatMap MessageBuffer.active).length + rest.length < s.load
      rw [load_cons hqueue]
      omega
    obtain ⟨hsends, hnext⟩ :=
      writeNext_sends (s := { after with isWritingAsync := false, writeQueue := rest }) (a := s)
        rfl rfl rfl hless rfl hrun
    exact hsends.completes hone hnext
  · rename_i hleft
    have hless : load { after with
        isWritingAsync := false
        writeQueue := m.readCompleted bytes :: rest } < s.load := by
      have hactive : (m.readCompleted bytes).active.length = m.getActiveSize - bytes := by
        rw [hm.active_readCompleted hle, List.length_drop, hm.length_active]
      have hsize := (hm.readCompleted hle).length_active
      rw [load_cons hqueue, load_cons rfl, hactive, hm.length_active]
      omega
    obtain ⟨hsends, hnext⟩ :=
      writeNext_sends (s := { after with
        isWritingAsync := false
        writeQueue := m.readCompleted bytes :: rest }) (a := s) rfl rfl rfl hless rfl hrun
    exact hsends.completes hone hnext

/-- In the IOCP build something in the queue means that a write is under way, or has failed. -/
def Armed (build : Build) (s : Socket) : Prop :=
  build = .iocp → s.writeQueue ≠ [] → s.isWritingAsync = true

theorem armed_asyncProcessQueue {r : Bool × Socket} (h : asyncProcessQueue .iocp s = .ok r) :
    r.2.isWritingAsync = true := by
  unfold asyncProcessQueue at h
  split at h
  · rename_i hflag
    cases h
    exact hflag
  · obtain ⟨buffer, -, hret⟩ := bind_returns.mp h
    cases hret
    rfl

theorem armed_writeNext (h : s.writeNext = .ok t) : Armed .iocp t := by
  intro _ hqueue
  unfold writeNext at h
  split at h
  · obtain ⟨r, hcall, hret⟩ := bind_returns.mp h
    cases hret
    exact armed_asyncProcessQueue hcall
  · rename_i hempty
    have hempty : s.writeQueue = [] := by simpa using hempty
    split at h
    · cases h
      rw [writeQueue_closeSocket] at hqueue
      exact absurd hempty hqueue
    · cases h
      exact absurd hempty hqueue

theorem armed_step (hs : Inv .iocp s) (harmed : Armed .iocp s) {e : Event}
    (h : step .iocp s e = some (.ok t)) : Armed .iocp t := by
  cases e with
  | queuePacket buffer =>
    obtain ⟨r, hcall, hret⟩ := bind_returns.mp (Option.some.inj h)
    cases hret
    exact fun _ _ => armed_asyncProcessQueue hcall
  | update answers =>
    obtain ⟨⟨isOpen, u⟩, hcall, hret⟩ := bind_returns.mp (Option.some.inj h)
    cases hret
    unfold update at hcall
    split at hcall <;> cases hcall <;> exact harmed
  | delayedCloseSocket =>
    cases h
    exact harmed
  | completion i result retry =>
    obtain ⟨⟨reported, impl⟩, hdone, hrun⟩ := Option.map_eq_some_iff.mp h
    obtain ⟨buffer, hi, -⟩ := Option.map_eq_some_iff.mp hdone
    obtain ⟨-, hout, -⟩ := hs.of_outstanding hi
    cases reported with
    | failed error =>
      -- The flag stays up for good.
      cases hrun
      intro _ _
      rw [isWritingAsync_closeSocket]
      exact hs.flag.mpr (Or.inl (by rw [hout]; rfl))
    | sent bytes =>
      obtain ⟨front, -, hnext⟩ := bind_returns.mp hrun
      simp only at hnext
      split at hnext
      · exact armed_writeNext hnext
      · exact armed_writeNext hnext

theorem reachable_armed (h : (system build (Answer.Framing build)).Reachable s) : Armed build s := by
  cases build with
  | polling => exact nofun
  | iocp =>
    refine h.invariant (P := Armed .iocp) ?_ ?_
    · rintro s₀ rfl
      exact fun _ hqueue => absurd rfl hqueue
    · intro s₁ s₂ hreach harmed hstep
      obtain ⟨e, -, hst⟩ := hstep
      exact armed_step (reachable_inv hreach) harmed hst

/-! ## Both builds -/

theorem serve_eq_some {e : Event} (h : serve build s e = some t) :
    step build s e = some (.ok t) ∧ t ≠ s := by
  unfold serve at h
  split at h
  · split at h
    · cases h
    · rename_i hstep hne
      cases h
      exact ⟨hstep, hne⟩
  · cases h

/-- **One event of a socket that is served** brings it nearer to the end. -/
theorem completion_completes (h : Inv build s) {i : Nat} {result retry : Answer}
    (hresult : result.Accepting) (hretry : retry.Accepting)
    (hstep : step build s (.completion i result retry) = some (.ok t)) : Completes s t := by
  obtain ⟨⟨reported, impl⟩, hdone, hrun⟩ := Option.map_eq_some_iff.mp hstep
  cases build with
  | iocp => exact writeHandler_completes h hresult hdone hrun
  | polling => exact writeHandlerWrapper_completes h hretry hdone hrun

theorem serve_completes (h : Inv build s) {e : Event} (he : e.Serving)
    (hserve : serve build s e = some t) : Completes s t := by
  obtain ⟨hstep, hne⟩ := serve_eq_some hserve
  cases e with
  | queuePacket => exact he.elim
  | delayedCloseSocket => exact he.elim
  | completion i result retry => exact completion_completes h he.1 he.2 hstep
  | update answers =>
    obtain ⟨⟨isOpen, u⟩, hcall, hret⟩ := bind_returns.mp (Option.some.inj hstep)
    cases hret
    cases build with
    | iocp =>
      unfold update at hcall
      split at hcall <;> cases hcall <;> exact absurd rfl hne
    | polling =>
      by_cases hno : s.isClosed = true ∨ s.isWritingAsync = true ∨ s.writeQueue = []
      · exact absurd (update_idle hno hcall) hne
      · simp only [not_or, Bool.not_eq_true] at hno
        obtain ⟨hopen, hidle, hqueue⟩ := hno
        obtain ⟨u, hcall', hsends, hone⟩ := update_sends h hopen hidle hqueue he
        rw [hcall'] at hcall
        cases hcall
        have hless := hsends.less
        refine ⟨?_, Or.inl hsends⟩
        rw [work, work]
        omega

theorem Event.Serving.framing {e : Event} (h : e.Serving) (build : Build) :
    e.Answered (Answer.Framing build) := by
  cases e with
  | queuePacket => exact h.elim
  | delayedCloseSocket => exact h.elim
  | update answers => exact fun i => ⟨(h i).lawful, fun _ => (h i).keepsUnsent⟩
  | completion i result retry =>
    exact ⟨⟨h.1.lawful, fun _ => h.1.keepsUnsent⟩, ⟨h.2.lawful, fun _ => h.2.keepsUnsent⟩⟩

/-- What holds while a socket that was open at `s` is served. -/
structure Served (build : Build) (s t : Socket) : Prop where
  inv : Inv build t
  armed : Armed build t
  packets : t.packets = s.packets
  closing : t.isClosing = s.isClosing
  closed : t.isClosed = true → t.writeQueue = []
  closes : s.writeQueue ≠ [] → t.isClosing = true → t.writeQueue = [] → t.isClosed = true

theorem Served.start (hs : Inv build s) (harmed : Armed build s) (hopen : s.isClosed = false) :
    Served build s s where
  inv := hs
  armed := harmed
  packets := rfl
  closing := rfl
  closed hclosed := by
    rw [hopen] at hclosed
    cases hclosed
  closes hqueue _ hempty := absurd hempty hqueue

theorem Served.serve (h : Served build s t) {e : Event} (he : e.Serving)
    (hserve : serve build t e = some u) : Served build s u ∧ u.work < t.work := by
  obtain ⟨hstep, -⟩ := serve_eq_some hserve
  obtain ⟨u', hu', hinv⟩ := h.inv.step (he.framing build) hstep
  cases hu'
  have harmed : Armed build u := by
    cases build with
    | polling => exact nofun
    | iocp => exact armed_step h.inv h.armed hstep
  obtain ⟨hless, hsends | ⟨hpackets, hclosing, hclosed, hqueue⟩⟩ := serve_completes h.inv he hserve
  · refine ⟨⟨hinv, harmed, hsends.packets.trans h.packets, hsends.closing.trans h.closing, ?_,
      fun _ => hsends.closes⟩, hless⟩
    intro hu
    rcases hsends.closed hu with ht | hempty
    · have hzero : t.load = 0 := by simp [load, pending, h.closed ht]
      have hsome := hsends.less
      omega
    · exact hempty
  · refine ⟨⟨hinv, harmed, hpackets.trans h.packets, hclosing.trans h.closing, ?_, ?_⟩, hless⟩
    · rw [hclosed, hqueue]
      exact h.closed
    · rw [hclosing, hqueue, hclosed]
      exact h.closes

/-- As long as there is something to send, something can happen. -/
theorem Served.drained (h : Served build s t)
    (hstuck : ∀ e : Event, e.Serving → Socket.serve build t e = none) :
    t.writeQueue = [] ∧ t.socketImpl.outstanding = [] := by
  have hserve : ∀ {e : Event} {u : Socket}, e.Serving → step build t e = some (.ok u) → u = t := by
    intro e u he hstep
    have hnone := hstuck e he
    simp only [Socket.serve, hstep] at hnone
    by_contra hne
    rw [if_neg hne] at hnone
    cases hnone
  have hnone : t.socketImpl.outstanding = [] := by
    by_contra hsome
    obtain ⟨buffer, rest, hout⟩ := List.exists_cons_of_ne_nil hsome
    let e : Event := .completion 0 .sent .sent
    have he : e.Serving := ⟨accepting_sendAll, accepting_sendAll⟩
    obtain ⟨r, hr⟩ : ∃ r, step build t e = some r := by
      simp [e, step, Stream.complete, hout]
    obtain ⟨u, rfl, -⟩ := h.inv.step (he.framing build) hr
    have hless := (completion_completes h.inv he.1 he.2 hr).less
    rw [hserve he hr] at hless
    exact Nat.lt_irrefl _ hless
  refine ⟨?_, hnone⟩
  by_contra hqueue
  have hopen : t.isClosed = false := by
    cases hc : t.isClosed with
    | false => rfl
    | true => exact absurd (h.closed hc) hqueue
  have hidle : t.isWritingAsync = false := by
    cases hflag : t.isWritingAsync with
    | false => rfl
    | true =>
      rcases h.inv.flag.mp hflag with hone | hbroken
      · rw [hnone] at hone
        cases hone
      · rw [(h.inv.broken hbroken).2.1] at hopen
        cases hopen
  cases build with
  | iocp =>
    rw [h.armed rfl hqueue] at hidle
    cases hidle
  | polling =>
    have he : Event.Serving (.update fun _ => .sent) := fun _ => accepting_sendAll
    obtain ⟨u, hcall, hsends, -⟩ := update_sends h.inv hopen hidle hqueue he
    have hstep : step .polling t (.update fun _ => .sent) = some (.ok u) := by
      simp [step, hcall, bind, Except.bind, pure, Except.pure]
    have hless := hsends.less
    rw [hserve he hstep] at hless
    exact Nat.lt_irrefl _ hless

/-- **A socket that is served drains.** Take any reachable state of an open socket, in either build, and
any run from there in which only completions and calls of `Update` happen, every write takes something,
and every event has an effect. Such a run is at most `work` events long; it can be carried on to where
no such event has an effect; and there everything that was ever queued has been sent, no write is under
way, and the socket is closed if a delayed close was asked for while there was something to send. -/
theorem served_socket_drains (build : Build) (s : Socket)
    (h : (system build (Answer.Framing build)).Reachable s) (hopen : s.isClosed = false)
    (es : List Event) (hes : ∀ e ∈ es, e.Serving) (t : Socket)
    (hrun : (serving build).run s es = some t) :
    es.length ≤ s.work ∧
    (∃ es' u, (∀ e ∈ es', e.Serving) ∧ (serving build).run t es' = some u ∧
      ∀ e : Event, e.Serving → serve build u e = none) ∧
    ((∀ e : Event, e.Serving → serve build t e = none) →
      t.writeQueue = [] ∧ t.socketImpl.outstanding = [] ∧
        t.socketImpl.accepted = s.packets.flatten ∧
        (s.isClosing = true → s.writeQueue ≠ [] → t.isClosed = true)) := by
  have hs : Served build s s := .start (reachable_inv h) (reachable_armed h) hopen
  have hstep : ∀ t e u, Event.Serving e → Served build s t → (serving build).step t e = some u →
      Served build s u ∧ u.work < t.work := fun _ _ _ he ht hserve => ht.serve he hserve
  obtain ⟨ht, hshort, es', u, hes', hrun', -, hend⟩ := Machine.comes_to_rest hstep hs hes hrun
  refine ⟨hshort, ⟨es', u, hes', hrun', hend⟩, ?_⟩
  intro hstuck
  obtain ⟨hempty, hnone⟩ := ht.drained hstuck
  refine ⟨hempty, hnone, ?_, ?_⟩
  · have hall := ht.inv.conserved
    rw [pending, hempty, ht.packets] at hall
    simpa using hall
  · intro hclosing hqueue
    exact ht.closes hqueue (ht.closing.trans hclosing) hempty

/-- One packet is queued and a close is asked for: the packet goes out, and the socket closes. -/
theorem served_socket_drains_packet :
    ∃ s es t, (system .iocp (Answer.Framing .iocp)).Reachable s ∧ s.isClosed = false ∧
      s.packets = [[7]] ∧ (∀ e ∈ es, Event.Serving e) ∧ (serving .iocp).run s es = some t ∧
      es.length ≤ s.work ∧ t.socketImpl.accepted = [7] ∧ t.isClosed = true := by
  obtain ⟨m, hwriting⟩ := reachable_writing (Answer.Framing .iocp)
  have hreach := hwriting.next ⟨.delayedCloseSocket, trivial, rfl⟩
  obtain ⟨-, ⟨es, t, hes, hrun, hstuck⟩, -⟩ :=
    served_socket_drains .iocp _ hreach rfl [] (by simp) _ rfl
  obtain ⟨hshort, -, hend⟩ := served_socket_drains .iocp _ hreach rfl es hes t hrun
  obtain ⟨-, -, hsent, hclosed⟩ := hend hstuck
  exact ⟨_, es, t, hreach, rfl, rfl, hes, hrun, hshort, hsent, hclosed rfl nofun⟩

end Socket

end ServerTest.Network
