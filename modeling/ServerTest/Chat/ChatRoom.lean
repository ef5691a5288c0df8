import Mathlib.Data.List.Sort
import ServerTest.Lib.Fifo
import ServerTest.Chat.ChatMessage

/-!
# The chat room

`ChatRoom::Join`, `Leave` and `deliver`, and the write side of `ChatSession`. Everything runs on one
`io_service` thread, so a handler is one step and the order of the steps is all there is to choose.

`async_write` is given the address of the front message, not a copy, and the deque changes while the
write is under way. So a message has a position, counted from the first message the session was ever
handed: `popped` is the position of the front, and an outstanding write is the position of the
message it was started for. That a write refers to the front is then something to prove.

The sessions are the participants of the room as long as they have not left. A session that left
still has its queue and may have a write under way; its completions are steps like any other.
`accept` is not modelled: a session is started at most once, as `DoAccept` does.
-/

set_option autoImplicit false

namespace ServerTest.Chat

open Lib

def maxRecentMsgs : Nat := 100

/-! ## One session -/

/-- The write side of a session. `offered` are the messages `Deliver` was called with so far and
`completed` those whose write succeeded. -/
structure ChatSession where
  writeMessages : List ChatMessage
  popped : Nat
  writes : List Nat
  offered : List ChatMessage
  completed : List ChatMessage

namespace ChatSession

def new : ChatSession := ⟨[], 0, [], [], []⟩

/-- The message at a position, if it is still in the deque. -/
def messageAt (s : ChatSession) (position : Nat) : Option ChatMessage :=
  if s.popped ≤ position then s.writeMessages[position - s.popped]? else none

/-- `do_write`: start writing the front message. -/
def doWrite (s : ChatSession) : ChatSession := { s with writes := s.writes ++ [s.popped] }

def deliver (s : ChatSession) (msg : ChatMessage) : ChatSession :=
  let writeInProgress := !s.writeMessages.isEmpty
  let s := { s with writeMessages := s.writeMessages ++ [msg], offered := s.offered ++ [msg] }
  if writeInProgress then s else s.doWrite

/-- The handler of a write that succeeded. What was written is the message the write was started
for; what is popped is the front. -/
def writeSucceeded (s : ChatSession) (position : Nat) : ChatSession :=
  let s :=
    { s with
      writes := s.writes.erase position
      completed := s.completed ++ (s.messageAt position).toList }
  let s := { s with writeMessages := s.writeMessages.tail, popped := s.popped + 1 }
  if s.writeMessages.isEmpty then s else s.doWrite

/-- The handler of a write that failed, without the `Leave`. -/
def writeFailed (s : ChatSession) (position : Nat) : ChatSession :=
  { s with writes := s.writes.erase position }

/-- What holds of a session at all times: it is a stream of messages, and it has at most one write
under way, of its front. -/
structure Inv (s : ChatSession) : Prop where
  stream : (Fifo.system ChatMessage).Reachable ⟨s.offered, s.completed, s.writeMessages⟩
  writes : s.writes = [] ∨ s.writes = [s.popped] ∧ s.writeMessages ≠ []

/-- What holds of a participant besides: it is writing as long as it has something to write. A
session whose write failed has stopped, and is no participant any more. -/
def Busy (s : ChatSession) : Prop := s.writeMessages ≠ [] → s.writes = [s.popped]

variable {s : ChatSession}

theorem Inv.new : ChatSession.new.Inv := ⟨.start rfl, Or.inl rfl⟩

theorem Busy.new : ChatSession.new.Busy := fun h => absurd rfl h

theorem Inv.deliver (hs : s.Inv) (msg : ChatMessage) : (s.deliver msg).Inv := by
  have hput : (Fifo.system ChatMessage).Reachable
      ⟨s.offered ++ [msg], s.completed, s.writeMessages ++ [msg]⟩ :=
    hs.stream.next (Fifo.Step.put _ [msg])
  cases hq : s.writeMessages with
  | nil =>
    have hnone : s.writes = [] := hs.writes.resolve_right fun h => h.2 hq
    simp only [hq] at hput
    simp only [ChatSession.deliver, hq, doWrite, hnone]
    exact ⟨hput, Or.inr ⟨rfl, by simp⟩⟩
  | cons m rest =>
    simp only [hq] at hput
    simp only [ChatSession.deliver, hq]
    exact ⟨hput, hs.writes.imp_right fun h => ⟨h.1, by simp⟩⟩

theorem Busy.deliver (hs : s.Inv) (hb : s.Busy) (msg : ChatMessage) : (s.deliver msg).Busy := by
  cases hq : s.writeMessages with
  | nil =>
    have hnone : s.writes = [] := hs.writes.resolve_right fun h => h.2 hq
    simp only [ChatSession.deliver, hq, doWrite, hnone]
    exact fun _ => rfl
  | cons m rest =>
    simp only [ChatSession.deliver, hq]
    exact fun _ => hb (by simp [hq])

theorem offered_deliver (s : ChatSession) (msg : ChatMessage) :
    (s.deliver msg).offered = s.offered ++ [msg] := by
  simp only [deliver]
  split
  · rfl
  · rfl

/-- A completion is of the write that was under way, and the message that was written is the one that
is popped. -/
theorem Inv.writeSucceeded (hs : s.Inv) {position : Nat} (hp : position ∈ s.writes) :
    (s.writeSucceeded position).Inv ∧ (s.writeSucceeded position).Busy := by
  rcases hs.writes with hnone | ⟨hone, hne⟩
  · rw [hnone] at hp
    cases hp
  · obtain rfl : position = s.popped := by simpa [hone] using hp
    obtain ⟨front, rest, hq⟩ := List.exists_cons_of_ne_nil hne
    have htake : (Fifo.system ChatMessage).Reachable
        ⟨s.offered, s.completed ++ [front], rest⟩ := by
      have hstream := hs.stream.next (Fifo.Step.take _ 1)
      simpa [hq] using hstream
    cases rest with
    | nil =>
      simp only [ChatSession.writeSucceeded, hq, hone, List.erase_cons_head, messageAt]
      simp only [List.tail_cons, List.isEmpty_nil, if_true]
      exact ⟨⟨by simpa using htake, Or.inl rfl⟩, fun h => absurd rfl h⟩
    | cons next rest =>
      simp only [ChatSession.writeSucceeded, hq, hone, List.erase_cons_head, messageAt, doWrite]
      simp only [List.tail_cons, List.isEmpty_cons]
      exact ⟨⟨by simpa using htake, Or.inr ⟨rfl, by simp⟩⟩, fun _ => rfl⟩

theorem Inv.writeFailed (hs : s.Inv) {position : Nat} (hp : position ∈ s.writes) :
    (s.writeFailed position).Inv := by
  rcases hs.writes with hnone | ⟨hone, -⟩
  · rw [hnone] at hp
    cases hp
  · obtain rfl : position = s.popped := by simpa [hone] using hp
    exact ⟨hs.stream, Or.inl (by simp [ChatSession.writeFailed, hone])⟩

theorem offered_writeSucceeded (s : ChatSession) (position : Nat) :
    (s.writeSucceeded position).offered = s.offered := by
  simp only [writeSucceeded]
  split
  · rfl
  · rfl

/-- Replaying a list of messages, as `Join` does. -/
theorem Inv.deliverAll (msgs : List ChatMessage) (hs : s.Inv) (hb : s.Busy) :
    (msgs.foldl ChatSession.deliver s).Inv ∧ (msgs.foldl ChatSession.deliver s).Busy ∧
      (msgs.foldl ChatSession.deliver s).offered = s.offered ++ msgs := by
  induction msgs generalizing s with
  | nil => exact ⟨hs, hb, (List.append_nil _).symm⟩
  | cons msg msgs ih =>
    obtain ⟨hinv, hbusy, hoffered⟩ := ih (hs.deliver msg) (hb.deliver hs msg)
    refine ⟨hinv, hbusy, ?_⟩
    rw [List.foldl_cons, hoffered, offered_deliver, List.append_assoc]
    rfl

end ChatSession

/-! ## The room -/

/-- The room and its sessions. `Participants` is a `std::set` of pointers, kept in the order of the
addresses, which is the order of `ι`. Besides the members: which sessions were started, all messages
delivered to the room, and for each session what `RecentMessages` was when it joined and what was
delivered while it was a participant. -/
structure ChatRoom (ι : Type) where
  participants : List ι
  recentMessages : List ChatMessage
  sessions : ι → ChatSession
  started : ι → Bool
  delivered : List ChatMessage
  replayed : ι → List ChatMessage
  heard : ι → List ChatMessage

inductive ChatStep (ι : Type) where
  /-- `ChatSession::start` -/
  | start (i : ι)
  /-- the `Leave` of a read that failed -/
  | leave (i : ι)
  | deliver (msg : ChatMessage)
  /-- the handler of the write of session `i` that was started at `position` -/
  | writeSucceeded (i : ι) (position : Nat)
  | writeFailed (i : ι) (position : Nat)

namespace ChatRoom

variable {ι : Type}

def new : ChatRoom ι where
  participants := []
  recentMessages := []
  sessions _ := .new
  started _ := false
  delivered := []
  replayed _ := []
  heard _ := []

/-- `while (RecentMessages.size() > max_recent_msgs) RecentMessages.pop_front();` -/
def popRecent : List ChatMessage → List ChatMessage
  | [] => []
  | msg :: rest => if (msg :: rest).length > maxRecentMsgs then popRecent rest else msg :: rest

variable [LinearOrder ι]

/-- `Participants.insert`. -/
def insertParticipant (participants : List ι) (i : ι) : List ι :=
  if i ∈ participants then participants else participants.orderedInsert (· ≤ ·) i

def join (room : ChatRoom ι) (i : ι) : ChatRoom ι :=
  { room with
    participants := insertParticipant room.participants i
    sessions := Function.update room.sessions i
      (room.recentMessages.foldl ChatSession.deliver (room.sessions i))
    replayed := Function.update room.replayed i room.recentMessages }

def leave (room : ChatRoom ι) (i : ι) : ChatRoom ι :=
  { room with participants := room.participants.erase i }

/-- `for (auto participant : Participants) participant->Deliver(msg);` -/
def fanOut (msg : ChatMessage) (participants : List ι) (sessions : ι → ChatSession) :
    ι → ChatSession :=
  participants.foldl (fun sessions i => Function.update sessions i ((sessions i).deliver msg))
    sessions

def deliver (room : ChatRoom ι) (msg : ChatMessage) : ChatRoom ι :=
  { room with
    recentMessages := popRecent (room.recentMessages ++ [msg])
    sessions := fanOut msg room.participants room.sessions
    delivered := room.delivered ++ [msg]
    heard := fun i => if i ∈ room.participants then room.heard i ++ [msg] else room.heard i }

def step (room : ChatRoom ι) : ChatStep ι → Option (ChatRoom ι)
  | .start i =>
    if room.started i then none
    else some (join { room with started := Function.update room.started i true } i)
  | .leave i => some (room.leave i)
  | .deliver msg => some (room.deliver msg)
  | .writeSucceeded i position =>
    if position ∈ (room.sessions i).writes then some
      { room with
        sessions := Function.update room.sessions i
          ((room.sessions i).writeSucceeded position) }
    else none
  | .writeFailed i position =>
    if position ∈ (room.sessions i).writes then some
      (leave
        { room with
          sessions := Function.update room.sessions i ((room.sessions i).writeFailed position) }
        i)
    else none

variable (ι) in
def machine : Machine (ChatRoom ι) (ChatStep ι) where
  start := .new
  step := step

variable (ι) in
/-- Every order of the handlers, for any number of sessions. -/
def system : System (ChatRoom ι) := (machine ι).system

/-! ## The loops -/

theorem popRecent_eq (msgs : List ChatMessage) :
    popRecent msgs = msgs.drop (msgs.length - maxRecentMsgs) := by
  induction msgs with
  | nil => rfl
  | cons msg rest ih =>
    rw [popRecent]
    split
    · rename_i hlong
      rw [ih]
      simp only [List.length_cons] at hlong ⊢
      rw [show rest.length + 1 - maxRecentMsgs = rest.length - maxRecentMsgs + 1 by omega,
        List.drop_succ_cons]
    · rename_i hshort
      rw [Nat.sub_eq_zero_of_le (Nat.le_of_not_lt hshort), List.drop_zero]

/-- Cutting the front of what was kept of `delivered`, after one more message, is cutting the front
of all of it. -/
theorem popRecent_append (delivered : List ChatMessage) (msg : ChatMessage) :
    popRecent (delivered.drop (delivered.length - maxRecentMsgs) ++ [msg]) =
      (delivered ++ [msg]).drop ((delivered ++ [msg]).length - maxRecentMsgs) := by
  have hcut : delivered.length - maxRecentMsgs +
      ((delivered.drop (delivered.length - maxRecentMsgs) ++ [msg]).length - maxRecentMsgs) =
        (delivered ++ [msg]).length - maxRecentMsgs := by
    simp only [List.length_append, List.length_drop, List.length_singleton]
    omega
  rw [popRecent_eq, ← hcut, ← List.drop_drop, List.drop_append_of_le_length (Nat.sub_le ..)]

/-- The fan-out reaches every participant once, in whatever order it visits them. -/
theorem fanOut_eq (msg : ChatMessage) {participants : List ι} (hnodup : participants.Nodup)
    (sessions : ι → ChatSession) (i : ι) :
    fanOut msg participants sessions i =
      if i ∈ participants then (sessions i).deliver msg else sessions i := by
  induction participants generalizing sessions with
  | nil => simp [fanOut]
  | cons j rest ih =>
    have hrest := ih (List.nodup_cons.mp hnodup).2
      (Function.update sessions j ((sessions j).deliver msg))
    rw [fanOut, List.foldl_cons]
    refine hrest.trans ?_
    by_cases hij : i = j
    · subst hij
      rw [if_neg (List.nodup_cons.mp hnodup).1, if_pos (List.mem_cons_self ..),
        Function.update_self]
    · simp [hij]

theorem mem_insertParticipant {participants : List ι} {i j : ι} :
    j ∈ insertParticipant participants i ↔ j = i ∨ j ∈ participants := by
  unfold insertParticipant
  split
  · rename_i hi
    exact ⟨Or.inr, fun h => h.elim (fun e => e ▸ hi) id⟩
  · exact List.mem_orderedInsert _

theorem nodup_insertParticipant {participants : List ι} (h : participants.Nodup) (i : ι) :
    (insertParticipant participants i).Nodup := by
  unfold insertParticipant
  split
  · exact h
  · rename_i hi
    exact (List.perm_orderedInsert _ i participants).nodup_iff.mpr (List.nodup_cons.mpr ⟨hi, h⟩)

/-! ## The invariant -/

/-- A session is a stream whose offers are the replayed history and what was heard; a participant is
writing what it has; a session that was not started is untouched. -/
structure Inv (room : ChatRoom ι) : Prop where
  nodup : room.participants.Nodup
  recent : room.recentMessages = room.delivered.drop (room.delivered.length - maxRecentMsgs)
  sessions : ∀ i, (room.sessions i).Inv
  busy : ∀ i ∈ room.participants, (room.sessions i).Busy
  offered : ∀ i, (room.sessions i).offered = room.replayed i ++ room.heard i
  fresh : ∀ i, room.started i = false →
    i ∉ room.participants ∧ room.sessions i = .new ∧ room.heard i = []

variable {room : ChatRoom ι}

omit [LinearOrder ι] in
theorem Inv.new : (ChatRoom.new : ChatRoom ι).Inv where
  nodup := List.nodup_nil
  recent := rfl
  sessions _ := .new
  busy _ h := by cases h
  offered _ := rfl
  fresh _ _ := ⟨by simp [ChatRoom.new], rfl, rfl⟩

theorem Inv.leave (hr : room.Inv) (i : ι) : (room.leave i).Inv where
  nodup := hr.nodup.erase i
  recent := hr.recent
  sessions := hr.sessions
  busy j hj := hr.busy j (List.mem_of_mem_erase hj)
  offered := hr.offered
  fresh j hj := by
    obtain ⟨hout, hrest⟩ := hr.fresh j hj
    exact ⟨fun h => hout (List.mem_of_mem_erase h), hrest⟩

theorem Inv.deliver (hr : room.Inv) (msg : ChatMessage) : (room.deliver msg).Inv where
  nodup := hr.nodup
  recent := by
    show popRecent (room.recentMessages ++ [msg]) = _
    rw [hr.recent]
    exact popRecent_append room.delivered msg
  sessions i := by
    show (fanOut msg room.participants room.sessions i).Inv
    rw [fanOut_eq msg hr.nodup]
    split
    · exact (hr.sessions i).deliver msg
    · exact hr.sessions i
  busy i hi := by
    have hi : i ∈ room.participants := hi
    show (fanOut msg room.participants room.sessions i).Busy
    rw [fanOut_eq msg hr.nodup, if_pos hi]
    exact (hr.busy i hi).deliver (hr.sessions i) msg
  offered i := by
    show (fanOut msg room.participants room.sessions i).offered = room.replayed i ++
      if i ∈ room.participants then room.heard i ++ [msg] else room.heard i
    rw [fanOut_eq msg hr.nodup]
    by_cases hi : i ∈ room.participants
    · rw [if_pos hi, if_pos hi, ChatSession.offered_deliver, hr.offered i, List.append_assoc]
    · rw [if_neg hi, if_neg hi, hr.offered i]
  fresh i hi := by
    obtain ⟨hout, hnew, hheard⟩ := hr.fresh i hi
    refine ⟨hout, ?_, ?_⟩
    · show fanOut msg room.participants room.sessions i = .new
      rw [fanOut_eq msg hr.nodup, if_neg hout, hnew]
    · exact (if_neg hout).trans hheard

/-- A step of one session that neither starts it nor hands it anything. `j` is a participant
afterwards only if it was before and is busy. -/
theorem Inv.update (hr : room.Inv) {i : ι} {s : ChatSession} {participants : List ι}
    (hs : s.Inv) (hoffered : s.offered = (room.sessions i).offered)
    (hnodup : participants.Nodup) (hsub : ∀ j ∈ participants, j ∈ room.participants)
    (hbusy : i ∈ participants → s.Busy) (hstarted : room.started i = true) :
    Inv { room with
      participants := participants
      sessions := Function.update room.sessions i s } where
  nodup := hnodup
  recent := hr.recent
  sessions := by
    apply (Function.forall_update_iff room.sessions fun _ s => s.Inv).mpr
    exact ⟨hs, fun j _ => hr.sessions j⟩
  busy := by
    apply (Function.forall_update_iff room.sessions fun j s => j ∈ participants → s.Busy).mpr
    exact ⟨hbusy, fun j _ hmem => hr.busy j (hsub j hmem)⟩
  offered := by
    apply (Function.forall_update_iff room.sessions
      fun j s => s.offered = room.replayed j ++ room.heard j).mpr
    exact ⟨hoffered.trans (hr.offered i), fun j _ => hr.offered j⟩
  fresh j hfresh := by
    have hj : j ≠ i := by
      intro e
      rw [e, hstarted] at hfresh
      cases hfresh
    obtain ⟨hout, hnew⟩ := hr.fresh j hfresh
    refine ⟨fun hmem => hout (hsub j hmem), ?_⟩
    simpa only [Function.update_of_ne hj] using hnew

omit [LinearOrder ι] in
/-- A session with a write under way was started. -/
theorem Inv.started_of_write (hr : room.Inv) {i : ι} {position : Nat}
    (hp : position ∈ (room.sessions i).writes) : room.started i = true := by
  by_contra hnot
  have hnew := (hr.fresh i (by simpa using hnot)).2.1
  rw [hnew] at hp
  cases hp

theorem Inv.start (hr : room.Inv) {i : ι} (hfirst : room.started i = false) :
    (join { room with started := Function.update room.started i true } i).Inv := by
  -- Nothing was ever handed to this session, so the replayed history is all it has.
  obtain ⟨-, hnew, hheard⟩ := hr.fresh i hfirst
  obtain ⟨hinv, hbusy, hoffered⟩ :=
    ChatSession.Inv.deliverAll room.recentMessages ChatSession.Inv.new ChatSession.Busy.new
  rw [show ChatSession.new.offered = [] from rfl, List.nil_append] at hoffered
  rw [← hnew] at hinv hbusy
  refine ⟨nodup_insertParticipant hr.nodup i, hr.recent, ?_, ?_, ?_, ?_⟩
  · apply (Function.forall_update_iff room.sessions fun _ s => s.Inv).mpr
    exact ⟨hinv, fun j _ => hr.sessions j⟩
  · apply (Function.forall_update_iff room.sessions
      fun j s => j ∈ insertParticipant room.participants i → s.Busy).mpr
    refine ⟨fun _ => hbusy, ?_⟩
    intro j hj hmem
    exact hr.busy j ((mem_insertParticipant.mp hmem).resolve_left hj)
  · intro j
    by_cases hj : j = i
    · subst hj
      simpa only [join, Function.update_self, hnew, hheard, List.append_nil] using hoffered
    · simpa only [join, Function.update_of_ne hj] using hr.offered j
  · intro j hfresh
    have hj : j ≠ i := by
      intro e
      simp [join, e] at hfresh
    have hfresh : room.started j = false := by
      simpa only [join, Function.update_of_ne hj] using hfresh
    obtain ⟨hout, hrest⟩ := hr.fresh j hfresh
    refine ⟨?_, ?_⟩
    · intro hmem
      exact hout ((mem_insertParticipant.mp hmem).resolve_left hj)
    · simpa only [join, Function.update_of_ne hj] using hrest

theorem Inv.step {room' : ChatRoom ι} {e : ChatStep ι} (hr : room.Inv)
    (h : room.step e = some room') : room'.Inv := by
  cases e with
  | start i =>
    simp only [ChatRoom.step] at h
    split at h
    · cases h
    · rename_i hfirst
      cases h
      exact hr.start (by simpa using hfirst)
  | leave i =>
    cases h
    exact hr.leave i
  | deliver msg =>
    cases h
    exact hr.deliver msg
  | writeSucceeded i position =>
    simp only [ChatRoom.step] at h
    split at h
    · rename_i hp
      cases h
      obtain ⟨hinv, hbusy⟩ := (hr.sessions i).writeSucceeded hp
      exact hr.update hinv (ChatSession.offered_writeSucceeded _ position) hr.nodup (fun _ => id)
        (fun _ => hbusy) (hr.started_of_write hp)
    · cases h
  | writeFailed i position =>
    simp only [ChatRoom.step] at h
    split at h
    · rename_i hp
      cases h
      -- The failed session is out, so it need not be busy.
      refine hr.update ((hr.sessions i).writeFailed hp) rfl (hr.nodup.erase i)
        (fun j => List.mem_of_mem_erase) ?_ (hr.started_of_write hp)
      intro hmem
      exact absurd hmem (hr.nodup.not_mem_erase)
    · cases h

theorem reachable_inv (h : (system ι).Reachable room) : room.Inv :=
  Machine.invariant (M := machine ι) Inv.new (fun _ _ _ hr hst => hr.step hst) h

/-- **Every participant is sent every message once and in order.** For every session, what has been
written followed by what is queued is the history it was given when it joined followed by what was
delivered while it was a participant; at most one write is under way and it is of the front; and the
history the room keeps is the last hundred messages, or all of them. -/
theorem messages_in_order (room : ChatRoom ι) (h : (system ι).Reachable room) :
    (∀ i, (room.sessions i).completed ++ (room.sessions i).writeMessages =
        room.replayed i ++ room.heard i) ∧
      (∀ i, (room.sessions i).writes.length ≤ 1 ∧ ∀ position ∈ (room.sessions i).writes,
        position = (room.sessions i).popped ∧ (room.sessions i).writeMessages ≠ [] ∧
          (room.sessions i).messageAt position = (room.sessions i).writeMessages.head?) ∧
      room.recentMessages <:+ room.delivered ∧
      room.recentMessages.length = min maxRecentMsgs room.delivered.length := by
  have hr : room.Inv := reachable_inv h
  refine ⟨?_, ?_, ?_, ?_⟩
  · intro i
    rw [← hr.offered i]
    exact Fifo.conserved (hr.sessions i).stream
  · intro i
    rcases (hr.sessions i).writes with hnone | ⟨hone, hne⟩
    · simp [hnone]
    · -- The one write is of the position of the front, which the pops have not passed.
      refine ⟨by simp [hone], ?_⟩
      intro position hp
      obtain rfl : position = (room.sessions i).popped := by simpa [hone] using hp
      refine ⟨rfl, hne, ?_⟩
      simp [ChatSession.messageAt, List.head?_eq_getElem?]
  · rw [hr.recent]
    exact List.drop_suffix _ _
  · rw [hr.recent, List.length_drop]
    omega

/-- One session hears a message and is sent it; a second one joins later and is given the history,
and its write fails. -/
theorem messages_in_order_two :
    ∃ room, (system Bool).Reachable room ∧ room.participants = [false] ∧
      (room.sessions false).completed = [.blank] ∧ (room.sessions true).writeMessages = [.blank] ∧
      ∀ i, (room.sessions i).completed ++ (room.sessions i).writeMessages =
        room.replayed i ++ room.heard i := by
  have hrun : ∃ room, (machine Bool).run .new [.start false, .deliver .blank,
      .writeSucceeded false 0, .start true, .writeFailed true 0] = some room ∧
      room.participants = [false] ∧ (room.sessions false).completed = [.blank] ∧
      (room.sessions true).writeMessages = [.blank] := ⟨_, rfl, rfl, rfl, rfl⟩
  obtain ⟨room, hrun, hout, hwritten, hqueued⟩ := hrun
  have hreach : (system Bool).Reachable room := Machine.run_reachable hrun
  exact ⟨room, hreach, hout, hwritten, hqueued, (messages_in_order room hreach).1⟩

end ChatRoom

end ServerTest.Chat
