import ServerTest.Chat.ChatNetwork

/-!
# What everyone reads

Two statements about the network. Whatever happens, what a client has printed is the first part of what
was said in the room since shortly before it joined, and what was said by a client is the first part of
what was typed there (`conversation_consistent`); so all clients read one conversation. And when the
programs have nothing more to do for a connection on which nothing failed, the first part is all of it
(`conversation_complete`).

The invariant is one statement for each connection, `Sound`, which is two links and how they are fed,
and one for each session, `Segment`, which says what piece of the conversation it was handed.
-/

set_option autoImplicit false

namespace ServerTest.Chat

open Lib

namespace ChatNetwork

variable {ι : Type} [LinearOrder ι]

/-! ## The room, seen from one session -/

/-- What session `i` was handed, as a piece of what was delivered: it begins a hundred messages before
the session joined, and goes up to now as long as the session has not left. -/
structure Segment (room : ChatRoom ι) (joinedAt : Nat) (i : ι) : Prop where
  joined : joinedAt ≤ room.delivered.length
  handed : room.replayed i ++ room.heard i <+: room.delivered.drop (joinedAt - maxRecentMsgs)
  participant : i ∈ room.participants →
    room.replayed i ++ room.heard i = room.delivered.drop (joinedAt - maxRecentMsgs)

omit [LinearOrder ι] in
theorem Segment.new (i : ι) : Segment (ChatRoom.new : ChatRoom ι) 0 i where
  joined := Nat.le_refl 0
  handed := List.nil_prefix
  participant _ := rfl

theorem Segment.leave {room : ChatRoom ι} {k : Nat} {j : ι} (h : Segment room k j) (i : ι) :
    Segment (room.leave i) k j where
  joined := h.joined
  handed := h.handed
  participant hj := h.participant (List.mem_of_mem_erase hj)

theorem Segment.deliver {room : ChatRoom ι} {k : Nat} {j : ι} (h : Segment room k j)
    (msg : ChatMessage) : Segment (room.deliver msg) k j := by
  have hdrop : (room.delivered ++ [msg]).drop (k - maxRecentMsgs) =
      room.delivered.drop (k - maxRecentMsgs) ++ [msg] :=
    List.drop_append_of_le_length (by have := h.joined; omega)
  have hheard : (room.deliver msg).heard j =
      if j ∈ room.participants then room.heard j ++ [msg] else room.heard j := rfl
  refine ⟨?_, ?_, ?_⟩
  · show k ≤ (room.delivered ++ [msg]).length
    rw [List.length_append]
    exact Nat.le_trans h.joined (Nat.le_add_right ..)
  · show room.replayed j ++ (room.deliver msg).heard j <+:
      (room.delivered ++ [msg]).drop (k - maxRecentMsgs)
    rw [hdrop, hheard]
    split
    · rename_i hj
      rw [← List.append_assoc, h.participant hj]
    · exact h.handed.trans (List.prefix_append ..)
  · intro hj
    have hj : j ∈ room.participants := hj
    show room.replayed j ++ (room.deliver msg).heard j =
      (room.delivered ++ [msg]).drop (k - maxRecentMsgs)
    rw [hdrop, hheard, if_pos hj, ← List.append_assoc, h.participant hj]

/-- Joining: the history is replayed and nothing was heard yet. -/
theorem Segment.join {room : ChatRoom ι} (hr : room.Inv) {i : ι} (hfirst : room.started i = false) :
    Segment (ChatRoom.join { room with started := Function.update room.started i true } i)
      room.delivered.length i := by
  have hall : Function.update room.replayed i room.recentMessages i ++ room.heard i =
      room.delivered.drop (room.delivered.length - maxRecentMsgs) := by
    rw [Function.update_self, (hr.fresh i hfirst).2.2, List.append_nil, hr.recent]
  exact ⟨Nat.le_refl _, hall ▸ List.prefix_refl _, fun _ => hall⟩

theorem Segment.join_of_ne {room : ChatRoom ι} {k : Nat} {i j : ι} (hij : j ≠ i)
    (h : Segment room k j) :
    Segment (ChatRoom.join { room with started := Function.update room.started i true } i) k j where
  joined := h.joined
  handed := by
    show Function.update room.replayed i room.recentMessages j ++ room.heard j <+: _
    rw [Function.update_of_ne hij]
    exact h.handed
  participant hj := by
    show Function.update room.replayed i room.recentMessages j ++ room.heard j = _
    rw [Function.update_of_ne hij]
    exact h.participant ((ChatRoom.mem_insertParticipant.mp hj).resolve_left hij)

/-! ## The invariant -/

/-- The bodies of the messages that were posted and not handed to the client's deque yet. -/
def unposted (client : ChatClient) : List Bytes :=
  client.posted.filterMap fun
    | .write msg => some msg.body
    | .close => none

/-- What holds of a connection on which nothing has failed. -/
structure Working (room : ChatRoom ι) (i : ι) (c : Connection) : Prop where
  open_ : c.client.closed = false
  busy : c.client.writer.Busy
  established : room.started i = true → c.established = true
  participant : room.started i = true → i ∈ room.participants
  reading : c.client.reader.phase = .header ∨ c.client.reader.phase = .body
  sessionReading : c.sessionReader.phase = .header ∨ c.sessionReader.phase = .body

/-- What holds of connection `i`, whose session has said `said`. -/
structure Sound (room : ChatRoom ι) (said : List Bytes) (i : ι) (c : Connection) : Prop where
  up : c.up.Inv
  down : (c.down (room.sessions i)).Inv
  posted : ∀ msg, Posted.write msg ∈ c.client.posted → msg.Framed
  typed : c.client.writer.offered.map ChatMessage.body ++ unposted c.client = c.client.typed
  said : said = c.sessionReader.accepted.map ChatMessage.body
  accepts : c.client.reader.phase ≠ .rejected ∧ c.sessionReader.phase ≠ .rejected
  working : c.failed = false → Working room i c

structure Inv (n : ChatNetwork ι) : Prop where
  room : (ChatRoom.system ι).Reachable n.room
  framed : ∀ m ∈ n.room.delivered, m.Framed
  log : n.log.map Prod.snd = n.room.delivered.map ChatMessage.body
  segment : ∀ i, Segment n.room (n.joinedAt i) i
  ends : ∀ i, Sound n.room (n.said i) i (n.ends i)

/-! ## Handlers of the client

Each changes one connection and leaves the room alone. -/

section Connection

omit [LinearOrder ι]

variable {room : ChatRoom ι} {said : List Bytes} {i : ι} {c : Connection}

theorem Sound.new (i : ι) (memory : ChatMessage × ChatMessage) :
    Sound ChatRoom.new [] i (.new memory) where
  up := .new memory.2
  down := .new memory.1
  posted _ hmsg := by cases hmsg
  typed := rfl
  said := rfl
  accepts := ⟨(fun hcontra => by cases hcontra), fun hcontra => by cases hcontra⟩
  working _ :=
    { open_ := rfl
      busy := .new
      established := fun hstarted => by cases hstarted
      participant := fun hstarted => by cases hstarted
      reading := Or.inl rfl
      sessionReading := Or.inl rfl }

theorem Sound.type (hc : Sound room said i c) {msg : ChatMessage} (hmsg : msg.Framed) :
    Sound room said i
      { c with client :=
          { c.client with
            posted := c.client.posted ++ [.write msg]
            typed := c.client.typed ++ [msg.body] } } where
  up := hc.up
  down := hc.down
  posted m hm := by
    rcases List.mem_append.mp hm with hm | hm
    · exact hc.posted m hm
    · cases List.mem_singleton.mp hm
      exact hmsg
  typed := by
    show c.client.writer.offered.map ChatMessage.body ++
      List.filterMap _ (c.client.posted ++ [.write msg]) = c.client.typed ++ [msg.body]
    rw [List.filterMap_append, ← hc.typed, List.append_assoc]
    rfl
  said := hc.said
  accepts := hc.accepts
  working hok :=
    have hw := hc.working hok
    ⟨hw.open_, hw.busy, hw.established, hw.participant, hw.reading, hw.sessionReading⟩

theorem Sound.hangUp (hc : Sound room said i c) :
    Sound room said i
      { c with client :=
          { c.client with posted := c.client.posted ++ [.close], hungUp := true } } where
  up := hc.up
  down := hc.down
  posted m hm := by
    rcases List.mem_append.mp hm with hm | hm
    · exact hc.posted m hm
    · cases List.mem_singleton.mp hm
  typed := by
    show c.client.writer.offered.map ChatMessage.body ++
      List.filterMap _ (c.client.posted ++ [.close]) = c.client.typed
    rw [List.filterMap_append, ← hc.typed]
    simp [unposted]
  said := hc.said
  accepts := hc.accepts
  working hok :=
    have hw := hc.working hok
    ⟨hw.open_, hw.busy, hw.established, hw.participant, hw.reading, hw.sessionReading⟩

/-- The handler of `write`. -/
theorem Sound.runWrite (hc : Sound room said i c) {msg : ChatMessage} {rest : List Posted}
    (hposted : c.client.posted = .write msg :: rest) :
    Sound room said i
      { c with client :=
          { c.client with posted := rest, writer := c.client.writer.deliver msg } } where
  up := hc.up.deliver (hc.posted msg (by simp [hposted]))
  down := hc.down
  posted m hm := hc.posted m (by rw [hposted]; exact List.mem_cons_of_mem _ hm)
  typed := by
    have htyped := hc.typed
    rw [unposted, hposted] at htyped
    show (c.client.writer.deliver msg).offered.map ChatMessage.body ++ List.filterMap _ rest =
      c.client.typed
    rw [ChatSession.offered_deliver, List.map_append, List.append_assoc]
    exact htyped
  said := hc.said
  accepts := hc.accepts
  working hok :=
    have hw := hc.working hok
    ⟨hw.open_, hw.busy.deliver hc.up.writer msg, hw.established, hw.participant, hw.reading,
      hw.sessionReading⟩

/-- The handler of `close`. -/
theorem Sound.runClose (hc : Sound room said i c) {rest : List Posted}
    (hposted : c.client.posted = .close :: rest) :
    Sound room said i
      { c with client := { c.client with posted := rest, closed := true }, failed := true } where
  up := hc.up
  down := hc.down
  posted m hm := hc.posted m (by rw [hposted]; exact List.mem_cons_of_mem _ hm)
  typed := by
    have htyped := hc.typed
    rw [unposted, hposted] at htyped
    exact htyped
  said := hc.said
  accepts := hc.accepts
  working hok := by cases hok

theorem Sound.establish (hc : Sound room said i c) :
    Sound room said i { c with established := true } where
  up := hc.up
  down := hc.down
  posted := hc.posted
  typed := hc.typed
  said := hc.said
  accepts := hc.accepts
  working hok :=
    have hw := hc.working hok
    ⟨hw.open_, hw.busy, fun _ => rfl, hw.participant, hw.reading, hw.sessionReading⟩

theorem Sound.connected (hc : Sound room said i c) :
    Sound room said i { c with client := { c.client with connected := true } } where
  up := hc.up
  down := hc.down
  posted := hc.posted
  typed := hc.typed
  said := hc.said
  accepts := hc.accepts
  working hok :=
    have hw := hc.working hok
    ⟨hw.open_, hw.busy, hw.established, hw.participant, hw.reading, hw.sessionReading⟩

theorem Sound.clientSend (hc : Sound room said i c) {k : Nat} {l : Link}
    (h : c.up.transmit k = some l) :
    Sound room said i
      { c with client := { c.client with sent := l.sent }, sessionReader := l.reader } := by
  obtain ⟨hl, hwriter, haccepted, hphase⟩ := hc.up.transmit h
  refine
    { up := ?_
      down := hc.down
      posted := hc.posted
      typed := hc.typed
      said := by rw [hc.said]; exact congrArg (List.map ChatMessage.body) haccepted.symm
      accepts := ⟨hc.accepts.1, fun hcontra => hc.accepts.2 (hphase.symm.trans hcontra)⟩
      working := ?_ }
  · have hsame : (⟨c.client.writer, l.sent, l.reader⟩ : Link) = l := by
      rw [show c.client.writer = l.writer from hwriter.symm]
    exact hsame ▸ hl
  · intro hok
    have hw := hc.working hok
    refine ⟨hw.open_, hw.busy, hw.established, hw.participant, hw.reading, ?_⟩
    show l.reader.phase = .header ∨ l.reader.phase = .body
    rw [hphase]
    exact hw.sessionReading

theorem Sound.clientWritten (hc : Sound room said i c) {position : Nat}
    (hp : position ∈ c.client.writer.writes) (h : c.up.Complete) :
    Sound room said i
      { c with client :=
          { c.client with writer := c.client.writer.writeSucceeded position, sent := 0 } } := by
  have hfront : position = c.client.writer.popped := hc.up.writer.eq_popped hp
  refine
    { up := hfront ▸ hc.up.writeSucceeded h
      down := hc.down
      posted := hc.posted
      typed := ?_
      said := hc.said
      accepts := hc.accepts
      working := ?_ }
  · show (c.client.writer.writeSucceeded position).offered.map ChatMessage.body ++ _ = _
    rw [ChatSession.offered_writeSucceeded]
    exact hc.typed
  · intro hok
    have hw := hc.working hok
    exact ⟨hw.open_, (hc.up.writer.writeSucceeded hp).2, hw.established, hw.participant, hw.reading,
      hw.sessionReading⟩

theorem Sound.clientWriteFailed (hc : Sound room said i c) {position : Nat}
    (hp : position ∈ c.client.writer.writes) :
    Sound room said i
      { c with
        client := { c.client with writer := c.client.writer.writeFailed position, closed := true }
        failed := true } where
  up := hc.up.writeFailed hp
  down := hc.down
  posted := hc.posted
  typed := hc.typed
  said := hc.said
  accepts := hc.accepts
  working hok := by cases hok

theorem Sound.clientRead (hc : Sound room said i c) {r : ReadLoop}
    (hl : Link.Inv { c.down (room.sessions i) with reader := r })
    (hreads : Link.Reads c.client.reader r) :
    Sound room said i
      { c with
        client :=
          { c.client with reader := r, closed := c.client.closed || r.phase == .rejected }
        failed := c.failed || r.phase == .rejected } := by
  have hphase : r.phase = .header ∨ r.phase = .body := by
    cases hreads with
    | header _ hafter => exact Or.inr hafter
    | body _ hafter => exact Or.inl hafter
  have hrejected : (r.phase == .rejected) = false := by
    rcases hphase with h | h
    · rw [h]; rfl
    · rw [h]; rfl
  refine
    { up := hc.up
      down := hl
      posted := hc.posted
      typed := hc.typed
      said := hc.said
      accepts := ⟨?_, hc.accepts.2⟩
      working := ?_ }
  · intro hcontra
    have hcontra : r.phase = .rejected := hcontra
    rw [hcontra] at hrejected
    cases hrejected
  · intro hok
    have hw := hc.working (Bool.or_eq_false_iff.mp hok).1
    refine ⟨?_, hw.busy, hw.established, hw.participant, hphase, hw.sessionReading⟩
    show (c.client.closed || r.phase == .rejected) = false
    rw [hrejected, hw.open_]
    rfl

theorem Sound.clientReadFailed (hc : Sound room said i c) :
    Sound room said i
      { c with
        client :=
          { c.client with
            reader := { c.client.reader with phase := .ended }
            closed := true }
        failed := true } where
  up := hc.up
  down := hc.down.readFailed
  posted := hc.posted
  typed := hc.typed
  said := hc.said
  accepts := ⟨(fun hcontra => by cases hcontra), hc.accepts.2⟩
  working hok := by cases hok

/-! ## Handlers of the session -/

theorem Sound.sessionSend (hc : Sound room said i c) {k : Nat} {l : Link}
    (h : (c.down (room.sessions i)).transmit k = some l) :
    Sound room said i
      { c with sessionSent := l.sent, client := { c.client with reader := l.reader } } := by
  obtain ⟨hl, hwriter, -, hphase⟩ := hc.down.transmit h
  refine
    { up := hc.up
      down := ?_
      posted := hc.posted
      typed := hc.typed
      said := hc.said
      accepts := ⟨fun hcontra => hc.accepts.1 (hphase.symm.trans hcontra), hc.accepts.2⟩
      working := ?_ }
  · have hsame : (⟨room.sessions i, l.sent, l.reader⟩ : Link) = l := by
      rw [show room.sessions i = l.writer from hwriter.symm]
    exact hsame ▸ hl
  · intro hok
    have hw := hc.working hok
    refine ⟨hw.open_, hw.busy, hw.established, hw.participant, ?_, hw.sessionReading⟩
    show l.reader.phase = .header ∨ l.reader.phase = .body
    rw [hphase]
    exact hw.reading

/-- A step of the session's reader after which it has said `said'`. -/
theorem Sound.sessionRead (hc : Sound room said i c) {r : ReadLoop} {said' : List Bytes}
    (hl : Link.Inv { c.up with reader := r }) (hphase : r.phase = .header ∨ r.phase = .body)
    (hsaid : said' = r.accepted.map ChatMessage.body) :
    Sound room said' i { c with sessionReader := r } where
  up := hl
  down := hc.down
  posted := hc.posted
  typed := hc.typed
  said := hsaid
  accepts := by
    refine ⟨hc.accepts.1, ?_⟩
    intro hcontra
    have hcontra : r.phase = .rejected := hcontra
    rw [hcontra] at hphase
    rcases hphase with h | h
    · cases h
    · cases h
  working hok :=
    have hw := hc.working hok
    ⟨hw.open_, hw.busy, hw.established, hw.participant, hw.reading, hphase⟩

theorem Sound.sessionReadFailed (hc : Sound room said i c) :
    Sound room said i
      { c with
        sessionReader := { c.sessionReader with phase := .ended }
        failed := true } where
  up := hc.up.readFailed
  down := hc.down
  posted := hc.posted
  typed := hc.typed
  said := hc.said
  accepts := ⟨hc.accepts.1, fun hcontra => by cases hcontra⟩
  working hok := by cases hok

/-- What a connection depends on of the room: the session's deque, and whether it is a participant. -/
theorem Sound.of_room {room' : ChatRoom ι} (hc : Sound room said i c)
    (hdown : (c.down (room'.sessions i)).Inv) (hstarted : room'.started i = room.started i)
    (hparticipant : c.failed = false → i ∈ room.participants → i ∈ room'.participants) :
    Sound room' said i c where
  up := hc.up
  down := hdown
  posted := hc.posted
  typed := hc.typed
  said := hc.said
  accepts := hc.accepts
  working hok := by
    have hw := hc.working hok
    refine ⟨hw.open_, hw.busy, ?_, ?_, hw.reading, hw.sessionReading⟩
    · rw [hstarted]
      exact hw.established
    · rw [hstarted]
      exact fun h => hparticipant hok (hw.participant h)

/-- The session's deque after any number of messages were put into it. -/
theorem Sound.down_deliverAll (hc : Sound room said i c) {msgs : List ChatMessage}
    (hmsgs : ∀ m ∈ msgs, m.Framed) :
    (c.down (msgs.foldl ChatSession.deliver (room.sessions i))).Inv := by
  have hall : ∀ {s : ChatSession}, (c.down s).Inv → (c.down (msgs.foldl ChatSession.deliver s)).Inv := by
    induction msgs with
    | nil => exact id
    | cons m msgs ih =>
      intro s hs
      exact ih (fun x hx => hmsgs x (by simp [hx])) (Link.Inv.deliver hs (hmsgs m (by simp)))
  exact hall hc.down

end Connection

/-! ## Steps of the network -/

variable {n : ChatNetwork ι} {i : ι} {c : Connection}

theorem Inv.new (memory : ι → ChatMessage × ChatMessage) : (ChatNetwork.new memory).Inv where
  room := .start rfl
  framed _ hm := by cases hm
  log := rfl
  segment := Segment.new
  ends i := .new i (memory i)

theorem Inv.setEnd (hn : n.Inv) (hc : Sound n.room (n.said i) i c) : (n.setEnd i c).Inv where
  room := hn.room
  framed := hn.framed
  log := hn.log
  segment := hn.segment
  ends := by
    apply (Function.forall_update_iff n.ends fun j c => Sound n.room (n.said j) j c).mpr
    exact ⟨hc, fun j _ => hn.ends j⟩

/-- A step of session `i` in the room that delivers nothing. -/
theorem Inv.setRoom (hn : n.Inv) {room : ChatRoom ι} (hreach : (ChatRoom.system ι).Reachable room)
    (hsame : room.delivered = n.room.delivered) (hsegment : ∀ j, Segment room (n.joinedAt j) j)
    (hc : Sound room (n.said i) i c) (hothers : ∀ j, j ≠ i → Sound room (n.said j) j (n.ends j)) :
    Inv { n.setEnd i c with room := room } where
  room := hreach
  framed := hsame ▸ hn.framed
  log := hsame ▸ hn.log
  segment := hsegment
  ends := by
    apply (Function.forall_update_iff n.ends fun j c => Sound room (n.said j) j c).mpr
    exact ⟨hc, hothers⟩

/-- A session leaves because something on its connection failed. -/
theorem Inv.leave (hn : n.Inv) (hc : Sound n.room (n.said i) i c) (hfailed : c.failed = true) :
    Inv { n.setEnd i c with room := n.room.leave i } := by
  apply hn.setRoom (hn.room.next ⟨.leave i, rfl⟩) rfl fun j => (hn.segment j).leave i
  · refine Sound.of_room hc hc.down rfl ?_
    intro hok
    rw [hfailed] at hok
    cases hok
  · intro j hj
    refine Sound.of_room (hn.ends j) (hn.ends j).down rfl ?_
    intro _ hmem
    exact (List.mem_erase_of_ne hj).mpr hmem

theorem said_append (n : ChatNetwork ι) (i j : ι) (body : Bytes) :
    ((n.log ++ [(i, body)]).filter (·.1 = j)).map Prod.snd =
      if i = j then n.said j ++ [body] else n.said j := by
  rw [List.filter_append, List.map_append, said]
  by_cases hij : i = j
  · simp [hij]
  · simp [hij]

/-- A message arrives and goes to everyone. -/
theorem Inv.deliver (hn : n.Inv) {msg : ChatMessage} (hmsg : msg.Framed)
    (hc : Sound n.room (n.said i ++ [msg.body]) i c) :
    Inv { n.setEnd i c with
      room := n.room.deliver msg
      log := n.log ++ [(i, msg.body)] } where
  room := hn.room.next ⟨.deliver msg, rfl⟩
  framed m hm := by
    rcases List.mem_append.mp hm with hm | hm
    · exact hn.framed m hm
    · rw [List.mem_singleton.mp hm]
      exact hmsg
  log := by
    show (n.log ++ [(i, msg.body)]).map Prod.snd = (n.room.delivered ++ [msg]).map ChatMessage.body
    rw [List.map_append, List.map_append, hn.log]
    rfl
  segment j := (hn.segment j).deliver msg
  ends j := by
    have hroom := ChatRoom.reachable_inv hn.room
    have hsound : Sound n.room (if i = j then n.said j ++ [msg.body] else n.said j) j
        (Function.update n.ends i c j) := by
      by_cases hij : i = j
      · subst hij
        rw [if_pos rfl, Function.update_self]
        exact hc
      · rw [if_neg hij, Function.update_of_ne (Ne.symm hij)]
        exact hn.ends j
    rw [← said_append] at hsound
    refine Sound.of_room hsound ?_ rfl fun _ hmem => hmem
    show (Connection.down _ (ChatRoom.fanOut msg n.room.participants n.room.sessions j)).Inv
    rw [ChatRoom.fanOut_eq msg hroom.nodup]
    split
    · exact Link.Inv.deliver hsound.down hmsg
    · exact hsound.down

/-- A session starts: it is handed the history and becomes a participant. -/
theorem Inv.accept (hn : n.Inv) (hestablished : (n.ends i).established = true)
    {room : ChatRoom ι} (h : n.room.step (.start i) = some room) :
    Inv { n with
      room := room
      joinedAt := Function.update n.joinedAt i n.room.delivered.length } := by
  have hroom := ChatRoom.reachable_inv hn.room
  have hreach : (ChatRoom.system ι).Reachable room := hn.room.next ⟨.start i, h⟩
  simp only [ChatRoom.step] at h
  split at h
  · cases h
  · rename_i hfirst
    have hfirst : n.room.started i = false := by simpa using hfirst
    cases h
    refine ⟨hreach, hn.framed, hn.log, ?_, ?_⟩
    · apply (Function.forall_update_iff n.joinedAt fun j k => Segment _ k j).mpr
      exact ⟨Segment.join hroom hfirst, fun j hj => (hn.segment j).join_of_ne hj⟩
    · intro j
      have hc := hn.ends j
      have hrecent : ∀ m ∈ n.room.recentMessages, m.Framed := by
        intro m hm
        rw [hroom.recent] at hm
        exact hn.framed m (List.mem_of_mem_drop hm)
      by_cases hij : j = i
      · subst hij
        refine ⟨hc.up, ?_, hc.posted, hc.typed, hc.said, hc.accepts, ?_⟩
        · simp only [ChatRoom.join, Function.update_self]
          exact hc.down_deliverAll hrecent
        · intro hok
          have hw := hc.working hok
          exact ⟨hw.open_, hw.busy, fun _ => hestablished,
            fun _ => ChatRoom.mem_insertParticipant.mpr (Or.inl rfl), hw.reading, hw.sessionReading⟩
      · apply hc.of_room
        · simp only [ChatRoom.join, Function.update_of_ne hij]
          exact hc.down
        · simp only [ChatRoom.join, Function.update_of_ne hij]
        · exact fun _ hmem => ChatRoom.mem_insertParticipant.mpr (Or.inr hmem)

theorem Inv.sessionWritten (hn : n.Inv) {position : Nat}
    (hcomplete : ((n.ends i).down (n.room.sessions i)).Complete) {room : ChatRoom ι}
    (h : n.room.step (.writeSucceeded i position) = some room) :
    Inv { n.setEnd i { n.ends i with sessionSent := 0 } with room := room } := by
  have hreach : (ChatRoom.system ι).Reachable room :=
    hn.room.next ⟨.writeSucceeded i position, h⟩
  have hc := hn.ends i
  simp only [ChatRoom.step] at h
  split at h
  · rename_i hp
    cases h
    have hfront : position = (n.room.sessions i).popped := hc.down.writer.eq_popped hp
    subst hfront
    apply hn.setRoom hreach rfl
    · exact fun j => ⟨(hn.segment j).joined, (hn.segment j).handed, (hn.segment j).participant⟩
    · refine ⟨hc.up, ?_, hc.posted, hc.typed, hc.said, hc.accepts, ?_⟩
      · simp only [Function.update_self]
        exact hc.down.writeSucceeded hcomplete
      · intro hok
        have hw := hc.working hok
        exact ⟨hw.open_, hw.busy, hw.established, hw.participant, hw.reading, hw.sessionReading⟩
    · intro j hij
      refine Sound.of_room (hn.ends j) ?_ rfl fun _ hmem => hmem
      simp only [Function.update_of_ne hij]
      exact (hn.ends j).down
  · cases h

theorem Inv.sessionWriteFailed (hn : n.Inv) {position : Nat} {room : ChatRoom ι}
    (h : n.room.step (.writeFailed i position) = some room) :
    Inv { n.setEnd i { n.ends i with failed := true } with room := room } := by
  have hreach : (ChatRoom.system ι).Reachable room :=
    hn.room.next ⟨.writeFailed i position, h⟩
  have hc := hn.ends i
  simp only [ChatRoom.step] at h
  split at h
  · rename_i hp
    cases h
    apply hn.setRoom hreach rfl
    · exact fun j => ⟨(hn.segment j).joined, (hn.segment j).handed,
        fun hmem => (hn.segment j).participant (List.mem_of_mem_erase hmem)⟩
    · refine ⟨hc.up, ?_, hc.posted, hc.typed, hc.said, hc.accepts, fun hok => by cases hok⟩
      simp only [ChatRoom.leave, Function.update_self]
      exact hc.down.writeFailed hp
    · intro j hij
      refine Sound.of_room (hn.ends j) ?_ rfl ?_
      · simp only [ChatRoom.leave, Function.update_of_ne hij]
        exact (hn.ends j).down
      · exact fun _ hmem => (List.mem_erase_of_ne hij).mpr hmem
  · cases h

/-- A read of a session that has what it asked for. -/
theorem Inv.sessionRead (hn : n.Inv) (hready : (n.ends i).sessionReader.ready = true) :
    ∃ r, (n.ends i).sessionReader.step = .ok r ∧ Link.Reads (n.ends i).sessionReader r ∧
      (n.received i r).Inv := by
  have hc := hn.ends i
  obtain ⟨r, hstep, hl, hreads⟩ := hc.up.read hready
  refine ⟨r, hstep, hreads, ?_⟩
  cases hreads with
  | header _ hafter haccepted _ =>
    simp only [received, hafter]
    apply hn.setEnd
    apply hc.sessionRead hl (Or.inr hafter)
    rw [haccepted]
    exact hc.said
  | body _ hafter hframed haccepted _ =>
    simp only [received, hafter]
    apply hn.deliver hframed
    apply hc.sessionRead hl (Or.inl hafter)
    rw [haccepted, List.map_append, hc.said]
    rfl

/-- **One step.** It does not fault, and keeps the invariant. -/
theorem Inv.step (hn : n.Inv) {e : NetworkEvent ι} {s : Except Fault (ChatNetwork ι)}
    (h : n.step e = some s) : ∃ n', s = .ok n' ∧ n'.Inv := by
  cases e with
  | type i message line =>
    simp only [ChatNetwork.step] at h
    split at h
    · cases h
    · rename_i hline
      cases h
      have hfits : (cStr line).length ≤ maxBodyLength :=
        Nat.le_trans (List.takeWhile_prefix _).length_le
          (Nat.le_of_not_lt fun hlong => hline (Or.inr hlong))
      obtain ⟨msg, hcompose, hframed, hbody⟩ := message.compose_returns hfits
      refine ⟨_, bind_returns.mpr ⟨msg, hcompose, rfl⟩, ?_⟩
      rw [← hbody]
      exact hn.setEnd ((hn.ends i).type hframed)
  | hangUp i =>
    simp only [ChatNetwork.step] at h
    split at h
    · cases h
    · cases h
      exact ⟨_, rfl, hn.setEnd (hn.ends i).hangUp⟩
  | runPosted i =>
    simp only [ChatNetwork.step] at h
    split at h
    · cases h
    · rename_i msg rest hposted
      cases h
      exact ⟨_, rfl, hn.setEnd ((hn.ends i).runWrite hposted)⟩
    · rename_i rest hposted
      cases h
      exact ⟨_, rfl, hn.setEnd ((hn.ends i).runClose hposted)⟩
  | establish i =>
    simp only [ChatNetwork.step] at h
    split at h
    · cases h
    · cases h
      exact ⟨_, rfl, hn.setEnd (hn.ends i).establish⟩
  | connected i =>
    simp only [ChatNetwork.step] at h
    split at h
    · cases h
      exact ⟨_, rfl, hn.setEnd (hn.ends i).connected⟩
    · cases h
  | accept i =>
    simp only [ChatNetwork.step] at h
    split at h
    · rename_i hestablished
      obtain ⟨room, hroom, rfl⟩ := Option.map_eq_some_iff.mp h
      exact ⟨_, rfl, hn.accept hestablished hroom⟩
    · cases h
  | clientSend i k =>
    simp only [ChatNetwork.step] at h
    split at h
    · obtain ⟨l, hl, rfl⟩ := Option.map_eq_some_iff.mp h
      exact ⟨_, rfl, hn.setEnd ((hn.ends i).clientSend hl)⟩
    · cases h
  | clientWritten i position =>
    simp only [ChatNetwork.step] at h
    split at h
    · rename_i hwrite
      cases h
      exact ⟨_, rfl, hn.setEnd ((hn.ends i).clientWritten hwrite.1 hwrite.2)⟩
    · cases h
  | clientWriteFailed i position =>
    simp only [ChatNetwork.step] at h
    split at h
    · rename_i hwrite
      cases h
      exact ⟨_, rfl, hn.setEnd ((hn.ends i).clientWriteFailed hwrite)⟩
    · cases h
  | sessionRead i =>
    simp only [ChatNetwork.step] at h
    split at h
    · rename_i hready
      cases h
      obtain ⟨r, hstep, -, hinv⟩ := hn.sessionRead hready.2
      exact ⟨_, bind_returns.mpr ⟨r, hstep, rfl⟩, hinv⟩
    · cases h
  | sessionReadFailed i =>
    simp only [ChatNetwork.step] at h
    split at h
    · cases h
      exact ⟨_, rfl, hn.leave (hn.ends i).sessionReadFailed rfl⟩
    · cases h
  | sessionSend i k =>
    obtain ⟨l, hl, rfl⟩ := Option.map_eq_some_iff.mp h
    exact ⟨_, rfl, hn.setEnd ((hn.ends i).sessionSend hl)⟩
  | sessionWritten i position =>
    simp only [ChatNetwork.step] at h
    split at h
    · rename_i hcomplete
      obtain ⟨room, hroom, rfl⟩ := Option.map_eq_some_iff.mp h
      exact ⟨_, rfl, hn.sessionWritten hcomplete hroom⟩
    · cases h
  | sessionWriteFailed i position =>
    obtain ⟨room, hroom, rfl⟩ := Option.map_eq_some_iff.mp h
    exact ⟨_, rfl, hn.sessionWriteFailed hroom⟩
  | clientRead i =>
    simp only [ChatNetwork.step] at h
    split at h
    · rename_i hready
      cases h
      obtain ⟨r, hstep, hl, hreads⟩ := (hn.ends i).down.read hready.2
      exact ⟨_, bind_returns.mpr ⟨r, hstep, rfl⟩, hn.setEnd ((hn.ends i).clientRead hl hreads)⟩
    · cases h
  | clientReadFailed i =>
    simp only [ChatNetwork.step] at h
    split at h
    · cases h
      exact ⟨_, rfl, hn.setEnd (hn.ends i).clientReadFailed⟩
    · cases h

theorem reachable_inv {memory : ι → ChatMessage × ChatMessage} {s : Except Fault (ChatNetwork ι)}
    (h : (system memory).Reachable s) : ∃ n, s = .ok n ∧ n.Inv := by
  refine Machine.invariant (M := machine memory) (P := fun s => ∃ n, s = .ok n ∧ n.Inv)
    ⟨_, rfl, .new memory⟩ ?_ h
  rintro - e t ⟨n, rfl, hn⟩ hst
  exact hn.step hst

/-! ## What everyone reads -/

theorem Inv.said_prefix (hn : n.Inv) (i : ι) : n.said i <+: (n.ends i).client.typed := by
  have hc := hn.ends i
  rw [hc.said, ← hc.typed]
  exact hc.up.accepted_prefix.trans (List.prefix_append ..)

theorem Inv.audible_eq (hn : n.Inv) (i : ι) :
    n.audible i =
      (n.room.delivered.drop (n.joinedAt i - maxRecentMsgs)).map ChatMessage.body := by
  rw [audible, hn.log, List.map_drop]

theorem Inv.offered_eq (hn : n.Inv) (i : ι) :
    (n.room.sessions i).offered = n.room.replayed i ++ n.room.heard i :=
  (ChatRoom.reachable_inv hn.room).offered i

theorem Inv.printed_prefix (hn : n.Inv) (i : ι) : n.printed i <+: n.audible i := by
  have hread : n.printed i <+: (n.room.sessions i).offered.map ChatMessage.body :=
    (hn.ends i).down.accepted_prefix
  rw [hn.offered_eq] at hread
  rw [hn.audible_eq]
  exact hread.trans ((hn.segment i).handed.map _)

/-- **Everyone reads the same conversation.** In whatever order things happen and whatever fails:
no program faults and no header is ever rejected; what a client has said in the room is the first of
the lines that were typed there, each once and in order; and what a client has printed is the first
of what was said from a hundred messages before it joined on, each once and in the order in which it
was said. So any two clients print what they both print in one order. -/
theorem conversation_consistent (memory : ι → ChatMessage × ChatMessage)
    (s : Except Fault (ChatNetwork ι)) (h : (system memory).Reachable s) :
    ∃ n, s = .ok n ∧ ∀ i,
      n.said i <+: (n.ends i).client.typed ∧ n.printed i <+: n.audible i ∧
        (n.ends i).client.reader.phase ≠ .rejected ∧ (n.ends i).sessionReader.phase ≠ .rejected := by
  obtain ⟨n, rfl, hn⟩ := reachable_inv h
  refine ⟨n, rfl, ?_⟩
  intro i
  exact ⟨hn.said_prefix i, hn.printed_prefix i, (hn.ends i).accepts⟩

/-- Two clients whose message objects are blank. -/
def blankMachine : Machine (Except Fault (ChatNetwork Bool)) (NetworkEvent Bool) :=
  machine fun _ => (.blank, .blank)

/-- One client types a line and is sent it back, in pieces. -/
def hello : List (NetworkEvent Bool) :=
  [.establish false, .accept false, .type false .blank (ascii "hi"), .runPosted false,
    .clientSend false 4, .sessionRead false, .clientSend false 2, .sessionRead false,
    .sessionSend false 6, .connected false, .clientRead false, .clientRead false]

theorem conversation_consistent_hello :
    ∃ n : ChatNetwork Bool, (system fun _ => (.blank, .blank)).Reachable (.ok n) ∧
      n.said false = [ascii "hi"] ∧ n.printed false = [ascii "hi"] ∧
      ∀ i, n.said i <+: (n.ends i).client.typed ∧ n.printed i <+: n.audible i := by
  have hrun : ((blankMachine.run blankMachine.start hello).bind Except.toOption).map
      (fun n => (n.said false, n.printed false)) = some ([ascii "hi"], [ascii "hi"]) := by
    decide +kernel
  obtain ⟨n, hn, hread⟩ := Option.map_eq_some_iff.mp hrun
  obtain ⟨s, hs, hok⟩ := Option.bind_eq_some_iff.mp hn
  have hreach := Machine.run_reachable hs
  cases s with
  | error fault => cases hok
  | ok n' =>
    cases hok
    obtain ⟨m, hm, hall⟩ := conversation_consistent _ _ hreach
    cases hm
    exact ⟨n, hreach, congrArg Prod.fst hread, congrArg Prod.snd hread,
      fun i => ⟨(hall i).1, (hall i).2.1⟩⟩

/-! ## A connection at rest -/

/-- The events by which the two programs get on with connection `i`: nobody types, hangs up or
connects, and nothing fails. -/
def progress : NetworkEvent ι → Option ι
  | .runPosted i => some i
  | .connected i => some i
  | .clientSend i _ => some i
  | .clientWritten i _ => some i
  | .sessionRead i => some i
  | .sessionSend i _ => some i
  | .sessionWritten i _ => some i
  | .clientRead i => some i
  | _ => none

/-- Neither program can do anything more for connection `i`. -/
def Idle (n : ChatNetwork ι) (i : ι) : Prop := ∀ e, progress e = some i → n.step e = none

omit [LinearOrder ι] in
/-- A writer that is busy and has neither bytes to hand over nor a message to finish has nothing. -/
theorem nothing_left {l : Link} (hl : l.Inv) (hbusy : l.writer.Busy)
    (hsend : l.transmit 1 = none) (hwrite : ¬ l.Complete) : l.writer.writeMessages = [] := by
  by_contra hne
  obtain ⟨m, rest, hq⟩ := List.exists_cons_of_ne_nil hne
  have hway : l.writer.underWay = some m := by
    rw [ChatSession.underWay, hbusy hne]
    simp [ChatSession.messageAt, hq]
  have hsent : l.sent ≤ m.wire.length := by
    simpa [hq, ReadLoop.stream] using hl.sent
  by_cases hall : l.sent = m.wire.length
  · exact hwrite (by rw [Link.Complete, hway, hall]; rfl)
  · simp only [Link.transmit, hway] at hsend
    rw [if_pos ⟨Nat.one_pos, by omega⟩] at hsend
    cases hsend

/-- **At rest, everything has arrived.** Take a connection that was accepted and on which nothing has
failed, in a state in which neither program has anything more to do for it. Then every line typed at
this client has been said in the room, and everything said since a hundred messages before the client
joined, by anyone, has been printed there. -/
theorem conversation_complete (memory : ι → ChatMessage × ChatMessage) (n : ChatNetwork ι)
    (h : (system memory).Reachable (.ok n)) (i : ι) (hstarted : n.room.started i = true)
    (hok : (n.ends i).failed = false) (hidle : n.Idle i) :
    n.said i = (n.ends i).client.typed ∧ n.printed i = n.audible i := by
  obtain ⟨n', hn', hn⟩ := reachable_inv h
  cases hn'
  have hc := hn.ends i
  have hw := hc.working hok
  have hest := hw.established hstarted
  have hmem := hw.participant hstarted
  have hposted : (n.ends i).client.posted = [] := by
    have hnone := hidle (.runPosted i) rfl
    simp only [step] at hnone
    split at hnone
    · assumption
    · cases hnone
    · cases hnone
  have hconnected : (n.ends i).client.connected = true := by
    have hnone := hidle (.connected i) rfl
    simp only [step, hest, true_and] at hnone
    simpa using hnone
  constructor
  · -- Everything typed was posted, handed to the deque, written, and read by the session.
    have hempty : (n.ends i).up.writer.writeMessages = [] := by
      apply nothing_left hc.up hw.busy
      · have hnone := hidle (.clientSend i 1) rfl
        simpa [step, hest, hw.open_] using hnone
      · intro hcomplete
        have hnone := hidle (.clientWritten i (n.ends i).client.writer.popped) rfl
        have hwriting : (n.ends i).client.writer.popped ∈ (n.ends i).client.writer.writes :=
          hc.up.popped_mem_writes hcomplete
        simp [step, hwriting, hcomplete] at hnone
    have hread : (n.ends i).sessionReader.ready = false := by
      have hnone := hidle (.sessionRead i) rfl
      simpa [step, hstarted] using hnone
    have hall := hc.up.settled hempty hw.sessionReading hread
    rw [hc.said, ← hc.typed, unposted, hposted, List.filterMap_nil, List.append_nil]
    exact hall
  · -- Everything audible was handed to the session, which is still a participant, and so on.
    have hbusy := (ChatRoom.reachable_inv hn.room).busy i hmem
    have hempty : ((n.ends i).down (n.room.sessions i)).writer.writeMessages = [] := by
      apply nothing_left hc.down hbusy
      · have hnone := hidle (.sessionSend i 1) rfl
        simpa [step] using hnone
      · intro hcomplete
        have hnone := hidle (.sessionWritten i (n.room.sessions i).popped) rfl
        have hwriting : (n.room.sessions i).popped ∈ (n.room.sessions i).writes :=
          hc.down.popped_mem_writes hcomplete
        simp [step, hcomplete, ChatRoom.step, hwriting] at hnone
    have hread : (n.ends i).client.reader.ready = false := by
      have hnone := hidle (.clientRead i) rfl
      simpa [step, hconnected] using hnone
    have hall := hc.down.settled hempty hw.reading hread
    rw [hn.audible_eq, ← (hn.segment i).participant hmem, ← hn.offered_eq]
    exact hall

/-- What to look at to see that a connection is at rest. -/
def atRest (n : ChatNetwork ι) (i : ι) : Bool :=
  (n.ends i).client.posted.isEmpty && (n.ends i).client.connected &&
    (n.ends i).client.writer.writes.isEmpty && (n.room.sessions i).writes.isEmpty &&
    !(n.ends i).client.reader.ready && !(n.ends i).sessionReader.ready

theorem idle_of_atRest (h : n.atRest i = true) : n.Idle i := by
  simp only [atRest, Bool.and_eq_true, List.isEmpty_iff, Bool.not_eq_true'] at h
  obtain ⟨⟨⟨⟨⟨hposted, hconnected⟩, hup⟩, hdown⟩, hread⟩, hsession⟩ := h
  have hway : (n.ends i).up.writer.underWay = none := by
    simp [Connection.up, ChatSession.underWay, hup]
  have hway' : ((n.ends i).down (n.room.sessions i)).writer.underWay = none := by
    simp [Connection.down, ChatSession.underWay, hdown]
  intro e he
  cases e <;> cases he
  case runPosted => simp [step, hposted]
  case connected => simp [step, hconnected]
  case clientSend => simp [step, Link.transmit, hway]
  case clientWritten => simp [step, hup]
  case sessionRead => simp [step, hsession]
  case sessionSend => simp [step, Link.transmit, hway']
  case sessionWritten => simp [step, Link.Complete, hway']
  case clientRead => simp [step, hread]

theorem conversation_complete_hello :
    ∃ n : ChatNetwork Bool, (system fun _ => (.blank, .blank)).Reachable (.ok n) ∧ n.Idle false ∧
      (n.ends false).client.typed = [ascii "hi"] ∧ n.said false = (n.ends false).client.typed ∧
      n.printed false = n.audible false := by
  have hrun : ((blankMachine.run blankMachine.start
      (hello ++ [.sessionWritten false 0, .clientWritten false 0])).bind Except.toOption).map
        (fun n => ((n.ends false).client.typed, n.room.started false, (n.ends false).failed,
          n.atRest false)) = some ([ascii "hi"], true, false, true) := by
    decide +kernel
  obtain ⟨n, hn, hrest⟩ := Option.map_eq_some_iff.mp hrun
  simp only [Prod.mk.injEq] at hrest
  obtain ⟨htyped, hstarted, hok, hrest⟩ := hrest
  obtain ⟨s, hs, htrue⟩ := Option.bind_eq_some_iff.mp hn
  have hreach := Machine.run_reachable hs
  cases s with
  | error fault => cases htrue
  | ok n' =>
    cases htrue
    have hidle : n.Idle false := idle_of_atRest hrest
    obtain ⟨hsaid, hprinted⟩ := conversation_complete _ n hreach false hstarted hok hidle
    exact ⟨n, hreach, hidle, htyped, hsaid, hprinted⟩

end ChatNetwork

end ServerTest.Chat
