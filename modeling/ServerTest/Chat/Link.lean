import ServerTest.Lib.PrefixCode
import ServerTest.Chat.ChatRoom
import ServerTest.Chat.ReadLoop

/-!
# One direction of a connection

A deque of messages at one end, written with `async_write` one at a time; a read loop at the other.
In between are bytes: a write hands them over in as many pieces as the socket likes, a read takes
what it asked for as soon as that much has arrived, and neither end knows where the other stands.

`chat_client` and `ChatSession` have the same code at both ends, so a connection is two links. The
writing half of `chat_client` (`write_msgs_`, the handler that `write` posts, `do_write`) is
`ChatSession.deliver` and `ChatSession.doWrite` text for text; only what happens after an error
differs, and that is not the link's.

`sent` counts the bytes of the message being written that were handed over. What is on its way is the
`input` of the reader.
-/

set_option autoImplicit false

namespace ServerTest.Chat

open Lib

/-! ## The wire is a prefix code -/

/-- What a framed message looks like on the wire. -/
def wires : Set Bytes := { w | ∃ m : ChatMessage, m.Framed ∧ m.wire = w }

namespace ChatMessage

variable {m m' : ChatMessage}

theorem length_wire (h : m.Framed) : m.wire.length = m.length := by
  rw [wire_eq, List.length_append, length_header, length_body h.bodyLength_le]
  rfl

theorem header_of_wire (m : ChatMessage) : m.wire.take headerLength = m.data.take headerLength := by
  rw [wire_eq, List.take_left' m.length_header]

theorem body_of_wire (m : ChatMessage) : m.wire.drop headerLength = m.body := by
  rw [wire_eq, List.drop_left' m.length_header]

/-- The four bytes in front say how long the rest is. -/
theorem Framed.length_eq (h : m.Framed) (h' : m'.Framed)
    (hheader : m.wire.take headerLength = m'.wire.take headerLength) :
    m.wire.length = m'.wire.length := by
  rw [header_of_wire, header_of_wire] at hheader
  have hsame : m.bodyLength = m'.bodyLength := by
    apply Option.some.inj
    rw [← show announced (m.data.take headerLength) = some m.bodyLength from h,
      ← show announced (m'.data.take headerLength) = some m'.bodyLength from h', hheader]
  rw [length_wire h, length_wire h', length, length, hsame]

theorem headerLength_le_wire (m : ChatMessage) : headerLength ≤ m.wire.length := by
  rw [wire_eq, List.length_append, length_header]
  exact Nat.le_add_right ..

end ChatMessage

theorem prefixCode_wires : PrefixCode wires where
  nil_notMem := by
    rintro ⟨m, -, hm⟩
    have hlong := m.headerLength_le_wire
    rw [hm] at hlong
    cases hlong
  eq_of_prefix := by
    rintro - ⟨m, hm, rfl⟩ - ⟨m', hm', rfl⟩ hprefix
    apply hprefix.eq_of_length
    apply hm.length_eq hm'
    obtain ⟨rest, hrest⟩ := hprefix
    rw [← hrest, List.take_append_of_le_length m.headerLength_le_wire]

namespace ReadLoop

theorem map_wire_mem {ms : List ChatMessage} (h : ∀ m ∈ ms, m.Framed) :
    ∀ w ∈ ms.map ChatMessage.wire, w ∈ wires := by
  intro w hw
  obtain ⟨m, hm, rfl⟩ := List.mem_map.mp hw
  exact ⟨m, h m hm, rfl⟩

theorem map_body_eq (ms : List ChatMessage) :
    ms.map ChatMessage.body = (ms.map ChatMessage.wire).map (List.drop headerLength) := by
  rw [List.map_map]
  apply List.map_congr_left
  intro m _
  exact m.body_of_wire.symm

theorem wire_prefix_of_stream {as bs : List ChatMessage} (ha : ∀ m ∈ as, m.Framed)
    (hb : ∀ m ∈ bs, m.Framed) (h : stream as <+: stream bs) :
    as.map ChatMessage.wire <+: bs.map ChatMessage.wire :=
  prefixCode_wires.prefix_of_flatten_prefix (map_wire_mem ha) (map_wire_mem hb) h

/-- A stream of framed messages that begins another carries its first bodies. -/
theorem body_prefix_of_stream {as bs : List ChatMessage} (ha : ∀ m ∈ as, m.Framed)
    (hb : ∀ m ∈ bs, m.Framed) (h : stream as <+: stream bs) :
    as.map ChatMessage.body <+: bs.map ChatMessage.body := by
  rw [map_body_eq, map_body_eq]
  exact (wire_prefix_of_stream ha hb h).map _

/-- What follows the first messages of a stream is the beginning of the others. -/
theorem rest_of_stream {as bs : List ChatMessage} {t : Bytes} (ha : ∀ m ∈ as, m.Framed)
    (hb : ∀ m ∈ bs, m.Framed) (h : stream as ++ t <+: stream bs) :
    ∃ cs, (∀ m ∈ cs, m.Framed) ∧ t <+: stream cs ∧
      bs.map ChatMessage.wire = as.map ChatMessage.wire ++ cs.map ChatMessage.wire := by
  obtain ⟨ws, hws⟩ := wire_prefix_of_stream ha hb ((List.prefix_append _ t).trans h)
  have hlen : (as.map ChatMessage.wire).length = as.length := List.length_map ..
  have hsplit : as.map ChatMessage.wire ++ (bs.drop as.length).map ChatMessage.wire =
      bs.map ChatMessage.wire := by
    rw [List.map_drop, ← hws, List.drop_left' hlen]
  refine ⟨bs.drop as.length, fun m hm => hb m (List.mem_of_mem_drop hm), ?_, hsplit.symm⟩
  rw [stream, stream, ← hsplit, List.flatten_append] at h
  exact (List.prefix_append_right_inj _).mp h

end ReadLoop

/-! ## The deque -/

namespace ChatSession

variable {s : ChatSession}

/-- The message the write under way was started for. -/
def underWay (s : ChatSession) : Option ChatMessage := s.writes.head?.bind s.messageAt

theorem completed_deliver (s : ChatSession) (msg : ChatMessage) :
    (s.deliver msg).completed = s.completed ∧
      (s.deliver msg).writeMessages = s.writeMessages ++ [msg] := by
  simp only [deliver]
  split
  · exact ⟨rfl, rfl⟩
  · exact ⟨rfl, rfl⟩

/-- A write under way is of the front. -/
theorem Inv.underWay_eq (hs : s.Inv) {m : ChatMessage} (h : s.underWay = some m) :
    s.writes = [s.popped] ∧ ∃ rest, s.writeMessages = m :: rest := by
  rcases hs.writes with hnone | ⟨hone, -⟩
  · simp [underWay, hnone] at h
  · refine ⟨hone, ?_⟩
    simp only [underWay, hone, List.head?_cons, Option.bind_some, messageAt, le_refl, if_true,
      Nat.sub_self] at h
    exact ⟨_, List.eq_cons_of_mem_head? (by rw [List.head?_eq_getElem?]; exact h)⟩

theorem Inv.eq_popped (hs : s.Inv) {position : Nat} (hp : position ∈ s.writes) :
    position = s.popped := by
  rcases hs.writes with hnone | ⟨hone, -⟩
  · rw [hnone] at hp
    cases hp
  · simpa [hone] using hp

theorem writeSucceeded_front (s : ChatSession) {m : ChatMessage} {rest : List ChatMessage}
    (hq : s.writeMessages = m :: rest) :
    (s.writeSucceeded s.popped).completed = s.completed ++ [m] ∧
      (s.writeSucceeded s.popped).writeMessages = rest := by
  simp only [writeSucceeded, messageAt, hq]
  split
  · simp
  · simp [doWrite]

/-- What is on its way or done is all there was. -/
theorem Inv.conserved (hs : s.Inv) : s.completed ++ s.writeMessages = s.offered :=
  Fifo.conserved hs.stream

end ChatSession

/-! ## The link -/

structure Link where
  writer : ChatSession
  sent : Nat
  reader : ReadLoop

namespace ReadLoop

/-- Whether what the read under way asks for has arrived. -/
def ready (r : ReadLoop) : Bool :=
  match r.phase with
  | .header => headerLength ≤ r.input.length
  | .body => r.message.bodyLength ≤ r.input.length
  | .ended => false
  | .rejected => false

end ReadLoop

namespace Link

open ReadLoop

/-- `async_write` hands over the next `n` bytes. -/
def transmit (l : Link) (n : Nat) : Option Link :=
  match l.writer.underWay with
  | none => none
  | some m =>
    if 0 < n ∧ l.sent + n ≤ m.wire.length then
      some { l with
        sent := l.sent + n
        reader := { l.reader with input := l.reader.input ++ (m.wire.drop l.sent).take n } }
    else none

/-- `async_write` has handed over all of its message. -/
def Complete (l : Link) : Prop := l.writer.underWay.map (·.wire.length) = some l.sent

instance (l : Link) : Decidable l.Complete := inferInstanceAs (Decidable (_ = _))

/-- All bytes that were handed over so far. -/
def handedOver (l : Link) : Bytes :=
  stream l.writer.completed ++ (stream l.writer.writeMessages).take l.sent

/-- What holds of a link at all times: the bytes that were handed over are those of the messages read
so far, then the header of the one being read, then what is on its way. -/
structure Inv (l : Link) : Prop where
  writer : l.writer.Inv
  framed : ∀ m ∈ l.writer.offered, m.Framed
  sent : l.sent ≤ (stream (l.writer.writeMessages.take 1)).length
  reader : l.reader.Inv
  bytes : Consumes l.handedOver l.reader

variable {l : Link}

theorem Inv.new (message : ChatMessage) : Inv ⟨.new, 0, .start message []⟩ where
  writer := .new
  framed _ hm := by cases hm
  sent := Nat.le_refl 0
  reader := .start message []
  bytes := ⟨[], rfl, fun _ => rfl, fun hcontra => by cases hcontra⟩

/-! ## The writing end -/

theorem Inv.handedOver_prefix (hl : l.Inv) : l.handedOver <+: stream l.writer.offered := by
  rw [handedOver, ← hl.writer.conserved, stream_append]
  exact (List.prefix_append_right_inj _).mpr (List.take_prefix ..)

theorem Inv.sent_le (hl : l.Inv) : l.sent ≤ (stream l.writer.writeMessages).length := by
  have hsplit := congrArg stream (List.take_append_drop 1 l.writer.writeMessages)
  rw [← hsplit, stream_append, List.length_append]
  exact Nat.le_trans hl.sent (Nat.le_add_right ..)

/-- A step of the writer that leaves what was handed over as it is. -/
theorem Inv.write (hl : l.Inv) {writer : ChatSession} {sent : Nat} (hw : writer.Inv)
    (hframed : ∀ m ∈ writer.offered, m.Framed)
    (hsent : sent ≤ (stream (writer.writeMessages.take 1)).length)
    (hsame : handedOver { l with writer := writer, sent := sent } = l.handedOver) :
    Inv { l with writer := writer, sent := sent } where
  writer := hw
  framed := hframed
  sent := hsent
  reader := hl.reader
  bytes := by
    rw [hsame]
    exact hl.bytes

theorem Inv.deliver (hl : l.Inv) {msg : ChatMessage} (hmsg : msg.Framed) :
    Inv { l with writer := l.writer.deliver msg } := by
  obtain ⟨hcompleted, hqueue⟩ := l.writer.completed_deliver msg
  apply hl.write (hl.writer.deliver msg)
  · intro m hm
    rw [ChatSession.offered_deliver] at hm
    rcases List.mem_append.mp hm with hm | hm
    · exact hl.framed m hm
    · rw [List.mem_singleton.mp hm]
      exact hmsg
  · rw [hqueue]
    have hsent := hl.sent
    cases hq : l.writer.writeMessages with
    | nil =>
      rw [hq] at hsent
      exact Nat.le_trans hsent (Nat.zero_le _)
    | cons m rest =>
      rw [hq] at hsent
      exact hsent
  · -- Only bytes of the front were handed over, and it is in front of the new message.
    simp only [handedOver, hcompleted, hqueue, stream_append]
    rw [List.take_append_of_le_length hl.sent_le]

theorem Inv.transmit (hl : l.Inv) {n : Nat} {l' : Link} (h : l.transmit n = some l') :
    l'.Inv ∧ l'.writer = l.writer ∧ l'.reader.accepted = l.reader.accepted ∧
      l'.reader.phase = l.reader.phase := by
  simp only [Link.transmit] at h
  split at h
  · cases h
  · rename_i m hm
    obtain ⟨-, rest, hq⟩ := hl.writer.underWay_eq hm
    split at h
    · rename_i hn
      cases h
      refine ⟨⟨hl.writer, hl.framed, ?_, ⟨hl.reader.decoded, hl.reader.bounded, hl.reader.framed⟩,
        ?_⟩, rfl, rfl, rfl⟩
      · simpa [hq, stream] using hn.2
      · obtain ⟨head, hbytes, hheader, hbody⟩ := hl.bytes
        refine ⟨head, ?_, hheader, hbody⟩
        have hmore : (stream l.writer.writeMessages).take (l.sent + n) =
            (stream l.writer.writeMessages).take l.sent ++ (m.wire.drop l.sent).take n := by
          rw [List.take_add, hq, stream_cons, List.drop_append_of_le_length (by omega)]
          congr 1
          exact List.take_append_of_le_length (by rw [List.length_drop]; omega)
        simp only [handedOver] at hbytes ⊢
        rw [hmore, ← List.append_assoc, hbytes, List.append_assoc]
    · cases h

/-- The handler of a complete write can run. -/
theorem Inv.popped_mem_writes (hl : l.Inv) (h : l.Complete) :
    l.writer.popped ∈ l.writer.writes := by
  obtain ⟨m, hm, -⟩ := Option.map_eq_some_iff.mp h
  rw [(hl.writer.underWay_eq hm).1]
  exact List.mem_singleton.mpr rfl

/-- The handler of a write that has handed over everything: the next one starts at its first byte. -/
theorem Inv.writeSucceeded (hl : l.Inv) (h : l.Complete) :
    Inv { l with writer := l.writer.writeSucceeded l.writer.popped, sent := 0 } := by
  obtain ⟨m, hm, hsent⟩ := Option.map_eq_some_iff.mp h
  obtain ⟨hone, rest, hq⟩ := hl.writer.underWay_eq hm
  obtain ⟨hcompleted, hqueue⟩ := l.writer.writeSucceeded_front hq
  apply hl.write (hl.writer.writeSucceeded (by simp [hone])).1
  · intro x hx
    rw [ChatSession.offered_writeSucceeded] at hx
    exact hl.framed x hx
  · exact Nat.zero_le _
  · simp only [handedOver, hcompleted, hqueue, stream_append, hq, stream_cons, ← hsent]
    simp [stream]

theorem Inv.writeFailed (hl : l.Inv) {position : Nat} (hp : position ∈ l.writer.writes) :
    Inv { l with writer := l.writer.writeFailed position } :=
  hl.write (hl.writer.writeFailed hp) hl.framed hl.sent rfl

/-! ## The reading end -/

theorem Inv.accepted_prefix (hl : l.Inv) :
    l.reader.accepted.map ChatMessage.body <+: l.writer.offered.map ChatMessage.body := by
  obtain ⟨head, hbytes, -⟩ := hl.bytes
  apply body_prefix_of_stream hl.reader.framed hl.framed
  refine List.IsPrefix.trans ?_ hl.handedOver_prefix
  rw [hbytes, List.append_assoc]
  exact List.prefix_append ..

/-- The four bytes a header read takes are the header of a message that was sent. -/
theorem Inv.announced (hl : l.Inv) (hphase : l.reader.phase = .header)
    (hlong : headerLength ≤ l.reader.input.length) :
    ∃ n, ChatMessage.announced (l.reader.input.take headerLength) = some n := by
  obtain ⟨head, hbytes, hheader, -⟩ := hl.bytes
  rw [hheader hphase, List.append_nil] at hbytes
  obtain ⟨cs, hcs, hinput, -⟩ := rest_of_stream hl.reader.framed hl.framed
    (hbytes ▸ hl.handedOver_prefix)
  cases cs with
  | nil =>
    rw [List.prefix_nil.mp hinput] at hlong
    cases hlong
  | cons m cs =>
    obtain ⟨rest, hrest⟩ := hinput
    refine ⟨m.bodyLength, ?_⟩
    have hcut : (l.reader.input ++ rest).take headerLength = l.reader.input.take headerLength :=
      List.take_append_of_le_length hlong
    rw [← hcut, hrest, stream_cons, List.take_append_of_le_length m.headerLength_le_wire,
      m.header_of_wire]
    exact hcs m (by simp)

/-- What one read comes to, on a link: the header of a message, or its body. -/
inductive Reads (r r' : ReadLoop) : Prop
  | header (before : r.phase = .header) (after : r'.phase = .body)
      (accepted : r'.accepted = r.accepted)
      (input : r'.input.length + headerLength = r.input.length)
  | body (before : r.phase = .body) (after : r'.phase = .header) (framed : r'.message.Framed)
      (accepted : r'.accepted = r.accepted ++ [r'.message])
      (input : r'.input.length + r'.message.bodyLength = r.input.length)

theorem Inv.readHeader (hl : l.Inv) (hphase : l.reader.phase = .header)
    (hlong : headerLength ≤ l.reader.input.length) :
    ∃ r', l.reader.step = .ok r' ∧ Inv { l with reader := r' } ∧ Reads l.reader r' := by
  obtain ⟨n, hn⟩ := hl.announced hphase hlong
  obtain ⟨message, hheader, hrun⟩ := readHeader_eq hlong
  rw [hn] at hrun
  let r' : ReadLoop :=
    { l.reader with
      message := { message with bodyLength := n }
      phase := .body
      input := l.reader.input.drop headerLength }
  have hstep : l.reader.step = .ok r' := by
    rw [step, hphase]
    exact hrun
  refine ⟨r', hstep, ⟨hl.writer, hl.framed, hl.sent, ?_, hl.bytes.readHeader hphase hrun⟩, ?_⟩
  · refine ⟨?_, hl.reader.bounded, hl.reader.framed⟩
    intro _
    show ChatMessage.announced (message.data.take headerLength) = some n
    rw [hheader, hn]
  · refine .header hphase rfl rfl ?_
    show (l.reader.input.drop headerLength).length + headerLength = l.reader.input.length
    rw [List.length_drop]
    omega

theorem Inv.readBody (hl : l.Inv) (hphase : l.reader.phase = .body)
    (hlong : l.reader.message.bodyLength ≤ l.reader.input.length) :
    ∃ r', l.reader.step = .ok r' ∧ Inv { l with reader := r' } ∧ Reads l.reader r' := by
  have hframed : l.reader.message.Framed := hl.reader.decoded hphase
  obtain ⟨message, hheader, hlength, -, hrun⟩ := readBody_eq hframed.bodyLength_le hlong
  have hnew : message.Framed := by
    rw [ChatMessage.Framed, hheader, hlength]
    exact hframed
  let r' : ReadLoop :=
    { message := message
      phase := .header
      input := l.reader.input.drop l.reader.message.bodyLength
      bodyReads := l.reader.bodyReads ++ [l.reader.message.bodyLength]
      accepted := l.reader.accepted ++ [message] }
  have hstep : l.reader.step = .ok r' := by
    rw [step, hphase]
    exact hrun
  refine ⟨r', hstep,
    ⟨hl.writer, hl.framed, hl.sent, ?_, hl.bytes.readBody hphase hframed hrun⟩, ?_⟩
  · refine ⟨(fun hcontra => by cases hcontra), ?_, ?_⟩
    · intro n hn
      rcases List.mem_append.mp hn with hn | hn
      · exact hl.reader.bounded n hn
      · rw [List.mem_singleton.mp hn]
        exact hframed.bodyLength_le
    · intro m hm
      rcases List.mem_append.mp hm with hm | hm
      · exact hl.reader.framed m hm
      · rw [List.mem_singleton.mp hm]
        exact hnew
  · refine .body hphase rfl hnew rfl ?_
    show (l.reader.input.drop l.reader.message.bodyLength).length + message.bodyLength =
      l.reader.input.length
    rw [List.length_drop, hlength]
    omega

/-- **A read that has what it asked for** neither faults nor rejects. -/
theorem Inv.read (hl : l.Inv) (hready : l.reader.ready = true) :
    ∃ r', l.reader.step = .ok r' ∧ Inv { l with reader := r' } ∧ Reads l.reader r' := by
  cases hphase : l.reader.phase with
  | header => exact hl.readHeader hphase (by simpa [ready, hphase] using hready)
  | body => exact hl.readBody hphase (by simpa [ready, hphase] using hready)
  | ended => simp [ready, hphase] at hready
  | rejected => simp [ready, hphase] at hready

theorem Inv.readFailed (hl : l.Inv) :
    Inv { l with reader := { l.reader with phase := .ended } } where
  writer := hl.writer
  framed := hl.framed
  sent := hl.sent
  reader := ⟨(fun hcontra => by cases hcontra), hl.reader.bounded, hl.reader.framed⟩
  bytes := by
    obtain ⟨head, hbytes, -⟩ := hl.bytes
    exact ⟨head, hbytes, (fun hcontra => by cases hcontra), (fun hcontra => by cases hcontra)⟩

/-- **A link at rest has carried everything.** The deque is empty, so all bytes were handed over; the
reader waits for more than there is, so it is between two messages. -/
theorem Inv.settled (hl : l.Inv) (hempty : l.writer.writeMessages = [])
    (hwaiting : l.reader.phase = .header ∨ l.reader.phase = .body)
    (hready : l.reader.ready = false) :
    l.reader.accepted.map ChatMessage.body = l.writer.offered.map ChatMessage.body := by
  have hall : l.handedOver = stream l.writer.offered := by
    rw [handedOver, ← hl.writer.conserved, hempty]
    simp [stream]
  obtain ⟨head, hbytes, hheader, hbody⟩ := hl.bytes
  rw [hall, List.append_assoc] at hbytes
  obtain ⟨cs, hcs, -, hsplit⟩ := rest_of_stream (t := head ++ l.reader.input) hl.reader.framed
    hl.framed (by rw [hbytes])
  have hrest : head ++ l.reader.input = stream cs := by
    have hflat := congrArg List.flatten hsplit
    rw [List.flatten_append] at hflat
    exact List.append_cancel_left (hbytes.symm.trans hflat)
  cases cs with
  | nil =>
    rw [map_body_eq, map_body_eq, hsplit]
    simp
  | cons m cs =>
    rw [stream_cons] at hrest
    exfalso
    have hframed : m.Framed := hcs m (by simp)
    rcases hwaiting with hphase | hphase
    · rw [hheader hphase, List.nil_append] at hrest
      have hlong := m.headerLength_le_wire
      simp [ready, hphase, hrest] at hready
      omega
    · have htake : l.reader.message.data.take headerLength = m.data.take headerLength := by
        have := congrArg (List.take headerLength) hrest
        rwa [hbody hphase, List.take_left' l.reader.message.length_header,
          List.take_append_of_le_length m.headerLength_le_wire, m.header_of_wire] at this
      have hsame : l.reader.message.bodyLength = m.bodyLength := by
        have hdecoded : ChatMessage.announced _ = _ := hl.reader.decoded hphase
        have hsent : ChatMessage.announced _ = _ := hframed
        rw [htake, hsent] at hdecoded
        exact (Option.some.inj hdecoded).symm
      have hlength := congrArg List.length hrest
      rw [hbody hphase, List.length_append, l.reader.message.length_header, List.length_append,
        ChatMessage.length_wire hframed, ChatMessage.length] at hlength
      simp [ready, hphase, hsame] at hready
      omega

end Link

end ServerTest.Chat
