import ServerTest.Chat.ChatMessage

/-!
# The read loop

`do_read_header` and `do_read_body` of `ChatSession` and of `chat_client`: read four bytes into the
message, decode them, read as many bytes as they announce behind them, hand the message on, start
again. The two classes have the same loop, text for text, and differ in what they do with a message
(the session delivers it to the room, the client prints its body) and in how they stop (leave the
room, close the socket). Neither has any influence on the next iteration, so there is one loop here,
and what was handed on is `accepted`.

`asio::async_read` fills the whole buffer or fails. On a finite stream it fails where the stream is
too short, and `ended` is that end. The message object is reused: the array still holds the tail of
an earlier body, and that tail must never become visible. It does not, because everything that is
handed on is framed, and what a framed message looks like on the wire is determined by the four
bytes and the body alone. That is why the loop of a client that is sent the *raw* headers of another
client, signs and stray characters included, cuts the stream exactly where the server cut it.
-/

set_option autoImplicit false

namespace ServerTest.Chat

open Lib

inductive ReadPhase where
  /-- waiting for `header_length` bytes -/
  | header
  /-- waiting for `body_length()` bytes -/
  | body
  /-- a read failed -/
  | ended
  /-- `decode_header` returned `false` -/
  | rejected
  deriving DecidableEq, Repr

/-- The loop: the message it reads into, the bytes it has not read yet, the sizes of the bodies it
has asked for, and the messages it has handed on. -/
structure ReadLoop where
  message : ChatMessage
  phase : ReadPhase
  input : Bytes
  bodyReads : List Nat
  accepted : List ChatMessage

namespace ReadLoop

def start (message : ChatMessage) (input : Bytes) : ReadLoop := ⟨message, .header, input, [], []⟩

/-- `do_read_header` and its handler. -/
def readHeader (r : ReadLoop) : Except Fault ReadLoop :=
  if r.input.length < headerLength then .ok { r with phase := .ended }
  else do
    let message ← r.message.copyTo 0 (r.input.take headerLength)
    let r := { r with input := r.input.drop headerLength }
    match message.decodeHeader with
    | (true, message) => return { r with message := message, phase := .body }
    | (false, message) => return { r with message := message, phase := .rejected }

/-- `do_read_body` and its handler. -/
def readBody (r : ReadLoop) : Except Fault ReadLoop :=
  let bodyLength := r.message.bodyLength
  let r := { r with bodyReads := r.bodyReads ++ [bodyLength] }
  if r.input.length < bodyLength then .ok { r with phase := .ended }
  else do
    let message ← r.message.copyTo headerLength (r.input.take bodyLength)
    return { r with
      message := message
      phase := .header
      input := r.input.drop bodyLength
      accepted := r.accepted ++ [message] }

def step (r : ReadLoop) : Except Fault ReadLoop :=
  match r.phase with
  | .header => r.readHeader
  | .body => r.readBody
  | .ended => .ok r
  | .rejected => .ok r

def run : Nat → ReadLoop → Except Fault ReadLoop
  | 0, r => .ok r
  | n + 1, r => do
    let r ← r.step
    run n r

def Stopped (r : ReadLoop) : Prop := r.phase = .ended ∨ r.phase = .rejected

/-- The loop of a session or a client that starts with `message` and is sent `input`. The number of
steps is no limit: `readLoop_stops` shows that it is enough. -/
def readLoop (message : ChatMessage) (input : Bytes) : Except Fault ReadLoop :=
  run (input.length + 2) (start message input)

variable {r r' : ReadLoop}

/-! ## The two reads

Each handler in one equation: what it decides on, and what it leaves behind. -/

theorem readHeader_eq (hlong : headerLength ≤ r.input.length) :
    ∃ message : ChatMessage, message.data.take headerLength = r.input.take headerLength ∧
      r.readHeader = .ok (match ChatMessage.announced (r.input.take headerLength) with
        | some n => { r with
            message := { message with bodyLength := n }
            phase := .body
            input := r.input.drop headerLength }
        | none => { r with
            message := { message with bodyLength := 0 }
            phase := .rejected
            input := r.input.drop headerLength }) := by
  have hlen : (r.input.take headerLength).length = headerLength := by
    rw [List.length_take]
    omega
  obtain ⟨message, hcopy⟩ : ∃ m, r.message.copyTo 0 (r.input.take headerLength) = .ok m :=
    ChatMessage.copyTo_returns (by omega)
  have hheader : message.data.take headerLength = r.input.take headerLength := by
    have hinside := ChatMessage.copyTo_inside hcopy
    rwa [List.drop_zero, hlen] at hinside
  refine ⟨message, hheader, ?_⟩
  rw [readHeader, if_neg (Nat.not_lt.mpr hlong)]
  refine bind_returns.mpr ⟨message, hcopy, ?_⟩
  simp only [message.decodeHeader_eq, hheader]
  cases ChatMessage.announced (r.input.take headerLength) with
  | none => rfl
  | some n => rfl

theorem readBody_eq (hle : r.message.bodyLength ≤ maxBodyLength)
    (hlong : r.message.bodyLength ≤ r.input.length) :
    ∃ message : ChatMessage,
      message.data.take headerLength = r.message.data.take headerLength ∧
      message.bodyLength = r.message.bodyLength ∧
      message.body = r.input.take r.message.bodyLength ∧
      r.readBody = .ok
        { message := message
          phase := .header
          input := r.input.drop r.message.bodyLength
          bodyReads := r.bodyReads ++ [r.message.bodyLength]
          accepted := r.accepted ++ [message] } := by
  have hlen : (r.input.take r.message.bodyLength).length = r.message.bodyLength := by
    rw [List.length_take]
    omega
  obtain ⟨message, hcopy⟩ :
      ∃ m, r.message.copyTo headerLength (r.input.take r.message.bodyLength) = .ok m :=
    ChatMessage.copyTo_returns (by omega)
  have hsame : message.bodyLength = r.message.bodyLength := (ChatMessage.copyTo_eq_ok hcopy).2.1
  refine ⟨message, ChatMessage.copyTo_before hcopy, hsame, ?_, ?_⟩
  · have hinside := ChatMessage.copyTo_inside hcopy
    rw [hlen] at hinside
    rw [ChatMessage.body, hsame, hinside]
  · rw [readBody]
    rw [if_neg (Nat.not_lt.mpr hlong)]
    exact bind_returns.mpr ⟨message, hcopy, rfl⟩

/-! ## Every stream -/

/-- What holds between two steps. While a body is being read the message is already framed, so the
body asked for fits behind the header. -/
structure Inv (r : ReadLoop) : Prop where
  decoded : r.phase = .body → r.message.Framed
  bounded : ∀ n ∈ r.bodyReads, n ≤ maxBodyLength
  framed : ∀ m ∈ r.accepted, m.Framed

theorem Inv.start (message : ChatMessage) (input : Bytes) : (start message input).Inv where
  decoded h := by cases h
  bounded n h := by cases h
  framed m h := by cases h

/-- Steps left, at most. A header takes four bytes, a body may take none. -/
def fuel (r : ReadLoop) : Nat :=
  match r.phase with
  | .header => r.input.length + 1
  | .body => r.input.length + 2
  | .ended => 0
  | .rejected => 0

theorem Inv.readHeader (hr : r.Inv) (hphase : r.phase = .header) :
    ∃ r', r.readHeader = .ok r' ∧ r'.Inv ∧ r'.fuel < r.fuel := by
  have hfuel : r.fuel = r.input.length + 1 := by simp [fuel, hphase]
  by_cases hshort : r.input.length < headerLength
  · refine ⟨_, if_pos hshort, ⟨?_, hr.bounded, hr.framed⟩, ?_⟩
    · intro hbody
      cases hbody
    · rw [hfuel]
      exact Nat.succ_pos _
  · obtain ⟨message, hheader, hrun⟩ := readHeader_eq (Nat.le_of_not_lt hshort)
    have hdrop : (r.input.drop headerLength).length + 2 < r.fuel := by
      rw [hfuel, List.length_drop]
      simp only [headerLength] at hshort ⊢
      omega
    refine ⟨_, hrun, ?_⟩
    cases hann : ChatMessage.announced (r.input.take headerLength) with
    | none =>
      refine ⟨⟨?_, hr.bounded, hr.framed⟩, Nat.lt_of_le_of_lt (Nat.zero_le _) hdrop⟩
      intro hbody
      cases hbody
    | some n =>
      refine ⟨⟨?_, hr.bounded, hr.framed⟩, hdrop⟩
      intro _
      show ChatMessage.announced (message.data.take headerLength) = some n
      rw [hheader, hann]

theorem Inv.readBody (hr : r.Inv) (hphase : r.phase = .body) :
    ∃ r', r.readBody = .ok r' ∧ r'.Inv ∧ r'.fuel < r.fuel := by
  have hfuel : r.fuel = r.input.length + 2 := by simp [fuel, hphase]
  have hframed : r.message.Framed := hr.decoded hphase
  have hbounded : ∀ n ∈ r.bodyReads ++ [r.message.bodyLength], n ≤ maxBodyLength := by
    intro n hn
    rcases List.mem_append.mp hn with hn | hn
    · exact hr.bounded n hn
    · rw [List.mem_singleton.mp hn]
      exact hframed.bodyLength_le
  by_cases hshort : r.input.length < r.message.bodyLength
  · refine ⟨_, if_pos hshort, ⟨?_, hbounded, hr.framed⟩, ?_⟩
    · intro hbody
      cases hbody
    · rw [hfuel]
      exact Nat.succ_pos _
  · obtain ⟨message, hheader, hlength, -, hrun⟩ :=
      readBody_eq hframed.bodyLength_le (Nat.le_of_not_lt hshort)
    refine ⟨_, hrun, ⟨?_, hbounded, ?_⟩, ?_⟩
    · intro hbody
      cases hbody
    · intro m hm
      rcases List.mem_append.mp hm with hm | hm
      · exact hr.framed m hm
      · rw [List.mem_singleton.mp hm, ChatMessage.Framed, hheader, hlength]
        exact hframed
    · rw [hfuel]
      show (r.input.drop r.message.bodyLength).length + 1 < r.input.length + 2
      rw [List.length_drop]
      omega

/-- A step never faults; a loop that has not stopped comes closer to it. -/
theorem Inv.step (hr : r.Inv) :
    ∃ r', r.step = .ok r' ∧ r'.Inv ∧ (r.Stopped ∧ r' = r ∨ r'.fuel < r.fuel) := by
  cases hphase : r.phase with
  | header =>
    obtain ⟨r', hrun, hr', hless⟩ := hr.readHeader hphase
    exact ⟨r', by rw [ReadLoop.step, hphase]; exact hrun, hr', Or.inr hless⟩
  | body =>
    obtain ⟨r', hrun, hr', hless⟩ := hr.readBody hphase
    exact ⟨r', by rw [ReadLoop.step, hphase]; exact hrun, hr', Or.inr hless⟩
  | ended => exact ⟨r, by rw [ReadLoop.step, hphase], hr, Or.inl ⟨Or.inl hphase, rfl⟩⟩
  | rejected => exact ⟨r, by rw [ReadLoop.step, hphase], hr, Or.inl ⟨Or.inr hphase, rfl⟩⟩

theorem stopped_of_fuel (h : r.fuel = 0) : r.Stopped := by
  cases hphase : r.phase with
  | header => simp [fuel, hphase] at h
  | body => simp [fuel, hphase] at h
  | ended => exact Or.inl hphase
  | rejected => exact Or.inr hphase

theorem run_stopped (h : r.Stopped) (n : Nat) : run n r = .ok r := by
  have hstep : r.step = .ok r := by
    rcases h with h | h
    · rw [step, h]
    · rw [step, h]
  induction n with
  | zero => rfl
  | succ n ih => exact bind_returns.mpr ⟨r, hstep, ih⟩

theorem run_stops {n : Nat} (hr : r.Inv) (hn : r.fuel ≤ n) :
    ∃ r', run n r = .ok r' ∧ r'.Inv ∧ r'.Stopped := by
  induction n generalizing r with
  | zero => exact ⟨r, rfl, hr, stopped_of_fuel (Nat.le_zero.mp hn)⟩
  | succ n ih =>
    obtain ⟨r₁, hstep, hr₁, ⟨hstopped, rfl⟩ | hless⟩ := hr.step
    · exact ⟨r₁, run_stopped hstopped _, hr₁, hstopped⟩
    · obtain ⟨r', hrun, hr', hstopped⟩ := ih hr₁ (by omega)
      exact ⟨r', bind_returns.mpr ⟨r₁, hstep, hrun⟩, hr', hstopped⟩

/-- **The loop stops on every stream**, without a fault. -/
theorem readLoop_stops (message : ChatMessage) (input : Bytes) :
    ∃ r, readLoop message input = .ok r ∧ r.Inv ∧ r.Stopped :=
  run_stops (.start message input) (by simp [fuel, start])

/-! ## A stream of framed messages -/

theorem run_add (a b : Nat) : run (a + b) r = run a r >>= run b := by
  induction a generalizing r with
  | zero =>
    rw [Nat.zero_add]
    rfl
  | succ a ih =>
    rw [Nat.succ_add]
    simp only [run, bind_assoc, ih]

/-- One framed message in front: two steps read it. -/
theorem run_message {m : ChatMessage} {rest : Bytes} (hm : m.Framed) (hphase : r.phase = .header)
    (hinput : r.input = m.wire ++ rest) :
    ∃ r' m', run 2 r = .ok r' ∧ r'.phase = .header ∧ r'.input = rest ∧
      r'.accepted = r.accepted ++ [m'] ∧ m'.body = m.body := by
  have hbody : m.body.length = m.bodyLength := ChatMessage.length_body hm.bodyLength_le
  have hwire : r.input = m.data.take headerLength ++ (m.body ++ rest) := by
    rw [hinput, m.wire_eq, List.append_assoc]
  have hhead : r.input.take headerLength = m.data.take headerLength := by
    rw [hwire, List.take_left' m.length_header]
  have htail : r.input.drop headerLength = m.body ++ rest := by
    rw [hwire, List.drop_left' m.length_header]
  have hlong : headerLength ≤ r.input.length := by
    rw [hwire, List.length_append, m.length_header]
    omega
  obtain ⟨message, -, hrun₁⟩ := readHeader_eq hlong
  rw [hhead, show ChatMessage.announced (m.data.take headerLength) = some m.bodyLength from hm,
    htail] at hrun₁
  let reading : ReadLoop :=
    { r with
      message := { message with bodyLength := m.bodyLength }
      phase := .body
      input := m.body ++ rest }
  have hstep₁ : r.step = .ok reading := by
    rw [step, hphase]
    exact hrun₁
  obtain ⟨m', -, -, hm', hrun₂⟩ := readBody_eq (r := reading) hm.bodyLength_le
    (by simp [reading, hbody])
  refine ⟨_, m', bind_returns.mpr ⟨_, hstep₁, bind_returns.mpr ⟨_, hrun₂, rfl⟩⟩, rfl, ?_, rfl, ?_⟩
  · exact List.drop_left' hbody
  · rw [hm']
    exact List.take_left' hbody

/-- The bytes a list of messages is on the wire. -/
def stream (ms : List ChatMessage) : Bytes := (ms.map ChatMessage.wire).flatten

theorem stream_cons (m : ChatMessage) (ms : List ChatMessage) :
    stream (m :: ms) = m.wire ++ stream ms := rfl

theorem stream_append (as bs : List ChatMessage) : stream (as ++ bs) = stream as ++ stream bs := by
  simp [stream]

/-- Any number of them, with anything behind. Induction on the messages. -/
theorem run_messages {ms : List ChatMessage} {rest : Bytes} (hms : ∀ m ∈ ms, m.Framed)
    (hphase : r.phase = .header) (hinput : r.input = stream ms ++ rest) :
    ∃ r', run (2 * ms.length) r = .ok r' ∧ r'.phase = .header ∧ r'.input = rest ∧
      r'.accepted.map ChatMessage.body =
        r.accepted.map ChatMessage.body ++ ms.map ChatMessage.body := by
  induction ms generalizing r with
  | nil => exact ⟨r, rfl, hphase, by simpa [stream] using hinput, by simp⟩
  | cons m ms ih =>
    have hfront : r.input = m.wire ++ (stream ms ++ rest) := by simpa [stream] using hinput
    obtain ⟨r₁, m', hrun₁, hphase₁, hinput₁, haccepted, hbody⟩ :=
      run_message (hms m (by simp)) hphase hfront
    obtain ⟨r₂, hrun₂, hphase₂, hinput₂, haccepted₂⟩ :=
      ih (fun x hx => hms x (by simp [hx])) hphase₁ hinput₁
    refine ⟨r₂, ?_, hphase₂, hinput₂, ?_⟩
    · -- Two steps for this message, the others for the rest.
      rw [List.length_cons, Nat.mul_succ, Nat.add_comm, run_add]
      exact bind_returns.mpr ⟨r₁, hrun₁, hrun₂⟩
    · simp [haccepted₂, haccepted, hbody]

theorem length_stream (ms : List ChatMessage) : 2 * ms.length ≤ (stream ms).length := by
  induction ms with
  | nil => exact Nat.le_refl 0
  | cons m ms ih =>
    have hwire : headerLength ≤ m.wire.length := by
      rw [m.wire_eq, List.length_append, m.length_header]
      omega
    have hcons : stream (m :: ms) = m.wire ++ stream ms := by simp [stream]
    rw [hcons, List.length_append, List.length_cons]
    simp only [headerLength] at hwire
    omega

/-- **A loop that is sent framed messages hands on exactly their bodies** and stops because the
stream is over, with nothing left. -/
theorem readLoop_stream (message : ChatMessage) {ms : List ChatMessage} (hms : ∀ m ∈ ms, m.Framed) :
    ∃ r, readLoop message (stream ms) = .ok r ∧ r.phase = .ended ∧ r.input = [] ∧
      r.accepted.map ChatMessage.body = ms.map ChatMessage.body := by
  have hall : (start message (stream ms)).input = stream ms ++ [] := (List.append_nil _).symm
  obtain ⟨r, hrun, hphase, hinput, haccepted⟩ := run_messages hms rfl hall
  have hend : r.step = .ok { r with phase := .ended } := by
    rw [step, hphase]
    exact if_pos (by rw [hinput]; decide)
  -- A message is at least four bytes long, so two steps for each are within the fuel.
  obtain ⟨k, hk⟩ := Nat.exists_eq_add_of_le (length_stream ms)
  refine ⟨{ r with phase := .ended }, ?_, rfl, hinput, by simpa [start] using haccepted⟩
  rw [readLoop, hk, show 2 * ms.length + k + 2 = 2 * ms.length + (k + 1 + 1) by omega, run_add]
  exact bind_returns.mpr
    ⟨r, hrun, bind_returns.mpr ⟨_, hend, run_stopped (Or.inl rfl) (k + 1)⟩⟩

/-! ## What has been read -/

/-- The bytes that have arrived so far are those of the messages handed on, then the header of the one
being read, then what has not been read. -/
def Consumes (arrived : Bytes) (r : ReadLoop) : Prop :=
  ∃ head, arrived = stream r.accepted ++ head ++ r.input ∧ (r.phase = .header → head = []) ∧
    (r.phase = .body → head = r.message.data.take headerLength)

theorem Consumes.readHeader {arrived : Bytes} (h : Consumes arrived r) (hphase : r.phase = .header)
    (hread : r.readHeader = .ok r') : Consumes arrived r' := by
  obtain ⟨head, harrived, hnone, -⟩ := h
  obtain rfl := hnone hphase
  by_cases hshort : r.input.length < headerLength
  · rw [ReadLoop.readHeader, if_pos hshort] at hread
    cases hread
    exact ⟨[], harrived, fun _ => rfl, fun hcontra => by cases hcontra⟩
  · obtain ⟨message, hheader, hrun⟩ := readHeader_eq (Nat.le_of_not_lt hshort)
    have hsplit : arrived = stream r.accepted ++ r.input.take headerLength ++
        r.input.drop headerLength := by
      rw [harrived, List.append_nil, List.append_assoc, List.take_append_drop]
    cases hann : ChatMessage.announced (r.input.take headerLength) with
    | none =>
      simp only [hann] at hrun
      cases hrun.symm.trans hread
      exact ⟨_, hsplit, (fun hcontra => by cases hcontra), fun hcontra => by cases hcontra⟩
    | some n =>
      simp only [hann] at hrun
      cases hrun.symm.trans hread
      exact ⟨_, hsplit, (fun hcontra => by cases hcontra), fun _ => hheader.symm⟩

theorem Consumes.readBody {arrived : Bytes} (h : Consumes arrived r) (hphase : r.phase = .body)
    (hframed : r.message.Framed) (hread : r.readBody = .ok r') : Consumes arrived r' := by
  obtain ⟨head, harrived, -, hhead⟩ := h
  by_cases hshort : r.input.length < r.message.bodyLength
  · rw [ReadLoop.readBody, if_pos hshort] at hread
    cases hread
    exact ⟨head, harrived, (fun hcontra => by cases hcontra), fun hcontra => by cases hcontra⟩
  · obtain ⟨message, hheader, -, hbody, hrun⟩ :=
      readBody_eq hframed.bodyLength_le (Nat.le_of_not_lt hshort)
    cases hrun.symm.trans hread
    refine ⟨[], ?_, fun _ => rfl, fun hcontra => by cases hcontra⟩
    -- Header and body together are the message that is handed on.
    show arrived = stream (r.accepted ++ [message]) ++ [] ++ r.input.drop r.message.bodyLength
    rw [harrived, hhead hphase, stream_append, List.append_nil, stream_cons, message.wire_eq, hheader,
      hbody]
    simp [stream]

theorem Consumes.step {arrived : Bytes} (h : Consumes arrived r) (hr : r.Inv)
    (hstep : r.step = .ok r') : Consumes arrived r' := by
  rw [ReadLoop.step] at hstep
  cases hphase : r.phase with
  | header =>
    rw [hphase] at hstep
    exact h.readHeader hphase hstep
  | body =>
    rw [hphase] at hstep
    exact h.readBody hphase (hr.decoded hphase) hstep
  | ended =>
    rw [hphase] at hstep
    cases hstep
    exact h
  | rejected =>
    rw [hphase] at hstep
    cases hstep
    exact h

theorem Consumes.run {arrived : Bytes} {n : Nat} (h : Consumes arrived r) (hr : r.Inv)
    (hrun : run n r = .ok r') : Consumes arrived r' := by
  induction n generalizing r with
  | zero =>
    cases hrun
    exact h
  | succ n ih =>
    obtain ⟨r₁, hstep, hrun⟩ := bind_returns.mp hrun
    obtain ⟨r₂, hstep₂, hr₂, -⟩ := hr.step
    cases hstep.symm.trans hstep₂
    exact ih (h.step hr hstep) hr₂ hrun

/-- **What a loop hands on is what it was sent**, byte for byte, up to where it stopped. -/
theorem readLoop_prefix {message : ChatMessage} {input : Bytes} (hrun : readLoop message input = .ok r) :
    stream r.accepted <+: input := by
  have hstart : Consumes input (start message input) :=
    ⟨[], rfl, fun _ => rfl, fun hcontra => by cases hcontra⟩
  obtain ⟨head, harrived, -, -⟩ := hstart.run (.start message input) hrun
  rw [List.append_assoc] at harrived
  exact ⟨_, harrived.symm⟩

/-! ## What it amounts to -/

/-- The messages of `bodies`, each composed in an object whose array held anything at all. -/
def composeAll (bodies : List (ChatMessage × Bytes)) : Except Fault (List ChatMessage) :=
  bodies.mapM fun p => p.1.compose p.2

theorem composeAll_returns {bodies : List (ChatMessage × Bytes)}
    (h : ∀ p ∈ bodies, p.2.length ≤ maxBodyLength) :
    ∃ ms, composeAll bodies = .ok ms ∧ (∀ m ∈ ms, m.Framed) ∧
      ms.map ChatMessage.body = bodies.map Prod.snd := by
  induction bodies with
  | nil => exact ⟨[], rfl, by simp, rfl⟩
  | cons p bodies ih =>
    obtain ⟨m, hm, hframed, hbody⟩ := p.1.compose_returns (h p (by simp))
    obtain ⟨ms, hms, hall, hbodies⟩ := ih fun q hq => h q (by simp [hq])
    refine ⟨m :: ms, ?_, ?_, by simp [hbody, hbodies]⟩
    · rw [composeAll, List.mapM_cons]
      exact bind_returns.mpr ⟨m, hm, bind_returns.mpr ⟨ms, hms, rfl⟩⟩
    · intro x hx
      rcases List.mem_cons.mp hx with rfl | hx
      · exact hframed
      · exact hall x hx

/-- **What is sent is what is read.** Any bodies of at most `max_body_length` bytes, composed and
sent one after the other: the loop at the other end accepts every header, hands on the same bodies in
the same order, and has read every byte. -/
theorem composed_stream_read (bodies : List (ChatMessage × Bytes)) (message : ChatMessage)
    (h : ∀ p ∈ bodies, p.2.length ≤ maxBodyLength) :
    ∃ ms r, composeAll bodies = .ok ms ∧ readLoop message (stream ms) = .ok r ∧
      r.phase = .ended ∧ r.input = [] ∧
      r.accepted.map ChatMessage.body = bodies.map Prod.snd := by
  obtain ⟨ms, hms, hframed, hbodies⟩ := composeAll_returns h
  obtain ⟨r, hrun, hphase, hinput, haccepted⟩ := readLoop_stream message hframed
  exact ⟨ms, r, hms, hrun, hphase, hinput, haccepted.trans hbodies⟩

theorem composed_stream_read_two :
    ∃ ms r, composeAll [(.blank, ascii "hello"), (.blank, [])] = .ok ms ∧
      readLoop .blank (stream ms) = .ok r ∧ r.phase = .ended ∧ r.input = [] ∧
      r.accepted.map ChatMessage.body = [ascii "hello", []] :=
  composed_stream_read [(.blank, ascii "hello"), (.blank, [])] .blank (by decide)

/-- **The server is safe against any stream and transparent to it.** Whatever bytes arrive, its loop
stops, never asks for a body that does not fit behind the header, and relays a prefix of them; what it
relays, read by a client's loop, gives the bodies the server read: the relayed headers are the
sender's own bytes, and the two loops decide on the same four of them. -/
theorem server_transparent (server client : ChatMessage) (input : Bytes) :
    ∃ r, readLoop server input = .ok r ∧ r.Stopped ∧
      (∀ n ∈ r.bodyReads, n ≤ maxBodyLength ∧ headerLength + n ≤ r.message.data.length) ∧
      stream r.accepted <+: input ∧
      ∃ c, readLoop client (stream r.accepted) = .ok c ∧ c.phase = .ended ∧ c.input = [] ∧
        c.accepted.map ChatMessage.body = r.accepted.map ChatMessage.body := by
  obtain ⟨r, hrun, hr, hstopped⟩ := readLoop_stops server input
  refine ⟨r, hrun, hstopped, ?_, readLoop_prefix hrun, readLoop_stream client hr.framed⟩
  intro n hn
  have hle := hr.bounded n hn
  exact ⟨hle, by rw [r.message.size]; omega⟩

end ReadLoop

end ServerTest.Chat
