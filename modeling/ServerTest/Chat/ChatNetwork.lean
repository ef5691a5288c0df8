import ServerTest.Chat.Link

/-!
# Clients, connections and the room

The whole chat: any number of `chat_client`s, each with a connection to the server, and the one room.
`main` of a client reads lines and posts messages to the client's `io_service`; the client writes them
to its socket and prints what it reads from it; the server accepts the connection, and the session
delivers to the room what it reads and writes to the socket what the room hands it. Every handler of
either program is a step, and so is every piece of a message a socket takes; their order is arbitrary.
A read or a write may fail at any time.

Ghosts: `typed` are the lines of a client, `log` is what was said in the room and by whom, `joinedAt`
is how much of it there was when a session joined, and `failed` says that something went wrong on a
connection, or that the client hung up.

`io_service::post` queues: handlers that were posted run in the order they were posted in, on the one
thread that calls `run`. `std::cin.getline` leaves at most `max_body_length` characters in `line`, and
`strlen` sees those before the first NUL. A line that is longer ends the loop of `main` as the end of
the input does, and both are `hangUp`.
-/

set_option autoImplicit false

namespace ServerTest.Chat

open Lib

/-! ## One connection -/

/-- What `main` posts to the `io_service` of a client. -/
inductive Posted where
  /-- the handler of `chat_client::write` -/
  | write (msg : ChatMessage)
  /-- the handler of `chat_client::close` -/
  | close

/-- A client: `writer` is `write_msgs_` with the write under way, `reader` is the read loop with
`read_msg_`, and what it has accepted has been printed. -/
structure ChatClient where
  posted : List Posted
  hungUp : Bool
  writer : ChatSession
  sent : Nat
  reader : ReadLoop
  connected : Bool
  closed : Bool
  typed : List Bytes

/-- A client, its connection, and what its session has besides its place in the room. -/
structure Connection where
  client : ChatClient
  established : Bool
  sessionSent : Nat
  sessionReader : ReadLoop
  failed : Bool

/-- Before anything has happened. The arrays of the two messages read into may hold anything. -/
def Connection.new (memory : ChatMessage × ChatMessage) : Connection where
  client :=
    { posted := []
      hungUp := false
      writer := .new
      sent := 0
      reader := .start memory.1 []
      connected := false
      closed := false
      typed := [] }
  established := false
  sessionSent := 0
  sessionReader := .start memory.2 []
  failed := false

/-- From the client to its session. -/
def Connection.up (c : Connection) : Link := ⟨c.client.writer, c.client.sent, c.sessionReader⟩

/-- From a session, whose deque is in the room, to its client. -/
def Connection.down (c : Connection) (session : ChatSession) : Link :=
  ⟨session, c.sessionSent, c.client.reader⟩

/-! ## The network -/

structure ChatNetwork (ι : Type) where
  room : ChatRoom ι
  ends : ι → Connection
  log : List (ι × Bytes)
  joinedAt : ι → Nat

inductive NetworkEvent (ι : Type) where
  /-- `main` reads a line and makes a message of it, in an array that held `message` -/
  | type (i : ι) (message : ChatMessage) (line : Bytes)
  | hangUp (i : ι)
  /-- the client runs the next handler that was posted -/
  | runPosted (i : ι)
  /-- the connection comes about -/
  | establish (i : ι)
  /-- the handler of `async_connect` -/
  | connected (i : ι)
  /-- the handler of `async_accept` -/
  | accept (i : ι)
  /-- the client's socket takes `n` bytes -/
  | clientSend (i : ι) (n : Nat)
  | clientWritten (i : ι) (position : Nat)
  | clientWriteFailed (i : ι) (position : Nat)
  /-- the handlers of `do_read_header` and `do_read_body` of the session -/
  | sessionRead (i : ι)
  | sessionReadFailed (i : ι)
  /-- the session's socket takes `n` bytes -/
  | sessionSend (i : ι) (n : Nat)
  | sessionWritten (i : ι) (position : Nat)
  | sessionWriteFailed (i : ι) (position : Nat)
  | clientRead (i : ι)
  | clientReadFailed (i : ι)

namespace ChatNetwork

variable {ι : Type}

def new (memory : ι → ChatMessage × ChatMessage) : ChatNetwork ι where
  room := .new
  ends i := .new (memory i)
  log := []
  joinedAt _ := 0

variable [LinearOrder ι]

def setEnd (n : ChatNetwork ι) (i : ι) (c : Connection) : ChatNetwork ι :=
  { n with ends := Function.update n.ends i c }

def setClient (n : ChatNetwork ι) (i : ι) (client : ChatClient) : ChatNetwork ι :=
  n.setEnd i { n.ends i with client := client }

/-- A read of session `i` succeeded and left the loop as `r`: after a body the message goes to the
room, after a header that was rejected the session leaves it. -/
def received (n : ChatNetwork ι) (i : ι) (r : ReadLoop) : ChatNetwork ι :=
  let n := n.setEnd i { n.ends i with sessionReader := r }
  match r.phase with
  | .header =>
    { n with
      room := n.room.deliver r.message
      log := n.log ++ [(i, r.message.body)] }
  | .rejected =>
    let n := n.setEnd i { n.ends i with failed := true }
    { n with room := n.room.leave i }
  | .body => n
  | .ended => n

def step (n : ChatNetwork ι) : NetworkEvent ι → Option (Except Fault (ChatNetwork ι))
  | .type i message line =>
    let client := (n.ends i).client
    if client.hungUp ∨ maxBodyLength < line.length then none
    else some do
      let msg ← message.compose (cStr line)
      return n.setClient i
        { client with
          posted := client.posted ++ [.write msg]
          typed := client.typed ++ [cStr line] }
  | .hangUp i =>
    let client := (n.ends i).client
    if client.hungUp then none
    else some (.ok (n.setClient i
      { client with posted := client.posted ++ [.close], hungUp := true }))
  | .runPosted i =>
    let client := (n.ends i).client
    match client.posted with
    | [] => none
    | .write msg :: rest =>
      some (.ok (n.setClient i
        { client with posted := rest, writer := client.writer.deliver msg }))
    | .close :: rest =>
      some (.ok (n.setEnd i
        { n.ends i with
          client := { client with posted := rest, closed := true }
          failed := true }))
  | .establish i =>
    if (n.ends i).established then none
    else some (.ok (n.setEnd i { n.ends i with established := true }))
  | .connected i =>
    let client := (n.ends i).client
    if (n.ends i).established ∧ !client.connected then
      some (.ok (n.setClient i { client with connected := true }))
    else none
  | .accept i =>
    if (n.ends i).established then
      (n.room.step (.start i)).map fun room =>
        .ok { n with
          room := room
          joinedAt := Function.update n.joinedAt i n.room.delivered.length }
    else none
  | .clientSend i k =>
    let client := (n.ends i).client
    if (n.ends i).established ∧ !client.closed then
      ((n.ends i).up.transmit k).map fun l =>
        .ok (n.setEnd i
          { n.ends i with client := { client with sent := l.sent }, sessionReader := l.reader })
    else none
  | .clientWritten i position =>
    let client := (n.ends i).client
    if position ∈ client.writer.writes ∧ (n.ends i).up.Complete then
      some (.ok (n.setClient i
        { client with writer := client.writer.writeSucceeded position, sent := 0 }))
    else none
  | .clientWriteFailed i position =>
    let client := (n.ends i).client
    if position ∈ client.writer.writes then
      some (.ok (n.setEnd i
        { n.ends i with
          client := { client with writer := client.writer.writeFailed position, closed := true }
          failed := true }))
    else none
  | .sessionRead i =>
    let reader := (n.ends i).sessionReader
    if n.room.started i ∧ reader.ready then some do
      let r ← reader.step
      return n.received i r
    else none
  | .sessionReadFailed i =>
    let reader := (n.ends i).sessionReader
    if n.room.started i ∧ (reader.phase = .header ∨ reader.phase = .body) then
      some (.ok
        { n.setEnd i
            { n.ends i with sessionReader := { reader with phase := .ended }, failed := true } with
          room := n.room.leave i })
    else none
  | .sessionSend i k =>
    let c := n.ends i
    ((c.down (n.room.sessions i)).transmit k).map fun l =>
      .ok (n.setEnd i
        { c with sessionSent := l.sent, client := { c.client with reader := l.reader } })
  | .sessionWritten i position =>
    if ((n.ends i).down (n.room.sessions i)).Complete then
      (n.room.step (.writeSucceeded i position)).map fun room =>
        .ok { n.setEnd i { n.ends i with sessionSent := 0 } with room := room }
    else none
  | .sessionWriteFailed i position =>
    (n.room.step (.writeFailed i position)).map fun room =>
      .ok { n.setEnd i { n.ends i with failed := true } with room := room }
  | .clientRead i =>
    let client := (n.ends i).client
    if client.connected ∧ client.reader.ready then some do
      let r ← client.reader.step
      let rejected := r.phase == .rejected
      return n.setEnd i
        { n.ends i with
          client := { client with reader := r, closed := client.closed || rejected }
          failed := (n.ends i).failed || rejected }
    else none
  | .clientReadFailed i =>
    let client := (n.ends i).client
    if client.connected ∧ (client.reader.phase = .header ∨ client.reader.phase = .body) then
      some (.ok (n.setEnd i
        { n.ends i with
          client := { client with reader := { client.reader with phase := .ended }, closed := true }
          failed := true }))
    else none

/-- Every order of the handlers of all programs. A fault ends a run. -/
def machine (memory : ι → ChatMessage × ChatMessage) :
    Machine (Except Fault (ChatNetwork ι)) (NetworkEvent ι) where
  start := .ok (.new memory)
  step s e :=
    match s with
    | .error _ => none
    | .ok n => n.step e

def system (memory : ι → ChatMessage × ChatMessage) : System (Except Fault (ChatNetwork ι)) :=
  (machine memory).system

/-- What `i` has said in the room. -/
def said (n : ChatNetwork ι) (i : ι) : List Bytes :=
  (n.log.filter (·.1 = i)).map Prod.snd

omit [LinearOrder ι] in
/-- What the client `i` has printed. -/
def printed (n : ChatNetwork ι) (i : ι) : List Bytes :=
  (n.ends i).client.reader.accepted.map ChatMessage.body

omit [LinearOrder ι] in
/-- Everything said from a hundred messages before `i` joined on. -/
def audible (n : ChatNetwork ι) (i : ι) : List Bytes :=
  (n.log.map Prod.snd).drop (n.joinedAt i - maxRecentMsgs)

end ChatNetwork

end ServerTest.Chat
