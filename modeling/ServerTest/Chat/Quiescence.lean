import Mathlib.Algebra.BigOperators.Group.Finset.Piecewise
import Mathlib.Algebra.Order.BigOperators.Group.Finset
import Mathlib.Tactic.Ring
import ServerTest.Chat.Conversation

/-!
# The chat comes to rest

Left alone, the programs finish: with a finite number of clients, every run in which nobody types,
hangs up or connects, and nothing fails, is finite, and its length is bounded by what there is to do at
the start. `conversation_complete` says what everyone has read by then.

What there is to do is counted from the end. A byte on its way to a client is one unit of work and one
that has not been handed over is two. A message that is read by the server is multiplied, once for every
participant, so a byte on its way to the server stands for all of that, and the header of a message that
is being read for the rest of it: `byteWork` and `bodyWork`.
-/

set_option autoImplicit false

namespace ServerTest.Chat

open Lib

/-! ## Work on one link -/

namespace Link

open ReadLoop

variable {l : Link} {w b : Nat}

/-- What is left to do on a link, if a byte on its way counts `w` and the body of a message whose header
was read counts `b` more than its bytes. -/
def load (w b : Nat) (l : Link) : Nat :=
  (w + 1) * ((stream l.writer.writeMessages).length - l.sent) + l.writer.writeMessages.length +
    w * l.reader.input.length + if l.reader.phase = .body then b else 0

theorem Inv.load_transmit (hl : l.Inv) {k : Nat} {l' : Link} (h : l.transmit k = some l') :
    l'.load w b < l.load w b := by
  have hsent := (hl.transmit h).1.sent_le
  simp only [Link.transmit] at h
  split at h
  · cases h
  · rename_i m hm
    split at h
    · rename_i hk
      cases h
      have hlen : ((m.wire.drop l.sent).take k).length = k := by
        rw [List.length_take, List.length_drop]
        omega
      simp only [load, List.length_append, hlen] at hsent ⊢
      obtain ⟨left, hleft⟩ := Nat.exists_eq_add_of_le hsent
      rw [hleft, show l.sent + k + left - (l.sent + k) = left by omega,
        show l.sent + k + left - l.sent = left + k by omega, Nat.mul_add, Nat.mul_add]
      have hpos : w * k < (w + 1) * k := Nat.mul_lt_mul_of_pos_right (Nat.lt_succ_self w) hk.1
      omega
    · cases h

theorem Inv.load_deliver (hl : l.Inv) (msg : ChatMessage) :
    load w b { l with writer := l.writer.deliver msg } =
      l.load w b + (w + 1) * msg.wire.length + 1 := by
  have hsent := hl.sent_le
  have hone : (stream [msg]).length = msg.wire.length := by simp [stream]
  simp only [load, (l.writer.completed_deliver msg).2, stream_append, List.length_append, hone,
    List.length_singleton]
  rw [show (stream l.writer.writeMessages).length + msg.wire.length - l.sent =
    (stream l.writer.writeMessages).length - l.sent + msg.wire.length by omega, Nat.mul_add]
  omega

theorem Inv.load_writeSucceeded (hl : l.Inv) (h : l.Complete) :
    load w b { l with writer := l.writer.writeSucceeded l.writer.popped, sent := 0 } <
      l.load w b := by
  obtain ⟨m, hm, hsent⟩ := Option.map_eq_some_iff.mp h
  obtain ⟨-, rest, hq⟩ := hl.writer.underWay_eq hm
  simp only [load, (l.writer.writeSucceeded_front hq).2, hq, stream_cons, List.length_append,
    List.length_cons, ← hsent]
  rw [Nat.add_sub_cancel_left, Nat.sub_zero]
  omega

/-- A header that was read leaves its body to be read… -/
theorem load_header {r : ReadLoop} (hb : b < headerLength * w) (hbefore : l.reader.phase = .header)
    (hafter : r.phase = .body) (hinput : r.input.length + headerLength = l.reader.input.length) :
    load w b { l with reader := r } < l.load w b := by
  simp only [load, hbefore, hafter, ← hinput]
  rw [Nat.mul_add, Nat.mul_comm w headerLength]
  simp only [if_true, reduceCtorEq, if_false]
  omega

/-- …and a body that was read leaves nothing. -/
theorem load_body {r : ReadLoop} {k : Nat} (hbefore : l.reader.phase = .body)
    (hafter : r.phase = .header) (hinput : r.input.length + k = l.reader.input.length) :
    load w b { l with reader := r } + w * k + b = l.load w b := by
  simp only [load, hbefore, hafter, ← hinput]
  rw [Nat.mul_add]
  simp only [if_true, reduceCtorEq, if_false]
  omega

theorem load_read {r : ReadLoop} (hb : 0 < b ∧ b < headerLength * w) (h : Reads l.reader r) :
    load w b { l with reader := r } < l.load w b := by
  cases h with
  | header hbefore hafter _ hinput => exact load_header hb.2 hbefore hafter hinput
  | body hbefore hafter _ _ hinput =>
    have heq := load_body (w := w) (b := b) hbefore hafter hinput
    omega

end Link

/-! ## Work on a connection -/

/-- What a byte on its way to the server counts, with `N` clients. -/
def byteWork (N : Nat) : Nat := 3 * N + 1

/-- What the body of a message whose header the server has read counts, besides its bytes. -/
def bodyWork (N : Nat) : Nat := 9 * N + 1

/-- What a handler that was posted still leads to. -/
def Posted.load (N : Nat) : Posted → Nat
  | .write msg => (byteWork N + 1) * msg.wire.length + 2
  | .close => 1

/-- What is left to do before everything the client has to say has been said. -/
def Connection.outgoing (N : Nat) (c : Connection) : Nat :=
  (c.client.posted.map (Posted.load N)).sum + c.up.load (byteWork N) (bodyWork N) +
    if c.client.connected then 0 else 1

namespace ChatNetwork

open Finset

variable {ι : Type} [Fintype ι]

/-- What is left to do before the client `i` has printed what its session was handed. -/
def incoming (n : ChatNetwork ι) (i : ι) : Nat :=
  ((n.ends i).down (n.room.sessions i)).load 1 1

def remaining (n : ChatNetwork ι) : Nat :=
  ∑ i, (n.ends i).outgoing (Fintype.card ι) + ∑ i, n.incoming i

variable {n n' : ChatNetwork ι} {i : ι}

/-- A step that concerns one connection only. -/
theorem remaining_lt
    (hothers : ∀ j, j ≠ i → n'.ends j = n.ends j ∧ n'.room.sessions j = n.room.sessions j)
    (hless : (n'.ends i).outgoing (Fintype.card ι) + n'.incoming i <
      (n.ends i).outgoing (Fintype.card ι) + n.incoming i) : n'.remaining < n.remaining := by
  rw [remaining, remaining, ← sum_add_distrib, ← sum_add_distrib]
  have hsame : ∀ j, j ≠ i → (n'.ends j).outgoing (Fintype.card ι) + n'.incoming j =
      (n.ends j).outgoing (Fintype.card ι) + n.incoming j := by
    intro j hj
    rw [incoming, incoming, (hothers j hj).1, (hothers j hj).2]
  apply sum_lt_sum
  · intro j _
    by_cases hj : j = i
    · rw [hj]
      exact Nat.le_of_lt hless
    · exact Nat.le_of_eq (hsame j hj)
  · exact ⟨i, mem_univ i, hless⟩

variable [LinearOrder ι]

theorem remaining_setEnd {c : Connection}
    (hless : c.outgoing (Fintype.card ι) + (c.down (n.room.sessions i)).load 1 1 <
      (n.ends i).outgoing (Fintype.card ι) + n.incoming i) :
    (n.setEnd i c).remaining < n.remaining := by
  apply remaining_lt
  · intro j hj
    exact ⟨Function.update_of_ne hj .., rfl⟩
  · rw [incoming]
    simp only [setEnd, Function.update_self]
    exact hless

/-- A message of `k` bytes that is delivered: the sender's side loses more than all the receivers' sides
gain together. -/
theorem Inv.remaining_deliver (hn : n.Inv) {msg : ChatMessage} (hmsg : msg.Framed) {c : Connection}
    {log : List (ι × Bytes)}
    (hdown : ∀ s, c.down s = (n.ends i).down s)
    (hout : c.outgoing (Fintype.card ι) + byteWork (Fintype.card ι) * msg.bodyLength +
      bodyWork (Fintype.card ι) = (n.ends i).outgoing (Fintype.card ι)) :
    remaining { n.setEnd i c with room := n.room.deliver msg, log := log } < n.remaining := by
  have hnodup := (ChatRoom.reachable_inv hn.room).nodup
  have hsent : ∑ j, (Function.update n.ends i c j).outgoing (Fintype.card ι) +
      (byteWork (Fintype.card ι) * msg.bodyLength + bodyWork (Fintype.card ι)) =
        ∑ j, (n.ends j).outgoing (Fintype.card ι) := by
    have hupdate : (fun j => (Function.update n.ends i c j).outgoing (Fintype.card ι)) =
        Function.update (fun j => (n.ends j).outgoing (Fintype.card ι)) i
          (c.outgoing (Fintype.card ι)) :=
      Function.comp_update (Connection.outgoing (Fintype.card ι)) n.ends i c
    rw [hupdate, sum_update_of_mem (mem_univ i), sdiff_singleton_eq_erase,
      ← add_sum_erase univ (fun j => (n.ends j).outgoing (Fintype.card ι)) (mem_univ i)]
    omega
  have hreceived : ∀ j, ((Function.update n.ends i c j).down
      (ChatRoom.fanOut msg n.room.participants n.room.sessions j)).load 1 1 ≤
        n.incoming j + (2 * msg.bodyLength + 9) := by
    intro j
    have hsame : ∀ s, (Function.update n.ends i c j).down s = (n.ends j).down s := by
      intro s
      by_cases hj : j = i
      · rw [hj, Function.update_self]
        exact hdown s
      · rw [Function.update_of_ne hj]
    have hlen : msg.wire.length = headerLength + msg.bodyLength := ChatMessage.length_wire hmsg
    rw [hsame, ChatRoom.fanOut_eq msg hnodup, incoming]
    split
    · have heq : ((n.ends j).down ((n.room.sessions j).deliver msg)).load 1 1 = _ :=
        (hn.ends j).down.load_deliver msg
      rw [heq, hlen, headerLength]
      omega
    · exact Nat.le_add_right ..
  have hall : ∑ j, ((Function.update n.ends i c j).down
      (ChatRoom.fanOut msg n.room.participants n.room.sessions j)).load 1 1 ≤
        ∑ j, n.incoming j + Fintype.card ι * (2 * msg.bodyLength + 9) := by
    refine (sum_le_sum fun j _ => hreceived j).trans ?_
    rw [sum_add_distrib, sum_const_nat (fun _ _ => rfl), card_univ]
  have hbudget : Fintype.card ι * (2 * msg.bodyLength + 9) <
      byteWork (Fintype.card ι) * msg.bodyLength + bodyWork (Fintype.card ι) := by
    have hring : byteWork (Fintype.card ι) * msg.bodyLength + bodyWork (Fintype.card ι) =
        Fintype.card ι * (2 * msg.bodyLength + 9) +
          (Fintype.card ι * msg.bodyLength + msg.bodyLength + 1) := by
      rw [byteWork, bodyWork]
      ring
    omega
  show ∑ j, (Function.update n.ends i c j).outgoing (Fintype.card ι) +
    ∑ j, ((Function.update n.ends i c j).down
      (ChatRoom.fanOut msg n.room.participants n.room.sessions j)).load 1 1 < _
  rw [remaining]
  omega

/-! ## Every step leaves less to do -/

theorem Inv.remaining_runPosted (hn : n.Inv) {s : Except Fault (ChatNetwork ι)}
    (h : n.step (.runPosted i) = some s) : ∃ n', s = .ok n' ∧ n'.remaining < n.remaining := by
  simp only [ChatNetwork.step] at h
  split at h
  · cases h
  · rename_i msg rest hposted
    cases h
    refine ⟨_, rfl, remaining_setEnd ?_⟩
    have hload := (hn.ends i).up.load_deliver (w := byteWork (Fintype.card ι))
      (b := bodyWork (Fintype.card ι)) msg
    simp only [Connection.outgoing, Connection.up] at hload ⊢
    rw [hload, hposted, List.map_cons, List.sum_cons, Posted.load, incoming]
    simp only [Connection.down]
    omega
  · rename_i rest hposted
    cases h
    refine ⟨_, rfl, remaining_setEnd ?_⟩
    simp only [Connection.outgoing, Connection.up, Connection.down, incoming, hposted, List.map_cons,
      List.sum_cons, Posted.load]
    omega

theorem remaining_connected {s : Except Fault (ChatNetwork ι)}
    (h : n.step (.connected i) = some s) : ∃ n', s = .ok n' ∧ n'.remaining < n.remaining := by
  simp only [ChatNetwork.step] at h
  split at h
  · rename_i hfirst
    cases h
    refine ⟨_, rfl, remaining_setEnd ?_⟩
    have hbefore : (n.ends i).client.connected = false := by simpa using hfirst.2
    simp only [Connection.outgoing, Connection.up, Connection.down, incoming, hbefore]
    simp
  · cases h

/-- A step of the client's deque. -/
theorem remaining_up (client : ChatClient) (reader : ReadLoop)
    (hposted : client.posted = (n.ends i).client.posted)
    (hconnected : client.connected = (n.ends i).client.connected)
    (hreader : client.reader = (n.ends i).client.reader)
    (hless : Link.load (byteWork (Fintype.card ι)) (bodyWork (Fintype.card ι))
        ⟨client.writer, client.sent, reader⟩ <
      (n.ends i).up.load (byteWork (Fintype.card ι)) (bodyWork (Fintype.card ι))) :
    (n.setEnd i { n.ends i with client := client, sessionReader := reader }).remaining <
      n.remaining := by
  apply remaining_setEnd
  simp only [Connection.outgoing, Connection.down, incoming, hposted, hconnected, hreader]
  simp only [Connection.up] at hless ⊢
  omega

theorem Inv.remaining_clientSend (hn : n.Inv) {k : Nat} {s : Except Fault (ChatNetwork ι)}
    (h : n.step (.clientSend i k) = some s) : ∃ n', s = .ok n' ∧ n'.remaining < n.remaining := by
  simp only [ChatNetwork.step] at h
  split at h
  · obtain ⟨l, hl, rfl⟩ := Option.map_eq_some_iff.mp h
    have hwriter : l.writer = (n.ends i).client.writer := ((hn.ends i).up.transmit hl).2.1
    refine ⟨_, rfl, remaining_up _ _ rfl rfl rfl ?_⟩
    show Link.load _ _ ⟨(n.ends i).client.writer, l.sent, l.reader⟩ < _
    rw [← hwriter]
    exact (hn.ends i).up.load_transmit hl
  · cases h

theorem Inv.remaining_clientWritten (hn : n.Inv) {position : Nat}
    {s : Except Fault (ChatNetwork ι)} (h : n.step (.clientWritten i position) = some s) :
    ∃ n', s = .ok n' ∧ n'.remaining < n.remaining := by
  simp only [ChatNetwork.step] at h
  split at h
  · rename_i hwrite
    cases h
    have hfront : position = (n.ends i).client.writer.popped :=
      (hn.ends i).up.writer.eq_popped hwrite.1
    refine ⟨_, rfl, remaining_up _ _ rfl rfl rfl ?_⟩
    rw [hfront]
    exact (hn.ends i).up.load_writeSucceeded hwrite.2
  · cases h

theorem Inv.remaining_sessionRead (hn : n.Inv) {s : Except Fault (ChatNetwork ι)}
    (h : n.step (.sessionRead i) = some s) : ∃ n', s = .ok n' ∧ n'.remaining < n.remaining := by
  simp only [ChatNetwork.step] at h
  split at h
  · rename_i hready
    cases h
    obtain ⟨r, hstep, hreads, -⟩ := hn.sessionRead hready.2
    refine ⟨n.received i r, bind_returns.mpr ⟨r, hstep, rfl⟩, ?_⟩
    cases hreads with
    | header hbefore hafter _ hinput =>
      simp only [received, hafter]
      refine remaining_up (n.ends i).client r rfl rfl rfl ?_
      have hpays : bodyWork (Fintype.card ι) < headerLength * byteWork (Fintype.card ι) := by
        simp only [headerLength, byteWork, bodyWork]
        omega
      exact Link.load_header (l := (n.ends i).up) hpays hbefore hafter hinput
    | body hbefore hafter hframed _ hinput =>
      simp only [received, hafter]
      refine hn.remaining_deliver hframed ?_ ?_
      · exact fun _ => rfl
      · have hload : Link.load (byteWork (Fintype.card ι)) (bodyWork (Fintype.card ι))
            { (n.ends i).up with reader := r } + _ + _ = _ := Link.load_body hbefore hafter hinput
        simp only [Connection.outgoing, Connection.up] at hload ⊢
        omega
  · cases h

/-- A step on the way to the client. -/
theorem remaining_down (sent : Nat) (reader : ReadLoop) (failed closed : Bool)
    (hless : Link.load 1 1 ⟨n.room.sessions i, sent, reader⟩ < n.incoming i) :
    (n.setEnd i
      { n.ends i with
        sessionSent := sent
        client := { (n.ends i).client with reader := reader, closed := closed }
        failed := failed }).remaining < n.remaining := by
  apply remaining_setEnd
  simp only [Connection.outgoing, Connection.up, Connection.down]
  omega

theorem Inv.remaining_sessionSend (hn : n.Inv) {k : Nat} {s : Except Fault (ChatNetwork ι)}
    (h : n.step (.sessionSend i k) = some s) : ∃ n', s = .ok n' ∧ n'.remaining < n.remaining := by
  obtain ⟨l, hl, rfl⟩ := Option.map_eq_some_iff.mp h
  have hwriter : l.writer = n.room.sessions i := ((hn.ends i).down.transmit hl).2.1
  refine ⟨_, rfl, remaining_down l.sent l.reader _ _ ?_⟩
  rw [← hwriter]
  exact (hn.ends i).down.load_transmit hl

theorem Inv.remaining_sessionWritten (hn : n.Inv) {position : Nat}
    {s : Except Fault (ChatNetwork ι)} (h : n.step (.sessionWritten i position) = some s) :
    ∃ n', s = .ok n' ∧ n'.remaining < n.remaining := by
  simp only [ChatNetwork.step] at h
  split at h
  · rename_i hcomplete
    obtain ⟨room, hroom, rfl⟩ := Option.map_eq_some_iff.mp h
    simp only [ChatRoom.step] at hroom
    split at hroom
    · rename_i hp
      cases hroom
      have hfront : position = (n.room.sessions i).popped :=
        (hn.ends i).down.writer.eq_popped hp
      have hload : Link.load 1 1
          ⟨(n.room.sessions i).writeSucceeded (n.room.sessions i).popped, 0,
            (n.ends i).client.reader⟩ < n.incoming i :=
        (hn.ends i).down.load_writeSucceeded hcomplete
      refine ⟨_, rfl, ?_⟩
      apply remaining_lt (i := i)
      · intro j hj
        exact ⟨Function.update_of_ne hj .., Function.update_of_ne hj ..⟩
      · rw [incoming]
        simp only [ChatNetwork.setEnd, Function.update_self, hfront]
        simp only [Connection.outgoing, Connection.up, Connection.down]
        omega
    · cases hroom
  · cases h

theorem Inv.remaining_clientRead (hn : n.Inv) {s : Except Fault (ChatNetwork ι)}
    (h : n.step (.clientRead i) = some s) : ∃ n', s = .ok n' ∧ n'.remaining < n.remaining := by
  simp only [ChatNetwork.step] at h
  split at h
  · rename_i hready
    cases h
    obtain ⟨r, hstep, -, hreads⟩ := (hn.ends i).down.read hready.2
    refine ⟨_, bind_returns.mpr ⟨r, hstep, rfl⟩,
      remaining_down (n.ends i).sessionSent r _ _ ?_⟩
    exact Link.load_read (l := (n.ends i).down (n.room.sessions i)) (by decide) hreads
  · cases h

theorem Inv.remaining_step (hn : n.Inv) {e : NetworkEvent ι} (he : (progress e).isSome)
    {s : Except Fault (ChatNetwork ι)} (h : n.step e = some s) :
    ∃ n', s = .ok n' ∧ n'.Inv ∧ n'.remaining < n.remaining := by
  obtain ⟨n₁, rfl, hinv⟩ := hn.step h
  have hless : ∃ n', (.ok n₁ : Except Fault (ChatNetwork ι)) = .ok n' ∧ n'.remaining < n.remaining := by
    cases e <;> cases he
    case runPosted => exact hn.remaining_runPosted h
    case connected => exact remaining_connected h
    case clientSend => exact hn.remaining_clientSend h
    case clientWritten => exact hn.remaining_clientWritten h
    case sessionRead => exact hn.remaining_sessionRead h
    case sessionSend => exact hn.remaining_sessionSend h
    case sessionWritten => exact hn.remaining_sessionWritten h
    case clientRead => exact hn.remaining_clientRead h
  obtain ⟨n', hn', hless⟩ := hless
  cases hn'
  exact ⟨n₁, rfl, hinv, hless⟩

/-! ## Coming to rest -/

/-- The states of the machine that `remaining` is about. -/
def Runs (s : Except Fault (ChatNetwork ι)) : Prop := ∃ n, s = .ok n ∧ n.Inv

theorem runs_step (memory : ι → ChatMessage × ChatMessage) (s : Except Fault (ChatNetwork ι))
    (e : NetworkEvent ι) (t : Except Fault (ChatNetwork ι)) (he : (progress e).isSome)
    (hs : Runs s) (h : (machine memory).step s e = some t) :
    Runs t ∧ t.toOption.elim 0 remaining < s.toOption.elim 0 remaining := by
  obtain ⟨n, rfl, hn⟩ := hs
  obtain ⟨n', rfl, hn', hless⟩ := hn.remaining_step he h
  exact ⟨⟨n', rfl, hn'⟩, hless⟩

/-- **The chat comes to rest.** From any reachable state on, a run in which the programs only get on with
what they have to do is at most `remaining` events long, whatever order they choose; and however such a
run was begun it can be carried on until there is nothing left to do on any connection. -/
theorem conversation_comes_to_rest (memory : ι → ChatMessage × ChatMessage) (n : ChatNetwork ι)
    (h : (system memory).Reachable (.ok n)) (es : List (NetworkEvent ι))
    (hes : ∀ e ∈ es, (progress e).isSome) (s : Except Fault (ChatNetwork ι))
    (hrun : (machine memory).run (.ok n) es = some s) :
    es.length ≤ n.remaining ∧
      ∃ es' n', (∀ e ∈ es', (progress e).isSome) ∧
        (machine memory).run s es' = some (.ok n') ∧ ∀ i, n'.Idle i := by
  have hn : Runs (.ok n) := reachable_inv h
  obtain ⟨-, hshort, es', t, hes', hrun', ⟨n', rfl, -⟩, hstuck⟩ :=
    Machine.comes_to_rest (runs_step memory) hn hes hrun
  refine ⟨hshort, es', n', hes', hrun', ?_⟩
  intro i e he
  exact hstuck e (by rw [he]; rfl)

/-- The client of `hello` has typed its line, and the session has read the header of it. -/
theorem conversation_comes_to_rest_hello :
    ∃ n s, (system fun _ => (.blank, .blank)).Reachable (.ok n) ∧ n.said false = [] ∧
      (machine fun _ => (.blank, .blank)).run (.ok n)
        ((hello.drop 3).take 3) = some s ∧ 3 ≤ n.remaining ∧
      ∃ es' n', (∀ e ∈ es', (progress e).isSome) ∧
        (machine fun _ => (.blank, .blank)).run s es' = some (.ok n') ∧ ∀ i, n'.Idle i := by
  have hbefore : ((blankMachine.run blankMachine.start (hello.take 3)).bind Except.toOption).map
      (fun n => (n.said false, (blankMachine.run (.ok n) ((hello.drop 3).take 3)).isSome)) =
        some ([], true) := by
    decide +kernel
  obtain ⟨n, hn, hread⟩ := Option.map_eq_some_iff.mp hbefore
  obtain ⟨s, hs, hok⟩ := Option.bind_eq_some_iff.mp hn
  have hreach := Machine.run_reachable hs
  cases s with
  | error fault => cases hok
  | ok n' =>
    cases hok
    obtain ⟨s, hrun⟩ := Option.isSome_iff_exists.mp (congrArg Prod.snd hread)
    have hes : ∀ e ∈ (hello.drop 3).take 3, (progress e).isSome := by simp [hello, progress]
    obtain ⟨hshort, hrest⟩ := conversation_comes_to_rest _ n hreach _ hes s hrun
    exact ⟨n, s, hreach, congrArg Prod.fst hread, hrun, hshort, hrest⟩

end ChatNetwork

end ServerTest.Chat
