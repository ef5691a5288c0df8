import ServerTest.Lib.Transition
import ServerTest.Network.MessageBuffer

/-!
# `Socket`, the read side

`AsyncRead` makes room in the read buffer and offers that room to `async_read_some`; the completion
stores what arrived there, `ReadHandlerInternal` moves the write cursor over it, and `ReadHandler`,
which a derived class supplies, takes as much as it likes from the front before it calls `AsyncRead`
again. `AsyncReadWithCallback` makes the same offer with another handler, and that handler is the
caller's.

The stream decides how much it fills and when it fails, the derived class how much it takes and
when it asks again; both are events. `pending` is the offer of the read under way, as an offset and
a length in the storage. It is made while nothing else touches the buffer, so what has to be shown
is that the room it was made from is still there when the bytes arrive, and that there was some.

`received` and `consumed` are the stream's account of it and are read by nothing.
-/

set_option autoImplicit false

namespace ServerTest.Network

open Lib

def readBlockSize : Nat := 4096

structure SocketInput where
  readBuffer : MessageBuffer
  isClosed : Bool
  isClosing : Bool
  pending : Option (Nat × Nat)
  received : Bytes
  consumed : Nat
  deriving DecidableEq, Repr

inductive InputEvent where
  | asyncRead
  /-- the read under way ends with these bytes -/
  | arrived (bytes : Bytes)
  /-- the read under way ends with an error -/
  | failed
  /-- `ReadHandler` takes so many bytes -/
  | consume (bytes : Nat)
  | closeSocket
  | delayedCloseSocket

namespace SocketInput

/-- The constructor, without `RemoteAddress` and `RemotePort`, whose initialisers read the parameter
after it has been moved from. -/
def new : SocketInput where
  readBuffer := MessageBuffer.new.resize readBlockSize
  isClosed := false
  isClosing := false
  pending := none
  received := []
  consumed := 0

def isOpen (s : SocketInput) : Bool := !s.isClosed && !s.isClosing

def closeSocket (s : SocketInput) : SocketInput := { s with isClosed := true }

def asyncRead (s : SocketInput) : Except Fault SocketInput :=
  if !s.isOpen then .ok s
  else do
    let readBuffer ← s.readBuffer.normalize
    let readBuffer := readBuffer.ensureFreeSpace
    return { s with
      readBuffer := readBuffer
      pending := some (readBuffer.wpos, readBuffer.getRemainingSpace) }

/-- `ReadHandlerInternal` up to its call of `ReadHandler`. -/
def readHandlerInternal (s : SocketInput) (error : Bool) (transferredBytes : Nat) : SocketInput :=
  if error then s.closeSocket
  else { s with readBuffer := s.readBuffer.writeCompleted transferredBytes }

/-- At most one read is under way, and the handler is done before the next one is asked for; so
`asyncRead` and `consume` happen between reads, and the ends of a read only during one. -/
def step (s : SocketInput) : InputEvent → Option (Except Fault SocketInput)
  | .asyncRead =>
    match s.pending with
    | none => some s.asyncRead
    | some _ => none
  | .arrived bytes =>
    match s.pending with
    | none => none
    | some (offset, room) =>
      if bytes.length ≤ room then some do
        let storage ← memcpy s.readBuffer.storage offset bytes
        let s := { s with
          readBuffer := { s.readBuffer with storage := storage }
          pending := none
          received := s.received ++ bytes }
        return s.readHandlerInternal false bytes.length
      else none
  | .failed =>
    match s.pending with
    | none => none
    | some _ => some (.ok (readHandlerInternal { s with pending := none } true 0))
  | .consume bytes =>
    match s.pending with
    | none =>
      if bytes ≤ s.readBuffer.getActiveSize then some (.ok
        { s with
          readBuffer := s.readBuffer.readCompleted bytes
          consumed := s.consumed + bytes })
      else none
    | some _ => none
  | .closeSocket => some (.ok s.closeSocket)
  | .delayedCloseSocket => some (.ok { s with isClosing := true })

/-- `GetBufferSize()` is below `2 ^ 62`. -/
def Below : Except Fault SocketInput → Prop
  | .ok s => s.readBuffer.getBufferSize < 2 ^ 62
  | .error _ => True

/-- Every run from the constructor, as long as the buffer stays below `2 ^ 62` bytes. A run that
faulted goes no further. -/
def system : System (Except Fault SocketInput) where
  init r := r = .ok new
  step r r' := ∃ s e, r = .ok s ∧ s.step e = some r' ∧ Below r'

/-- The buffer is in order and large enough to grow, the active bytes are those received and not
consumed, and a read under way was offered exactly the free room, which is not empty. -/
structure Inv (s : SocketInput) : Prop where
  wellFormed : s.readBuffer.WellFormed
  large : 2 ≤ s.readBuffer.storage.length
  small : s.readBuffer.storage.length < 2 ^ 62
  active : s.readBuffer.active = s.received.drop s.consumed
  taken : s.consumed ≤ s.received.length
  offer : ∀ offset room, s.pending = some (offset, room) →
    offset = s.readBuffer.wpos ∧ room = s.readBuffer.getRemainingSpace ∧ 0 < room

variable {s : SocketInput}

theorem length_new : new.readBuffer.storage.length = 4096 :=
  MessageBuffer.length_resizeStorage _ readBlockSize

theorem Inv.new : new.Inv := by
  have hlen : SocketInput.new.readBuffer.storage.length = 4096 := length_new
  have hlt : SocketInput.new.readBuffer.storage.length < 2 ^ 64 := by
    rw [hlen]
    omega
  refine ⟨MessageBuffer.wellFormed_of_zero hlt, by omega, by omega, ?_, Nat.le_refl 0, ?_⟩
  · exact MessageBuffer.active_of_zero hlt
  · intro offset room h
    cases h

/-- `AsyncRead` returns, and its offer is the room it made. -/
theorem Inv.asyncRead (hs : s.Inv) :
    ∃ t, s.asyncRead = .ok t ∧ (t.readBuffer.storage.length < 2 ^ 62 → t.Inv) := by
  by_cases hopen : s.isOpen = true
  · obtain ⟨b₁, hnormal, hwf₁, hactive₁, hlen₁⟩ := hs.wellFormed.normalize
    have hsmall := hs.small
    have hlarge := hs.large
    obtain ⟨hwf₂, hactive₂, hgrows, hroom⟩ := hwf₁.ensureFreeSpace (by omega)
    refine ⟨{ s with
      readBuffer := b₁.ensureFreeSpace
      pending := some (b₁.ensureFreeSpace.wpos, b₁.ensureFreeSpace.getRemainingSpace) }, ?_, ?_⟩
    · rw [SocketInput.asyncRead, hopen]
      exact bind_returns.mpr ⟨b₁, hnormal, rfl⟩
    · intro hbelow
      refine ⟨hwf₂, ?_, hbelow, ?_, hs.taken, ?_⟩
      · show 2 ≤ b₁.ensureFreeSpace.storage.length
        omega
      · exact hactive₂.trans (hactive₁.trans hs.active)
      · intro offset room h
        cases h
        exact ⟨rfl, rfl, hroom (by omega)⟩
  · refine ⟨s, ?_, fun _ => hs⟩
    rw [SocketInput.asyncRead, Bool.eq_false_iff.mpr hopen]
    rfl

/-- The bytes that arrive are the next ones to become active. -/
theorem Inv.arrived (hs : s.Inv) {offset room : Nat} {bytes : Bytes}
    (hpending : s.pending = some (offset, room)) (hfits : bytes.length ≤ room) :
    ∃ storage, memcpy s.readBuffer.storage offset bytes = .ok storage ∧
      Inv { s with
        readBuffer := MessageBuffer.writeCompleted { s.readBuffer with storage := storage }
          bytes.length
        pending := none
        received := s.received ++ bytes } := by
  obtain ⟨rfl, rfl, -⟩ := hs.offer offset room hpending
  obtain ⟨b, hfill, hwf, hactive, hlen, hwpos, hwritten⟩ := hs.wellFormed.fill hfits
  obtain ⟨storage, hcopy, hb⟩ := bind_returns.mp hfill
  cases hb
  refine ⟨storage, hcopy, ?_⟩
  -- The bytes are in the storage; `WriteCompleted` finds the room that was offered.
  have hroom : bytes.length ≤
      MessageBuffer.getRemainingSpace { s.readBuffer with storage := storage } := by
    rw [hwf.getRemainingSpace_eq]
    have heq := hs.wellFormed.getRemainingSpace_eq
    have hlen : storage.length = s.readBuffer.storage.length := hlen
    show bytes.length ≤ storage.length - s.readBuffer.wpos
    omega
  obtain ⟨hwf', hactive'⟩ := hwf.writeCompleted hroom
  have hlen : storage.length = s.readBuffer.storage.length := hlen
  have htaken := hs.taken
  refine ⟨hwf', ?_, ?_, ?_, ?_, ?_⟩
  · show 2 ≤ storage.length
    rw [hlen]
    exact hs.large
  · show storage.length < 2 ^ 62
    rw [hlen]
    exact hs.small
  · rw [hactive', hwritten, hactive, hs.active, List.drop_append_of_le_length htaken]
  · show s.consumed ≤ (s.received ++ bytes).length
    rw [List.length_append]
    omega
  · intro offset room h
    cases h

theorem Inv.consume (hs : s.Inv) (hidle : s.pending = none) {n : Nat}
    (hn : n ≤ s.readBuffer.getActiveSize) :
    Inv { s with readBuffer := s.readBuffer.readCompleted n, consumed := s.consumed + n } := by
  have hcount : s.readBuffer.getActiveSize = s.received.length - s.consumed := by
    rw [← hs.wellFormed.length_active, hs.active, List.length_drop]
  have htaken := hs.taken
  refine ⟨hs.wellFormed.readCompleted hn, hs.large, hs.small, ?_, ?_, ?_⟩
  · rw [hs.wellFormed.active_readCompleted hn, hs.active, List.drop_drop]
  · show s.consumed + n ≤ s.received.length
    omega
  · intro offset room h
    have h : s.pending = some (offset, room) := h
    rw [hidle] at h
    cases h

/-- Closing leaves the buffer and the read under way alone. -/
theorem Inv.of_flags (hs : s.Inv) (isClosed isClosing : Bool) :
    Inv { s with isClosed := isClosed, isClosing := isClosing } :=
  ⟨hs.wellFormed, hs.large, hs.small, hs.active, hs.taken, hs.offer⟩

theorem Inv.step (hs : s.Inv) {e : InputEvent} {r : Except Fault SocketInput}
    (h : s.step e = some r) (hbelow : Below r) : ∃ t, r = .ok t ∧ t.Inv := by
  cases e with
  | asyncRead =>
    simp only [SocketInput.step] at h
    split at h
    · cases h
      obtain ⟨t, hrun, ht⟩ := hs.asyncRead
      rw [hrun] at hbelow ⊢
      exact ⟨t, rfl, ht hbelow⟩
    · cases h
  | arrived bytes =>
    simp only [SocketInput.step] at h
    split at h
    · cases h
    · rename_i offset room hpending
      split at h
      · rename_i hfits
        cases h
        obtain ⟨storage, hcopy, ht⟩ := hs.arrived hpending hfits
        exact ⟨_, bind_returns.mpr ⟨storage, hcopy, rfl⟩, ht⟩
      · cases h
  | failed =>
    simp only [SocketInput.step] at h
    split at h
    · cases h
    · cases h
      refine ⟨_, rfl, hs.wellFormed, hs.large, hs.small, hs.active, hs.taken, ?_⟩
      intro offset room h
      cases h
  | consume bytes =>
    simp only [SocketInput.step] at h
    split at h
    · rename_i hidle
      split at h
      · rename_i hn
        cases h
        exact ⟨_, rfl, hs.consume hidle hn⟩
      · cases h
    · cases h
  | closeSocket =>
    cases h
    exact ⟨_, rfl, hs.of_flags true s.isClosing⟩
  | delayedCloseSocket =>
    cases h
    exact ⟨_, rfl, hs.of_flags s.isClosed true⟩

/-- **The read side neither loses, repeats nor overruns input.** In every run that keeps the buffer
below `2 ^ 62` bytes nothing faults, every read under way was offered room, all of it inside the
storage, the write cursor is inside too, and what is active is what was received and not consumed. -/
theorem input_exact (r : Except Fault SocketInput) (h : system.Reachable r) :
    ∃ s, r = .ok s ∧
      (∀ offset room, s.pending = some (offset, room) →
        0 < room ∧ offset + room ≤ s.readBuffer.storage.length) ∧
      s.readBuffer.rpos ≤ s.readBuffer.wpos ∧
      s.readBuffer.wpos ≤ s.readBuffer.storage.length ∧
      (s.readBuffer.storage.take s.readBuffer.wpos).drop s.readBuffer.rpos =
        s.received.drop s.consumed := by
  have hinv : ∃ s, r = .ok s ∧ s.Inv := by
    refine h.invariant (P := fun r => ∃ s, r = .ok s ∧ s.Inv) ?_ ?_
    · intro r₀ h₀
      exact ⟨SocketInput.new, h₀, Inv.new⟩
    · intro r₁ r₂ _ hr₁ hst
      obtain ⟨s, rfl, hs⟩ := hr₁
      obtain ⟨s', e, hsame, hstep, hbelow⟩ := hst
      cases hsame
      exact hs.step hstep hbelow
  obtain ⟨s, rfl, hs⟩ := hinv
  have hin := hs.wellFormed.wpos_le_size
  refine ⟨s, rfl, ?_, hs.wellFormed.rpos_le_wpos, hin, ?_⟩
  · intro offset room hpending
    obtain ⟨rfl, rfl, hpos⟩ := hs.offer offset room hpending
    refine ⟨hpos, ?_⟩
    rw [hs.wellFormed.getRemainingSpace_eq]
    omega
  · rw [← hs.wellFormed.active_eq]
    exact hs.active

/-- The first read is offered the whole block. -/
theorem asyncRead_new : new.asyncRead = .ok { new with pending := some (0, 4096) } := by
  have hroom : new.readBuffer.getRemainingSpace = 4096 := by
    rw [Inv.new.wellFormed.getRemainingSpace_eq, length_new]
    rfl
  have hnormal : new.readBuffer.normalize = .ok new.readBuffer := rfl
  have hgrow : new.readBuffer.ensureFreeSpace = new.readBuffer := by
    rw [MessageBuffer.ensureFreeSpace, hroom]
    rfl
  refine bind_returns.mpr ⟨new.readBuffer, hnormal, ?_⟩
  simp only [hgrow, hroom]
  rfl

theorem input_exact_first :
    ∃ s, system.Reachable (.ok s) ∧ s.pending = some (0, 4096) ∧
      0 + 4096 ≤ s.readBuffer.storage.length ∧
      (s.readBuffer.storage.take s.readBuffer.wpos).drop s.readBuffer.rpos = [] := by
  have hreach : system.Reachable (.ok { new with pending := some (0, 4096) }) := by
    refine (System.Reachable.start rfl).next ⟨new, .asyncRead, rfl, ?_, ?_⟩
    · exact congrArg some asyncRead_new
    · show new.readBuffer.storage.length < 2 ^ 62
      rw [length_new]
      omega
  obtain ⟨s, hsame, hoffer, -, -, hbytes⟩ := input_exact _ hreach
  cases hsame
  exact ⟨_, hreach, rfl, (hoffer 0 4096 rfl).2, hbytes⟩

end SocketInput

end ServerTest.Network
