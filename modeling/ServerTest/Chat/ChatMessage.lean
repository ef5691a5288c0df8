import Mathlib.Algebra.Group.Int.Defs
import ServerTest.Lib.Decimal

/-!
# `ChatMessage`

A fixed array of `header_length + max_body_length` bytes, of which the first four are a decimal
length in text and the rest is room for a body, and a member `body_length_` that the program keeps
next to it. The two say the same thing only after `encode_header` or `decode_header`; a message is a
message on the wire when they do, and that is `Framed`.

The array is a list whose length is carried in the type, and a copy that would run past its end is
a `Fault`. `body_length_` is a `std::size_t`: the `int` that `atoi` returns is converted to it
modulo `2 ^ 64`, which is how a negative header becomes a number far too large.
-/

set_option autoImplicit false

namespace ServerTest.Chat

open Lib

def headerLength : Nat := 4

def maxBodyLength : Nat := 512

structure ChatMessage where
  data : Bytes
  bodyLength : Nat
  size : data.length = headerLength + maxBodyLength
  deriving DecidableEq, Repr

namespace ChatMessage

/-- The default constructor. It leaves the array as the memory was. -/
def new (memory : Bytes) (size : memory.length = headerLength + maxBodyLength) : ChatMessage :=
  ⟨memory, 0, size⟩

/-- A message over an array of zeros, for the examples. -/
def blank : ChatMessage := .new (List.replicate 516 0) (List.length_replicate ..)

def length (m : ChatMessage) : Nat := headerLength + m.bodyLength

/-- `body()[0 .. body_length())`. -/
def body (m : ChatMessage) : Bytes := (m.data.drop headerLength).take m.bodyLength

/-- `data()[0 .. length())`: what `async_write` is given. -/
def wire (m : ChatMessage) : Bytes := m.data.take m.length

/-- The setter `body_length(new_length)`. -/
def setBodyLength (m : ChatMessage) (newLength : Nat) : ChatMessage :=
  { m with bodyLength := if newLength > maxBodyLength then maxBodyLength else newLength }

/-- Storing `bytes` from `data() + offset` on: `memcpy`, or a read that was given this address. -/
def copyTo (m : ChatMessage) (offset : Nat) (bytes : Bytes) : Except Fault ChatMessage :=
  if h : offset + bytes.length ≤ m.data.length then
    .ok { m with
      data := overwrite m.data offset bytes
      size := (length_overwrite h).trans m.size }
  else .error .outOfBounds

/-- `static_cast<int>` of a `std::size_t`. -/
def toInt (n : Nat) : Int := (n : Int).bmod (2 ^ 32)

/-- `encode_header`. The local array has room for four characters and the terminator. -/
def encodeHeader (m : ChatMessage) : Except Fault ChatMessage :=
  let header := formatD headerLength (toInt m.bodyLength)
  if header.length < headerLength + 1 then m.copyTo 0 (header.take headerLength)
  else .error .outOfBounds

/-- `decode_header`: whether it accepts, and the message afterwards. -/
def decodeHeader (m : ChatMessage) : Bool × ChatMessage :=
  let header := cStr (m.data.take headerLength)
  let bodyLength := (atoi header % 2 ^ 64).toNat
  if bodyLength > maxBodyLength then (false, { m with bodyLength := 0 })
  else (true, { m with bodyLength := bodyLength })

/-- How `main` of the client makes a message of a line, and any caller of one of a body. -/
def compose (m : ChatMessage) (line : Bytes) : Except Fault ChatMessage := do
  let m := m.setBodyLength line.length
  let m ← m.copyTo headerLength (line.take m.bodyLength)
  m.encodeHeader

/-! ## Headers

`decode_header` looks at nothing but four bytes, so what it does is a function of those. -/

/-- The length four header bytes announce, if `decode_header` accepts them. -/
def announced (header : Bytes) : Option Nat :=
  let bodyLength := (atoi (cStr header) % 2 ^ 64).toNat
  if bodyLength > maxBodyLength then none else some bodyLength

/-- Header and `body_length_` agree. -/
def Framed (m : ChatMessage) : Prop := announced (m.data.take headerLength) = some m.bodyLength

variable {m m' : ChatMessage} {header : Bytes}

theorem announced_le {n : Nat} (h : announced header = some n) : n ≤ maxBodyLength := by
  simp only [announced] at h
  split at h
  · cases h
  · rename_i hle
    cases h
    exact Nat.le_of_not_lt hle

theorem Framed.bodyLength_le (h : m.Framed) : m.bodyLength ≤ maxBodyLength := announced_le h

theorem decodeHeader_eq (m : ChatMessage) :
    m.decodeHeader = match announced (m.data.take headerLength) with
      | some n => (true, { m with bodyLength := n })
      | none => (false, { m with bodyLength := 0 }) := by
  simp only [decodeHeader, announced]
  split
  · rfl
  · rfl

theorem toInt_of_lt {n : Nat} (h : n < 2 ^ 31) : toInt n = n := by
  unfold toInt
  apply Int.bmod_eq_of_le
  · omega
  · omega

/-- `%4d` and `atoi` agree on every length a body can have. -/
theorem announced_formatD {n : Nat} (hn : n ≤ maxBodyLength) :
    announced (formatD headerLength n) = some n := by
  have hclean : cStr (formatD headerLength n) = formatD headerLength n := by
    apply cStr_of_ne_zero
    intro b hb
    exact ne_zero_of_mem_formatD hb
  have hvalue : ((n : Int) % 2 ^ 64).toNat = n := by
    simp only [maxBodyLength] at hn
    omega
  simp only [announced, hclean, atoi_formatD, hvalue]
  rw [if_neg (Nat.not_lt.mpr hn)]

/-! ## Copies -/

theorem copyTo_eq_ok {offset : Nat} {bytes : Bytes} (h : m.copyTo offset bytes = .ok m') :
    offset + bytes.length ≤ m.data.length ∧ m'.bodyLength = m.bodyLength ∧
      m'.data = overwrite m.data offset bytes := by
  simp only [copyTo] at h
  split at h
  · rename_i hle
    cases h
    exact ⟨hle, rfl, rfl⟩
  · cases h

theorem copyTo_returns {offset : Nat} {bytes : Bytes}
    (h : offset + bytes.length ≤ headerLength + maxBodyLength) :
    ∃ m', m.copyTo offset bytes = .ok m' :=
  ⟨_, dif_pos (m.size.symm ▸ h)⟩

section CopyTo

variable {offset : Nat} {bytes : Bytes} (h : m.copyTo offset bytes = .ok m')

include h

theorem copyTo_inside : (m'.data.drop offset).take bytes.length = bytes := by
  obtain ⟨hle, -, hdata⟩ := copyTo_eq_ok h
  rw [hdata]
  exact overwrite_inside hle

theorem copyTo_before : m'.data.take offset = m.data.take offset := by
  obtain ⟨hle, -, hdata⟩ := copyTo_eq_ok h
  rw [hdata]
  exact overwrite_before hle

theorem copyTo_after {n : Nat} (hn : offset + bytes.length ≤ n) :
    m'.data.drop n = m.data.drop n := by
  obtain ⟨hle, -, hdata⟩ := copyTo_eq_ok h
  rw [hdata]
  exact overwrite_after hle hn

end CopyTo

/-! ## Messages on the wire -/

theorem length_body (h : m.bodyLength ≤ maxBodyLength) : m.body.length = m.bodyLength := by
  rw [body, List.length_take, List.length_drop, m.size]
  omega

theorem length_header (m : ChatMessage) : (m.data.take headerLength).length = headerLength := by
  rw [List.length_take, m.size]
  omega

theorem wire_eq (m : ChatMessage) : m.wire = m.data.take headerLength ++ m.body := by
  rw [wire, length, List.take_add]
  rfl

/-- **A composed message is framed**, whatever its array held before, and carries its body. -/
theorem compose_returns (m : ChatMessage) {line : Bytes} (hline : line.length ≤ maxBodyLength) :
    ∃ m', m.compose line = .ok m' ∧ m'.Framed ∧ m'.body = line := by
  have hset : (m.setBodyLength line.length).bodyLength = line.length :=
    if_neg (Nat.not_lt.mpr hline)
  have htext : formatD headerLength (toInt line.length) = formatD headerLength line.length := by
    rw [toInt_of_lt]
    simp only [maxBodyLength] at hline
    omega
  have hdigits : line.length < 10 ^ headerLength := by
    simp only [maxBodyLength, headerLength] at hline ⊢
    omega
  have hfits : (formatD headerLength line.length).length = headerLength :=
    length_formatD (by decide) hdigits
  obtain ⟨m₁, h₁⟩ : ∃ m₁, (m.setBodyLength line.length).copyTo headerLength line = .ok m₁ :=
    copyTo_returns (by omega)
  obtain ⟨m₂, h₂⟩ : ∃ m₂, m₁.copyTo 0 (formatD headerLength line.length) = .ok m₂ :=
    copyTo_returns (by omega)
  have hlen₁ : m₁.bodyLength = line.length := (copyTo_eq_ok h₁).2.1.trans hset
  have hlen₂ : m₂.bodyLength = line.length := (copyTo_eq_ok h₂).2.1.trans hlen₁
  have hencode : m₁.encodeHeader = .ok m₂ := by
    simp only [encodeHeader, hlen₁, htext]
    rw [if_pos (by omega), List.take_of_length_le (Nat.le_of_eq hfits), h₂]
  refine ⟨m₂, ?_, ?_, ?_⟩
  · refine bind_returns.mpr ⟨m₁, ?_, hencode⟩
    rw [hset, List.take_length]
    exact h₁
  · have hheader := copyTo_inside h₂
    rw [List.drop_zero, hfits] at hheader
    rw [Framed, hheader, hlen₂]
    exact announced_formatD hline
  · rw [body, hlen₂, copyTo_after h₂ (by omega)]
    exact copyTo_inside h₁

end ChatMessage

end ServerTest.Chat
