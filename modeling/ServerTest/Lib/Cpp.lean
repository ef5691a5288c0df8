import Mathlib.Algebra.Group.Nat.Defs
import Mathlib.Data.List.Induction

/-!
# What the models assume of C++

The vocabulary every model of C++ code in this development shares, and nothing about any one
program: byte strings, the run-time faults undefined behaviour is mapped to, and the one atomic
operation the code uses.

**Undefined behaviour is an error, never a value.** A dereference of a null or indeterminate
pointer and an access outside an allocation are `Fault`s in `Except Fault`, so a statement of the
form "if the call returns, then …" says nothing about a run that went wrong, and a statement that
a run is safe has to prove there is no fault. Nothing is assumed of the process afterwards.
-/

set_option autoImplicit false

namespace ServerTest.Lib

/-- A `std::string`, a `char` array or a `std::vector<uint8>`. -/
abbrev Bytes := List UInt8

/-- A character literal of the source. Only used at ASCII literals, as is `ascii`. -/
def chr (c : Char) : UInt8 := c.toNat.toUInt8

/-- A string literal of the source. -/
def ascii (s : String) : Bytes := s.toList.map chr

/-- What a callee taking `const char*` sees of a string: everything before its first NUL. -/
def cStr (s : Bytes) : Bytes := s.takeWhile (· ≠ 0)

/-- The terminator is not part of it. -/
theorem cStr_append_zero (s : Bytes) : cStr (s ++ [0]) = cStr s := by
  induction s with
  | nil => rfl
  | cons c s ih =>
    unfold cStr at ih ⊢
    rw [List.cons_append, List.takeWhile_cons, List.takeWhile_cons, ih]

/-- What stands behind the end of a string is not seen. -/
theorem cStr_append_of_mem {s : Bytes} (h : 0 ∈ s) (rest : Bytes) : cStr (s ++ rest) = cStr s := by
  induction s with
  | nil => cases h
  | cons c s ih =>
    unfold cStr at ih ⊢
    rw [List.cons_append, List.takeWhile_cons, List.takeWhile_cons]
    by_cases hc : c = 0
    · simp [hc]
    · rw [ih (List.mem_of_ne_of_mem (Ne.symm hc) h)]

/-- `isspace` of the C locale: blank, and the control characters 9 to 13. -/
def isspace (c : UInt8) : Bool := c = 32 || (9 ≤ c && c ≤ 13)

/-- `tolower` of the C locale. -/
def tolower (c : UInt8) : UInt8 := if 65 ≤ c && c ≤ 90 then c + 32 else c

/-- `toupper` of the C locale. -/
def toupper (c : UInt8) : UInt8 := if 97 ≤ c && c ≤ 122 then c - 32 else c

/-- A property of a character, by looking at all of them. -/
theorem forall_byte {p : UInt8 → Prop} (h : ∀ n : Fin 256, p (UInt8.ofNat n)) (c : UInt8) : p c := by
  have hc := h ⟨c.toNat, c.toNat_lt⟩
  rwa [UInt8.ofNat_toNat] at hc

/-- The two 64-bit data models the code is built for; they differ in the size of `long`. -/
inductive DataModel where
  | LP64
  | LLP64
  deriving DecidableEq, Repr

/-- The ways a run can leave defined behaviour. -/
inductive Fault where
  /-- dereference of `nullptr` -/
  | nullPointer
  /-- dereference of a pointer that was never assigned, or whose bytes were overwritten -/
  | wildPointer
  /-- access outside the allocation a pointer points into -/
  | outOfBounds
  /-- shift by at least the width of the operand -/
  | badShift
  /-- a signed result its type cannot represent -/
  | signedOverflow
  /-- a function that calls itself for ever -/
  | stackOverflow
  deriving DecidableEq, Repr

/-- `vector[i]`, which checks nothing. -/
def subscript {α : Type*} (xs : List α) (i : Nat) : Except Fault α :=
  match xs[i]? with
  | some x => .ok x
  | none => .error .outOfBounds

/-- `vector[i] = x`. -/
def store {α : Type*} (xs : List α) (i : Nat) (x : α) : Except Fault (List α) :=
  if i < xs.length then .ok (xs.set i x) else .error .outOfBounds

/-- Writing back what a slot holds. -/
theorem set_of_getElem? {α : Type*} {xs : List α} {i : Nat} {x : α} (h : xs[i]? = some x) :
    xs.set i x = xs := by
  obtain ⟨hi, rfl⟩ := List.getElem?_eq_some_iff.mp h
  exact List.set_getElem_self hi

/-- `n` bytes of an allocation from `offset` on. -/
def load (memory : Bytes) (offset n : Nat) : Except Fault Bytes :=
  if offset + n ≤ memory.length then .ok ((memory.drop offset).take n) else .error .outOfBounds

/-- An allocation with `bytes` stored from `offset` on. -/
def overwrite (memory : Bytes) (offset : Nat) (bytes : Bytes) : Bytes :=
  memory.take offset ++ bytes ++ memory.drop (offset + bytes.length)

/-- `memcpy` to `offset`, or anything else that stores a block there. -/
def memcpy (memory : Bytes) (offset : Nat) (bytes : Bytes) : Except Fault Bytes :=
  if offset + bytes.length ≤ memory.length then .ok (overwrite memory offset bytes)
  else .error .outOfBounds

section Overwrite

variable {memory : Bytes} {offset : Nat} {bytes : Bytes}
  (h : offset + bytes.length ≤ memory.length)

include h

theorem length_overwrite : (overwrite memory offset bytes).length = memory.length := by
  simp only [overwrite, List.length_append, List.length_take, List.length_drop]
  omega

/-- What was stored stands where it was stored… -/
theorem overwrite_inside : ((overwrite memory offset bytes).drop offset).take bytes.length = bytes := by
  have hlen : (memory.take offset).length = offset := by
    rw [List.length_take]
    omega
  rw [overwrite, List.append_assoc, List.drop_append_of_le_length (by omega),
    List.drop_of_length_le (by omega), List.nil_append, List.take_left']
  rfl

/-- …and what stands before and behind it is as it was. -/
theorem overwrite_before : (overwrite memory offset bytes).take offset = memory.take offset := by
  have hlen : (memory.take offset).length = offset := by
    rw [List.length_take]
    omega
  rw [overwrite, List.append_assoc, List.take_append_of_le_length (by omega), List.take_take,
    Nat.min_self]

theorem overwrite_after {n : Nat} (hn : offset + bytes.length ≤ n) :
    (overwrite memory offset bytes).drop n = memory.drop n := by
  have hlen : (memory.take offset ++ bytes).length = offset + bytes.length := by
    rw [List.length_append, List.length_take]
    omega
  obtain ⟨k, rfl⟩ := Nat.exists_eq_add_of_le hn
  rw [overwrite, ← hlen, ← List.drop_drop, List.drop_left, hlen, List.drop_drop]

end Overwrite

/-- Peel a bind that returned. Every proof about fallible code here starts with it. -/
theorem bind_returns {ε α β : Type} {run : Except ε α} {next : α → Except ε β} {b : β} :
    run >>= next = .ok b ↔ ∃ a, run = .ok a ∧ next a = .ok b := by
  constructor
  · intro h
    cases run with
    | error fault => cases h
    | ok a => exact ⟨a, rfl, h⟩
  · intro hpair
    obtain ⟨a, rfl, h⟩ := hpair
    exact h

/-- **A loop that always returns.** `I done b` relates the elements already handled to the state;
if every further element can be handled, the whole loop returns and `I` holds of all of it. -/
theorem foldlM_returns {α β : Type} {step : β → α → Except Fault β} {I : List α → β → Prop}
    {P : α → Prop} {b : β} (hb : I [] b)
    (hstep : ∀ done a b, P a → I done b → ∃ b', step b a = .ok b' ∧ I (done ++ [a]) b') :
    ∀ l : List α, (∀ a ∈ l, P a) → ∃ b', l.foldlM step b = .ok b' ∧ I l b' := by
  intro l
  induction l using List.reverseRecOn with
  | nil => exact fun _ => ⟨b, rfl, hb⟩
  | append_singleton l a ih =>
    intro hP
    obtain ⟨b₁, hrun, hI⟩ := ih fun x hx => hP x (List.mem_append_left _ hx)
    obtain ⟨b₂, hlast, hI'⟩ := hstep l a b₁ (hP a (by simp)) hI
    refine ⟨b₂, ?_, hI'⟩
    rw [List.foldlM_append, bind_returns]
    exact ⟨b₁, hrun, by simpa using hlast⟩

/-- A loop that returned kept every property its steps keep. -/
theorem foldlM_keeps {α β : Type} {step : β → α → Except Fault β} {P : β → Prop}
    (hstep : ∀ a b b', P b → step b a = .ok b' → P b') :
    ∀ {l : List α} {b b' : β}, P b → l.foldlM step b = .ok b' → P b'
  | [], _, _, hb, h => by cases h; exact hb
  | _ :: _, _, _, hb, h => by
    obtain ⟨b₁, h₁, h₂⟩ := bind_returns.mp h
    exact foldlM_keeps hstep (hstep _ _ _ hb h₁) h₂

/-- `std::atomic<bool>::compare_exchange_strong`: whether it succeeded, and the new value. -/
def compareExchangeStrong (current expected desired : Bool) : Bool × Bool :=
  if current = expected then (true, desired) else (false, current)

end ServerTest.Lib
