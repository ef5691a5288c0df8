import ServerTest.Lib.Cpp
import ServerTest.Lib.ShiftRegister

/-!
# `crc32`

The CRC-32 of `StringUtils.h`: `gen_crc32_table` clocks every byte value eight times, and `crc32` goes
over a C string with one lookup a character. `crc32Bitwise` is the checksum by its definition, eight
clocks a character and no table. One lookup is eight clocks by `ShiftRegister`, and a `char` that
promotes to a negative `int` loses its sign to the mask before the lookup.

The index of the loop is an `unsigned int`. A string of `2 ^ 32` characters or more has its NUL where
the index never gets, so the loop is modelled with its index and a number of iterations to run.
-/

set_option autoImplicit false

namespace ServerTest.Core

open Lib

/-! ## The code -/

def polynomial : UInt32 := 0xEDB88320

/-- The body of the inner loop of `gen_crc32_table`. -/
def tableStep (crc : UInt32) : UInt32 :=
  let mask := -(crc &&& 1)
  (crc >>> 1) ^^^ (polynomial &&& mask)

/-- `gen_crc32_table` -/
def genCrc32Table : List UInt32 :=
  (List.range 256).map fun byte => tableStep^[8] (UInt32.ofNat byte)

/-- Whether plain `char` is signed, which the implementation chooses. -/
inductive PlainChar where
  | signed
  | unsigned
  deriving DecidableEq, Repr

/-- A `char` as an operand next to an `unsigned int`: promoted to `int` and converted. -/
def PlainChar.promote : PlainChar → UInt8 → UInt32
  | .signed, c => c.toInt8.toInt32.toUInt32
  | .unsigned, c => c.toUInt32

/-- One iteration of the loop of `crc32` on a character that is not NUL. -/
def crc32Step (char : PlainChar) (crc : UInt32) (c : UInt8) : Except Fault UInt32 := do
  let entry ← subscript genCrc32Table ((crc ^^^ char.promote c) &&& 0xFF).toNat
  return entry ^^^ (crc >>> 8)

/-- The loop of `crc32`, for so many iterations at most; `none` if it is not over by then. -/
def crc32Loop (char : PlainChar) (memory : Bytes) :
    Nat → UInt32 → UInt32 → Except Fault (Option UInt32)
  | 0, _, _ => return none
  | n + 1, i, crc => do
    let c ← subscript memory i.toNat
    if c = 0 then return some (~~~crc)
    let crc ← crc32Step char crc c
    crc32Loop char memory n (i + 1) crc

/-- `crc32` of the C string in `memory`. -/
def crc32 (char : PlainChar) (memory : Bytes) (iterations : Nat) : Except Fault (Option UInt32) :=
  crc32Loop char memory iterations 0 0xFFFFFFFF

/-- `crc32` of this string comes back, with this value. -/
def Crc32Returns (char : PlainChar) (s : Bytes) (value : UInt32) : Prop :=
  ∃ iterations, crc32 char (s ++ [0]) iterations = .ok (some value)

/-! ## The definition -/

/-- One bit: shift, and add the polynomial if a one fell out. -/
def crcBit (crc : UInt32) : UInt32 :=
  if crc &&& 1 = 1 then (crc >>> 1) ^^^ 0xEDB88320 else crc >>> 1

def crcByte (crc : UInt32) (c : UInt8) : UInt32 := crcBit^[8] (crc ^^^ c.toUInt32)

/-- The reflected CRC-32, bit by bit. -/
def crc32Bitwise (s : Bytes) : UInt32 := ~~~(s.foldl crcByte 0xFFFFFFFF)

/-! ## One byte -/

theorem low_bit (x : UInt32) :
    (x &&& 1).toBitVec = if x.toBitVec.getLsbD 0 then 1#32 else 0#32 := by
  rw [UInt32.toBitVec_and]
  show x.toBitVec &&& 1#32 = _
  rw [BitVec.and_one_eq_setWidth_ofBool_getLsbD]
  cases x.toBitVec.getLsbD 0 <;> rfl

theorem toBitVec_tableStep (x : UInt32) :
    (tableStep x).toBitVec = ShiftRegister.clock polynomial.toBitVec x.toBitVec := by
  have hmask : polynomial.toBitVec &&& -(x &&& 1).toBitVec =
      if x.toBitVec.getLsbD 0 then polynomial.toBitVec else 0 := by
    rw [low_bit]
    cases x.toBitVec.getLsbD 0 <;> decide
  rw [tableStep, ShiftRegister.clock, ← hmask]
  simp

theorem toBitVec_crcBit (x : UInt32) :
    (crcBit x).toBitVec = ShiftRegister.clock polynomial.toBitVec x.toBitVec := by
  have hbit : x &&& 1 = 1 ↔ x.toBitVec.getLsbD 0 = true := by
    rw [← UInt32.toBitVec_inj, low_bit]
    cases x.toBitVec.getLsbD 0 <;> decide
  unfold crcBit ShiftRegister.clock
  by_cases hone : x.toBitVec.getLsbD 0 = true
  · rw [if_pos (hbit.mpr hone), if_pos hone]
    simp [polynomial]
  · rw [if_neg (mt hbit.mp hone), if_neg hone]
    simp

/-- The mask of the code and the branch of the definition are the same step. -/
theorem tableStep_eq_crcBit : tableStep = crcBit := by
  funext x
  rw [← UInt32.toBitVec_inj, toBitVec_tableStep, toBitVec_crcBit]

theorem toBitVec_crcBits (n : Nat) (x : UInt32) :
    (crcBit^[n] x).toBitVec = (ShiftRegister.clock polynomial.toBitVec)^[n] x.toBitVec := by
  induction n generalizing x with
  | zero => rfl
  | succ n ih => rw [Function.iterate_succ_apply, Function.iterate_succ_apply, ih, toBitVec_crcBit]

/-- Eight bits at once. -/
theorem crcBits_eight (x : UInt32) : crcBit^[8] x = crcBit^[8] (x &&& 0xFF) ^^^ (x >>> 8) := by
  have hclocks := ShiftRegister.clocks_eq_low_xor_shift polynomial.toBitVec 8 x.toBitVec
  rw [← UInt32.toBitVec_inj, toBitVec_crcBits, hclocks, UInt32.toBitVec_xor, toBitVec_crcBits]
  simp [ShiftRegister.lowMask]

theorem genCrc32Table_getElem? {i : UInt32} (hi : i.toNat < 256) :
    genCrc32Table[i.toNat]? = some (crcBit^[8] i) := by
  rw [genCrc32Table, List.getElem?_map, List.getElem?_range hi, tableStep_eq_crcBit]
  simp

/-- The sign is gone after the mask… -/
theorem promote_low (char : PlainChar) (c : UInt8) : char.promote c &&& 0xFF = c.toUInt32 := by
  revert c
  apply forall_byte
  cases char <;> decide +kernel

/-- …and a character has nothing above it. -/
theorem toUInt32_shift (c : UInt8) : c.toUInt32 >>> 8 = 0 := by
  revert c
  apply forall_byte
  decide +kernel

theorem xor_and (a b m : UInt32) : (a ^^^ b) &&& m = (a &&& m) ^^^ (b &&& m) := by
  rw [← UInt32.toBitVec_inj]
  apply BitVec.eq_of_getLsbD_eq
  intro i _
  simp only [UInt32.toBitVec_and, UInt32.toBitVec_xor, BitVec.getLsbD_and, BitVec.getLsbD_xor]
  cases a.toBitVec.getLsbD i <;> cases m.toBitVec.getLsbD i <;> simp

theorem xor_shift (a b : UInt32) : (a ^^^ b) >>> 8 = (a >>> 8) ^^^ (b >>> 8) := by
  rw [← UInt32.toBitVec_inj]
  simp [BitVec.ushiftRight_xor_distrib]

/-- **One lookup is eight bits.** -/
theorem crc32Step_eq (char : PlainChar) (crc : UInt32) (c : UInt8) :
    crc32Step char crc c = .ok (crcByte crc c) := by
  -- The index of the lookup is the low byte of what the definition clocks.
  have hlow : (crc ^^^ char.promote c) &&& 0xFF = (crc ^^^ c.toUInt32) &&& 0xFF := by
    have hplain : c.toUInt32 &&& 0xFF = c.toUInt32 := promote_low .unsigned c
    rw [xor_and, xor_and, promote_low, hplain]
  have hlt : ((crc ^^^ c.toUInt32) &&& 0xFF).toNat < 256 := by
    rw [UInt32.toNat_and]
    exact Nat.lt_of_le_of_lt Nat.and_le_right (by decide)
  have hhigh : (crc ^^^ c.toUInt32) >>> 8 = crc >>> 8 := by
    rw [xor_shift, toUInt32_shift, UInt32.xor_zero]
  rw [crc32Step, hlow, subscript, genCrc32Table_getElem? hlt, crcByte,
    crcBits_eight (crc ^^^ c.toUInt32), hhigh]
  rfl

/-! ## The whole string -/

/-- The counter is the number of characters read, as long as there are not too many. -/
theorem toNat_index {front rest : Bytes} (h : (front ++ rest).length < 2 ^ 32) :
    (UInt32.ofNat front.length).toNat = front.length := by
  rw [UInt32.toNat_ofNat']
  rw [List.length_append] at h
  exact Nat.mod_eq_of_lt (Nat.lt_of_le_of_lt (Nat.le_add_right _ _) h)

/-- From index `i` on, as long as the index does not wrap: the rest of the string. -/
theorem crc32Loop_eq (char : PlainChar) (front rest : Bytes) (crc : UInt32) (hrest : 0 ∉ rest)
    (hlen : (front ++ rest).length < 2 ^ 32) :
    crc32Loop char (front ++ rest ++ [0]) (rest.length + 1) (UInt32.ofNat front.length) crc =
      .ok (some (~~~(rest.foldl crcByte crc))) := by
  induction rest generalizing front crc with
  | nil => simp [crc32Loop, subscript, toNat_index hlen, bind, Except.bind, pure, Except.pure]
  | cons c rest ih =>
    have hc : (0 : UInt8) ≠ c := fun heq => hrest (heq ▸ List.mem_cons_self)
    have hrest : 0 ∉ rest := fun hmem => hrest (List.mem_cons_of_mem c hmem)
    have hnext : front ++ c :: rest = (front ++ [c]) ++ rest := by simp
    have hread : subscript (front ++ c :: rest ++ [0]) (UInt32.ofNat front.length).toNat = .ok c := by
      simp [subscript, toNat_index hlen]
    have hsucc : UInt32.ofNat front.length + 1 = UInt32.ofNat (front ++ [c]).length := by
      simp
    rw [hnext] at hlen
    rw [List.length_cons, crc32Loop, hread, hsucc, hnext, List.foldl_cons]
    simp only [bind, Except.bind, if_neg (Ne.symm hc), crc32Step_eq]
    exact ih (front ++ [c]) (crcByte crc c) hrest hlen

/-- Every index an `unsigned int` can have is one of a character. -/
theorem crc32Loop_endless (char : PlainChar) {s : Bytes} (hs : 0 ∉ s) (hlen : 2 ^ 32 ≤ s.length)
    (iterations : Nat) (i crc : UInt32) :
    crc32Loop char (s ++ [0]) iterations i crc = .ok none := by
  induction iterations generalizing i crc with
  | zero => rfl
  | succ n ih =>
    have hi : i.toNat < s.length := Nat.lt_of_lt_of_le i.toNat_lt hlen
    have hread : subscript (s ++ [0]) i.toNat = .ok (s.get ⟨i.toNat, hi⟩) := by
      simp [subscript, List.getElem?_append_left hi, List.getElem?_eq_getElem hi]
    have hc : s.get ⟨i.toNat, hi⟩ ≠ 0 := fun hzero => hs (hzero ▸ List.get_mem s _)
    rw [crc32Loop, hread]
    simp only [bind, Except.bind, if_neg hc, crc32Step_eq]
    exact ih (i + 1) (crcByte crc (s.get ⟨i.toNat, hi⟩))

/-- **When `crc32` is the CRC-32.** For every string without a NUL and either kind of `char`: exactly
if an `unsigned int` can index its terminator. Otherwise it does not return. -/
theorem crc32_eq_bitwise_iff (char : PlainChar) (s : Bytes) (hs : 0 ∉ s) :
    Crc32Returns char s (crc32Bitwise s) ↔ s.length < 2 ^ 32 := by
  constructor
  · intro h
    obtain ⟨iterations, hrun⟩ := h
    by_contra hlong
    rw [crc32, crc32Loop_endless char hs (Nat.not_lt.mp hlong)] at hrun
    cases hrun
  · intro hlen
    exact ⟨s.length + 1, crc32Loop_eq char [] s 0xFFFFFFFF hs hlen⟩

/-- The example in the comment under `crc32`. -/
theorem crc32_some_id : 0 ∉ ascii "some-id" ∧ crc32Bitwise (ascii "some-id") = 0x1A61BC96 ∧
    Crc32Returns .signed (ascii "some-id") (crc32Bitwise (ascii "some-id")) := by
  have hs : 0 ∉ ascii "some-id" := by decide
  exact ⟨hs, by decide +kernel, (crc32_eq_bitwise_iff .signed _ hs).mpr (by decide)⟩

/-- `2 ^ 32` times the letter `a`. -/
theorem not_crc32_returns_long :
    ¬ ∀ (char : PlainChar) (s : Bytes), 0 ∉ s → Crc32Returns char s (crc32Bitwise s) := by
  intro h
  have hs : (0 : UInt8) ∉ List.replicate (2 ^ 32) (97 : UInt8) := by
    intro hmem
    exact absurd (List.eq_of_mem_replicate hmem) (by decide)
  obtain ⟨iterations, hrun⟩ := h .signed _ hs
  rw [crc32, crc32Loop_endless .signed hs (Nat.le_of_eq List.length_replicate.symm)] at hrun
  cases hrun

end ServerTest.Core
