import ServerTest.Core.Crc32

/-!
# What `crc32` tells apart

The bits of a string in the order in which the CRC takes them: the bytes one after another, each from
its lowest bit on. Two strings that differ in a burst of at most 32 of them never have the same
checksum, wherever the burst is and whatever stands around it.
-/

set_option autoImplicit false

namespace ServerTest.Core

open Lib ShiftRegister

/-! ## The string as a message -/

def byteBits (c : UInt8) : List Bool := (List.range 8).map c.toBitVec.getLsbD

def bitStream (s : Bytes) : List Bool := s.flatMap byteBits

/-- Two strings that are the same up to `burst` bits in a row. -/
def DifferInBurst (burst : Nat) (s t : Bytes) : Prop :=
  ∃ before m m' after, bitStream s = before ++ m ++ after ∧ bitStream t = before ++ m' ++ after ∧
    m.length = m'.length ∧ m.length ≤ burst

theorem length_byteBits (c : UInt8) : (byteBits c).length = 8 := by simp [byteBits]

theorem word_byteBits (c : UInt8) : word 32 (byteBits c) = c.toUInt32.toBitVec := by
  revert c
  apply forall_byte
  decide +kernel

theorem byteBits_injective : Function.Injective byteBits := by
  intro c d h
  have hword : c.toUInt32.toBitVec = d.toUInt32.toBitVec := by
    rw [← word_byteBits, ← word_byteBits, h]
  exact UInt8.toUInt32_inj.mp (UInt32.toBitVec_inj.mp hword)

theorem length_bitStream (s : Bytes) : (bitStream s).length = 8 * s.length := by
  induction s with
  | nil => rfl
  | cons c s ih =>
    have hcons : bitStream (c :: s) = byteBits c ++ bitStream s := rfl
    rw [hcons, List.length_append, length_byteBits, ih, List.length_cons]
    omega

theorem bitStream_injective : Function.Injective bitStream := by
  intro s t h
  have hlen : s.length = t.length := by
    have hbits := congrArg List.length h
    rw [length_bitStream, length_bitStream] at hbits
    omega
  induction s generalizing t with
  | nil => exact (List.length_eq_zero_iff.mp hlen.symm).symm
  | cons c s ih =>
    cases t with
    | nil => cases hlen
    | cons d t =>
      have height : (byteBits c).length = (byteBits d).length := by
        rw [length_byteBits, length_byteBits]
      obtain ⟨hc, hs⟩ := List.append_inj h height
      rw [byteBits_injective hc, ih hs (Nat.succ.inj hlen)]

/-! ## The register -/

/-- A byte is eight bits. -/
theorem toBitVec_crcByte (crc : UInt32) (c : UInt8) :
    (crcByte crc c).toBitVec = (byteBits c).foldl (feed polynomial.toBitVec) crc.toBitVec := by
  rw [foldl_feed _ _ _ (by rw [length_byteBits]; decide), length_byteBits, word_byteBits, crcByte,
    toBitVec_crcBits, UInt32.toBitVec_xor]

theorem toBitVec_foldl_crcByte (s : Bytes) (crc : UInt32) :
    (s.foldl crcByte crc).toBitVec =
      (bitStream s).foldl (feed polynomial.toBitVec) crc.toBitVec := by
  induction s generalizing crc with
  | nil => rfl
  | cons c s ih =>
    have hcons : bitStream (c :: s) = byteBits c ++ bitStream s := rfl
    rw [List.foldl_cons, ih, hcons, List.foldl_append, toBitVec_crcByte]

theorem crc32Bitwise_ne_of_burst {s t : Bytes} (hne : s ≠ t) (h : DifferInBurst 32 s t) :
    crc32Bitwise s ≠ crc32Bitwise t := by
  obtain ⟨before, m, m', after, hs, ht, hlen, hfits⟩ := h
  have hmiddle : m ≠ m' := by
    intro heq
    exact hne (bitStream_injective (by rw [hs, ht, heq]))
  intro heq
  have hregister : s.foldl crcByte 0xFFFFFFFF = t.foldl crcByte 0xFFFFFFFF :=
    UInt32.not_inj.mp heq
  rw [← UInt32.toBitVec_inj, toBitVec_foldl_crcByte, toBitVec_foldl_crcByte, hs, ht] at hregister
  exact foldl_feed_ne_of_burst (by decide) _ before after hlen hfits hmiddle hregister

/-! ## The function -/

/-- A loop that is over stays over, however many more iterations it may have. -/
theorem crc32Loop_mono {char : PlainChar} {memory : Bytes} {n : Nat} {i crc value : UInt32}
    (h : crc32Loop char memory n i crc = .ok (some value)) (k : Nat) :
    crc32Loop char memory (n + k) i crc = .ok (some value) := by
  induction n generalizing i crc with
  | zero => cases h
  | succ n ih =>
    rw [Nat.succ_add]
    rw [crc32Loop] at h ⊢
    cases hread : subscript memory i.toNat with
    | error fault => rw [hread] at h; cases h
    | ok c =>
      rw [hread] at h
      simp only [bind, Except.bind, crc32Step_eq] at h ⊢
      by_cases hc : c = 0
      · rw [if_pos hc] at h ⊢
        exact h
      · rw [if_neg hc] at h ⊢
        exact ih h

/-- `crc32` has one value. -/
theorem Crc32Returns.eq {char : PlainChar} {s : Bytes} {value value' : UInt32}
    (h : Crc32Returns char s value) (h' : Crc32Returns char s value') : value = value' := by
  obtain ⟨n, hn⟩ := h
  obtain ⟨n', hn'⟩ := h'
  have hlater := crc32Loop_mono hn n'
  have hlater' := crc32Loop_mono hn' n
  rw [Nat.add_comm, hlater] at hlater'
  cases hlater'
  rfl

theorem crc32Returns_bitwise (char : PlainChar) {s : Bytes} (hs : 0 ∉ s)
    (hlen : s.length < 2 ^ 32) : Crc32Returns char s (crc32Bitwise s) :=
  ⟨s.length + 1, crc32Loop_eq char [] s 0xFFFFFFFF hs hlen⟩

/-- **`crc32` sees every burst.** Two different strings that an `unsigned int` can index and that are
the same but for 32 bits in a row: it returns for both, and not the same value. -/
theorem crc32_detects_burst (char : PlainChar) (s t : Bytes) (hs : 0 ∉ s) (ht : 0 ∉ t)
    (hlen : s.length < 2 ^ 32) (hne : s ≠ t) (hburst : DifferInBurst 32 s t) :
    (∃ value, Crc32Returns char s value) ∧ (∃ value', Crc32Returns char t value') ∧
      ∀ value value', Crc32Returns char s value → Crc32Returns char t value' → value ≠ value' := by
  have hsame : s.length = t.length := by
    obtain ⟨before, m, m', after, hs, ht, hlen, -⟩ := hburst
    have hbits := length_bitStream s
    have hbits' := length_bitStream t
    rw [hs] at hbits
    rw [ht] at hbits'
    simp only [List.length_append, hlen] at hbits hbits'
    omega
  have hret := crc32Returns_bitwise char hs hlen
  have hret' := crc32Returns_bitwise char ht (hsame ▸ hlen)
  refine ⟨⟨_, hret⟩, ⟨_, hret'⟩, ?_⟩
  intro value value' hvalue hvalue'
  rw [hvalue.eq hret, hvalue'.eq hret']
  exact crc32Bitwise_ne_of_burst hne hburst

/-- Two letters swapped. -/
theorem crc32_detects_burst_swap : DifferInBurst 32 (ascii "id") (ascii "di") ∧
    ∀ value value', Crc32Returns .signed (ascii "id") value →
      Crc32Returns .signed (ascii "di") value' → value ≠ value' := by
  have hburst : DifferInBurst 32 (ascii "id") (ascii "di") :=
    ⟨[], bitStream (ascii "id"), bitStream (ascii "di"), [], by simp, by simp, by decide, by decide⟩
  exact ⟨hburst, (crc32_detects_burst .signed (ascii "id") (ascii "di") (by decide) (by decide)
    (by decide) (by decide) hburst).2.2⟩

end ServerTest.Core
