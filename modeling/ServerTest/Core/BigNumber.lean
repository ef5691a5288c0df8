import Mathlib.Algebra.Order.Ring.Int
import ServerTest.Lib.ByteDigits

/-!
# `BigNumber`

A wrapper around OpenSSL's `BIGNUM`, here its two conversions to and from byte arrays. OpenSSL has the
most significant byte first and no zeros before it; the wrapper has the least significant byte first by
default, and pads with zeros to a length the caller asks for.

The conversions of OpenSSL are a parameter, with what its documentation says of them. All `int`s here
are lengths and positions in one array, and none leaves the range of its type, so they are integers.
-/

set_option autoImplicit false

namespace ServerTest.Core

open Lib

/-- The functions of `openssl/bn.h` that `BigNumber` calls here, on the number a `BIGNUM` holds. -/
structure OpenSSL where
  bnBin2bn : Bytes → Int
  bnBn2bin : Int → Bytes
  bnNumBytes : Int → Int

/-- What they do: `BN_bin2bn` reads a big-endian number, `BN_bn2bin` writes the absolute value of one
without leading zeros, and `BN_num_bytes` is the length of that. -/
structure OpenSSL.Documented (ssl : OpenSSL) : Prop where
  bin2bn : ∀ bytes, ssl.bnBin2bn bytes = bytesValue bytes.reverse
  bn2bin : ∀ a, bytesValue (ssl.bnBn2bin a).reverse = a.natAbs
  noLeadingZero : ∀ a, (ssl.bnBn2bin a).head? ≠ some 0
  numBytes : ∀ a, ssl.bnNumBytes a = (ssl.bnBn2bin a).length

/-- OpenSSL's functions by the digits of a number, as their documentation has them. -/
def OpenSSL.ofDigits : OpenSSL where
  bnBin2bn bytes := bytesValue bytes.reverse
  bnBn2bin a := ((Nat.digits 256 a.natAbs).map UInt8.ofNat).reverse
  bnNumBytes a := (Nat.digits 256 a.natAbs).length

theorem OpenSSL.ofDigits_documented : OpenSSL.ofDigits.Documented where
  bin2bn _ := rfl
  bn2bin a := by
    have hdigits : ((Nat.digits 256 a.natAbs).map UInt8.ofNat).map UInt8.toNat =
        Nat.digits 256 a.natAbs := by
      rw [List.map_map]
      refine (List.map_congr_left fun digit hdigit => ?_).trans (List.map_id _)
      exact UInt8.toNat_ofNat_of_lt' (Nat.digits_lt_base (by decide) hdigit)
    show bytesValue (((Nat.digits 256 a.natAbs).map UInt8.ofNat).reverse).reverse = _
    rw [List.reverse_reverse, bytesValue, hdigits, Nat.ofDigits_digits]
  noLeadingZero a := by
    show ((Nat.digits 256 a.natAbs).map UInt8.ofNat).reverse.head? ≠ some 0
    rw [List.head?_reverse, List.getLast?_map]
    intro hzero
    obtain ⟨digit, hlast, hdigit⟩ := Option.map_eq_some_iff.mp hzero
    have hmem := List.mem_of_getLast? hlast
    have hne : a.natAbs ≠ 0 := by
      intro ha
      rw [ha] at hmem
      simp at hmem
    have hvalue : digit = 0 := by
      have hlt := Nat.digits_lt_base (by decide : 1 < 256) hmem
      have htoNat := congrArg UInt8.toNat hdigit
      rwa [UInt8.toNat_ofNat_of_lt' hlt] at htoNat
    apply Nat.getLast_digit_ne_zero 256 hne
    rw [List.getLast?_eq_some_getLast (Nat.digits_ne_nil_iff_ne_zero.mpr hne),
      Option.some.injEq] at hlast
    rw [hlast, hvalue]
  numBytes a := by
    show ((Nat.digits 256 a.natAbs).length : Int) =
      (((Nat.digits 256 a.natAbs).map UInt8.ofNat).reverse.length : Int)
    rw [List.length_reverse, List.length_map]

structure BigNumber where
  bn : Int
  deriving DecidableEq, Repr

namespace BigNumber

/-- `SetBinary`. A negative length makes `new` throw, and then there is no number. -/
def setBinary (ssl : OpenSSL) (bytes : Bytes) (len : Int) : Except Fault (Option BigNumber) :=
  if len < 0 then .ok none
  else do
    let array ← (List.range len.toNat).mapM fun i => subscript bytes (len.toNat - 1 - i)
    return some ⟨ssl.bnBin2bn array⟩

def getNumBytes (ssl : OpenSSL) (n : BigNumber) : Int := ssl.bnNumBytes n.bn

/-- `AsByteArray`. `junk` is what the new array holds. -/
def asByteArray (ssl : OpenSSL) (junk : Nat → UInt8) (n : BigNumber) (minSize : Int)
    (littleEndian : Bool) : Except Fault Bytes := do
  let numBytes := n.getNumBytes ssl
  let length := if minSize ≥ numBytes then minSize else numBytes
  let array := (List.range length.toNat).map junk
  -- If we need more bytes than length of BigNumber set the rest to 0
  let array := if length > numBytes then List.replicate length.toNat 0 else array
  let array ← memcpy array 0 (ssl.bnBn2bin n.bn)
  -- openssl's BN stores data internally in big endian format, reverse if little endian desired
  if littleEndian then return (array.take numBytes.toNat).reverse ++ array.drop numBytes.toNat
  else return array

/-- A loop over an array, backwards. -/
theorem mapM_subscript_reverse (bytes : Bytes) :
    ((List.range bytes.length).mapM fun i => subscript bytes (bytes.length - 1 - i)) =
      .ok bytes.reverse := by
  have hloop : ∀ k, k ≤ bytes.length →
      ((List.range k).mapM fun i => subscript bytes (bytes.length - 1 - i)) =
        .ok (bytes.reverse.take k) := by
    intro k hk
    induction k with
    | zero => rfl
    | succ k ih =>
      have hlt : bytes.length - 1 - k < bytes.length := by omega
      have hread : subscript bytes (bytes.length - 1 - k) = .ok bytes[bytes.length - 1 - k] := by
        rw [subscript, List.getElem?_eq_getElem hlt]
      rw [List.range_succ, List.mapM_append, ih (by omega),
        List.take_succ_eq_append_getElem (by simpa using hk), List.getElem_reverse]
      simp only [List.mapM_cons, List.mapM_nil, hread]
      rfl
  rw [hloop bytes.length (Nat.le_refl _), List.take_of_length_le (by simp)]

theorem setBinary_eq {ssl : OpenSSL} (h : ssl.Documented) (bytes : Bytes) :
    setBinary ssl bytes bytes.length = .ok (some ⟨bytesValue bytes⟩) := by
  rw [setBinary, if_neg (by omega), Int.toNat_natCast, mapM_subscript_reverse]
  show Except.ok (some (BigNumber.mk (ssl.bnBin2bn bytes.reverse))) = _
  rw [h.bin2bn, List.reverse_reverse]

/-- The array once OpenSSL has written to it: the number, and zeros up to the size asked for. -/
theorem memcpy_array (junk : Nat → UInt8) (bytes : Bytes) (minSize : Int) :
    let length : Int := if minSize ≥ bytes.length then minSize else bytes.length
    memcpy (if length > bytes.length then List.replicate length.toNat 0
        else (List.range length.toNat).map junk) 0 bytes =
      .ok (bytes ++ List.replicate (minSize.toNat - bytes.length) 0) := by
  intro length
  by_cases hpad : minSize > bytes.length
  · have hlength : length = minSize := if_pos (by omega)
    rw [hlength, if_pos hpad, memcpy, if_pos (by rw [List.length_replicate]; omega), overwrite,
      List.take_zero, List.nil_append, Nat.zero_add, List.drop_replicate]
  · have hlength : length = bytes.length := by
      show (if minSize ≥ bytes.length then minSize else (bytes.length : Int)) = _
      split
      · omega
      · rfl
    have hdrop : ((List.range bytes.length).map junk).drop bytes.length = [] :=
      List.drop_of_length_le (by simp)
    rw [hlength, if_neg (by omega), Int.toNat_natCast, memcpy, if_pos (by simp), overwrite,
      List.take_zero, List.nil_append, Nat.zero_add, hdrop,
      show minSize.toNat - bytes.length = 0 by omega, List.replicate_zero]

/-- **What `AsByteArray` returns.** The zeros are at the end in either byte order. -/
theorem asByteArray_eq {ssl : OpenSSL} (h : ssl.Documented) (junk : Nat → UInt8) (n : BigNumber)
    (minSize : Int) (littleEndian : Bool) :
    n.asByteArray ssl junk minSize littleEndian =
      .ok ((if littleEndian then (ssl.bnBn2bin n.bn).reverse else ssl.bnBn2bin n.bn) ++
        List.replicate (minSize.toNat - (ssl.bnBn2bin n.bn).length) 0) := by
  have hcopy := memcpy_array junk (ssl.bnBn2bin n.bn) minSize
  simp only [asByteArray, getNumBytes, h.numBytes, hcopy]
  cases littleEndian with
  | false => rfl
  | true =>
    show Except.ok _ = _
    rw [Int.toNat_natCast, List.take_left, List.drop_left]
    rfl

theorem getLast?_reverse_ne {ssl : OpenSSL} (h : ssl.Documented) (a : Int) :
    (ssl.bnBn2bin a).reverse.getLast? ≠ some 0 := by
  rw [List.getLast?_reverse]
  exact h.noLeadingZero a

/-- The number of bytes is the least that holds the number. -/
theorem length_bn2bin_le_iff {ssl : OpenSSL} (h : ssl.Documented) (n k : Nat) :
    (ssl.bnBn2bin n).length ≤ k ↔ n < 256 ^ k := by
  have hbytes := length_le_iff (getLast?_reverse_ne h n) k
  rwa [List.length_reverse, h.bn2bin, Int.natAbs_natCast] at hbytes

/-- **The little-endian form round-trips.** -/
theorem littleEndian_roundTrips {ssl : OpenSSL} (h : ssl.Documented) (junk : Nat → UInt8) :
    (∀ bytes : Bytes, ∃ n, setBinary ssl bytes bytes.length = .ok (some n) ∧
      n.asByteArray ssl junk bytes.length true = .ok bytes) ∧
    ∀ (n : Nat) (minSize : Int), ∃ array,
      (BigNumber.mk n).asByteArray ssl junk minSize true = .ok array ∧
      array.length = max minSize ((BigNumber.mk n).getNumBytes ssl) ∧
      setBinary ssl array array.length = .ok (some ⟨n⟩) := by
  refine ⟨fun bytes => ⟨⟨bytesValue bytes⟩, setBinary_eq h bytes, ?_⟩, fun n minSize => ?_⟩
  · have hle : (ssl.bnBn2bin (BigNumber.mk (bytesValue bytes)).bn).length ≤ bytes.length :=
      (length_bn2bin_le_iff h _ _).mpr (bytesValue_lt bytes)
    rw [asByteArray_eq h, if_pos rfl, Int.toNat_natCast]
    congr 1
    apply bytesValue_inj
    · rw [List.length_append, List.length_reverse, List.length_replicate]
      omega
    · rw [bytesValue_append_zeros, h.bn2bin, Int.natAbs_natCast]
  · refine ⟨_, asByteArray_eq h junk ⟨n⟩ minSize true, ?_, ?_⟩
    · rw [if_pos rfl, List.length_append, List.length_reverse, List.length_replicate, getNumBytes,
        h.numBytes]
      omega
    · rw [setBinary_eq h, if_pos rfl, bytesValue_append_zeros, h.bn2bin, Int.natAbs_natCast]

theorem littleEndian_roundTrips_zeros : OpenSSL.ofDigits.Documented ∧
    ∃ n, setBinary OpenSSL.ofDigits [1, 0, 0] 3 = .ok (some n) ∧
      n.asByteArray OpenSSL.ofDigits (fun _ => 0) 3 true = .ok [1, 0, 0] :=
  ⟨OpenSSL.ofDigits_documented,
    (littleEndian_roundTrips OpenSSL.ofDigits_documented fun _ => 0).1 [1, 0, 0]⟩

/-- `AsByteArray(minSize, false)` is `AsByteArray(minSize, true)` reversed: the number big-endian, with
zeros on the left up to the length of the array. -/
def BigEndian (ssl : OpenSSL) (junk : Nat → UInt8) (n : BigNumber) (minSize : Int) : Prop :=
  ∃ big little, n.asByteArray ssl junk minSize false = .ok big ∧
    n.asByteArray ssl junk minSize true = .ok little ∧ big = little.reverse ∧
    big = List.replicate ((max minSize (n.getNumBytes ssl)).toNat - (ssl.bnBn2bin n.bn).length) 0 ++
      ssl.bnBn2bin n.bn

/-- A nonzero byte in front distinguishes zeros on the right from zeros on the left. -/
theorem append_zeros_comm_iff {bytes : Bytes} (hhead : bytes.head? ≠ some 0) (k : Nat) :
    bytes ++ List.replicate k 0 = List.replicate k 0 ++ bytes ↔ bytes = [] ∨ k = 0 := by
  constructor
  · intro heq
    cases bytes with
    | nil => exact .inl rfl
    | cons b bytes =>
      cases k with
      | zero => exact .inr rfl
      | succ k =>
        rw [List.replicate_succ, List.cons_append, List.cons_append, List.cons.injEq] at heq
        rw [heq.1] at hhead
        exact absurd rfl hhead
  · rintro (rfl | rfl)
    · rw [List.nil_append, List.append_nil]
    · rw [List.replicate_zero, List.nil_append, List.append_nil]

/-- **When the big-endian form denotes the number**: when it is zero, or there are no zeros to add
because it needs all of `minSize` bytes. -/
theorem bigEndian_iff {ssl : OpenSSL} (h : ssl.Documented) (junk : Nat → UInt8) (n : Nat)
    (minSize : Int) :
    BigEndian ssl junk ⟨n⟩ minSize ↔ n = 0 ∨ 256 ^ (minSize.toNat - 1) ≤ n := by
  have hbig := asByteArray_eq h junk ⟨n⟩ minSize false
  have hlittle := asByteArray_eq h junk ⟨n⟩ minSize true
  have hzero := length_bn2bin_le_iff h n 0
  have hpadded := length_bn2bin_le_iff h n (minSize.toNat - 1)
  have hcomm := append_zeros_comm_iff (h.noLeadingZero n) (minSize.toNat - (ssl.bnBn2bin n).length)
  have hlength : (max minSize ((BigNumber.mk n).getNumBytes ssl)).toNat - (ssl.bnBn2bin n).length =
      minSize.toNat - (ssl.bnBn2bin n).length := by
    rw [getNumBytes, h.numBytes]
    dsimp only
    omega
  have hcondition : (ssl.bnBn2bin n = [] ∨ minSize.toNat - (ssl.bnBn2bin n).length = 0) ↔
      n = 0 ∨ 256 ^ (minSize.toNat - 1) ≤ n := by
    rw [← List.length_eq_zero_iff, ← Nat.not_lt, ← hpadded]
    rw [Nat.pow_zero] at hzero
    omega
  rw [← hcondition, ← hcomm]
  constructor
  · rintro ⟨big, little, hb, -, -, hleft⟩
    rw [hbig] at hb
    cases hb
    rw [hlength] at hleft
    exact hleft
  · intro heq
    refine ⟨_, _, hbig, hlittle, ?_, ?_⟩
    · rw [if_pos rfl, List.reverse_append, List.reverse_replicate, List.reverse_reverse]
      exact heq
    · rw [hlength]
      exact heq

theorem bigEndian_iff_long : OpenSSL.ofDigits.Documented ∧
    (BigEndian OpenSSL.ofDigits (fun _ => 0) ⟨256⟩ 2 ↔ 256 = 0 ∨ 256 ^ 1 ≤ 256) :=
  ⟨OpenSSL.ofDigits_documented, bigEndian_iff OpenSSL.ofDigits_documented (fun _ => 0) 256 2⟩

/-- One, in two bytes: the same array in both byte orders. -/
theorem not_bigEndian_one : OpenSSL.ofDigits.Documented ∧
    (BigNumber.mk 1).asByteArray OpenSSL.ofDigits (fun _ => 0) 2 false = .ok [1, 0] ∧
    (BigNumber.mk 1).asByteArray OpenSSL.ofDigits (fun _ => 0) 2 true = .ok [1, 0] ∧
    ¬ BigEndian OpenSSL.ofDigits (fun _ => 0) ⟨1⟩ 2 := by
  have hone : OpenSSL.ofDigits.bnBn2bin 1 = [1] := by decide
  have hbig := asByteArray_eq OpenSSL.ofDigits_documented (fun _ => 0) ⟨1⟩ 2 false
  have hlittle := asByteArray_eq OpenSSL.ofDigits_documented (fun _ => 0) ⟨1⟩ 2 true
  rw [hone] at hbig hlittle
  refine ⟨OpenSSL.ofDigits_documented, hbig, hlittle, ?_⟩
  rintro ⟨big, little, hb, hl, hreverse, -⟩
  rw [hbig] at hb
  rw [hlittle] at hl
  cases hb
  cases hl
  cases hreverse

end BigNumber

end ServerTest.Core
