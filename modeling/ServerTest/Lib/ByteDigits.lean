import Mathlib.Data.Nat.Digits.Lemmas
import ServerTest.Lib.Cpp

/-!
# Numbers as bytes

A byte string read as the digits of a number in base 256, the least significant first. Zeros at the
end change nothing, and among the strings of one length a number has only one; without a zero at the
end the string is `Nat.digits 256` of its number.
-/

set_option autoImplicit false

namespace ServerTest.Lib

/-- The number little-endian bytes stand for. -/
def bytesValue (bytes : Bytes) : Nat := Nat.ofDigits 256 (bytes.map UInt8.toNat)

theorem toNat_lt_of_mem {bytes : Bytes} {digit : Nat} (h : digit ∈ bytes.map UInt8.toNat) :
    digit < 256 := by
  obtain ⟨b, -, rfl⟩ := List.mem_map.mp h
  exact b.toNat_lt

theorem bytesValue_append_zeros (bytes : Bytes) (k : Nat) :
    bytesValue (bytes ++ List.replicate k 0) = bytesValue bytes := by
  rw [bytesValue, List.map_append, List.map_replicate]
  exact Nat.ofDigits_append_replicate_zero _

theorem bytesValue_lt (bytes : Bytes) : bytesValue bytes < 256 ^ bytes.length := by
  have h := Nat.ofDigits_lt_base_pow_length (by decide : 1 < 256) fun _ => @toNat_lt_of_mem bytes _
  rwa [List.length_map] at h

theorem bytesValue_inj {a b : Bytes} (hlength : a.length = b.length)
    (hvalue : bytesValue a = bytesValue b) : a = b := by
  have hmap := Nat.ofDigits_inj_of_len_eq (by decide : 1 < 256)
    (by rwa [List.length_map, List.length_map])
    (fun _ => @toNat_lt_of_mem a _) (fun _ => @toNat_lt_of_mem b _) hvalue
  exact List.map_injective_iff.mpr (fun _ _ => UInt8.toNat_inj.mp) hmap

theorem bytesValue_append (a b : Bytes) :
    bytesValue (a ++ b) = bytesValue a + 256 ^ a.length * bytesValue b := by
  rw [bytesValue, List.map_append, Nat.ofDigits_append, List.length_map]
  rfl

/-- Bytes without a zero at the end are the digits of their number. -/
theorem digits_bytesValue {bytes : Bytes} (hlast : bytes.getLast? ≠ some 0) :
    Nat.digits 256 (bytesValue bytes) = bytes.map UInt8.toNat := by
  apply Nat.digits_ofDigits 256 (by decide) _ fun _ => @toNat_lt_of_mem bytes _
  intro hne hzero
  apply hlast
  rw [List.getLast_map] at hzero
  rw [List.getLast?_eq_some_getLast (by simpa using hne)]
  exact congrArg some (UInt8.toNat_inj.mp hzero)

theorem eq_of_bytesValue_eq {a b : Bytes} (ha : a.getLast? ≠ some 0) (hb : b.getLast? ≠ some 0)
    (hvalue : bytesValue a = bytesValue b) : a = b := by
  have hmap : a.map UInt8.toNat = b.map UInt8.toNat := by
    rw [← digits_bytesValue ha, ← digits_bytesValue hb, hvalue]
  exact List.map_injective_iff.mpr (fun _ _ => UInt8.toNat_inj.mp) hmap

/-- Bytes without a zero at the end are no longer than their number needs. -/
theorem length_le_iff {bytes : Bytes} (hlast : bytes.getLast? ≠ some 0) (k : Nat) :
    bytes.length ≤ k ↔ bytesValue bytes < 256 ^ k := by
  rw [← Nat.digits_length_le_iff (by decide : 1 < 256), digits_bytesValue hlast, List.length_map]

end ServerTest.Lib
