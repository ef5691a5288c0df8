import Mathlib.Algebra.Group.Int.Defs
import ServerTest.Lib.Hex

/-!
# `ByteArrayToHexStr`

The bytes of an array in hexadecimal, forwards or backwards. One loop does both: `init`, `end` and `op`
are set for the direction, all of them signed, and the array length is an unsigned argument converted
on the way in. The subscript is checked here and nowhere in the code; signed overflow of the index is
a fault.
-/

set_option autoImplicit false

namespace ServerTest.Core

open Lib

/-- The loop of `ByteArrayToHexStr`, with `op` one or minus one. A negative index is outside the array
like one behind its end. -/
def hexLoop (bytes : Bytes) (stop : Int) (up : Bool) (i : Int) (out : Bytes) : Except Fault Bytes :=
  if i = stop then .ok out
  else if h : 0 ≤ i ∧ i.toNat < bytes.length then
    -- `sprintf(buffer, "%02X", bytes[i])`
    let out := out ++ hexPair (bytes.get ⟨i.toNat, h.2⟩)
    if up then
      if i = 2 ^ 31 - 1 then .error .signedOverflow else hexLoop bytes stop up (i + 1) out
    else hexLoop bytes stop up (i - 1) out
  else .error .outOfBounds
termination_by if up then bytes.length - i.toNat else (i + 1).toNat
decreasing_by
  · rename_i hup _
    rw [if_pos hup, if_pos hup]
    omega
  · rename_i hup
    rw [if_neg hup, if_neg hup]
    omega

def byteArrayToHexStr (bytes : Bytes) (arrayLen : UInt32) (reverse : Bool) : Except Fault Bytes :=
  if reverse then hexLoop bytes (-1) false (arrayLen - 1).toInt32.toInt []
  else hexLoop bytes arrayLen.toInt32.toInt true 0 []

/-- Upwards, from any index on. -/
theorem hexLoop_up (bytes : Bytes) (hlen : bytes.length < 2 ^ 31) (k : Nat) (hk : k ≤ bytes.length)
    (out : Bytes) :
    hexLoop bytes bytes.length true k out = .ok (out ++ hexText (bytes.drop k)) := by
  induction hd : bytes.length - k generalizing k out with
  | zero =>
    have hend : k = bytes.length := by omega
    rw [hexLoop, if_pos (by rw [hend]), hend, List.drop_length]
    simp [hexText]
  | succ d ih =>
    have hlt : k < bytes.length := by omega
    have hrest : hexText (bytes.drop k) = hexPair bytes[k] ++ hexText (bytes.drop (k + 1)) := by
      rw [List.drop_eq_getElem_cons hlt]
      rfl
    rw [hexLoop, if_neg (by omega), dif_pos ⟨by omega, by simpa using hlt⟩, if_pos rfl,
      if_neg (by omega)]
    have hnext := ih (k + 1) (by omega) (out ++ hexPair bytes[k]) (by omega)
    rw [hrest, ← List.append_assoc]
    exact hnext

/-- Downwards, over the first `k` bytes. -/
theorem hexLoop_down (bytes : Bytes) (k : Nat) (hk : k ≤ bytes.length) (out : Bytes) :
    hexLoop bytes (-1) false ((k : Int) - 1) out =
      .ok (out ++ hexText (bytes.take k).reverse) := by
  induction k generalizing out with
  | zero =>
    rw [hexLoop, if_pos (by omega)]
    simp [hexText]
  | succ k ih =>
    have hlt : k < bytes.length := by omega
    have hindex : ((k + 1 : Nat) : Int) - 1 = k := by omega
    have hrest : hexText (bytes.take (k + 1)).reverse =
        hexPair bytes[k] ++ hexText (bytes.take k).reverse := by
      rw [List.take_succ_eq_append_getElem hlt, List.reverse_append]
      rfl
    rw [hindex, hexLoop, if_neg (by omega), dif_pos ⟨by omega, by simpa using hlt⟩,
      if_neg (by decide), hrest, ← List.append_assoc]
    exact ih (by omega) (out ++ hexPair bytes[k])

theorem toInt_toInt32_ofNat {n : Nat} (h : n < 2 ^ 31) : (UInt32.ofNat n).toInt32.toInt = n := by
  have hnat : (UInt32.ofNat n).toBitVec.toNat = n := by
    rw [UInt32.toNat_toBitVec, UInt32.toNat_ofNat', Nat.mod_eq_of_lt (by omega)]
  show (UInt32.ofNat n).toBitVec.toInt = n
  rw [BitVec.toInt_eq_toNat_of_lt (by omega), hnat]

/-- The start of the loop that goes down. In an empty array `arrayLen - 1` wraps, and is minus one
again as an `int32`. -/
theorem toInt_toInt32_pred {n : Nat} (h : n < 2 ^ 31) :
    (UInt32.ofNat n - 1).toInt32.toInt = (n : Int) - 1 := by
  cases n with
  | zero => decide
  | succ n =>
    have hpred : UInt32.ofNat (n + 1) - 1 = UInt32.ofNat n := by simp
    rw [hpred, toInt_toInt32_ofNat (by omega)]
    omega

/-- **What `ByteArrayToHexStr` returns**, for an array of less than `2 ^ 31` bytes. -/
theorem byteArrayToHexStr_eq (bytes : Bytes) (hlen : bytes.length < 2 ^ 31) (reverse : Bool) :
    byteArrayToHexStr bytes (UInt32.ofNat bytes.length) reverse =
      .ok (hexText (if reverse then bytes.reverse else bytes)) := by
  cases reverse with
  | false =>
    have hup := hexLoop_up bytes hlen 0 (Nat.zero_le _) []
    rw [List.drop_zero, List.nil_append] at hup
    rw [byteArrayToHexStr, if_neg (by decide), if_neg (by decide), toInt_toInt32_ofNat hlen]
    exact hup
  | true =>
    have hdown := hexLoop_down bytes bytes.length (Nat.le_refl _) []
    rw [List.take_length, List.nil_append] at hdown
    rw [byteArrayToHexStr, if_pos rfl, if_pos rfl, toInt_toInt32_pred hlen]
    exact hdown

end ServerTest.Core
