import Mathlib.Algebra.Group.Int.Defs
import ServerTest.Core.StringUtils

/-!
# `SHA256Hash`

The wrapper around OpenSSL's SHA-256. The hash itself is a parameter wherever it is used: a function
from byte strings to digests, of what the `SHA256_Update` calls were given, one after the other.

`AppendData` takes its length as an `int` and hands it on as a `size_t`, so a string from `2 ^ 31`
bytes on has a length that is negative in between. `GetHexString` has a hex encoder of its own, with a
table, beside `ByteArrayToHexStr`.
-/

set_option autoImplicit false

namespace ServerTest.Core

open Lib

/-- `uint8[SHA256_DIGEST_LENGTH]` -/
abbrev Digest := { d : Bytes // d.length = 32 }

/-- The context is what it has been updated with since `SHA256_Init`. -/
structure SHA256Hash where
  context : Bytes
  digest : Digest

namespace SHA256Hash

/-- The constructor. -/
def new : SHA256Hash := ⟨[], List.replicate 32 0, by decide⟩

/-- `AppendData(const uint8*, int)` -/
def appendBytes (hash : SHA256Hash) (memory : Bytes) (length : Int32) : Except Fault SHA256Hash := do
  let data ← load memory 0 (length.toInt % 2 ^ 64).toNat
  return { hash with context := hash.context ++ data }

/-- `AppendData(const std::string&)` -/
def appendData (hash : SHA256Hash) (string : Bytes) : Except Fault SHA256Hash :=
  hash.appendBytes (string ++ [0]) (Int32.ofNat string.length)

def calculateHash (sha256 : Bytes → Digest) (hash : SHA256Hash) : SHA256Hash :=
  { hash with digest := sha256 hash.context }

/-- `GetLength`, converted to the `uint32` it is used as. -/
def getLength : UInt32 := 32

def hexMap : Bytes :=
  ['0', '1', '2', '3', '4', '5', '6', '7', '8', '9', 'A', 'B', 'C', 'D', 'E', 'F'].map chr

/-- One iteration of `GetHexString`. -/
def hexStep (data result : Bytes) (i : Nat) : Except Fault Bytes := do
  let byte ← subscript data i
  let high ← subscript hexMap ((byte &&& 0xF0) >>> 4).toNat
  let result ← store result (2 * i) high
  let low ← subscript hexMap (byte &&& 0x0F).toNat
  store result (2 * i + 1) low

def getHexString (hash : SHA256Hash) : Except Fault Bytes :=
  let len := getLength.toNat
  let result := List.replicate (len * 2) (chr ' ')
  (List.range len).foldlM (hexStep hash.digest) result

/-- Below `2 ^ 31` bytes a string is appended as it is. -/
theorem appendData_eq (hash : SHA256Hash) {string : Bytes} (h : string.length < 2 ^ 31) :
    hash.appendData string = .ok { hash with context := hash.context ++ string } := by
  have hlength : ((Int32.ofNat string.length).toInt % 2 ^ 64).toNat = string.length := by
    rw [Int32.toInt_ofNat_of_lt h]
    omega
  have hload : load (string ++ [0]) 0 string.length = .ok string := by
    simp [load]
  rw [appendData, appendBytes, hlength, hload]
  rfl

/-! ## `GetHexString` -/

/-- The table and the masks are the digits of the byte. -/
theorem subscript_hexMap (b : UInt8) :
    subscript hexMap ((b &&& 0xF0) >>> 4).toNat = .ok (hexDigit (b >>> 4)) ∧
      subscript hexMap (b &&& 0x0F).toNat = .ok (hexDigit (b &&& 0x0F)) := by
  have htable : ∀ b : UInt8, hexMap[((b &&& 0xF0) >>> 4).toNat]? = some (hexDigit (b >>> 4)) ∧
      hexMap[(b &&& 0x0F).toNat]? = some (hexDigit (b &&& 0x0F)) := by
    apply forall_byte
    decide +kernel
  rw [subscript, subscript, (htable b).1, (htable b).2]
  exact ⟨rfl, rfl⟩

/-- An iteration writes the two digits of its byte behind those of the bytes before it. -/
theorem hexStep_eq {data : Bytes} {i : Nat} (hi : i < data.length) (rest : Bytes) (x y : UInt8) :
    hexStep data (hexText (data.take i) ++ x :: y :: rest) i =
      .ok (hexText (data.take (i + 1)) ++ rest) := by
  have hread : subscript data i = .ok data[i] := by
    rw [subscript, List.getElem?_eq_getElem hi]
  have hlength : (hexText (data.take i)).length = 2 * i := by
    rw [length_hexText, List.length_take]
    omega
  have htext : hexText (data.take (i + 1)) = hexText (data.take i) ++ hexPair data[i] := by
    rw [List.take_succ_eq_append_getElem hi, hexText, List.flatMap_append]
    simp [hexText]
  obtain ⟨hhigh, hlow⟩ := subscript_hexMap data[i]
  rw [htext]
  simp only [hexStep, hread, hhigh, hlow, bind, Except.bind]
  simp [store, hlength, hexPair]

theorem foldlM_hexStep (data : Bytes) :
    (List.range data.length).foldlM (hexStep data) (List.replicate (data.length * 2) (chr ' ')) =
      .ok (hexText data) := by
  have hloop : ∀ k, k ≤ data.length →
      (List.range k).foldlM (hexStep data) (List.replicate (data.length * 2) (chr ' ')) =
        .ok (hexText (data.take k) ++ List.replicate ((data.length - k) * 2) (chr ' ')) := by
    intro k hk
    induction k with
    | zero => rfl
    | succ k ih =>
      have hroom : (data.length - k) * 2 = (data.length - (k + 1)) * 2 + 1 + 1 := by omega
      rw [List.range_succ, List.foldlM_append, ih (by omega), hroom, List.replicate_succ,
        List.replicate_succ]
      simp only [bind, Except.bind, List.foldlM_cons, List.foldlM_nil,
        hexStep_eq (Nat.lt_of_succ_le hk)]
      rfl
  have hall := hloop data.length (Nat.le_refl _)
  rw [Nat.sub_self, Nat.zero_mul, List.replicate_zero, List.append_nil, List.take_length] at hall
  exact hall

theorem getHexString_eq (hash : SHA256Hash) : hash.getHexString = .ok (hexText hash.digest) := by
  have hloop := foldlM_hexStep hash.digest
  rw [hash.digest.property] at hloop
  exact hloop

/-- **The two hex encoders are faithful and agree.** No call faults, so every subscript is inside its
array; forwards the text is two digits a byte and reads back as the array, backwards it is that of the
reversed array, and of a digest the two make the same. -/
theorem hexEncoders_faithful (bytes : Bytes) (h : bytes.length < 2 ^ 31) (hash : SHA256Hash) :
    (∃ text, byteArrayToHexStr bytes (UInt32.ofNat bytes.length) false = .ok text ∧
      text.length = 2 * bytes.length ∧ (∀ c ∈ text, IsHexDigit c) ∧ readHex text = bytes) ∧
    (∃ text, byteArrayToHexStr bytes (UInt32.ofNat bytes.length) true = .ok text ∧
      byteArrayToHexStr bytes.reverse (UInt32.ofNat bytes.length) false = .ok text) ∧
    ∃ text, hash.getHexString = .ok text ∧
      byteArrayToHexStr hash.digest (UInt32.ofNat hash.digest.val.length) false = .ok text := by
  have hreversed := byteArrayToHexStr_eq bytes.reverse (by rwa [List.length_reverse]) false
  rw [List.length_reverse] at hreversed
  refine ⟨⟨hexText bytes, byteArrayToHexStr_eq bytes h false, length_hexText bytes,
    fun c => isHexDigit_hexText, readHex_hexText bytes⟩,
    ⟨_, byteArrayToHexStr_eq bytes h true, hreversed⟩,
    ⟨_, getHexString_eq hash, byteArrayToHexStr_eq _ (by rw [hash.digest.property]; decide) false⟩⟩

theorem hexEncoders_faithful_bytes :
    [0x0F, 0xA0].length < 2 ^ 31 ∧
      ∃ text, byteArrayToHexStr [0x0F, 0xA0] (UInt32.ofNat 2) false = .ok text ∧
        text.length = 2 * 2 ∧ (∀ c ∈ text, IsHexDigit c) ∧ readHex text = [0x0F, 0xA0] :=
  ⟨by decide, (hexEncoders_faithful [0x0F, 0xA0] (by decide) new).1⟩

end SHA256Hash

end ServerTest.Core
