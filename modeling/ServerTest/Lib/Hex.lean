import ServerTest.Lib.Cpp

/-!
# Hexadecimal text

Two upper-case digits a byte, the high half first, which is what `%02X` prints of a `uint8`. Reading
the digits back in pairs undoes it, so the text determines the bytes.
-/

set_option autoImplicit false

namespace ServerTest.Lib

/-- `"0123456789ABCDEF"[n]`, for `n` below 16. -/
def hexDigit (n : UInt8) : UInt8 := if n < 10 then chr '0' + n else chr 'A' + (n - 10)

def hexPair (b : UInt8) : Bytes := [hexDigit (b >>> 4), hexDigit (b &&& 0x0F)]

def hexText (bytes : Bytes) : Bytes := bytes.flatMap hexPair

/-- The value of an upper-case digit. -/
def hexValue (c : UInt8) : UInt8 := if c < chr 'A' then c - chr '0' else c - chr 'A' + 10

/-- Two characters a byte. -/
def readHex : Bytes → Bytes
  | high :: low :: rest => (hexValue high * 16 + hexValue low) :: readHex rest
  | _ => []

theorem hexValue_hexPair (b : UInt8) :
    hexValue (hexDigit (b >>> 4)) * 16 + hexValue (hexDigit (b &&& 0x0F)) = b := by
  revert b
  apply forall_byte
  decide +kernel

theorem hexText_cons (b : UInt8) (bytes : Bytes) :
    hexText (b :: bytes) = hexDigit (b >>> 4) :: hexDigit (b &&& 0x0F) :: hexText bytes := rfl

theorem readHex_hexText (bytes : Bytes) : readHex (hexText bytes) = bytes := by
  induction bytes with
  | nil => rfl
  | cons b bytes ih => rw [hexText_cons, readHex, hexValue_hexPair, ih]

theorem hexText_injective : Function.Injective hexText :=
  Function.LeftInverse.injective readHex_hexText

theorem length_hexText (bytes : Bytes) : (hexText bytes).length = 2 * bytes.length := by
  induction bytes with
  | nil => rfl
  | cons b bytes ih =>
    rw [hexText_cons, List.length_cons, List.length_cons, ih, List.length_cons]
    omega

/-- `0` to `9` and `A` to `F`. -/
def IsHexDigit (c : UInt8) : Prop := (chr '0' ≤ c ∧ c ≤ chr '9') ∨ (chr 'A' ≤ c ∧ c ≤ chr 'F')

instance (c : UInt8) : Decidable (IsHexDigit c) := inferInstanceAs (Decidable (_ ∨ _))

theorem isHexDigit_hexDigit (b : UInt8) :
    IsHexDigit (hexDigit (b >>> 4)) ∧ IsHexDigit (hexDigit (b &&& 0x0F)) := by
  revert b
  apply forall_byte
  decide +kernel

theorem isHexDigit_hexText {bytes : Bytes} {c : UInt8} (h : c ∈ hexText bytes) : IsHexDigit c := by
  obtain ⟨b, -, hc⟩ := List.mem_flatMap.mp h
  obtain ⟨hhigh, hlow⟩ := isHexDigit_hexDigit b
  rcases List.mem_cons.mp hc with rfl | hc
  · exact hhigh
  · rw [List.mem_singleton.mp hc]
    exact hlow

end ServerTest.Lib
