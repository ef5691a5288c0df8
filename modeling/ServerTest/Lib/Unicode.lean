import Mathlib.Algebra.Group.Nat.Defs
import ServerTest.Lib.Cpp

/-!
# UTF-8 and UTF-16

The two encoding forms of a text, a text being a list of Unicode scalar values (`Char`). UTF-8 is the
encoding of Lean's own strings; UTF-16 is one unit up to `U+FFFF` and a pair of surrogates above. A
string is well-formed if it is the encoding of a text.
-/

set_option autoImplicit false

namespace ServerTest.Lib

/-- The code units of a scalar value. -/
def utf16EncodeChar (c : Char) : List UInt16 :=
  let v := c.val.toNat
  if v ≤ 0xffff then [UInt16.ofNat v]
  else [UInt16.ofNat ((v - 0x10000) / 0x400 + 0xd800), UInt16.ofNat ((v - 0x10000) % 0x400 + 0xdc00)]

theorem utf16EncodeChar_eq (c : Char) :
    utf16EncodeChar c = if c.val.toNat ≤ 0xffff then [UInt16.ofNat c.val.toNat]
      else [UInt16.ofNat ((c.val.toNat - 0x10000) / 0x400 + 0xd800),
        UInt16.ofNat ((c.val.toNat - 0x10000) % 0x400 + 0xdc00)] := rfl

theorem length_utf16EncodeChar (c : Char) :
    (utf16EncodeChar c).length = if c.val.toNat ≤ 0xffff then 1 else 2 := by
  rw [utf16EncodeChar_eq]
  split
  · rfl
  · rfl

def utf8Encode (text : List Char) : Bytes := text.flatMap String.utf8EncodeChar

def utf16Encode (text : List Char) : List UInt16 := text.flatMap utf16EncodeChar

def WellFormedUtf8 (s : Bytes) : Prop := ∃ text, utf8Encode text = s

def WellFormedUtf16 (w : List UInt16) : Prop := ∃ text, utf16Encode text = w

theorem utf8Encode_cons (c : Char) (text : List Char) :
    utf8Encode (c :: text) = String.utf8EncodeChar c ++ utf8Encode text := rfl

theorem utf16Encode_cons (c : Char) (text : List Char) :
    utf16Encode (c :: text) = utf16EncodeChar c ++ utf16Encode text := rfl

theorem WellFormedUtf8.cons {s : Bytes} (c : Char) (h : WellFormedUtf8 s) :
    WellFormedUtf8 (String.utf8EncodeChar c ++ s) := by
  obtain ⟨text, rfl⟩ := h
  exact ⟨c :: text, rfl⟩

theorem WellFormedUtf16.cons {w : List UInt16} (c : Char) (h : WellFormedUtf16 w) :
    WellFormedUtf16 (utf16EncodeChar c ++ w) := by
  obtain ⟨text, rfl⟩ := h
  exact ⟨c :: text, rfl⟩

/-- Surrogates are the units from `0xd800` to `0xdfff`; they only occur in pairs. -/
def IsSurrogate (unit : UInt16) : Prop := 0xd800 ≤ unit.toNat ∧ unit.toNat ≤ 0xdfff

instance (unit : UInt16) : Decidable (IsSurrogate unit) := inferInstanceAs (Decidable (_ ∧ _))

/-- A scalar value is below `0xd800`, or from `0xe000` to `0x10ffff`. -/
theorem char_range (c : Char) :
    c.val.toNat < 0xd800 ∨ (0xdfff < c.val.toNat ∧ c.val.toNat < 0x110000) := c.valid

/-- The four lengths of UTF-8. -/
theorem utf8EncodeChar_cases (c : Char) :
    let v := c.val.toNat
    (v ≤ 0x7f ∧ String.utf8EncodeChar c = [UInt8.ofNat v]) ∨
    (0x7f < v ∧ v ≤ 0x7ff ∧ String.utf8EncodeChar c =
      [UInt8.ofNat (v / 64 % 0x20 + 0xc0), UInt8.ofNat (v % 0x40 + 0x80)]) ∨
    (0x7ff < v ∧ v ≤ 0xffff ∧ String.utf8EncodeChar c =
      [UInt8.ofNat (v / 4096 % 0x10 + 0xe0), UInt8.ofNat (v / 64 % 0x40 + 0x80),
        UInt8.ofNat (v % 0x40 + 0x80)]) ∨
    (0xffff < v ∧ String.utf8EncodeChar c =
      [UInt8.ofNat (v / 262144 % 0x08 + 0xf0), UInt8.ofNat (v / 4096 % 0x40 + 0x80),
        UInt8.ofNat (v / 64 % 0x40 + 0x80), UInt8.ofNat (v % 0x40 + 0x80)]) := by
  intro v
  unfold String.utf8EncodeChar
  by_cases hone : v ≤ 0x7f
  · exact .inl ⟨hone, if_pos hone⟩
  · by_cases htwo : v ≤ 0x7ff
    · refine .inr (.inl ⟨by omega, htwo, ?_⟩)
      rw [if_neg hone, if_pos htwo]
    · by_cases hthree : v ≤ 0xffff
      · refine .inr (.inr (.inl ⟨by omega, hthree, ?_⟩))
        rw [if_neg hone, if_neg htwo, if_pos hthree]
      · refine .inr (.inr (.inr ⟨by omega, ?_⟩))
        rw [if_neg hone, if_neg htwo, if_neg hthree]

theorem char_of_range {v : UInt32} (h : v.toNat < 0xd800 ∨ (0xdfff < v.toNat ∧ v.toNat < 0x110000)) :
    ∃ c : Char, c.val = v := ⟨⟨v, h⟩, rfl⟩

/-- Every scalar value takes at least one unit, and one from above `U+FFFF` takes two, both
surrogates. -/
theorem utf16EncodeChar_surrogate_iff (c : Char) :
    (utf16EncodeChar c).length = 1 ↔ ∀ unit ∈ utf16EncodeChar c, ¬ IsSurrogate unit := by
  have hrange := char_range c
  rw [utf16EncodeChar_eq]
  by_cases hle : c.val.toNat ≤ 0xffff
  · have hunit : (UInt16.ofNat c.val.toNat).toNat = c.val.toNat :=
      UInt16.toNat_ofNat_of_lt' (Nat.lt_succ_of_le hle)
    rw [if_pos hle]
    refine iff_of_true rfl fun unit hmem => ?_
    rw [List.mem_singleton.mp hmem, IsSurrogate, hunit]
    omega
  · have hlead : (UInt16.ofNat ((c.val.toNat - 0x10000) / 0x400 + 0xd800)).toNat =
        (c.val.toNat - 0x10000) / 0x400 + 0xd800 :=
      UInt16.toNat_ofNat_of_lt' (Nat.lt_of_le_of_lt (show _ ≤ 0xdbff by omega) (by decide))
    rw [if_neg hle]
    refine iff_of_false (by simp) fun hall => hall _ List.mem_cons_self ?_
    rw [IsSurrogate, hlead]
    omega

theorem length_le_utf16Encode (text : List Char) : text.length ≤ (utf16Encode text).length := by
  induction text with
  | nil => exact Nat.le_refl _
  | cons c text ih =>
    rw [utf16Encode_cons, List.length_append, List.length_cons, length_utf16EncodeChar]
    split
    · omega
    · omega

/-- One unit for each scalar value is a text without surrogates. -/
theorem length_utf16Encode_eq_iff (text : List Char) :
    (utf16Encode text).length = text.length ↔ ∀ unit ∈ utf16Encode text, ¬ IsSurrogate unit := by
  induction text with
  | nil => simp [utf16Encode]
  | cons c text ih =>
    have hle := length_le_utf16Encode text
    have hone := utf16EncodeChar_surrogate_iff c
    have hunits := length_utf16EncodeChar c
    rw [utf16Encode_cons, List.length_append, List.length_cons, List.forall_mem_append, ← ih, ← hone]
    split at hunits
    · omega
    · omega

/-- UTF-8 takes at most four bytes for a unit of UTF-16. -/
theorem length_utf8Encode_le (text : List Char) :
    (utf8Encode text).length ≤ 4 * (utf16Encode text).length := by
  induction text with
  | nil => exact Nat.le_refl _
  | cons c text ih =>
    have hsize := Char.utf8Size_le_four c
    have hunits := length_utf16EncodeChar c
    rw [utf8Encode_cons, utf16Encode_cons, List.length_append, List.length_append,
      String.length_utf8EncodeChar]
    split at hunits
    · omega
    · omega

end ServerTest.Lib
