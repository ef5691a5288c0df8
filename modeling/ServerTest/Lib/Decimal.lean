import Mathlib.Data.List.Basic
import Mathlib.Data.List.TakeWhile
import ServerTest.Lib.Cpp

/-!
# Decimal numbers in text

`sprintf` with a `%d` directive and `atoi`, and that the second reads back what the first wrote. The
digits themselves are `Nat.toDigits` of the standard library; what is added is the C side of it:
bytes instead of characters, padding, signs, and the garbage `atoi` tolerates.

`atoi` is undefined on a number that does not fit an `int`. Every caller here passes at most four
characters, so no range appears.
-/

set_option autoImplicit false

namespace ServerTest.Lib

def isdigit (c : UInt8) : Bool := 48 ≤ c && c ≤ 57

def decimal (n : Nat) : Bytes := (Nat.toDigits 10 n).map chr

/-- What `%wd` writes: the number, right-justified in a field of `w` characters. -/
def formatD (w : Nat) (value : Int) : Bytes :=
  let text := if value < 0 then chr '-' :: decimal value.natAbs else decimal value.natAbs
  List.replicate (w - text.length) (chr ' ') ++ text

/-- The number the digits at the front of `s` spell. -/
def digitsValue (s : Bytes) : Nat :=
  (s.takeWhile isdigit).foldl (fun n c => 10 * n + (c.toNat - 48)) 0

/-- `atoi`: blanks, a sign, digits, and whatever follows them. -/
def atoi (s : Bytes) : Int :=
  match (cStr s).dropWhile isspace with
  | [] => 0
  | c :: rest =>
    if c = chr '-' then -(digitsValue rest : Int)
    else if c = chr '+' then digitsValue rest
    else digitsValue (c :: rest)

/-! ## What `%d` writes -/

theorem toNat_chr_of_isDigit {c : Char} (h : c.isDigit) :
    (chr c).toNat = c.toNat ∧ 48 ≤ c.toNat ∧ c.toNat ≤ 57 := by
  have hrange : 48 ≤ c.toNat ∧ c.toNat ≤ 57 := by
    simp only [Char.isDigit, Bool.and_eq_true, decide_eq_true_eq] at h
    exact ⟨UInt32.le_iff_toNat_le.mp h.1, UInt32.le_iff_toNat_le.mp h.2⟩
  refine ⟨?_, hrange⟩
  rw [chr, Nat.toUInt8_eq, UInt8.toNat_ofNat']
  exact Nat.mod_eq_of_lt (by omega)

theorem isdigit_of_mem_decimal {n : Nat} {b : UInt8} (h : b ∈ decimal n) : isdigit b = true := by
  obtain ⟨c, hc, rfl⟩ := List.mem_map.mp h
  have hdigit : c.isDigit := Nat.isDigit_of_mem_toDigits (by decide) (by decide) hc
  obtain ⟨hval, hlow, hhigh⟩ := toNat_chr_of_isDigit hdigit
  simp only [isdigit, Bool.and_eq_true, decide_eq_true_eq, UInt8.le_iff_toNat_le, hval]
  exact ⟨hlow, hhigh⟩

theorem decimal_ne_nil (n : Nat) : decimal n ≠ [] := by
  simp [decimal]

theorem length_decimal_le {n k : Nat} (hk : 0 < k) (h : n < 10 ^ k) : (decimal n).length ≤ k := by
  rw [decimal, List.length_map]
  exact (Nat.length_toDigits_le_iff (by decide) hk).mpr h

/-- A number that fits its field fills it exactly. -/
theorem length_formatD {w n : Nat} (hw : 0 < w) (h : n < 10 ^ w) : (formatD w n).length = w := by
  have hle := length_decimal_le hw h
  simp only [formatD, Int.natAbs_natCast]
  rw [if_neg (by omega), List.length_append, List.length_replicate]
  omega

/-! ## Reading it back -/

theorem digitsValue_decimal (n : Nat) : digitsValue (decimal n) = n := by
  have hall : (decimal n).takeWhile isdigit = decimal n :=
    List.takeWhile_eq_self_iff.mpr fun b hb => isdigit_of_mem_decimal hb
  rw [digitsValue, hall, decimal, List.foldl_map]
  have hsame : (Nat.toDigits 10 n).foldl (fun k c => 10 * k + ((chr c).toNat - 48)) 0 =
      Nat.ofDigitChars 10 (Nat.toDigits 10 n) 0 := by
    rw [Nat.ofDigitChars_eq_foldl]
    apply List.foldl_ext
    intro k c hc
    have hdigit : c.isDigit := Nat.isDigit_of_mem_toDigits (by decide) (by decide) hc
    rw [(toNat_chr_of_isDigit hdigit).1]
    rfl
  rw [hsame, Nat.ofDigitChars_ten_toDigits]

/-- A digit is no blank, no sign and no terminator. -/
theorem isdigit_excludes {b : UInt8} (h : isdigit b = true) :
    isspace b = false ∧ b ≠ chr '-' ∧ b ≠ chr '+' ∧ b ≠ 0 := by
  refine ⟨?_, ?_, ?_, ?_⟩
  · simp only [isdigit, isspace, Bool.and_eq_true, Bool.or_eq_false_iff, Bool.and_eq_false_iff,
      decide_eq_true_eq, decide_eq_false_iff_not, UInt8.le_iff_toNat_le, ← UInt8.toNat_inj] at h ⊢
    have hlow : 48 ≤ b.toNat := h.1
    exact ⟨fun heq => absurd heq (Nat.ne_of_gt (Nat.lt_of_lt_of_le (by decide) hlow)),
      Or.inr (Nat.not_le.mpr (Nat.lt_of_lt_of_le (by decide) hlow))⟩
  · intro heq
    subst heq
    exact absurd h (by decide)
  · intro heq
    subst heq
    exact absurd h (by decide)
  · intro heq
    subst heq
    exact absurd h (by decide)

theorem cStr_of_ne_zero {s : Bytes} (h : ∀ b ∈ s, b ≠ 0) : cStr s = s :=
  List.takeWhile_eq_self_iff.mpr fun b hb => by simpa using h b hb

/-- What `%wd` writes of a number that is not negative has no terminator in it. -/
theorem ne_zero_of_mem_formatD {w n : Nat} {b : UInt8} (h : b ∈ formatD w n) : b ≠ 0 := by
  simp only [formatD, Int.natAbs_natCast] at h
  rw [if_neg (by omega)] at h
  rcases List.mem_append.mp h with h | h
  · rw [List.eq_of_mem_replicate h]
    decide
  · exact (isdigit_excludes (isdigit_of_mem_decimal h)).2.2.2

/-- **`atoi` reads back what `%wd` wrote.** -/
theorem atoi_formatD (w n : Nat) : atoi (formatD w n) = n := by
  have hclean : cStr (formatD w n) = formatD w n :=
    cStr_of_ne_zero fun b hb => ne_zero_of_mem_formatD hb
  have hvalue := digitsValue_decimal n
  obtain ⟨b, rest, hdec⟩ := List.exists_cons_of_ne_nil (decimal_ne_nil n)
  have hb : isdigit b = true := isdigit_of_mem_decimal (n := n) (by simp [hdec])
  obtain ⟨hblank, hminus, hplus, -⟩ := isdigit_excludes hb
  have hskip : (formatD w n).dropWhile isspace = b :: rest := by
    simp only [formatD, Int.natAbs_natCast]
    rw [if_neg (by omega), List.dropWhile_append_of_pos, hdec, List.dropWhile_cons_of_neg (by simp [hblank])]
    intro c hc
    rw [List.eq_of_mem_replicate hc]
    decide
  rw [atoi, hclean, hskip]
  simp only [hminus, hplus, if_false]
  rw [← hdec, hvalue]

end ServerTest.Lib
