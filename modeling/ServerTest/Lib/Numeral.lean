import Mathlib.Algebra.Order.Ring.Nat
import Mathlib.Data.List.Basic

/-!
# Numerals in different bases

The number a list of digits stands for, and what happens when digits meant for one base are read in
a smaller one: the reader stops at the first digit it does not have, and what it got by then is
smaller than what was meant. The two agree only on a number that is a single digit of the smaller
base, however many zeros stand before it.
-/

set_option autoImplicit false

namespace ServerTest.Lib

/-- The digits from the most significant on, continuing a number already read. -/
def continueNumeral (base : Nat) (start : Nat) (digits : List Nat) : Nat :=
  digits.foldl (fun n d => n * base + d) start

def numeral (base : Nat) (digits : List Nat) : Nat := continueNumeral base 0 digits

@[simp]
theorem continueNumeral_nil (base start : Nat) : continueNumeral base start [] = start := rfl

@[simp]
theorem continueNumeral_cons (base start d : Nat) (digits : List Nat) :
    continueNumeral base start (d :: digits) = continueNumeral base (start * base + d) digits := rfl

section Bases

variable {small large : Nat}

/-- Reading on makes a number no smaller. -/
theorem le_continueNumeral (hlarge : 0 < large) (start : Nat) (digits : List Nat) :
    start ≤ continueNumeral large start digits := by
  induction digits generalizing start with
  | nil => exact Nat.le_refl start
  | cons d digits ih =>
    calc start ≤ start * large := Nat.le_mul_of_pos_right start hlarge
      _ ≤ start * large + d := Nat.le_add_right _ _
      _ ≤ continueNumeral large (start * large + d) digits := ih _

/-- Once the reader in the smaller base is behind it stays behind. -/
theorem continueNumeral_takeWhile_lt (hlarge : 0 < large) (hle : small ≤ large) {a b : Nat}
    (hab : a < b) (digits : List Nat) :
    continueNumeral small a (digits.takeWhile (· < small)) < continueNumeral large b digits := by
  induction digits generalizing a b with
  | nil => exact hab
  | cons d digits ih =>
    by_cases hd : d < small
    · rw [List.takeWhile_cons_of_pos (by simpa using hd), continueNumeral_cons, continueNumeral_cons]
      apply ih
      calc a * small + d ≤ a * large + d := Nat.add_le_add_right (Nat.mul_le_mul_left a hle) d
        _ < b * large + d := Nat.add_lt_add_right (Nat.mul_lt_mul_of_pos_right hab hlarge) d
    · rw [List.takeWhile_cons_of_neg (by simpa using hd), continueNumeral_nil]
      exact Nat.lt_of_lt_of_le hab (le_continueNumeral hlarge b _)

/-- A second digit after one that counts: the reader in the smaller base falls behind, and the
number is no digit any more. -/
theorem continueNumeral_takeWhile_lt_of_pos (hsmall : 0 < small) (hlt : small < large) {a d : Nat}
    (ha : 0 < a) (digits : List Nat) :
    continueNumeral small a ((d :: digits).takeWhile (· < small)) <
        continueNumeral large a (d :: digits) ∧
      small ≤ continueNumeral large a (d :: digits) := by
  have hgrow : a * small < a * large := Nat.mul_lt_mul_of_pos_left hlt ha
  have hread := le_continueNumeral (by omega : 0 < large) (a * large + d) digits
  rw [continueNumeral_cons]
  constructor
  · by_cases hd : d < small
    · rw [List.takeWhile_cons_of_pos (by simpa using hd), continueNumeral_cons]
      exact continueNumeral_takeWhile_lt (by omega) hlt.le (by omega) digits
    · rw [List.takeWhile_cons_of_neg (by simpa using hd), continueNumeral_nil]
      have hone : a ≤ a * small := Nat.le_mul_of_pos_right a hsmall
      omega
  · have hone : small ≤ a * small := Nat.le_mul_of_pos_left small ha
    omega

/-- **The smaller base agrees exactly on its own digits**, and falls behind on everything else. -/
theorem numeral_takeWhile_cases (hsmall : 0 < small) (hlt : small < large) (digits : List Nat) :
    (numeral small (digits.takeWhile (· < small)) = numeral large digits ∧
        numeral large digits < small) ∨
      (numeral small (digits.takeWhile (· < small)) < numeral large digits ∧
        small ≤ numeral large digits) := by
  unfold numeral
  induction digits with
  | nil => exact Or.inl ⟨rfl, hsmall⟩
  | cons d digits ih =>
    have hread := le_continueNumeral (by omega : 0 < large) d digits
    rw [continueNumeral_cons, Nat.zero_mul, Nat.zero_add]
    by_cases hd : d < small
    · rw [List.takeWhile_cons_of_pos (by simpa using hd), continueNumeral_cons, Nat.zero_mul,
        Nat.zero_add]
      rcases Nat.eq_zero_or_pos d with rfl | hpos
      · exact ih
      · cases digits with
        | nil => exact Or.inl ⟨rfl, hd⟩
        | cons e digits =>
          exact Or.inr (continueNumeral_takeWhile_lt_of_pos hsmall hlt hpos digits)
    · rw [List.takeWhile_cons_of_neg (by simpa using hd), continueNumeral_nil]
      exact Or.inr (by omega)

end Bases

end ServerTest.Lib
