import Mathlib.Algebra.Group.Nat.Defs
import Mathlib.Logic.Function.Iterate

/-!
# Linear feedback shift registers

A register of any width that is clocked by shifting it right, with the feedback `poly` added when a
one falls out. Clocking is linear over exclusive or, and a register whose low bits are clear is only
shifted; so `n` clocks of a register are `n` clocks of its low `n` bits, with the rest of it shifted
on top (`clocks_eq_low_xor_shift`). That is what a lookup table of `2 ^ n` entries is built on.
-/

set_option autoImplicit false

namespace ServerTest.Lib.ShiftRegister

variable {w : Nat}

/-- One clock of the register. -/
def clock (poly x : BitVec w) : BitVec w :=
  (x >>> 1) ^^^ (if x.getLsbD 0 then poly else 0)

/-- The lowest `n` bits. -/
def lowMask (w n : Nat) : BitVec w := BitVec.ofNat w (2 ^ n - 1)

theorem getLsbD_lowMask (n i : Nat) : (lowMask w n).getLsbD i = (decide (i < w) && decide (i < n)) := by
  rw [lowMask, BitVec.getLsbD_ofNat, Nat.testBit_two_pow_sub_one]

theorem clock_xor (poly x y : BitVec w) : clock poly (x ^^^ y) = clock poly x ^^^ clock poly y := by
  have hfeedback : (if (x ^^^ y).getLsbD 0 then poly else 0) =
      (if x.getLsbD 0 then poly else 0) ^^^ (if y.getLsbD 0 then poly else 0) := by
    rw [BitVec.getLsbD_xor]
    cases x.getLsbD 0 <;> cases y.getLsbD 0 <;> simp
  rw [clock, clock, clock, hfeedback, BitVec.ushiftRight_xor_distrib]
  ac_rfl

theorem clocks_xor (poly : BitVec w) (n : Nat) (x y : BitVec w) :
    (clock poly)^[n] (x ^^^ y) = (clock poly)^[n] x ^^^ (clock poly)^[n] y := by
  induction n generalizing x y with
  | zero => rfl
  | succ n ih =>
    rw [Function.iterate_succ_apply, Function.iterate_succ_apply, Function.iterate_succ_apply,
      clock_xor, ih]

/-- As long as zeros fall out, clocking is shifting. -/
theorem clocks_of_low_clear (poly x : BitVec w) (n : Nat) (h : ∀ i < n, x.getLsbD i = false) :
    (clock poly)^[n] x = x >>> n := by
  induction n with
  | zero => simp
  | succ n ih =>
    have hout : (x >>> n).getLsbD 0 = false := by
      rw [BitVec.getLsbD_ushiftRight, Nat.add_zero]
      exact h n (Nat.lt_succ_self n)
    rw [Function.iterate_succ_apply', ih fun i hi => h i (Nat.lt_succ_of_lt hi), clock, hout,
      BitVec.shiftRight_add]
    simp

/-- The low bits and the others. -/
theorem low_xor_high (n : Nat) (x : BitVec w) :
    (x &&& lowMask w n) ^^^ (x &&& ~~~lowMask w n) = x := by
  apply BitVec.eq_of_getLsbD_eq
  intro i hi
  simp only [BitVec.getLsbD_xor, BitVec.getLsbD_and, BitVec.getLsbD_not]
  cases x.getLsbD i <;> cases (lowMask w n).getLsbD i <;> simp [hi]

theorem getLsbD_high (n : Nat) (x : BitVec w) {i : Nat} (hi : i < n) :
    (x &&& ~~~lowMask w n).getLsbD i = false := by
  by_cases hw : i < w
  · simp [getLsbD_lowMask, hw, hi]
  · simp [hw]

theorem ushiftRight_high (n : Nat) (x : BitVec w) : (x &&& ~~~lowMask w n) >>> n = x >>> n := by
  apply BitVec.eq_of_getLsbD_eq
  intro i _
  simp only [BitVec.getLsbD_ushiftRight, BitVec.getLsbD_and, BitVec.getLsbD_not, getLsbD_lowMask]
  by_cases hw : n + i < w
  · simp [hw]
  · rw [BitVec.getLsbD_of_ge x (n + i) (Nat.not_lt.mp hw), Bool.false_and]

/-- **`n` clocks at once**: those of the low `n` bits, and the rest shifted. -/
theorem clocks_eq_low_xor_shift (poly : BitVec w) (n : Nat) (x : BitVec w) :
    (clock poly)^[n] x = (clock poly)^[n] (x &&& lowMask w n) ^^^ (x >>> n) := by
  calc (clock poly)^[n] x
      = (clock poly)^[n] ((x &&& lowMask w n) ^^^ (x &&& ~~~lowMask w n)) := by
        rw [low_xor_high]
    _ = (clock poly)^[n] (x &&& lowMask w n) ^^^ (clock poly)^[n] (x &&& ~~~lowMask w n) :=
        clocks_xor poly n _ _
    _ = (clock poly)^[n] (x &&& lowMask w n) ^^^ (x >>> n) := by
        rw [clocks_of_low_clear poly _ n fun i hi => getLsbD_high n x hi, ushiftRight_high]

/-! ## A register that is fed

A message goes in one bit at a time. The bits of a message no longer than the register can as well be
put in at once, before the first clock; and if the feedback reaches the top bit, the register can be
clocked backwards. So messages that differ within one register length are told apart for ever. -/

/-- The bit at the input of the register. -/
def bit (w : Nat) (b : Bool) : BitVec w := if b then 1#w else 0#w

/-- One bit of a message, and a clock. -/
def feed (poly x : BitVec w) (b : Bool) : BitVec w := clock poly (x ^^^ bit w b)

/-- A message as one word, the first bit lowest. -/
def word (w : Nat) : List Bool → BitVec w
  | [] => 0#w
  | b :: message => bit w b ^^^ (word w message <<< 1)

theorem getLsbD_bit (b : Bool) (i : Nat) :
    (bit w b).getLsbD i = (decide (i < w) && decide (i = 0) && b) := by
  cases b
  · simp [bit]
  · by_cases hi : i = 0
    · simp [bit, hi, BitVec.getLsbD_one]
    · simp [bit, hi, BitVec.getLsbD_one]

theorem getLsbD_word (message : List Bool) (i : Nat) :
    (word w message).getLsbD i = (decide (i < w) && message[i]?.getD false) := by
  induction message generalizing i with
  | nil => simp [word]
  | cons b message ih =>
    rw [word, BitVec.getLsbD_xor, getLsbD_bit, BitVec.getLsbD_shiftLeft, ih]
    cases i with
    | zero => simp
    | succ i =>
      by_cases hi : i + 1 < w
      · simp [hi, Nat.lt_of_succ_lt hi]
      · simp [hi]

/-- The word says which message it was. -/
theorem word_inj {m m' : List Bool} (hlen : m.length = m'.length) (hfits : m.length ≤ w)
    (h : word w m = word w m') : m = m' := by
  apply List.ext_getElem hlen
  intro i hi hi'
  have hbit := congrArg (BitVec.getLsbD · i) h
  simp only [getLsbD_word, Nat.lt_of_lt_of_le hi hfits, decide_true, Bool.true_and] at hbit
  rwa [List.getElem?_eq_getElem hi, List.getElem?_eq_getElem hi'] at hbit

/-- A word that leaves the top bit free can be made room in. -/
theorem clock_word_shiftLeft (poly : BitVec w) (message : List Bool) (h : message.length < w) :
    clock poly (word w message <<< 1) = word w message := by
  have hout : (word w message <<< 1).getLsbD 0 = false := by simp
  rw [clock, hout]
  apply BitVec.eq_of_getLsbD_eq
  intro i hi
  by_cases htop : 1 + i < w
  · simp [htop, hi]
  · have hclear : message[i]? = none := List.getElem?_eq_none (by omega)
    rw [getLsbD_word, hclear]
    simp [htop]

/-- **A short message at once.** -/
theorem foldl_feed (poly x : BitVec w) (message : List Bool) (hfits : message.length ≤ w) :
    message.foldl (feed poly) x = (clock poly)^[message.length] (x ^^^ word w message) := by
  induction message generalizing x with
  | nil => simp [word]
  | cons b message ih =>
    have hroom : message.length < w := hfits
    calc (b :: message).foldl (feed poly) x
        = (clock poly)^[message.length] (feed poly x b ^^^ word w message) :=
          ih (feed poly x b) (Nat.le_of_lt hroom)
      _ = (clock poly)^[message.length]
            (clock poly ((x ^^^ bit w b) ^^^ (word w message <<< 1))) := by
          rw [clock_xor, clock_word_shiftLeft poly message hroom, feed]
      _ = (clock poly)^[(b :: message).length] (x ^^^ word w (b :: message)) := by
          rw [List.length_cons, Function.iterate_succ_apply, word, BitVec.xor_assoc]

/-- A register whose feedback reaches the top bit does not go dead. -/
theorem eq_zero_of_clock_eq_zero {poly x : BitVec w} (hpoly : poly.getLsbD (w - 1) = true)
    (h : clock poly x = 0#w) : x = 0#w := by
  -- The top bit of the shifted word is clear, so what is there is what fell out.
  have htop := congrArg (BitVec.getLsbD · (w - 1)) h
  have hw : w - 1 < w := BitVec.lt_of_getLsbD hpoly
  have hzero : x.getLsbD 0 = false := by
    cases hx : x.getLsbD 0 with
    | false => rfl
    | true =>
      have hbeyond : x.getLsbD (1 + (w - 1)) = false := BitVec.getLsbD_of_ge _ _ (by omega)
      simp [clock, hx, hpoly, hbeyond] at htop
  have hshift : x >>> 1 = 0#w := by simpa [clock, hzero] using h
  apply BitVec.eq_of_getLsbD_eq
  intro i hi
  cases i with
  | zero => simp [hzero]
  | succ i =>
    have hbit := congrArg (BitVec.getLsbD · i) hshift
    simpa [Nat.add_comm] using hbit

theorem clock_injective {poly : BitVec w} (hpoly : poly.getLsbD (w - 1) = true) :
    Function.Injective (clock poly) := by
  intro x y h
  have hzero : clock poly (x ^^^ y) = 0#w := by rw [clock_xor, h, BitVec.xor_self]
  exact BitVec.xor_eq_zero_iff.mp (eq_zero_of_clock_eq_zero hpoly hzero)

/-- What comes after does not make two registers the same. -/
theorem foldl_feed_injective {poly : BitVec w} (hpoly : poly.getLsbD (w - 1) = true)
    (message : List Bool) : Function.Injective (message.foldl (feed poly)) := by
  induction message with
  | nil => exact Function.injective_id
  | cons b message ih =>
    intro x y h
    have hfirst : feed poly x b = feed poly y b := ih h
    exact BitVec.xor_left_inj _ |>.mp (clock_injective hpoly hfirst)

/-- **Bursts are seen**: two messages that differ, and only within one register length. -/
theorem foldl_feed_ne_of_burst {poly : BitVec w} (hpoly : poly.getLsbD (w - 1) = true)
    (x : BitVec w) (before after : List Bool) {m m' : List Bool} (hlen : m.length = m'.length)
    (hfits : m.length ≤ w) (hne : m ≠ m') :
    (before ++ m ++ after).foldl (feed poly) x ≠ (before ++ m' ++ after).foldl (feed poly) x := by
  intro h
  simp only [List.foldl_append] at h
  have hmiddle := foldl_feed_injective hpoly after h
  rw [foldl_feed _ _ m hfits, foldl_feed _ _ m' (hlen ▸ hfits), ← hlen] at hmiddle
  have hwords := (clock_injective hpoly).iterate _ hmiddle
  exact hne (word_inj hlen hfits (BitVec.xor_right_inj _ |>.mp hwords))

end ServerTest.Lib.ShiftRegister
