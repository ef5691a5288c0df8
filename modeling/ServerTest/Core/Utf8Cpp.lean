import ServerTest.Lib.Unicode

/-!
# utf8cpp

The part of `3rdParty/utf8cpp` that `StringUtils.cpp` uses: `core.h` and the checked functions of
`checked.h`. An input iterator is what is left of the input, an output iterator a position in an
allocation. An error of the library is a C++ exception and can be caught; a write outside the
allocation is not one and cannot.
-/

set_option autoImplicit false

namespace ServerTest.Core.Utf8

open Lib

/-! ## `core.h` -/

/-- `utf_error`, without `UTF8_OK`. -/
inductive UtfError where
  | notEnoughRoom
  | invalidLead
  | incompleteSequence
  | overlongSequence
  | invalidCodePoint
  deriving DecidableEq, Repr

def leadSurrogateMin : UInt32 := 0xd800
def leadSurrogateMax : UInt32 := 0xdbff
def trailSurrogateMin : UInt32 := 0xdc00
def trailSurrogateMax : UInt32 := 0xdfff
def leadOffset : UInt32 := leadSurrogateMin - ((0x10000 : UInt32) >>> 10)
def surrogateOffset : UInt32 :=
  (0x10000 : UInt32) - (leadSurrogateMin <<< (10 : UInt32)) - trailSurrogateMin
def codePointMax : UInt32 := 0x0010ffff

def isTrail (oc : UInt8) : Bool := oc >>> 6 = 0x2

def isLeadSurrogate (cp : UInt32) : Bool := leadSurrogateMin ≤ cp && cp ≤ leadSurrogateMax

def isTrailSurrogate (cp : UInt32) : Bool := trailSurrogateMin ≤ cp && cp ≤ trailSurrogateMax

def isSurrogate (cp : UInt32) : Bool := leadSurrogateMin ≤ cp && cp ≤ trailSurrogateMax

def isCodePointValid (cp : UInt32) : Bool := cp ≤ codePointMax && !isSurrogate cp

def sequenceLength (lead : UInt8) : Nat :=
  if lead < 0x80 then 1
  else if lead >>> 5 = 0x6 then 2
  else if lead >>> 4 = 0xe then 3
  else if lead >>> 3 = 0x1e then 4
  else 0

def isOverlongSequence (cp : UInt32) (length : Nat) : Bool :=
  if cp < 0x80 then length ≠ 1
  else if cp < 0x800 then length ≠ 2
  else if cp < 0x10000 then length ≠ 3
  else false

/-- The octet the iterator moves to, and what follows it. The argument is what follows the octet it
stands on. -/
def increaseSafely : Bytes → Except UtfError (UInt8 × Bytes)
  | [] => .error .notEnoughRoom
  | octet :: rest => if isTrail octet then .ok (octet, rest) else .error .incompleteSequence

/-- The `get_sequence_x` functions, each with the lead octet and what follows it: the code point, and
what follows the sequence. -/
def getSequence1 (lead : UInt8) (rest : Bytes) : Except UtfError (UInt32 × Bytes) :=
  .ok (lead.toUInt32, rest)

def getSequence2 (lead : UInt8) (rest : Bytes) : Except UtfError (UInt32 × Bytes) := do
  let (second, rest) ← increaseSafely rest
  return ((lead.toUInt32 <<< 6 &&& 0x7ff) + (second.toUInt32 &&& 0x3f), rest)

def getSequence3 (lead : UInt8) (rest : Bytes) : Except UtfError (UInt32 × Bytes) := do
  let (second, rest) ← increaseSafely rest
  let codePoint := (lead.toUInt32 <<< 12 &&& (0xffff : UInt32)) + (second.toUInt32 <<< 6 &&& 0xfff)
  let (third, rest) ← increaseSafely rest
  return (codePoint + (third.toUInt32 &&& 0x3f), rest)

def getSequence4 (lead : UInt8) (rest : Bytes) : Except UtfError (UInt32 × Bytes) := do
  let (second, rest) ← increaseSafely rest
  let codePoint := (lead.toUInt32 <<< 18 &&& (0x1fffff : UInt32)) + (second.toUInt32 <<< 12 &&& 0x3ffff)
  let (third, rest) ← increaseSafely rest
  let codePoint := codePoint + (third.toUInt32 <<< 6 &&& 0xfff)
  let (fourth, rest) ← increaseSafely rest
  return (codePoint + (fourth.toUInt32 &&& 0x3f), rest)

/-- The `switch` of `validate_next`. -/
def getSequence (length : Nat) (lead : UInt8) (rest : Bytes) : Except UtfError (UInt32 × Bytes) :=
  match length with
  | 1 => getSequence1 lead rest
  | 2 => getSequence2 lead rest
  | 3 => getSequence3 lead rest
  | 4 => getSequence4 lead rest
  | _ => .error .invalidLead

/-- `validate_next`, on a lead octet and what follows it. A failure leaves the iterator where it
was. -/
def validateNext (lead : UInt8) (rest : Bytes) : Except UtfError (UInt32 × Bytes) := do
  let length := sequenceLength lead
  let (cp, rest) ← getSequence length lead rest
  if isCodePointValid cp then
    if !isOverlongSequence cp length then return (cp, rest)
    else .error .overlongSequence
  else .error .invalidCodePoint

/-! ## `checked.h` -/

/-- The exceptions of the library, with what each carries. -/
inductive Utf8Exception where
  | invalidCodePoint (cp : UInt32)
  | invalidUtf8 (u8 : UInt8)
  | invalidUtf16 (u16 : UInt16)
  | notEnoughRoom
  deriving DecidableEq, Repr

/-- How a call can end other than by returning. -/
inductive Stop where
  | exception (e : Utf8Exception)
  | fault (fault : Fault)
  deriving DecidableEq, Repr

/-- `next`. Where the code point is invalid the exception carries `cp`, and `validate_next` has not
set it. -/
def next (lead : UInt8) (rest : Bytes) : Except Stop (UInt32 × Bytes) :=
  match validateNext lead rest with
  | .ok result => .ok result
  | .error .notEnoughRoom => .error (.exception .notEnoughRoom)
  | .error .invalidCodePoint => .error (.exception (.invalidCodePoint 0))
  | .error _ => .error (.exception (.invalidUtf8 lead))

/-- An output iterator: an allocation and the position of the next write. -/
structure Output (α : Type) where
  allocation : List α
  position : Nat
  deriving DecidableEq, Repr

/-- `*result++ = x`, `static_cast`s aside. -/
def Output.put {α : Type} (result : Output α) (x : α) : Except Stop (Output α) :=
  if result.position < result.allocation.length then
    .ok ⟨result.allocation.set result.position x, result.position + 1⟩
  else .error (.fault .outOfBounds)

def Output.putAll {α : Type} (result : Output α) (xs : List α) : Except Stop (Output α) :=
  xs.foldlM Output.put result

def append (cp : UInt32) (result : Output UInt8) : Except Stop (Output UInt8) :=
  if !isCodePointValid cp then .error (.exception (.invalidCodePoint cp))
  else if cp < 0x80 then result.putAll [cp.toUInt8]
  else if cp < 0x800 then
    result.putAll [(cp >>> 6 ||| 0xc0).toUInt8, ((cp &&& 0x3f) ||| 0x80).toUInt8]
  else if cp < 0x10000 then
    result.putAll [(cp >>> 12 ||| 0xe0).toUInt8, ((cp >>> 6 &&& 0x3f) ||| 0x80).toUInt8,
      ((cp &&& 0x3f) ||| 0x80).toUInt8]
  else
    result.putAll [(cp >>> 18 ||| 0xf0).toUInt8, ((cp >>> 12 &&& 0x3f) ||| 0x80).toUInt8,
      ((cp >>> 6 &&& 0x3f) ||| 0x80).toUInt8, ((cp &&& 0x3f) ||| 0x80).toUInt8]

/-! ## The bits of an octet -/

theorem shiftRight_eq_iff {b shift v : UInt8} (h : shift.toNat < 8) :
    b >>> shift = v ↔ b.toNat / 2 ^ shift.toNat = v.toNat := by
  rw [← UInt8.toNat_inj, UInt8.toNat_shiftRight, Nat.mod_eq_of_lt h, Nat.shiftRight_eq_div_pow]

theorem isTrail_iff (b : UInt8) : isTrail b = true ↔ b.toNat / 64 = 2 := by
  rw [isTrail, decide_eq_true_eq]
  exact shiftRight_eq_iff (by decide)

/-- The bits an octet carries, shifted to their place: `m` of them, above `shift` others. -/
theorem toNat_shifted (octet : UInt8) (m : Nat) {shift mask : UInt32} (hshift : shift.toNat ≤ 18)
    (hmask : mask.toNat = 2 ^ (m + shift.toNat) - 1) :
    (octet.toUInt32 <<< shift &&& mask).toNat = octet.toNat % 2 ^ m * 2 ^ shift.toNat := by
  have hlt : octet.toNat * 2 ^ shift.toNat < 2 ^ 32 := by
    calc octet.toNat * 2 ^ shift.toNat < 2 ^ 8 * 2 ^ shift.toNat :=
          Nat.mul_lt_mul_of_pos_right octet.toNat_lt (Nat.two_pow_pos _)
      _ ≤ 2 ^ 8 * 2 ^ 18 := Nat.mul_le_mul_left _ (Nat.pow_le_pow_right (by decide) hshift)
      _ ≤ 2 ^ 32 := by decide
  rw [UInt32.toNat_and, hmask, Nat.and_two_pow_sub_one_eq_mod, UInt32.toNat_shiftLeft,
    UInt8.toNat_toUInt32, Nat.mod_eq_of_lt (show shift.toNat < 32 by omega), Nat.shiftLeft_eq,
    Nat.mod_eq_of_lt hlt, Nat.pow_add, Nat.mul_mod_mul_right]

/-- The last six bits. -/
theorem toNat_lowSix (octet : UInt8) : (octet.toUInt32 &&& 0x3f).toNat = octet.toNat % 64 := by
  rw [UInt32.toNat_and, UInt8.toNat_toUInt32]
  exact Nat.and_two_pow_sub_one_eq_mod octet.toNat 6

theorem isCodePointValid_iff (cp : UInt32) :
    isCodePointValid cp = true ↔ cp.toNat < 0xd800 ∨ (0xdfff < cp.toNat ∧ cp.toNat < 0x110000) := by
  simp only [isCodePointValid, isSurrogate, codePointMax, leadSurrogateMin, trailSurrogateMax,
    Bool.and_eq_true, decide_eq_true_eq, Bool.not_eq_true', Bool.and_eq_false_iff,
    decide_eq_false_iff_not, UInt32.le_iff_toNat_le, UInt32.reduceToNat]
  omega

theorem isOverlongSequence_iff (cp : UInt32) (length : Nat) :
    isOverlongSequence cp length = false ↔
      (cp.toNat < 0x80 → length = 1) ∧ (0x80 ≤ cp.toNat → cp.toNat < 0x800 → length = 2) ∧
        (0x800 ≤ cp.toNat → cp.toNat < 0x10000 → length = 3) := by
  simp only [isOverlongSequence, UInt32.lt_iff_toNat_lt, UInt32.reduceToNat]
  split
  · simp only [ne_eq, decide_not, Bool.not_eq_false', decide_eq_true_eq]
    omega
  · split
    · simp only [ne_eq, decide_not, Bool.not_eq_false', decide_eq_true_eq]
      omega
    · split
      · simp only [ne_eq, decide_not, Bool.not_eq_false', decide_eq_true_eq]
        omega
      · simp only [true_iff]
        omega

/-! ## A sequence is the encoding of a scalar value -/

theorem increaseSafely_eq_ok {tail rest : Bytes} {octet : UInt8} :
    increaseSafely tail = .ok (octet, rest) ↔ tail = octet :: rest ∧ isTrail octet = true := by
  cases tail with
  | nil => simp [increaseSafely]
  | cons b tail =>
    rw [increaseSafely]
    split
    · rename_i hb
      constructor
      · intro h
        cases h
        exact ⟨rfl, hb⟩
      · rintro ⟨h, -⟩
        cases h
        rfl
    · rename_i hb
      constructor
      · intro h
        cases h
      · rintro ⟨h, hb'⟩
        cases h
        exact absurd hb' hb

theorem validateNext_eq_ok {lead : UInt8} {tail rest : Bytes} {cp : UInt32} :
    validateNext lead tail = .ok (cp, rest) ↔
      getSequence (sequenceLength lead) lead tail = .ok (cp, rest) ∧ isCodePointValid cp = true ∧
        isOverlongSequence cp (sequenceLength lead) = false := by
  unfold validateNext
  rw [bind_returns]
  constructor
  · rintro ⟨⟨cp', rest'⟩, hget, h⟩
    dsimp only at h
    split at h
    · rename_i hvalid
      split at h
      · rename_i hover
        cases h
        exact ⟨hget, hvalid, by simpa using hover⟩
      · cases h
    · cases h
  · rintro ⟨hget, hvalid, hover⟩
    refine ⟨_, hget, ?_⟩
    simp [hvalid, hover]
    rfl

theorem getSequence1_eq_ok {lead : UInt8} {tail rest : Bytes} {cp : UInt32} :
    getSequence1 lead tail = .ok (cp, rest) ↔ tail = rest ∧ cp.toNat = lead.toNat := by
  constructor
  · intro h
    cases h
    exact ⟨rfl, UInt8.toNat_toUInt32 lead⟩
  · rintro ⟨rfl, hcp⟩
    have hlead : lead.toUInt32 = cp := UInt32.toNat_inj.mp (by rw [UInt8.toNat_toUInt32, hcp])
    rw [getSequence1, hlead]

theorem getSequence2_eq_ok {lead : UInt8} {tail rest : Bytes} {cp : UInt32} :
    getSequence2 lead tail = .ok (cp, rest) ↔
      ∃ b₁, tail = b₁ :: rest ∧ isTrail b₁ = true ∧
        cp.toNat = lead.toNat % 32 * 64 + b₁.toNat % 64 := by
  have hvalue : ∀ b₁ : UInt8, ((lead.toUInt32 <<< 6 &&& 0x7ff) + (b₁.toUInt32 &&& 0x3f)).toNat =
      lead.toNat % 32 * 64 + b₁.toNat % 64 := by
    intro b₁
    have hlead : (lead.toUInt32 <<< 6 &&& 0x7ff).toNat = lead.toNat % 32 * 64 :=
      toNat_shifted lead 5 (by decide) rfl
    rw [UInt32.toNat_add, hlead, toNat_lowSix]
    omega
  unfold getSequence2
  rw [bind_returns]
  constructor
  · rintro ⟨⟨b₁, rest₁⟩, hb₁, h₁⟩
    obtain ⟨rfl, ht₁⟩ := increaseSafely_eq_ok.mp hb₁
    cases h₁
    exact ⟨b₁, rfl, ht₁, hvalue b₁⟩
  · rintro ⟨b₁, rfl, ht₁, hcp⟩
    refine ⟨(b₁, rest), increaseSafely_eq_ok.mpr ⟨rfl, ht₁⟩, ?_⟩
    rw [← hvalue, UInt32.toNat_inj] at hcp
    rw [hcp]
    rfl

theorem getSequence3_eq_ok {lead : UInt8} {tail rest : Bytes} {cp : UInt32} :
    getSequence3 lead tail = .ok (cp, rest) ↔
      ∃ b₁ b₂, tail = b₁ :: b₂ :: rest ∧ isTrail b₁ = true ∧ isTrail b₂ = true ∧
        cp.toNat = lead.toNat % 16 * 4096 + b₁.toNat % 64 * 64 + b₂.toNat % 64 := by
  have hvalue : ∀ b₁ b₂ : UInt8, ((lead.toUInt32 <<< 12 &&& (0xffff : UInt32)) +
      (b₁.toUInt32 <<< 6 &&& 0xfff) + (b₂.toUInt32 &&& 0x3f)).toNat =
      lead.toNat % 16 * 4096 + b₁.toNat % 64 * 64 + b₂.toNat % 64 := by
    intro b₁ b₂
    have hlead : (lead.toUInt32 <<< 12 &&& 0xffff).toNat = lead.toNat % 16 * 4096 :=
      toNat_shifted lead 4 (by decide) rfl
    have h₁ : (b₁.toUInt32 <<< 6 &&& 0xfff).toNat = b₁.toNat % 64 * 64 :=
      toNat_shifted b₁ 6 (by decide) rfl
    rw [UInt32.toNat_add, UInt32.toNat_add, hlead, h₁, toNat_lowSix]
    omega
  unfold getSequence3
  rw [bind_returns]
  constructor
  · rintro ⟨⟨b₁, rest₁⟩, hb₁, h₁⟩
    obtain ⟨rfl, ht₁⟩ := increaseSafely_eq_ok.mp hb₁
    obtain ⟨⟨b₂, rest₂⟩, hb₂, h₂⟩ := bind_returns.mp h₁
    obtain ⟨rfl, ht₂⟩ := increaseSafely_eq_ok.mp hb₂
    cases h₂
    exact ⟨b₁, b₂, rfl, ht₁, ht₂, hvalue b₁ b₂⟩
  · rintro ⟨b₁, b₂, rfl, ht₁, ht₂, hcp⟩
    refine ⟨(b₁, b₂ :: rest), increaseSafely_eq_ok.mpr ⟨rfl, ht₁⟩, ?_⟩
    rw [bind_returns]
    refine ⟨(b₂, rest), increaseSafely_eq_ok.mpr ⟨rfl, ht₂⟩, ?_⟩
    rw [← hvalue, UInt32.toNat_inj] at hcp
    rw [hcp]
    rfl

theorem getSequence4_eq_ok {lead : UInt8} {tail rest : Bytes} {cp : UInt32} :
    getSequence4 lead tail = .ok (cp, rest) ↔
      ∃ b₁ b₂ b₃, tail = b₁ :: b₂ :: b₃ :: rest ∧ isTrail b₁ = true ∧ isTrail b₂ = true ∧
        isTrail b₃ = true ∧ cp.toNat = lead.toNat % 8 * 262144 + b₁.toNat % 64 * 4096 +
          b₂.toNat % 64 * 64 + b₃.toNat % 64 := by
  have hvalue : ∀ b₁ b₂ b₃ : UInt8, ((lead.toUInt32 <<< 18 &&& (0x1fffff : UInt32)) +
      (b₁.toUInt32 <<< 12 &&& (0x3ffff : UInt32)) + (b₂.toUInt32 <<< 6 &&& 0xfff) +
      (b₃.toUInt32 &&& 0x3f)).toNat =
      lead.toNat % 8 * 262144 + b₁.toNat % 64 * 4096 + b₂.toNat % 64 * 64 + b₃.toNat % 64 := by
    intro b₁ b₂ b₃
    have hlead : (lead.toUInt32 <<< 18 &&& 0x1fffff).toNat = lead.toNat % 8 * 262144 :=
      toNat_shifted lead 3 (by decide) rfl
    have h₁ : (b₁.toUInt32 <<< 12 &&& 0x3ffff).toNat = b₁.toNat % 64 * 4096 :=
      toNat_shifted b₁ 6 (by decide) rfl
    have h₂ : (b₂.toUInt32 <<< 6 &&& 0xfff).toNat = b₂.toNat % 64 * 64 :=
      toNat_shifted b₂ 6 (by decide) rfl
    rw [UInt32.toNat_add, UInt32.toNat_add, UInt32.toNat_add, hlead, h₁, h₂, toNat_lowSix]
    omega
  unfold getSequence4
  rw [bind_returns]
  constructor
  · rintro ⟨⟨b₁, rest₁⟩, hb₁, h₁⟩
    obtain ⟨rfl, ht₁⟩ := increaseSafely_eq_ok.mp hb₁
    obtain ⟨⟨b₂, rest₂⟩, hb₂, h₂⟩ := bind_returns.mp h₁
    obtain ⟨rfl, ht₂⟩ := increaseSafely_eq_ok.mp hb₂
    obtain ⟨⟨b₃, rest₃⟩, hb₃, h₃⟩ := bind_returns.mp h₂
    obtain ⟨rfl, ht₃⟩ := increaseSafely_eq_ok.mp hb₃
    cases h₃
    exact ⟨b₁, b₂, b₃, rfl, ht₁, ht₂, ht₃, hvalue b₁ b₂ b₃⟩
  · rintro ⟨b₁, b₂, b₃, rfl, ht₁, ht₂, ht₃, hcp⟩
    refine ⟨(b₁, b₂ :: b₃ :: rest), increaseSafely_eq_ok.mpr ⟨rfl, ht₁⟩, ?_⟩
    rw [bind_returns]
    refine ⟨(b₂, b₃ :: rest), increaseSafely_eq_ok.mpr ⟨rfl, ht₂⟩, ?_⟩
    rw [bind_returns]
    refine ⟨(b₃, rest), increaseSafely_eq_ok.mpr ⟨rfl, ht₃⟩, ?_⟩
    rw [← hvalue, UInt32.toNat_inj] at hcp
    rw [hcp]
    rfl

/-- A byte by its value. -/
theorem byte_eq {n : Nat} {b : UInt8} (h : n = b.toNat) : UInt8.ofNat n = b := by
  rw [h, UInt8.ofNat_toNat]

/-- The lead octet of a sequence of each length. -/
theorem sequenceLength_iff (b : UInt8) :
    (sequenceLength b = 1 ↔ b.toNat < 128) ∧ (sequenceLength b = 2 ↔ b.toNat / 32 = 6) ∧
      (sequenceLength b = 3 ↔ b.toNat / 16 = 14) ∧ (sequenceLength b = 4 ↔ b.toNat / 8 = 30) := by
  have hlt : b < 0x80 ↔ b.toNat < 128 := UInt8.lt_iff_toNat_lt
  have hfive : b >>> 5 = 0x6 ↔ b.toNat / 32 = 6 := shiftRight_eq_iff (by decide)
  have hfour : b >>> 4 = 0xe ↔ b.toNat / 16 = 14 := shiftRight_eq_iff (by decide)
  have hthree : b >>> 3 = 0x1e ↔ b.toNat / 8 = 30 := shiftRight_eq_iff (by decide)
  simp only [sequenceLength, hlt, hfive, hfour, hthree]
  split
  · omega
  · split
    · omega
    · split
      · omega
      · split
        · omega
        · omega

/-- **What `validate_next` accepts is the encoding of a scalar value**, and the code point it returns
is that value. -/
theorem validateNext_sound {lead : UInt8} {tail rest : Bytes} {cp : UInt32}
    (h : validateNext lead tail = .ok (cp, rest)) :
    ∃ c : Char, c.val = cp ∧ lead :: tail = String.utf8EncodeChar c ++ rest := by
  obtain ⟨hget, hvalid, hshort⟩ := validateNext_eq_ok.mp h
  obtain ⟨c, rfl⟩ := char_of_range ((isCodePointValid_iff cp).mp hvalid)
  obtain ⟨hone, htwo, hthree, hfour⟩ := sequenceLength_iff lead
  rw [isOverlongSequence_iff] at hshort
  refine ⟨c, rfl, ?_⟩
  unfold String.utf8EncodeChar
  generalize sequenceLength lead = length at hget hshort hone htwo hthree hfour
  unfold getSequence at hget
  -- The check for overlong sequences leaves each length the code points that are encoded in it.
  split at hget
  · have hlead := hone.mp rfl
    obtain ⟨rfl, hcp⟩ := getSequence1_eq_ok.mp hget
    rw [if_pos (by rw [hcp]; exact Nat.le_of_lt_succ hlead), byte_eq hcp]
    rfl
  · have hlead := htwo.mp rfl
    clear hone htwo hthree hfour
    obtain ⟨b₁, rfl, ht₁, hcp⟩ := getSequence2_eq_ok.mp hget
    rw [isTrail_iff] at ht₁
    have hgt : 0x7f < c.val.toNat := by omega
    rw [if_neg (by omega), if_pos (by omega), @byte_eq _ lead (by omega), @byte_eq _ b₁ (by omega)]
    rfl
  · have hlead := hthree.mp rfl
    clear hone htwo hthree hfour
    obtain ⟨b₁, b₂, rfl, ht₁, ht₂, hcp⟩ := getSequence3_eq_ok.mp hget
    rw [isTrail_iff] at ht₁ ht₂
    have hgt : 0x7ff < c.val.toNat := by omega
    rw [if_neg (by omega), if_neg (by omega), if_pos (by omega), @byte_eq _ lead (by omega),
      @byte_eq _ b₁ (by omega), @byte_eq _ b₂ (by omega)]
    rfl
  · have hlead := hfour.mp rfl
    clear hone htwo hthree hfour
    obtain ⟨b₁, b₂, b₃, rfl, ht₁, ht₂, ht₃, hcp⟩ := getSequence4_eq_ok.mp hget
    rw [isTrail_iff] at ht₁ ht₂ ht₃
    have hgt : 0xffff < c.val.toNat := by omega
    clear hshort
    rw [if_neg (by omega), if_neg (by omega), if_neg (by omega), @byte_eq _ lead (by omega),
      @byte_eq _ b₁ (by omega), @byte_eq _ b₂ (by omega), @byte_eq _ b₃ (by omega)]
    rfl
  · cases hget

/-- An octet below a lead octet. -/
theorem trail_ofNat (n : Nat) :
    isTrail (UInt8.ofNat (n % 0x40 + 0x80)) = true ∧
      (UInt8.ofNat (n % 0x40 + 0x80)).toNat % 64 = n % 0x40 := by
  have hvalue : (UInt8.ofNat (n % 0x40 + 0x80)).toNat = n % 0x40 + 0x80 :=
    UInt8.toNat_ofNat_of_lt' (show _ < 256 by omega)
  rw [isTrail_iff, hvalue]
  omega

/-- **The encoding of a scalar value is accepted**, whatever follows it. -/
theorem validateNext_char (c : Char) (rest : Bytes) :
    ∃ lead tail, String.utf8EncodeChar c ++ rest = lead :: tail ∧
      validateNext lead tail = .ok (c.val, rest) := by
  have hvalid : isCodePointValid c.val = true := (isCodePointValid_iff _).mpr (char_range c)
  have hbound : c.val.toNat < 0x110000 := by
    have hrange := char_range c
    omega
  have hbyte : ∀ n, n < 256 → (UInt8.ofNat n).toNat = n := fun n hn => UInt8.toNat_ofNat_of_lt' hn
  have hencode := utf8EncodeChar_cases c
  have hover := isOverlongSequence_iff c.val
  generalize hv : c.val.toNat = v at hbound hencode hover
  obtain ⟨hle, heq⟩ | ⟨hlt, hle, heq⟩ | ⟨hlt, hle, heq⟩ | ⟨hlt, heq⟩ := hencode
  · have hlead := hbyte v (by omega)
    have hlength := (sequenceLength_iff (UInt8.ofNat v)).1.mpr (by rw [hlead]; omega)
    refine ⟨_, _, by rw [heq]; rfl, validateNext_eq_ok.mpr ⟨?_, hvalid, ?_⟩⟩
    · rw [hlength]
      exact getSequence1_eq_ok.mpr ⟨rfl, hv.trans hlead.symm⟩
    · rw [hlength, hover]
      omega
  · have hlead := hbyte (v / 64 % 0x20 + 0xc0) (by omega)
    have hlength := (sequenceLength_iff (UInt8.ofNat (v / 64 % 0x20 + 0xc0))).2.1.mpr
      (by rw [hlead]; omega)
    obtain ⟨ht₁, hb₁⟩ := trail_ofNat v
    refine ⟨_, _, by rw [heq]; rfl, validateNext_eq_ok.mpr ⟨?_, hvalid, ?_⟩⟩
    · rw [hlength]
      refine getSequence2_eq_ok.mpr ⟨_, rfl, ht₁, ?_⟩
      rw [hv, hlead, hb₁]
      omega
    · rw [hlength, hover]
      omega
  · have hlead := hbyte (v / 4096 % 0x10 + 0xe0) (by omega)
    have hlength := (sequenceLength_iff (UInt8.ofNat (v / 4096 % 0x10 + 0xe0))).2.2.1.mpr
      (by rw [hlead]; omega)
    obtain ⟨ht₁, hb₁⟩ := trail_ofNat (v / 64)
    obtain ⟨ht₂, hb₂⟩ := trail_ofNat v
    refine ⟨_, _, by rw [heq]; rfl, validateNext_eq_ok.mpr ⟨?_, hvalid, ?_⟩⟩
    · rw [hlength]
      refine getSequence3_eq_ok.mpr ⟨_, _, rfl, ht₁, ht₂, ?_⟩
      rw [hv, hlead, hb₁, hb₂]
      omega
    · rw [hlength, hover]
      omega
  · have hlead := hbyte (v / 262144 % 0x08 + 0xf0) (by omega)
    have hlength := (sequenceLength_iff (UInt8.ofNat (v / 262144 % 0x08 + 0xf0))).2.2.2.mpr
      (by rw [hlead]; omega)
    obtain ⟨ht₁, hb₁⟩ := trail_ofNat (v / 4096)
    obtain ⟨ht₂, hb₂⟩ := trail_ofNat (v / 64)
    obtain ⟨ht₃, hb₃⟩ := trail_ofNat v
    refine ⟨_, _, by rw [heq]; rfl, validateNext_eq_ok.mpr ⟨?_, hvalid, ?_⟩⟩
    · rw [hlength]
      refine getSequence4_eq_ok.mpr ⟨_, _, _, rfl, ht₁, ht₂, ht₃, ?_⟩
      rw [hv, hlead, hb₁, hb₂, hb₃]
      omega
    · rw [hlength, hover]
      omega

/-! ## The loops -/

/-- A sequence is at least its lead octet. -/
theorem length_of_next {lead : UInt8} {tail rest : Bytes} {cp : UInt32}
    (h : next lead tail = .ok (cp, rest)) : rest.length < tail.length + 1 := by
  unfold next at h
  split at h
  · rename_i hnext
    cases h
    obtain ⟨c, -, heq⟩ := validateNext_sound hnext
    have hlength := congrArg List.length heq
    have hpos := Char.utf8Size_pos c
    rw [List.length_cons, List.length_append, String.length_utf8EncodeChar] at hlength
    omega
  · cases h
  · cases h
  · cases h

/-- `while (start != end) { cp = next(start, end); … }`, which is the loop of `distance` and of
`utf8to16`. -/
def forEachCodePoint {β : Type} (body : β → UInt32 → Except Stop β) (s : Bytes) (b : β) :
    Except Stop β :=
  match s with
  | [] => .ok b
  | lead :: tail =>
    match _h : next lead tail with
    | .error stop => .error stop
    | .ok (cp, rest) => do
      let b ← body b cp
      forEachCodePoint body rest b
termination_by s.length
decreasing_by exact length_of_next (by assumption)

def distance (s : Bytes) : Except Stop Nat := forEachCodePoint (fun dist _ => .ok (dist + 1)) s 0

/-- The body of `utf8to16`. -/
def put16 (result : Output UInt16) (cp : UInt32) : Except Stop (Output UInt16) :=
  if cp > 0xffff then
    result.putAll [((cp >>> 10) + leadOffset).toUInt16, ((cp &&& 0x3ff) + trailSurrogateMin).toUInt16]
  else result.putAll [cp.toUInt16]

def utf8to16 (s : Bytes) (result : Output UInt16) : Except Stop (Output UInt16) :=
  forEachCodePoint put16 s result

def utf16to8 : List UInt16 → Output UInt8 → Except Stop (Output UInt8)
  | [], result => .ok result
  | unit :: rest, result =>
    let cp := unit.toUInt32
    if isLeadSurrogate cp then
      match rest with
      | [] => .error (.exception (.invalidUtf16 cp.toUInt16))
      | trail :: rest =>
        let trailSurrogate := trail.toUInt32
        if isTrailSurrogate trailSurrogate then do
          let result ← append ((cp <<< 10) + trailSurrogate + surrogateOffset) result
          utf16to8 rest result
        else .error (.exception (.invalidUtf16 trailSurrogate.toUInt16))
    -- Lone trail surrogate
    else if isTrailSurrogate cp then .error (.exception (.invalidUtf16 cp.toUInt16))
    else do
      let result ← append cp result
      utf16to8 rest result

/-- `next` returns a scalar value and steps over its encoding, or throws. -/
theorem next_cases (lead : UInt8) (tail : Bytes) :
    (∃ c rest, lead :: tail = String.utf8EncodeChar c ++ rest ∧ next lead tail = .ok (c.val, rest)) ∨
      ∃ e, next lead tail = .error (.exception e) := by
  unfold next
  split
  · rename_i result hnext
    obtain ⟨c, hc, heq⟩ := validateNext_sound hnext
    exact .inl ⟨c, result.2, heq, by rw [hc]⟩
  · exact .inr ⟨_, rfl⟩
  · exact .inr ⟨_, rfl⟩
  · exact .inr ⟨_, rfl⟩

theorem forEachCodePoint_cons {β : Type} (body : β → UInt32 → Except Stop β) (lead : UInt8)
    (tail : Bytes) (b : β) :
    forEachCodePoint body (lead :: tail) b = (do
      let (cp, rest) ← next lead tail
      let b ← body b cp
      forEachCodePoint body rest b) := by
  rw [forEachCodePoint]
  split
  · rename_i stop hnext
    rw [hnext]
    rfl
  · rename_i cp rest hnext
    rw [hnext]
    rfl

theorem forEachCodePoint_char {β : Type} (body : β → UInt32 → Except Stop β) (c : Char) (s : Bytes)
    (b : β) :
    forEachCodePoint body (String.utf8EncodeChar c ++ s) b =
      body b c.val >>= forEachCodePoint body s := by
  obtain ⟨lead, tail, heq, hnext⟩ := validateNext_char c s
  rw [heq, forEachCodePoint_cons, next, hnext]
  rfl

/-- On well-formed input the loop goes over the text. -/
theorem forEachCodePoint_text {β : Type} (body : β → UInt32 → Except Stop β) (text : List Char)
    (b : β) :
    forEachCodePoint body (utf8Encode text) b = text.foldlM (fun b c => body b c.val) b := by
  induction text generalizing b with
  | nil =>
    rw [utf8Encode, List.flatMap_nil, forEachCodePoint]
    rfl
  | cons c text ih =>
    rw [utf8Encode_cons, forEachCodePoint_char, List.foldlM_cons]
    congr 1
    funext b
    exact ih b

/-- On ill-formed input it throws, unless a write has gone wrong before. -/
theorem forEachCodePoint_illFormed {β : Type} {body : β → UInt32 → Except Stop β}
    (hbody : ∀ b cp, ∃ b', body b cp = .ok b') {s : Bytes} (h : ¬ WellFormedUtf8 s) (b : β) :
    ∃ e, forEachCodePoint body s b = .error (.exception e) := by
  induction hn : s.length using Nat.strongRecOn generalizing s b with
  | ind n ih =>
    cases s with
    | nil => exact absurd ⟨[], rfl⟩ h
    | cons lead tail =>
      rw [forEachCodePoint_cons]
      obtain ⟨c, rest, heq, hnext⟩ | ⟨e, hnext⟩ := next_cases lead tail
      · obtain ⟨b', hb'⟩ := hbody b c.val
        have hlength := length_of_next hnext
        rw [hnext]
        simp only [bind, Except.bind, hb']
        refine ih rest.length (by rw [← hn]; exact hlength) (fun hrest => h ?_) b' rfl
        rw [heq]
        exact hrest.cons c
      · exact ⟨e, by rw [hnext]; rfl⟩

theorem or_eq_add : (∀ x < 64, x ||| 128 = x + 128) ∧ (∀ x < 32, x ||| 192 = x + 192) ∧
    (∀ x < 16, x ||| 224 = x + 224) ∧ ∀ x < 8, x ||| 240 = x + 240 := by decide


/-- An octet that `append` writes: some bits of the code point behind a marker. -/
theorem toUInt8_or (marker : UInt32) {bits : UInt32} {n : Nat} (hn : bits.toNat = n)
    (hor : n ||| marker.toNat = n + marker.toNat) :
    (bits ||| marker).toUInt8 = UInt8.ofNat (n + marker.toNat) := by
  apply UInt8.toNat_inj.mp
  rw [UInt32.toNat_toUInt8, UInt32.toNat_or, hn, hor, UInt8.toNat_ofNat']

theorem append_char (c : Char) (result : Output UInt8) :
    append c.val result = result.putAll (String.utf8EncodeChar c) := by
  have hrange := char_range c
  have hvalid : isCodePointValid c.val = true := (isCodePointValid_iff _).mpr hrange
  have hencode := utf8EncodeChar_cases c
  rw [append, if_neg (by rw [hvalid]; decide)]
  generalize c.val = cp at hrange hencode
  have hsix : (cp >>> 6).toNat = cp.toNat / 64 := by
    rw [UInt32.toNat_shiftRight, Nat.shiftRight_eq_div_pow]
    rfl
  have htwelve : (cp >>> 12).toNat = cp.toNat / 4096 := by
    rw [UInt32.toNat_shiftRight, Nat.shiftRight_eq_div_pow]
    rfl
  have height : (cp >>> 18).toNat = cp.toNat / 262144 := by
    rw [UInt32.toNat_shiftRight, Nat.shiftRight_eq_div_pow]
    rfl
  have hmask : ∀ x : UInt32, (x &&& 0x3f).toNat = x.toNat % 0x40 := by
    intro x
    rw [UInt32.toNat_and]
    exact Nat.and_two_pow_sub_one_eq_mod x.toNat 6
  obtain ⟨htrail, htwo, hthree, hfour⟩ := or_eq_add
  have h₁ : ((cp &&& 0x3f) ||| 0x80).toUInt8 = UInt8.ofNat (cp.toNat % 0x40 + 0x80) :=
    toUInt8_or 0x80 (hmask cp) (htrail _ (by omega))
  have h₂ : ((cp >>> 6 &&& 0x3f) ||| 0x80).toUInt8 = UInt8.ofNat (cp.toNat / 64 % 0x40 + 0x80) :=
    toUInt8_or 0x80 (by rw [hmask, hsix]) (htrail _ (by omega))
  have h₃ : ((cp >>> 12 &&& 0x3f) ||| 0x80).toUInt8 = UInt8.ofNat (cp.toNat / 4096 % 0x40 + 0x80) :=
    toUInt8_or 0x80 (by rw [hmask, htwelve]) (htrail _ (by omega))
  simp only [UInt32.lt_iff_toNat_lt, UInt32.reduceToNat]
  obtain ⟨hle, heq⟩ | ⟨hge, hle, heq⟩ | ⟨hge, hle, heq⟩ | ⟨hge, heq⟩ := hencode
  · rw [if_pos (by omega), heq, UInt8.ofNat_uInt32ToNat]
  · have hlead : (cp >>> 6 ||| 0xc0).toUInt8 = UInt8.ofNat (cp.toNat / 64 % 0x20 + 0xc0) := by
      refine toUInt8_or 0xc0 ?_ (htwo _ (by omega))
      rw [hsix, Nat.mod_eq_of_lt (by omega)]
    rw [if_neg (by omega), if_pos (by omega), heq, hlead, h₁]
  · have hlead : (cp >>> 12 ||| 0xe0).toUInt8 = UInt8.ofNat (cp.toNat / 4096 % 0x10 + 0xe0) := by
      refine toUInt8_or 0xe0 ?_ (hthree _ (by omega))
      rw [htwelve, Nat.mod_eq_of_lt (by omega)]
    rw [if_neg (by omega), if_neg (by omega), if_pos (by omega), heq, hlead, h₂, h₁]
  · have hlead : (cp >>> 18 ||| 0xf0).toUInt8 = UInt8.ofNat (cp.toNat / 262144 % 0x08 + 0xf0) := by
      refine toUInt8_or 0xf0 ?_ (hfour _ (by omega))
      rw [height, Nat.mod_eq_of_lt (by omega)]
    rw [if_neg (by omega), if_neg (by omega), if_neg (by omega), heq, hlead, h₃, h₂, h₁]

/-! ## Writing -/

/-- An allocation with `done` written and `rest` ahead. -/
def Output.written {α : Type} (done rest : List α) : Output α := ⟨done ++ rest, done.length⟩

theorem Output.put_written {α : Type} (done rest : List α) (y x : α) :
    (Output.written done (y :: rest)).put x = .ok (.written (done ++ [x]) rest) := by
  rw [Output.put, Output.written, if_pos (by simp), Output.written, List.set_append_right _ _ (by simp)]
  simp

theorem Output.putAll_written {α : Type} (done : List α) {xs rest : List α}
    (h : xs.length ≤ rest.length) :
    (Output.written done rest).putAll xs = .ok (.written (done ++ xs) (rest.drop xs.length)) := by
  induction xs generalizing done rest with
  | nil => simp [putAll]; rfl
  | cons x xs ih =>
    cases rest with
    | nil => simp at h
    | cons y rest =>
      rw [putAll, List.foldlM_cons, put_written]
      have hrest := ih (done ++ [x]) (Nat.le_of_succ_le_succ h)
      rw [putAll] at hrest
      simpa [bind, Except.bind] using hrest

theorem Output.putAll_overflow {α : Type} (done : List α) {xs rest : List α}
    (h : rest.length < xs.length) :
    (Output.written done rest).putAll xs = .error (.fault .outOfBounds) := by
  induction xs generalizing done rest with
  | nil => simp at h
  | cons x xs ih =>
    cases rest with
    | nil => 
      rw [putAll, List.foldlM_cons, put, written, if_neg (by simp)]
      rfl
    | cons y rest =>
      rw [putAll, List.foldlM_cons, put_written]
      exact ih (done ++ [x]) (Nat.lt_of_succ_lt_succ h)

theorem Output.putAll_append {α : Type} (result : Output α) (xs ys : List α) :
    result.putAll (xs ++ ys) = result.putAll xs >>= fun result => result.putAll ys :=
  List.foldlM_append ..

/-! ## UTF-16 -/

theorem isLeadSurrogate_iff (unit : UInt16) :
    isLeadSurrogate unit.toUInt32 = true ↔ 0xd800 ≤ unit.toNat ∧ unit.toNat ≤ 0xdbff := by
  simp [isLeadSurrogate, leadSurrogateMin, leadSurrogateMax, UInt32.le_iff_toNat_le]

theorem isTrailSurrogate_iff (unit : UInt16) :
    isTrailSurrogate unit.toUInt32 = true ↔ 0xdc00 ≤ unit.toNat ∧ unit.toNat ≤ 0xdfff := by
  simp [isTrailSurrogate, trailSurrogateMin, trailSurrogateMax, UInt32.le_iff_toNat_le]

/-- The code point of a pair of surrogates. -/
theorem surrogatePair_value {lead trail : UInt16} (hlead : 0xd800 ≤ lead.toNat ∧ lead.toNat ≤ 0xdbff)
    (htrail : 0xdc00 ≤ trail.toNat ∧ trail.toNat ≤ 0xdfff) :
    ((lead.toUInt32 <<< 10) + trail.toUInt32 + surrogateOffset).toNat =
      0x10000 + (lead.toNat - 0xd800) * 0x400 + (trail.toNat - 0xdc00) := by
  have hoffset : surrogateOffset.toNat = 2 ^ 32 + 0x10000 - 0xd800 * 0x400 - 0xdc00 := by decide
  have hshift : (lead.toUInt32 <<< 10).toNat = lead.toNat * 0x400 := by
    rw [UInt32.toNat_shiftLeft, UInt16.toNat_toUInt32, Nat.shiftLeft_eq]
    exact Nat.mod_eq_of_lt (by simp; omega)
  rw [UInt32.toNat_add, UInt32.toNat_add, hshift, hoffset, UInt16.toNat_toUInt32]
  omega

theorem put16_char (result : Output UInt16) (c : Char) :
    put16 result c.val = result.putAll (utf16EncodeChar c) := by
  have hrange := char_range c
  unfold utf16EncodeChar
  generalize c.val = cp at hrange
  have hgt : cp > 0xffff ↔ 0xffff < cp.toNat := UInt32.lt_iff_toNat_lt
  rw [put16]
  by_cases hle : cp.toNat ≤ 0xffff
  · rw [if_neg (by rw [hgt]; omega), if_pos hle, UInt16.ofNat_uInt32ToNat]
  · have hlead : ((cp >>> 10) + leadOffset).toUInt16 =
        UInt16.ofNat ((cp.toNat - 0x10000) / 0x400 + 0xd800) := by
      apply UInt16.toNat_inj.mp
      have hoffset : leadOffset.toNat = 0xd7c0 := by decide
      have hshift : (cp >>> 10).toNat = cp.toNat / 0x400 := by
        rw [UInt32.toNat_shiftRight, Nat.shiftRight_eq_div_pow]
        rfl
      rw [UInt32.toNat_toUInt16, UInt32.toNat_add, hshift, hoffset, UInt16.toNat_ofNat']
      omega
    have htrail : ((cp &&& 0x3ff) + trailSurrogateMin).toUInt16 =
        UInt16.ofNat ((cp.toNat - 0x10000) % 0x400 + 0xdc00) := by
      apply UInt16.toNat_inj.mp
      have hoffset : trailSurrogateMin.toNat = 0xdc00 := rfl
      have hmask : (cp &&& 0x3ff).toNat = cp.toNat % 0x400 := by
        rw [UInt32.toNat_and]
        exact Nat.and_two_pow_sub_one_eq_mod cp.toNat 10
      rw [UInt32.toNat_toUInt16, UInt32.toNat_add, hmask, hoffset, UInt16.toNat_ofNat']
      omega
    rw [if_pos (hgt.mpr (by omega)), if_neg hle, hlead, htrail]

theorem utf8to16_text (text : List Char) (result : Output UInt16) :
    utf8to16 (utf8Encode text) result = result.putAll (utf16Encode text) := by
  rw [utf8to16, forEachCodePoint_text]
  induction text generalizing result with
  | nil => rfl
  | cons c text ih =>
    rw [List.foldlM_cons, utf16Encode_cons, Output.putAll_append, put16_char]
    congr 1
    funext result
    exact ih result

theorem distance_text (text : List Char) : distance (utf8Encode text) = .ok text.length := by
  rw [distance, forEachCodePoint_text]
  have hcount : ∀ n, text.foldlM (fun dist _ => .ok (dist + 1)) n =
      (.ok (n + text.length) : Except Stop Nat) := by
    induction text with
    | nil => exact fun n => rfl
    | cons c text ih =>
      intro n
      rw [List.foldlM_cons]
      refine (ih (n + 1)).trans ?_
      rw [List.length_cons]
      congr 1
      omega
  simpa using hcount 0


theorem utf16to8_unit {unit : UInt16} (hlead : isLeadSurrogate unit.toUInt32 = false)
    (htrail : isTrailSurrogate unit.toUInt32 = false) (rest : List UInt16) (result : Output UInt8) :
    utf16to8 (unit :: rest) result = append unit.toUInt32 result >>= utf16to8 rest := by
  rw [utf16to8.eq_def]
  simp only [hlead, htrail, Bool.false_eq_true, if_false]

theorem utf16to8_pair {lead trail : UInt16} (hlead : isLeadSurrogate lead.toUInt32 = true)
    (htrail : isTrailSurrogate trail.toUInt32 = true) (rest : List UInt16) (result : Output UInt8) :
    utf16to8 (lead :: trail :: rest) result =
      append ((lead.toUInt32 <<< 10) + trail.toUInt32 + surrogateOffset) result >>= utf16to8 rest := by
  rw [utf16to8.eq_def]
  simp only [hlead, htrail, if_true]

/-- One step of `utf16to8`, on the units of a scalar value. -/
theorem utf16to8_char (c : Char) (rest : List UInt16) (result : Output UInt8) :
    utf16to8 (utf16EncodeChar c ++ rest) result =
      result.putAll (String.utf8EncodeChar c) >>= utf16to8 rest := by
  have hrange := char_range c
  have hunit : ∀ n, n < 2 ^ 16 → (UInt16.ofNat n).toNat = n := fun n hn => UInt16.toNat_ofNat_of_lt' hn
  rw [← append_char, utf16EncodeChar_eq]
  generalize c.val = cp at hrange
  by_cases hle : cp.toNat ≤ 0xffff
  · have hvalue := hunit cp.toNat (by omega)
    have hcp : (UInt16.ofNat cp.toNat).toUInt32 = cp := by
      apply UInt32.toNat_inj.mp
      rw [UInt16.toNat_toUInt32, hvalue]
    rw [if_pos hle, List.singleton_append, utf16to8_unit, hcp]
    · rw [← Bool.not_eq_true, isLeadSurrogate_iff]
      omega
    · rw [← Bool.not_eq_true, isTrailSurrogate_iff]
      omega
  · have hlead := hunit ((cp.toNat - 0x10000) / 0x400 + 0xd800) (by omega)
    have htrail := hunit ((cp.toNat - 0x10000) % 0x400 + 0xdc00) (by omega)
    have hcp : ((UInt16.ofNat ((cp.toNat - 0x10000) / 0x400 + 0xd800)).toUInt32 <<< 10) +
        (UInt16.ofNat ((cp.toNat - 0x10000) % 0x400 + 0xdc00)).toUInt32 + surrogateOffset = cp := by
      apply UInt32.toNat_inj.mp
      rw [surrogatePair_value (by omega) (by omega)]
      omega
    rw [if_neg hle, List.cons_append, List.singleton_append, utf16to8_pair, hcp]
    · rw [isLeadSurrogate_iff]
      omega
    · rw [isTrailSurrogate_iff]
      omega

/-- A code unit by its value. -/
theorem unit_eq {n : Nat} {unit : UInt16} (h : n = unit.toNat) : UInt16.ofNat n = unit := by
  rw [h, UInt16.ofNat_toNat]

/-- A string starts with the units of a scalar value, or `utf16to8` throws at it. -/
theorem utf16to8_cases (unit : UInt16) (w : List UInt16) :
    (∃ c rest, unit :: w = utf16EncodeChar c ++ rest) ∨
      ∀ result, ∃ e, utf16to8 (unit :: w) result = .error (.exception e) := by
  have hbyte := unit.toNat_lt
  cases hlead : isLeadSurrogate unit.toUInt32 with
  | true =>
    cases w with
    | nil =>
      refine .inr fun result => ⟨.invalidUtf16 unit.toUInt32.toUInt16, ?_⟩
      rw [utf16to8.eq_def]
      simp only [hlead, if_true]
    | cons trail rest =>
      cases htrail : isTrailSurrogate trail.toUInt32 with
      | true =>
        rw [isLeadSurrogate_iff] at hlead
        rw [isTrailSurrogate_iff] at htrail
        have hvalue := surrogatePair_value hlead htrail
        obtain ⟨c, hc⟩ := @char_of_range _ (.inr ⟨by rw [hvalue]; omega, by rw [hvalue]; omega⟩)
        refine .inl ⟨c, rest, ?_⟩
        rw [utf16EncodeChar_eq, hc, hvalue, if_neg (by omega), @unit_eq _ unit (by omega),
          @unit_eq _ trail (by omega)]
        rfl
      | false =>
        refine .inr fun result => ⟨.invalidUtf16 trail.toUInt32.toUInt16, ?_⟩
        rw [utf16to8.eq_def]
        simp only [hlead, htrail, if_true, Bool.false_eq_true, if_false]
  | false =>
    cases htrail : isTrailSurrogate unit.toUInt32 with
    | true =>
      refine .inr fun result => ⟨.invalidUtf16 unit.toUInt32.toUInt16, ?_⟩
      rw [utf16to8.eq_def]
      simp only [hlead, htrail, if_true, Bool.false_eq_true, if_false]
    | false =>
      rw [← Bool.not_eq_true, isLeadSurrogate_iff] at hlead
      rw [← Bool.not_eq_true, isTrailSurrogate_iff] at htrail
      have hvalue : unit.toUInt32.toNat = unit.toNat := UInt16.toNat_toUInt32 unit
      obtain ⟨c, hc⟩ := @char_of_range unit.toUInt32 (by omega)
      refine .inl ⟨c, w, ?_⟩
      rw [utf16EncodeChar_eq, hc, hvalue, if_pos (by omega), UInt16.ofNat_toNat]
      rfl

theorem utf16to8_text (text : List Char) (result : Output UInt8) :
    utf16to8 (utf16Encode text) result = result.putAll (utf8Encode text) := by
  induction text generalizing result with
  | nil => rfl
  | cons c text ih =>
    rw [utf16Encode_cons, utf16to8_char, utf8Encode_cons, Output.putAll_append]
    congr 1
    funext result
    exact ih result

/-- With four bytes for every unit `utf16to8` never gets to the end of its allocation, and so all that
happens on ill-formed input is an exception. -/
theorem utf16to8_illFormed {w : List UInt16} (h : ¬ WellFormedUtf16 w) (done : Bytes) {room : Bytes}
    (hroom : 4 * w.length ≤ room.length) :
    ∃ e, utf16to8 w (.written done room) = .error (.exception e) := by
  induction hn : w.length using Nat.strongRecOn generalizing w done room with
  | ind n ih =>
    cases w with
    | nil => exact absurd ⟨[], rfl⟩ h
    | cons unit w =>
      obtain ⟨c, rest, heq⟩ | hthrows := utf16to8_cases unit w
      · have hunits : 1 ≤ (utf16EncodeChar c).length := by
          rw [length_utf16EncodeChar]
          split <;> omega
        have hsize : (String.utf8EncodeChar c).length ≤ 4 := by
          rw [String.length_utf8EncodeChar]
          exact Char.utf8Size_le_four c
        rw [heq] at hroom hn h
        rw [List.length_append] at hroom hn
        rw [heq, utf16to8_char, Output.putAll_written done (by omega)]
        refine ih rest.length (by omega) (fun hrest => h (hrest.cons c)) _ ?_ rfl
        rw [List.length_drop]
        omega
      · exact hthrows _

end ServerTest.Core.Utf8
