import ServerTest.Lib.Decimal
import ServerTest.Lib.Numeral
import ServerTest.Configuration.Store

/-!
# The getters of `Config`

Two questions about a value that is stored. Do the two ways to ask for it agree? The one-key getters
cut the key at its first `.` and lower-case the rest; the four-argument ones hand section and name
to `MakeKey`, which joins and lower-cases them. Both arrive at one key.

And does an integer getter return the number that is written there, or say that there is none?
`strtol` reads a prefix, takes a leading zero for octal, and clamps; the getters never look at where
it stopped, and then narrow. `literal` is what the documentation of `GetLong` calls a valid
integer, and the texts on which the code keeps to it are found exactly.
-/

set_option autoImplicit false

namespace ServerTest.Configuration

open Lib

/-! ## The two forms of a getter -/

namespace Getter

variable (model : DataModel) (real : FloatingPoint)

theorem ofSection_eq (g : Getter) (contents : Contents) (section_ name : Bytes)
    (value : g.Value real) :
    g.ofSection model real contents section_ name value =
      g.ofKey model real contents (Contents.makeKey section_ name) value := by
  cases g <;> rfl

theorem parsed_failed {α : Type} {read : Bytes → Option α} {text : Bytes} {output : α}
    (h : (Contents.parsed read text output).1 = .FAILED) :
    (Contents.parsed read text output).2 = output := by
  unfold Contents.parsed at h ⊢
  split at h
  · cases h
  · rfl

theorem converted_failed {α β : Type} {cast : α → β} {result : Status × α} {output : β}
    (h : (Config.converted cast result output).1 = .FAILED) :
    (Config.converted cast result output).2 = output := by
  unfold Config.converted at h ⊢
  split at h
  · cases h
  · rfl

/-- A getter that fails leaves its output alone. -/
theorem ofKey_failed {g : Getter} {contents : Contents} {key : Bytes} {value : g.Value real}
    (h : (g.ofKey model real contents key value).1 = .FAILED) :
    (g.ofKey model real contents key value).2 = value := by
  cases g with
  | string =>
    simp only [ofKey, Contents.getString] at h ⊢
    split at h
    · cases h
    · rfl
  | bool => exact parsed_failed h
  | long => exact parsed_failed h
  | double => exact parsed_failed h
  | uInt => exact converted_failed h
  | int => exact converted_failed h
  | float => exact converted_failed h

/-- **The one-key and the four-argument getters agree**, and neither touches its output when it
fails. The four-argument `GetUInt` is a stub and is left out. -/
theorem dotted_eq_fourArgument {g : Getter} (hg : g ≠ .uInt) (config : Config)
    {filename section_ name : Bytes} (hdot : chr '.' ∉ filename) (hsection : 0 ∉ section_)
    (hname : 0 ∉ name) (value : g.Value real) :
    g.dotted model real config (filename ++ [chr '.'] ++ (section_ ++ [chr '.'] ++ name)) value =
        g.fourArgument model real config section_ name value filename ∧
      ((g.fourArgument model real config section_ name value filename).1 = .FAILED →
        (g.fourArgument model real config section_ name value filename).2 = value) := by
  have hclean : ∀ {s : Bytes}, 0 ∉ s → cStr s = s := by
    intro s hs
    exact cStr_of_ne_zero fun b hb heq => hs (heq ▸ hb)
  rw [dotted_eq, fourArgument_eq model real hg]
  unfold Config.dotted Config.inFile
  rw [splitKey_of_noDot hdot, hclean hsection, hclean hname]
  cases config.find filename with
  | none => exact ⟨rfl, fun _ => rfl⟩
  | some file =>
    dsimp only
    rw [ofSection_eq]
    exact ⟨rfl, ofKey_failed model real⟩

/-- `GetInt("a.S.K")` and `GetInt("S", "K", …, "a")`, on a file with a section `s`. -/
theorem dotted_eq_fourArgument_int :
    Getter.int.dotted .LP64 ⟨Unit, Unit, (), fun _ => none, id⟩
        (Config.run [.load (ascii "a") (some numberFile)]) (ascii "a.S.K") (7 : Int) =
      (Status.OK, (1 : Int)) ∧
    Getter.int.fourArgument .LP64 ⟨Unit, Unit, (), fun _ => none, id⟩
        (Config.run [.load (ascii "a") (some numberFile)]) (ascii "S") (ascii "K") (7 : Int)
        (ascii "a") = (Status.OK, (1 : Int)) := by
  have hfound : Getter.int.dotted .LP64 ⟨Unit, Unit, (), fun _ => none, id⟩
      (Config.run [.load (ascii "a") (some numberFile)]) (ascii "a.S.K") (7 : Int) =
      (Status.OK, (1 : Int)) := by
    show Config.getInt .LP64 (Config.run [.load (ascii "a") (some numberFile)]) (ascii "a.S.K") 7 =
      (.OK, 1)
    decide
  have hagree := dotted_eq_fourArgument .LP64 ⟨Unit, Unit, (), fun _ => none, id⟩ (g := .int)
    (by decide) (Config.run [.load (ascii "a") (some numberFile)])
    (show chr '.' ∉ ascii "a" by decide) (show 0 ∉ ascii "S" by decide)
    (show 0 ∉ ascii "K" by decide) (7 : Int)
  exact ⟨hfound, hagree.1.symm.trans hfound⟩

end Getter

/-! ## Valid integers -/

/-- A text that is nothing but digits, and at least one. -/
def numeralIn (base : Nat) (text : Bytes) : Option Nat :=
  if text ≠ [] ∧ text.all (digitValue · < base) then some (numeral base (text.map digitValue))
  else none

/-- A valid integer: a decimal with an optional sign, or a hexadecimal with `0x` before it. -/
def literal (text : Bytes) : Option Int :=
  if text.head? = some (chr '-') then (numeralIn 10 text.tail).map fun n : Nat => -(n : Int)
  else if text.head? = some (chr '+') then (numeralIn 10 text.tail).map fun n : Nat => (n : Int)
  else if text.take 2 = ascii "0x" ∨ text.take 2 = ascii "0X" then
    (numeralIn 16 (text.drop 2)).map fun n : Nat => (n : Int)
  else (numeralIn 10 text).map fun n : Nat => (n : Int)

inductive IntegerGetter where
  | long | uInt | int
  deriving DecidableEq, Repr

/-- The numbers the output variable of a getter can hold. -/
def IntegerGetter.Fits (model : DataModel) : IntegerGetter → Int → Prop
  | .long, n => -2 ^ (longBits model - 1) ≤ n ∧ n < 2 ^ (longBits model - 1)
  | .uInt, n => 0 ≤ n ∧ n < 2 ^ 32
  | .int, n => -2 ^ 31 ≤ n ∧ n < 2 ^ 31

instance (model : DataModel) (g : IntegerGetter) (n : Int) : Decidable (g.Fits model n) := by
  cases g <;> exact inferInstanceAs (Decidable (_ ∧ _))

/-- A call of an integer getter, in one of its two forms. -/
inductive IntegerCall where
  | dotted (g : IntegerGetter) (key : Bytes)
  | fourArgument (g : IntegerGetter) (section_ key filename : Bytes)
  deriving DecidableEq, Repr

namespace IntegerCall

def getter : IntegerCall → IntegerGetter
  | .dotted g _ | .fourArgument g _ _ _ => g

def run (model : DataModel) (config : Config) (value : Int) : IntegerCall → Status × Int
  | .dotted .long key => config.getLong model key value
  | .dotted .uInt key => config.getUInt model key value
  | .dotted .int key => config.getInt model key value
  | .fourArgument .long section_ key filename =>
      config.getSectionLong model section_ key value filename
  | .fourArgument .uInt section_ key filename => config.getSectionUInt section_ key value filename
  | .fourArgument .int section_ key filename =>
      config.getSectionInt model section_ key value filename

/-- `GetString` with the same key: the text the getter is about. -/
def getString (config : Config) : IntegerCall → Status × Bytes
  | .dotted _ key => config.getString key []
  | .fourArgument _ section_ key filename => config.getSectionString section_ key [] filename

/-- What the call should return when the text stored is `text`. -/
def expected (model : DataModel) (text : Bytes) (value : Int) (call : IntegerCall) : Status × Int :=
  match literal text with
  | some n => if call.getter.Fits model n then (.OK, n) else (.FAILED, value)
  | none => (.FAILED, value)

end IntegerCall

/-! ## What `strtol` makes of a text -/

/-- What follows an optional sign. -/
def unsigned (s : Bytes) : Bytes :=
  if s.head? = some (chr '-') || s.head? = some (chr '+') then s.tail else s

/-- The digits of a subject sequence, read in the base they ask for. -/
def magnitude (s : Bytes) : Option Nat :=
  let digits := ((strtolBase s).2.map digitValue).takeWhile (· < (strtolBase s).1)
  if digits = [] then none else some (numeral (strtolBase s).1 digits)

def clamp (model : DataModel) (n : Int) : Int :=
  max (-2 ^ (longBits model - 1)) (min (2 ^ (longBits model - 1) - 1) n)

def startsWithDigit (s : Bytes) : Bool := s.head?.any isdigit

/-- A leading zero with another digit behind it, which `strtol` takes for octal. -/
def octal : Bytes → Bool
  | zero :: d :: _ => zero = chr '0' && isdigit d
  | _ => false

theorem clamp_neg (model : DataModel) (n : Nat) :
    clamp model (-(n : Int)) = max (-2 ^ (longBits model - 1)) (-(n : Int)) := by
  have hbound : (0 : Int) < 2 ^ (longBits model - 1) := Int.pow_pos (by decide)
  unfold clamp
  omega

theorem clamp_natCast (model : DataModel) (n : Nat) :
    clamp model n = min (2 ^ (longBits model - 1) - 1) (n : Int) := by
  have hbound : (0 : Int) < 2 ^ (longBits model - 1) := Int.pow_pos (by decide)
  unfold clamp
  omega

theorem strtol_eq (model : DataModel) (s : Bytes) :
    strtol model s =
      (magnitude (unsigned (s.dropWhile isspace))).map fun n : Nat =>
        clamp model (if (s.dropWhile isspace).head? = some (chr '-') then -(n : Int) else n) := by
  unfold strtol magnitude
  generalize s.dropWhile isspace = s
  have hsubject : (if s.head? = some (chr '-') || s.head? = some (chr '+') then s.tail else s) =
      unsigned s := rfl
  simp only [hsubject]
  split
  · rfl
  · by_cases hnegative : s.head? = some (chr '-')
    · simp only [hnegative, decide_true, if_true, Option.map_some, clamp_neg]
      rfl
    · simp only [hnegative, decide_false, if_false, Bool.false_eq_true, Option.map_some,
        clamp_natCast]
      rfl

theorem digitValue_lt_ten (c : UInt8) : digitValue c < 10 ↔ isdigit c = true := by
  revert c
  apply forall_byte
  decide +kernel

/-- The three bases, and what each asks of the text. -/
theorem strtolBase_cases (s : Bytes) :
    (∃ x d rest, s = chr '0' :: x :: d :: rest ∧ tolower x = chr 'x' ∧ digitValue d < 16 ∧
        strtolBase s = (16, d :: rest)) ∨
      (∃ c rest, s = chr '0' :: c :: rest ∧ strtolBase s = (8, s)) ∨
      (octal s = false ∧ strtolBase s = (10, s)) := by
  match s with
  | [] => exact Or.inr (Or.inr ⟨rfl, rfl⟩)
  | [c] => exact Or.inr (Or.inr ⟨rfl, rfl⟩)
  | zero :: x :: rest =>
    by_cases hzero : zero = chr '0'
    · subst hzero
      by_cases hhex : (tolower x = chr 'x' && (rest.head?.map digitValue).getD 36 < 16) = true
      · cases rest with
        | nil => simp at hhex
        | cons d rest =>
          have hbase : strtolBase (chr '0' :: x :: d :: rest) = (16, d :: rest) := by
            simp only [strtolBase, if_true, hhex]
          have hparts := Bool.and_eq_true_iff.mp hhex
          exact Or.inl ⟨x, d, rest, rfl, of_decide_eq_true hparts.1, of_decide_eq_true hparts.2, hbase⟩
      · refine Or.inr (Or.inl ⟨x, rest, rfl, ?_⟩)
        simp only [strtolBase, if_true, hhex]
        rfl
    · refine Or.inr (Or.inr ⟨?_, ?_⟩)
      · simp [octal, hzero]
      · simp only [strtolBase, hzero, if_false]

/-- There is a number exactly where there is a digit. -/
theorem magnitude_eq_none_iff (s : Bytes) : magnitude s = none ↔ startsWithDigit s = false := by
  unfold magnitude startsWithDigit
  rcases strtolBase_cases s with ⟨x, d, rest, rfl, -, hd, hbase⟩ | ⟨c, rest, rfl, hbase⟩ | ⟨-, hbase⟩
  · simp [hbase, hd, show isdigit (chr '0') = true by decide]
  · simp [hbase, show digitValue (chr '0') = 0 by decide, show isdigit (chr '0') = true by decide]
  · rw [hbase]
    cases s with
    | nil => decide
    | cons c rest =>
      have hc := digitValue_lt_ten c
      by_cases hdigit : isdigit c = true
      · simp [hdigit, hc.mpr hdigit]
      · simp [hdigit, mt hc.mp hdigit]

theorem numeralIn_eq_some {base : Nat} {text : Bytes} {n : Nat} (h : numeralIn base text = some n) :
    text ≠ [] ∧ (∀ c ∈ text, digitValue c < base) ∧ numeral base (text.map digitValue) = n := by
  unfold numeralIn at h
  split at h
  case isTrue hdigits =>
    have hall : ∀ c ∈ text, digitValue c < base := by simpa using hdigits.2
    exact ⟨hdigits.1, hall, Option.some.inj h⟩
  case isFalse => cases h

theorem takeWhile_map_digitValue {base : Nat} {text : Bytes} (h : ∀ c ∈ text, digitValue c < base) :
    (text.map digitValue).takeWhile (· < base) = text.map digitValue := by
  apply List.takeWhile_eq_self_iff.mpr
  intro d hd
  obtain ⟨c, hc, rfl⟩ := List.mem_map.mp hd
  exact decide_eq_true (h c hc)

/-- A decimal is read as it is meant, unless its leading zero makes it octal and it is not a single
octal digit. -/
theorem magnitude_decimal {text : Bytes} {n : Nat} (h : numeralIn 10 text = some n) :
    ∃ m, magnitude text = some m ∧
      ((m = n ∧ ¬ (octal text = true ∧ 8 ≤ n)) ∨ (m < n ∧ octal text = true ∧ 8 ≤ n)) := by
  obtain ⟨hne, hdigits, rfl⟩ := numeralIn_eq_some h
  unfold magnitude
  rcases strtolBase_cases text with ⟨x, d, rest, rfl, hx, -, -⟩ | ⟨c, rest, rfl, hbase⟩ | ⟨hoctal, hbase⟩
  · have hletter : ∀ x : UInt8, tolower x = chr 'x' → ¬ digitValue x < 10 := by
      apply forall_byte
      decide +kernel
    exact absurd (hdigits x (by simp)) (hletter x hx)
  · have hoctal : octal (chr '0' :: c :: rest) = true := by
      simp [octal, (digitValue_lt_ten c).mp (hdigits c (by simp))]
    have hread : ((chr '0' :: c :: rest).map digitValue).takeWhile (· < 8) ≠ [] := by
      simp [show digitValue (chr '0') = 0 by decide]
    rw [hbase]
    refine ⟨_, if_neg hread, ?_⟩
    rcases numeral_takeWhile_cases (by decide : 0 < 8) (by decide : 8 < 10)
      ((chr '0' :: c :: rest).map digitValue) with hsame | hbehind
    · exact Or.inl ⟨hsame.1, fun hbad => absurd hsame.2 (Nat.not_lt.mpr hbad.2)⟩
    · exact Or.inr ⟨hbehind.1, hoctal, hbehind.2⟩
  · rw [hbase, takeWhile_map_digitValue hdigits]
    refine ⟨_, if_neg (by simpa using hne), Or.inl ⟨rfl, ?_⟩⟩
    simp [hoctal]

theorem magnitude_hexadecimal {text : Bytes} {n : Nat} (h : numeralIn 16 text = some n) {x : UInt8}
    (hx : tolower x = chr 'x') : magnitude (chr '0' :: x :: text) = some n := by
  obtain ⟨hne, hdigits, rfl⟩ := numeralIn_eq_some h
  obtain ⟨d, rest, rfl⟩ := List.exists_cons_of_ne_nil hne
  have hbase : strtolBase (chr '0' :: x :: d :: rest) = (16, d :: rest) := by
    simp [strtolBase, hx, hdigits d (by simp)]
  unfold magnitude
  rw [hbase, takeWhile_map_digitValue hdigits]
  exact if_neg (by simp)

theorem literal_cases {text : Bytes} {v : Int} (h : literal text = some v) :
    (∃ digits n, text = chr '-' :: digits ∧ numeralIn 10 digits = some n ∧ v = -(n : Int)) ∨
      (∃ digits n, text = chr '+' :: digits ∧ numeralIn 10 digits = some n ∧ v = n) ∨
      (∃ x digits n, text = chr '0' :: x :: digits ∧ tolower x = chr 'x' ∧
        numeralIn 16 digits = some n ∧ v = n) ∨
      (∃ n, numeralIn 10 text = some n ∧ v = n) := by
  unfold literal at h
  split at h
  case isTrue hminus =>
    obtain ⟨n, hn, rfl⟩ := Option.map_eq_some_iff.mp h
    exact Or.inl ⟨_, n, List.eq_cons_of_mem_head? hminus, hn, rfl⟩
  case isFalse =>
    split at h
    case isTrue hplus =>
      obtain ⟨n, hn, rfl⟩ := Option.map_eq_some_iff.mp h
      exact Or.inr (Or.inl ⟨_, n, List.eq_cons_of_mem_head? hplus, hn, rfl⟩)
    case isFalse =>
      split at h
      case isTrue hhex =>
        obtain ⟨n, hn, rfl⟩ := Option.map_eq_some_iff.mp h
        have htext := List.take_append_drop 2 text
        rcases hhex with hx | hx
        · rw [hx] at htext
          exact Or.inr (Or.inr (Or.inl ⟨chr 'x', _, n, htext.symm, by decide, hn, rfl⟩))
        · rw [hx] at htext
          exact Or.inr (Or.inr (Or.inl ⟨chr 'X', _, n, htext.symm, by decide, hn, rfl⟩))
      case isFalse =>
        obtain ⟨n, hn, rfl⟩ := Option.map_eq_some_iff.mp h
        exact Or.inr (Or.inr (Or.inr ⟨n, hn, rfl⟩))

/-- A digit of a literal is no blank, no sign and no terminator. -/
theorem digitValue_excludes {c : UInt8} (h : digitValue c < 16) :
    isspace c = false ∧ c ≠ chr '-' ∧ c ≠ chr '+' ∧ c ≠ 0 := by
  revert c
  apply forall_byte
  decide +kernel

theorem longOf_of_clean (model : DataModel) {c : UInt8} {rest : Bytes} (hc : isspace c = false)
    (hnul : ∀ b ∈ c :: rest, b ≠ 0) :
    Contents.longOf model (c :: rest) = (magnitude (unsigned (c :: rest))).map fun n : Nat =>
      clamp model (if c = chr '-' then -(n : Int) else n) := by
  have hskip : (c :: rest).dropWhile isspace = c :: rest := by
    rw [List.dropWhile_cons_of_neg (by simp [hc])]
  rw [Contents.longOf, cStr_of_ne_zero hnul, strtol_eq, hskip]
  simp

/-- `r` is read where `v` stands: the two are the same, or a leading zero misled the reader to a
number nearer to zero. -/
def ReadFor (text : Bytes) (v r : Int) : Prop :=
  (r = v ∧ ¬ (octal (unsigned text) = true ∧ 8 ≤ v.natAbs)) ∨
    (((0 ≤ r ∧ r < v) ∨ (v < r ∧ r ≤ 0)) ∧ octal (unsigned text) = true ∧ 8 ≤ v.natAbs)

/-- Decimal digits, with the sign that stands before them. -/
theorem longOf_decimal (model : DataModel) {c : UInt8} {rest digits : Bytes} {n : Nat}
    (hc : isspace c = false) (hnul : ∀ b ∈ c :: rest, b ≠ 0)
    (hsign : unsigned (c :: rest) = digits) (hn : numeralIn 10 digits = some n) :
    ∃ r, Contents.longOf model (c :: rest) = some (clamp model r) ∧
      ReadFor (c :: rest) (if c = chr '-' then -(n : Int) else n) r := by
  obtain ⟨m, hm, hread⟩ := magnitude_decimal hn
  refine ⟨if c = chr '-' then -(m : Int) else m, ?_, ?_⟩
  · rw [longOf_of_clean model hc hnul, hsign, hm]
    rfl
  · unfold ReadFor
    rw [hsign]
    by_cases hminus : c = chr '-'
    · rw [if_pos hminus, if_pos hminus, Int.natAbs_neg, Int.natAbs_natCast]
      rcases hread with ⟨rfl, hplain⟩ | ⟨hbehind, hoctal⟩
      · exact Or.inl ⟨rfl, hplain⟩
      · exact Or.inr ⟨Or.inr (by omega), hoctal⟩
    · rw [if_neg hminus, if_neg hminus, Int.natAbs_natCast]
      rcases hread with ⟨rfl, hplain⟩ | ⟨hbehind, hoctal⟩
      · exact Or.inl ⟨rfl, hplain⟩
      · exact Or.inr ⟨Or.inl (by omega), hoctal⟩

/-- **What `strtol` makes of a valid integer**: that integer, clamped; or, when a leading zero
misleads it, one that is nearer to zero. -/
theorem longOf_literal (model : DataModel) {text : Bytes} {v : Int} (h : literal text = some v) :
    ∃ r, Contents.longOf model text = some (clamp model r) ∧ ReadFor text v r := by
  have hnul : ∀ {base : Nat} {digits : Bytes} {n : Nat}, base ≤ 16 →
      numeralIn base digits = some n → ∀ b ∈ digits, b ≠ 0 := by
    intro base digits n hbase hn b hb
    have hdigit := (numeralIn_eq_some hn).2.1 b hb
    exact (digitValue_excludes (by omega)).2.2.2
  rcases literal_cases h with ⟨digits, n, rfl, hn, rfl⟩ | ⟨digits, n, rfl, hn, rfl⟩ |
    ⟨x, digits, n, rfl, hx, hn, rfl⟩ | ⟨n, hn, rfl⟩
  · have hclean : ∀ b ∈ chr '-' :: digits, b ≠ 0 :=
      List.forall_mem_cons.mpr ⟨by decide, hnul (by decide) hn⟩
    exact longOf_decimal model rfl hclean rfl hn
  · have hclean : ∀ b ∈ chr '+' :: digits, b ≠ 0 :=
      List.forall_mem_cons.mpr ⟨by decide, hnul (by decide) hn⟩
    exact longOf_decimal model rfl hclean rfl hn
  · have hletter : ∀ x : UInt8, tolower x = chr 'x' → x ≠ 0 ∧ isdigit x = false := by
      apply forall_byte
      decide +kernel
    have hsign : unsigned (chr '0' :: x :: digits) = chr '0' :: x :: digits := rfl
    have hclean : ∀ b ∈ chr '0' :: x :: digits, b ≠ 0 :=
      List.forall_mem_cons.mpr ⟨by decide, List.forall_mem_cons.mpr
        ⟨(hletter x hx).1, hnul (by decide) hn⟩⟩
    refine ⟨(n : Int), ?_, Or.inl ⟨rfl, ?_⟩⟩
    · rw [longOf_of_clean model rfl hclean, hsign, magnitude_hexadecimal hn hx]
      rfl
    · simp [hsign, octal, (hletter x hx).2]
  · obtain ⟨hne, hdigits, -⟩ := numeralIn_eq_some hn
    obtain ⟨c, rest, rfl⟩ := List.exists_cons_of_ne_nil hne
    obtain ⟨hblank, hminus, hplus, -⟩ :=
      digitValue_excludes (Nat.lt_trans (hdigits c (by simp)) (by decide))
    have hsign : unsigned (c :: rest) = c :: rest := by simp [unsigned, hminus, hplus]
    have hread := longOf_decimal model hblank (hnul (by decide) hn) hsign hn
    rwa [if_neg hminus] at hread

/-- No number stands at the start of the text. -/
def Unnumbered (text : Bytes) : Prop := startsWithDigit (unsigned (text.dropWhile isspace)) = false

theorem dropWhile_isspace_cStr (text : Bytes) :
    (cStr text).dropWhile isspace = cStr (text.dropWhile isspace) := by
  unfold cStr
  induction text with
  | nil => rfl
  | cons c rest ih =>
    by_cases hc : c = 0
    · subst hc
      rfl
    · rw [List.takeWhile_cons_of_pos (by simpa using hc)]
      by_cases hblank : isspace c = true
      · rw [List.dropWhile_cons_of_pos hblank, List.dropWhile_cons_of_pos hblank]
        exact ih
      · rw [List.dropWhile_cons_of_neg hblank, List.dropWhile_cons_of_neg hblank,
          List.takeWhile_cons_of_pos (by simpa using hc)]

/-- A terminator is neither a sign nor a digit, so it does not matter that `strtol` stops there. -/
theorem startsWithDigit_cStr (s : Bytes) :
    startsWithDigit (unsigned (cStr s)) = startsWithDigit (unsigned s) := by
  have hhead : ∀ s : Bytes, startsWithDigit (cStr s) = startsWithDigit s := by
    intro s
    cases s with
    | nil => rfl
    | cons c rest =>
      by_cases hc : c = 0
      · subst hc
        rfl
      · simp [startsWithDigit, cStr, hc]
  cases s with
  | nil => rfl
  | cons c rest =>
    by_cases hsign : c = chr '-' ∨ c = chr '+'
    · rcases hsign with rfl | rfl <;> exact hhead rest
    · have hkeep : ∀ s : Bytes, s.head? ≠ some (chr '-') → s.head? ≠ some (chr '+') →
          unsigned s = s := by
        intro s hminus hplus
        simp [unsigned, hminus, hplus]
      obtain ⟨hminus, hplus⟩ := not_or.mp hsign
      rw [hkeep (c :: rest) (by simpa using hminus) (by simpa using hplus)]
      by_cases hc : c = 0
      · subst hc
        rfl
      · have hcons : cStr (c :: rest) = c :: cStr rest := by simp [cStr, hc]
        rw [hcons, hkeep (c :: cStr rest) (by simpa using hminus) (by simpa using hplus)]
        rfl

theorem longOf_eq_none_iff (model : DataModel) (text : Bytes) :
    Contents.longOf model text = none ↔ Unnumbered text := by
  rw [Contents.longOf, strtol_eq, Option.map_eq_none_iff, magnitude_eq_none_iff,
    dropWhile_isspace_cStr, startsWithDigit_cStr]
  rfl

/-! ## The getters keep to it exactly when -/

/-- The conversion to the type of the output variable. -/
def IntegerGetter.cast : IntegerGetter → Int → Int
  | .long => id
  | .uInt => toUInt32
  | .int => toInt32

/-- What comes out of a number that `strtol` read, on the way to one that fits. -/
theorem IntegerGetter.cast_clamp_eq_iff {model : DataModel} {g : IntegerGetter} {r v : Int}
    (hfits : g.Fits model v) (hnear : r = v ∨ (0 ≤ r ∧ r < v) ∨ (v < r ∧ r ≤ 0)) :
    g.cast (clamp model r) = v ↔ r = v ∧ IntegerGetter.long.Fits model v := by
  cases g <;> cases model <;>
    simp only [Fits, cast, clamp, longBits, toUInt32, toInt32, id_eq] at hfits ⊢ <;> omega

namespace IntegerCall

/-- The texts on which a getter does what it should. A stub fails on every text, and that is right
on what is not a number it could return. -/
def Exact (model : DataModel) (text : Bytes) : IntegerCall → Prop
  | .fourArgument .uInt _ _ _ => ∀ n, literal text = some n → ¬ IntegerGetter.uInt.Fits model n
  | call =>
      Unnumbered text ∨
        ∃ n, literal text = some n ∧ call.getter.Fits model n ∧ IntegerGetter.long.Fits model n ∧
          ¬ (octal (unsigned text) = true ∧ 8 ≤ n.natAbs)

section

variable {model : DataModel} {config : Config} {text : Bytes}

/-- What a getter makes of a stored text. -/
def reads (model : DataModel) (g : IntegerGetter) (text : Bytes) (value : Int) : Status × Int :=
  match Contents.longOf model text with
  | some n => (.OK, g.cast n)
  | none => (.FAILED, value)

theorem dotted_run (g : IntegerGetter) {key : Bytes}
    (h : getString config (.dotted g key) = (.OK, text)) (value : Int) :
    run model config value (.dotted g key) = reads model g text value := by
  simp only [getString, Config.getString, Config.dotted] at h
  cases hfind : config.find (Config.splitKey key).1 with
  | none =>
    rw [hfind] at h
    cases h
  | some file =>
    rw [hfind] at h
    have htext : file.getString (lower (Config.splitKey key).2) [] = (.OK, text) := h
    cases g <;>
      simp only [run, Config.getLong, Config.getUInt, Config.getInt, Config.dotted, hfind,
        Contents.getLong, htext, Contents.parsed, reads, IntegerGetter.cast, id_eq] <;>
      cases Contents.longOf model text <;> rfl

theorem fourArgument_run {g : IntegerGetter} (hg : g ≠ .uInt) {section_ key filename : Bytes}
    (h : getString config (.fourArgument g section_ key filename) = (.OK, text)) (value : Int) :
    run model config value (.fourArgument g section_ key filename) = reads model g text value := by
  simp only [getString, Config.getSectionString, Config.inFile] at h
  cases hfind : config.find filename with
  | none =>
    rw [hfind] at h
    cases h
  | some file =>
    rw [hfind] at h
    have htext : file.getSectionString (cStr section_) (cStr key) [] = (.OK, text) := h
    cases g with
    | uInt => exact absurd rfl hg
    | long | int =>
      simp only [run, Config.getSectionLong, Config.getSectionInt, Config.inFile, hfind,
        Contents.getSectionLong, htext, Contents.parsed, reads, IntegerGetter.cast, id_eq]
      cases Contents.longOf model text <;> rfl

/-- The heart of it: reading against meaning, for one text. -/
theorem reads_eq_iff (g : IntegerGetter) (value : Int) :
    reads model g text value =
        (match literal text with
          | some n => if g.Fits model n then (.OK, n) else (.FAILED, value)
          | none => (.FAILED, value)) ↔
      Unnumbered text ∨
        ∃ n, literal text = some n ∧ g.Fits model n ∧ IntegerGetter.long.Fits model n ∧
          ¬ (octal (unsigned text) = true ∧ 8 ≤ n.natAbs) := by
  unfold reads
  cases hliteral : literal text with
  | none =>
    cases hlong : Contents.longOf model text with
    | none => simp [(longOf_eq_none_iff model text).mp hlong]
    | some m =>
      have hnumbered : ¬ Unnumbered text := by
        rw [← longOf_eq_none_iff model, hlong]
        simp
      simp [hnumbered]
  | some n =>
    obtain ⟨r, hr, hread⟩ := longOf_literal model hliteral
    have hnumbered : ¬ Unnumbered text := by
      rw [← longOf_eq_none_iff model, hr]
      simp
    rw [hr]
    by_cases hfits : g.Fits model n
    · have hnear : r = n ∨ (0 ≤ r ∧ r < n) ∨ (n < r ∧ r ≤ 0) :=
        hread.imp (fun hsame => hsame.1) (fun hmisled => hmisled.1)
      have hcast := IntegerGetter.cast_clamp_eq_iff hfits hnear
      have hexact : r = n ↔ ¬ (octal (unsigned text) = true ∧ 8 ≤ n.natAbs) := by
        rcases hread with ⟨hsame, hplain⟩ | ⟨hbehind, hoctal⟩
        · exact iff_of_true hsame hplain
        · exact iff_of_false (by omega) (not_not.mpr hoctal)
      simp only [if_pos hfits, Prod.mk.injEq, true_and, hcast, hexact, hnumbered, false_or,
        Option.some.injEq, exists_eq_left']
      exact ⟨fun h => ⟨hfits, h.2, h.1⟩, fun h => ⟨h.2.2, h.2.1⟩⟩
    · simp [hfits, hnumbered]

/-- **Exactly when an integer getter is exact or fails.** -/
theorem run_eq_expected_iff {call : IntegerCall} (h : call.getString config = (.OK, text))
    (value : Int) :
    call.run model config value = call.expected model text value ↔ call.Exact model text := by
  match call with
  | .dotted g key =>
    rw [dotted_run g h]
    exact reads_eq_iff g value
  | .fourArgument .long section_ key filename =>
    rw [fourArgument_run (by decide) h]
    exact reads_eq_iff .long value
  | .fourArgument .int section_ key filename =>
    rw [fourArgument_run (by decide) h]
    exact reads_eq_iff .int value
  | .fourArgument .uInt section_ key filename =>
    simp only [run, Config.getSectionUInt, expected, getter, Exact]
    cases literal text with
    | none => simp
    | some n =>
      by_cases hfits : IntegerGetter.uInt.Fits model n
      · simp [hfits]
      · simp [hfits]

end

/-- `GetInt` on `k=1`. -/
theorem run_eq_expected_one :
    getString (Config.run [.load (ascii "a") (some numberFile)])
        (.dotted .int (ascii "a.s.k")) = (.OK, ascii "1") ∧
      run .LP64 (Config.run [.load (ascii "a") (some numberFile)]) 7
          (.dotted .int (ascii "a.s.k")) =
        expected .LP64 (ascii "1") 7 (.dotted .int (ascii "a.s.k")) := by
  have hstored : getString (Config.run [.load (ascii "a") (some numberFile)])
      (.dotted .int (ascii "a.s.k")) = (.OK, ascii "1") := by decide
  exact ⟨hstored, (run_eq_expected_iff hstored 7).mpr
    (Or.inr ⟨1, by decide, by decide, by decide, by decide⟩)⟩

/-- `k=12abc` is no number, and `GetInt` returns 12. -/
theorem not_exact_trailing :
    ¬ ∀ (model : DataModel) (config : Config) (call : IntegerCall) (text : Bytes) (value : Int),
      call.getString config = (.OK, text) →
      call.run model config value = call.expected model text value := by
  intro h
  have hwrong := h .LP64 (Config.run [.load (ascii "a") (some (ascii "[s]\nk=12abc\n"))])
    (.dotted .int (ascii "a.s.k")) (ascii "12abc") 7 (by decide)
  exact absurd hwrong (by decide)

end IntegerCall

end ServerTest.Configuration
