import ServerTest.Core.Utf8Cpp

/-!
# `Utf8toWStr` and `WStrToUtf8`

The conversions of `StringUtils.cpp` between UTF-8 and UTF-16 strings (`wchar_t` is 16 bits). Both size
their output first and let utf8cpp write into it through a pointer. `WStrToUtf8` makes room for four
bytes a unit and cuts the rest off; `Utf8toWStr` makes room for one unit a code point, which is one too
few for every code point above `U+FFFF`, and leaves its output alone where there is nothing to write.
-/

set_option autoImplicit false

namespace ServerTest.Core

open Lib Utf8

/-- `try { body } catch (std::exception) { … }`, where the handler returns `handled`. -/
def catchException {α : Type} (handled : α) (body : Except Stop α) : Except Fault α :=
  match body with
  | .ok result => .ok result
  | .error (.exception _) => .ok handled
  | .error (.fault fault) => .error fault

/-- `resize` of a string. -/
def resize {α : Type} (zero : α) (xs : List α) (len : Nat) : List α :=
  xs.take len ++ List.replicate (len - xs.length) zero

/-- The result, and what the output variable holds afterwards. -/
def utf8toWStr (utf8str : Bytes) (wstr : List UInt16) : Except Fault (Bool × List UInt16) :=
  catchException (false, []) do
    let len ← distance utf8str
    if len ≠ 0 then
      let result ← utf8to16 utf8str ⟨resize 0 wstr len, 0⟩
      return (true, result.allocation)
    else return (true, wstr)

/-- The body of both overloads of `WStrToUtf8`, on the units each is given. -/
def unitsToUtf8 (units : List UInt16) : Except Fault (Bool × Bytes) :=
  catchException (false, []) do
    -- allocate for most long case
    let utf8str2 := resize 0 [] (units.length * 4)
    if units.length ≠ 0 then
      let oend ← utf16to8 units ⟨utf8str2, 0⟩
      -- remove unused tail
      return (true, resize 0 oend.allocation oend.position)
    else return (true, utf8str2)

/-- `WStrToUtf8(std::wstring const&, std::string&)`. What the output holds before is not read. -/
def wStrToUtf8 (wstr : List UInt16) (_utf8str : Bytes) : Except Fault (Bool × Bytes) := unitsToUtf8 wstr

/-- `WStrToUtf8(wchar_t*, size_t, std::string&)`, with the allocation the pointer points to. -/
def wStrToUtf8Sized (wstr : List UInt16) (size : Nat) (_utf8str : Bytes) :
    Except Fault (Bool × Bytes) :=
  if size ≤ wstr.length then unitsToUtf8 (wstr.take size) else .error .outOfBounds

theorem written_nil {α : Type} (room : List α) : (⟨room, 0⟩ : Output α) = .written [] room := rfl

theorem length_resize {α : Type} (zero : α) (xs : List α) (len : Nat) :
    (resize zero xs len).length = len := by
  rw [resize, List.length_append, List.length_take, List.length_replicate]
  omega

/-- The two overloads agree. -/
theorem wStrToUtf8Sized_eq (w behind : List UInt16) (utf8str : Bytes) :
    wStrToUtf8Sized (w ++ behind) w.length utf8str = wStrToUtf8 w utf8str := by
  rw [wStrToUtf8Sized, if_pos (by simp), List.take_left]
  rfl

/-- `WStrToUtf8` on well-formed input. -/
theorem wStrToUtf8_text (text : List Char) (utf8str : Bytes) :
    wStrToUtf8 (utf16Encode text) utf8str = .ok (true, utf8Encode text) := by
  rw [wStrToUtf8, unitsToUtf8]
  cases text with
  | nil => rfl
  | cons c text =>
    have hle := length_le_utf16Encode (c :: text)
    have hroom : (utf8Encode (c :: text)).length ≤
        (resize (0 : UInt8) [] ((utf16Encode (c :: text)).length * 4)).length := by
      rw [length_resize, Nat.mul_comm]
      exact length_utf8Encode_le (c :: text)
    rw [List.length_cons] at hle
    rw [if_pos (by omega), written_nil, utf16to8_text, Output.putAll_written [] hroom]
    simp [catchException, bind, Except.bind, pure, Except.pure, Output.written, resize]
    
theorem wStrToUtf8_illFormed {w : List UInt16} (h : ¬ WellFormedUtf16 w) (utf8str : Bytes) :
    wStrToUtf8 w utf8str = .ok (false, []) := by
  have hne : w.length ≠ 0 := by
    intro hnil
    rw [List.length_eq_zero_iff.mp hnil] at h
    exact h ⟨[], rfl⟩
  have hroom : 4 * w.length ≤ (resize (0 : UInt8) [] (w.length * 4)).length := by
    rw [length_resize]
    omega
  obtain ⟨e, he⟩ := utf16to8_illFormed h [] hroom
  rw [wStrToUtf8, unitsToUtf8, if_pos hne, written_nil, he]
  rfl

theorem utf8toWStr_nil (wstr : List UInt16) : utf8toWStr [] wstr = .ok (true, wstr) := by
  have hzero : distance [] = .ok 0 := distance_text []
  rw [utf8toWStr, hzero]
  rfl

/-- `Utf8toWStr` on well-formed input that is not empty: what it writes is right, and fits if and only
if no code point takes two units. -/
theorem utf8toWStr_text {text : List Char} (hne : text ≠ []) (wstr : List UInt16) :
    utf8toWStr (utf8Encode text) wstr =
      if (utf16Encode text).length = text.length then .ok (true, utf16Encode text)
      else .error .outOfBounds := by
  have hlen : text.length ≠ 0 := fun h => hne (List.length_eq_zero_iff.mp h)
  have hroom := length_resize (0 : UInt16) wstr text.length
  rw [utf8toWStr, distance_text]
  show catchException _ (if text.length ≠ 0 then _ else _) = _
  rw [if_pos hlen, written_nil, utf8to16_text]
  split
  · rename_i hfits
    have hdrop : (resize 0 wstr text.length).drop (utf16Encode text).length = [] :=
      List.drop_of_length_le (by omega)
    rw [Output.putAll_written [] (by omega), hdrop]
    show Except.ok (true, [] ++ utf16Encode text ++ []) = _
    rw [List.append_nil, List.nil_append]
  · rename_i hover
    have hle := length_le_utf16Encode text
    rw [Output.putAll_overflow [] (by omega)]
    rfl

theorem utf8toWStr_illFormed {s : Bytes} (h : ¬ WellFormedUtf8 s) (wstr : List UInt16) :
    utf8toWStr s wstr = .ok (false, []) := by
  obtain ⟨e, he⟩ := forEachCodePoint_illFormed (fun dist _ => ⟨dist + 1, rfl⟩) h 0
  rw [utf8toWStr, distance, he]
  rfl

/-- A string goes to UTF-8, in no more room than was made for it, and comes back. -/
def RoundTrips (w : List UInt16) (utf8str : Bytes) (wstr : List UInt16) : Prop :=
  ∃ s, wStrToUtf8 w utf8str = .ok (true, s) ∧ s.length ≤ 4 * w.length ∧
    utf8toWStr s wstr = .ok (true, w)

theorem roundTrips_iff (text : List Char) (utf8str : Bytes) (wstr : List UInt16) :
    RoundTrips (utf16Encode text) utf8str wstr ↔
      (∀ unit ∈ utf16Encode text, ¬ IsSurrogate unit) ∧ (utf16Encode text = [] → wstr = []) := by
  have hto := wStrToUtf8_text text utf8str
  constructor
  · rintro ⟨s, hs, -, hback⟩
    rw [hto] at hs
    cases hs
    cases text with
    | nil =>
      have hkept := (utf8toWStr_nil wstr).symm.trans hback
      cases hkept
      exact ⟨fun _ hmem => (List.not_mem_nil hmem).elim, fun _ => rfl⟩
    | cons c text =>
      rw [utf8toWStr_text (List.cons_ne_nil c text)] at hback
      split at hback
      · rename_i hfits
        refine ⟨(length_utf16Encode_eq_iff _).mp hfits, fun hnil => ?_⟩
        rw [hnil] at hfits
        cases hfits
      · cases hback
  · rintro ⟨hbasic, hempty⟩
    refine ⟨_, hto, length_utf8Encode_le text, ?_⟩
    cases text with
    | nil =>
      rw [hempty rfl]
      exact utf8toWStr_nil []
    | cons c text =>
      rw [utf8toWStr_text (List.cons_ne_nil c text), if_pos ((length_utf16Encode_eq_iff _).mpr hbasic)]

/-- **When the conversions are inverse**, and what they do on ill-formed input. A well-formed string
comes back if and only if it has no code point above `U+FFFF` and, where it is empty, the output of
`Utf8toWStr` was empty before; ill-formed input of either is refused in every case. -/
theorem conversions_inverse_iff (w : List UInt16) (s utf8str : Bytes) (wstr : List UInt16) :
    ((WellFormedUtf16 w → RoundTrips w utf8str wstr) ∧
      (¬ WellFormedUtf16 w → wStrToUtf8 w utf8str = .ok (false, [])) ∧
      (¬ WellFormedUtf8 s → utf8toWStr s wstr = .ok (false, []))) ↔
      (WellFormedUtf16 w → (∀ unit ∈ w, ¬ IsSurrogate unit) ∧ (w = [] → wstr = [])) := by
  constructor
  · rintro ⟨hround, -, -⟩ ⟨text, rfl⟩
    exact (roundTrips_iff text utf8str wstr).mp (hround ⟨text, rfl⟩)
  · intro h
    refine ⟨?_, fun hill => wStrToUtf8_illFormed hill utf8str,
      fun hill => utf8toWStr_illFormed hill wstr⟩
    rintro ⟨text, rfl⟩
    exact (roundTrips_iff text utf8str wstr).mpr (h ⟨text, rfl⟩)

/-- `U+1F600` is two units, and `Utf8toWStr` writes the second of them behind its string; and of the
empty string it makes whatever the output held before. -/
theorem conversions_not_inverse :
    (WellFormedUtf16 [0xd83d, 0xde00] ∧
      wStrToUtf8 [0xd83d, 0xde00] [] = .ok (true, [0xf0, 0x9f, 0x98, 0x80]) ∧
      utf8toWStr [0xf0, 0x9f, 0x98, 0x80] [] = .error .outOfBounds ∧
      ¬ RoundTrips [0xd83d, 0xde00] [] []) ∧
    WellFormedUtf16 [] ∧ utf8toWStr [] [0x41] = .ok (true, [0x41]) ∧ ¬ RoundTrips [] [] [0x41] := by
  have hunits : utf16Encode ['😀'] = [0xd83d, 0xde00] := by decide
  have hbytes : utf8Encode ['😀'] = [0xf0, 0x9f, 0x98, 0x80] := by decide
  have hto := wStrToUtf8_text ['😀'] []
  have hback := utf8toWStr_text (List.cons_ne_nil '😀' []) []
  have hsupplementary := roundTrips_iff ['😀'] [] []
  rw [hunits, hbytes] at hto
  rw [hbytes, if_neg (by decide)] at hback
  rw [hunits] at hsupplementary
  refine ⟨⟨⟨['😀'], hunits⟩, hto, hback, fun h => ?_⟩, ⟨[], rfl⟩, utf8toWStr_nil [0x41], fun h => ?_⟩
  · exact (hsupplementary.mp h).1 0xd83d List.mem_cons_self (by decide)
  · have hempty := ((roundTrips_iff [] [] [0x41]).mp h).2 rfl
    cases hempty

end ServerTest.Core
