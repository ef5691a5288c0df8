import ServerTest.Lib.Decimal
import ServerTest.Database.SQLTransaction

/-!
# Placeholders in a transaction

`SetParamInt` and `SetParamString` of `SQLTransaction.h`: they are to put a value where the `idx`-th
`?` of the statement appended last stands. They differ in how the value becomes text.

The search loop calls `find` and drops what it returns, so the cursor counts iterations and not
matches: after the loop it is `idx`. The character there is replaced in a copy of the statement that
ends with the function. So an index past the end of the text throws, any other reports success, and
the stored statement is never edited. `substitutes_iff` says what little of the purpose survives.
-/

set_option autoImplicit false

namespace ServerTest.Database

open Lib

/-- The exceptions of the standard library that can leave these functions. -/
inductive StdException where
  | outOfRange
  deriving DecidableEq, Repr

/-- `std::string::npos` -/
def npos : UInt64 := -1

/-- `s.replace(pos, n, value)` -/
def stringReplace (s : Bytes) (pos n : Nat) (value : Bytes) : Except StdException Bytes :=
  if s.length < pos then .error .outOfRange else .ok (s.take pos ++ value ++ s.drop (pos + n))

/-- `std::to_string` of an `int32`. -/
def stringOfInt (value : Int32) : Bytes := formatD 0 value.toInt

namespace SQLTransaction

/-- The loop, from a value of `searchCursor`. Nothing is made of what `find` returns. -/
def searchCursor : Nat → UInt64 → UInt64
  | 0, cursor => cursor + 1
  | idx + 1, cursor => if cursor + 1 ≠ npos then searchCursor idx (cursor + 1) else cursor + 1

/-- The body the setters share. -/
def setParam (tx : SQLTransaction) (idx : UInt32) (value : Bytes) :
    Except StdException (Status × SQLTransaction) :=
  match tx.statements.getLast? with
  | none => .ok (.FAILED, tx)
  | some stmt => do
    let cursor := searchCursor idx.toNat (-1)
    if cursor ≠ npos then
      -- `stmt` is a copy, and here it ends.
      let _ ← stringReplace stmt cursor.toNat 1 value
      return (.OK, tx)
    else
      return (.FAILED, tx)

def setParamInt (tx : SQLTransaction) (idx : UInt32) (value : Int32) :=
  tx.setParam idx (stringOfInt value)

def setParamString (tx : SQLTransaction) (idx : UInt32) (value : Bytes) := tx.setParam idx value

/-! ## What the setters are for -/

/-- What setting a parameter should come to when `text` is appended to `tx` last: success exactly if
the text has such a `?`, and then the text with `value` in its place; otherwise a failure that
changes nothing. -/
def Substitutes (tx : SQLTransaction) (text : Bytes) (idx : UInt32) (value : Bytes)
    (result : Except StdException (Status × SQLTransaction)) : Prop :=
  ∃ status tx', result = .ok (status, tx') ∧
    (status = .OK ↔ idx.toNat < text.count (chr '?')) ∧
    (status = .OK → ∃ front back, text = front ++ chr '?' :: back ∧
      front.count (chr '?') = idx.toNat ∧
      tx'.statements = tx.statements ++ [front ++ value ++ back]) ∧
    (status ≠ .OK → status = .FAILED ∧ tx'.statements = tx.statements ++ [text])

/-! ## What they do -/

/-- The cursor counts the rounds. -/
theorem toNat_searchCursor : ∀ (idx : Nat) (cursor : UInt64),
    (cursor + 1).toNat + idx < 2 ^ 64 - 1 →
    (searchCursor idx cursor).toNat = (cursor + 1).toNat + idx
  | 0, _, _ => rfl
  | idx + 1, cursor, h => by
    have hnpos : npos.toNat = 2 ^ 64 - 1 := rfl
    have hgo : cursor + 1 ≠ npos := by
      intro heq
      rw [heq, hnpos] at h
      omega
    have hnext : (cursor + 1 + 1).toNat = (cursor + 1).toNat + 1 := by
      rw [UInt64.toNat_add, UInt64.toNat_one]
      exact Nat.mod_eq_of_lt (by omega)
    rw [searchCursor, if_pos hgo, toNat_searchCursor idx (cursor + 1) (by omega), hnext]
    omega

theorem searchCursor_start (idx : UInt32) :
    (searchCursor idx.toNat (-1)).toNat = idx.toNat ∧ searchCursor idx.toNat (-1) ≠ npos := by
  have hidx : idx.toNat < 2 ^ 32 := idx.toNat_lt
  have hzero : ((-1 : UInt64) + 1).toNat = 0 := rfl
  have hcursor : (searchCursor idx.toNat (-1)).toNat = idx.toNat := by
    rw [toNat_searchCursor _ _ (by rw [hzero]; omega), hzero, Nat.zero_add]
  refine ⟨hcursor, fun heq => ?_⟩
  rw [heq, show npos.toNat = 2 ^ 64 - 1 from rfl] at hcursor
  omega

/-- **All a setter does**: it throws or it reports success, by the length of the text, and the
transaction stays as it is. -/
theorem setParam_eq (tx : SQLTransaction) (text : Bytes) (idx : UInt32) (value : Bytes) :
    (tx.appendStatement text).setParam idx value =
      if text.length < idx.toNat then .error .outOfRange else .ok (.OK, tx.appendStatement text) := by
  obtain ⟨hcursor, hfound⟩ := searchCursor_start idx
  have hlast : (tx.appendStatement text).statements.getLast? = some text :=
    List.getLast?_concat
  unfold setParam stringReplace
  rw [hlast]
  simp only [hfound, hcursor, ne_eq, not_false_eq_true, if_true]
  by_cases hlong : text.length < idx.toNat
  · rw [if_pos hlong, if_pos hlong]
    rfl
  · rw [if_neg hlong, if_neg hlong]
    rfl

theorem exists_split_of_lt_count {c : UInt8} :
    ∀ {text : Bytes} {n : Nat}, n < text.count c →
      ∃ front back, text = front ++ c :: back ∧ front.count c = n
  | [], n, h => by simp at h
  | b :: text, n, h => by
    by_cases hb : b = c
    · subst hb
      cases n with
      | zero => exact ⟨[], text, rfl, rfl⟩
      | succ n =>
        rw [List.count_cons_self, Nat.succ_lt_succ_iff] at h
        obtain ⟨front, back, rfl, hcount⟩ := exists_split_of_lt_count h
        exact ⟨b :: front, back, rfl, by rw [List.count_cons_self, hcount]⟩
    · rw [List.count_cons_of_ne hb] at h
      obtain ⟨front, back, rfl, hcount⟩ := exists_split_of_lt_count h
      exact ⟨b :: front, back, rfl, by rw [List.count_cons_of_ne hb, hcount]⟩

/-- The purpose is met only where putting the value in changes nothing. -/
theorem substitutes_setParam_iff (tx : SQLTransaction) (text : Bytes) (idx : UInt32)
    (value : Bytes) :
    Substitutes tx text idx value ((tx.appendStatement text).setParam idx value) ↔
      value = [chr '?'] ∧ idx.toNat < text.count (chr '?') := by
  rw [setParam_eq]
  constructor
  · intro h
    obtain ⟨status, tx', hresult, hok, hedited, -⟩ := h
    by_cases hlong : text.length < idx.toNat
    · rw [if_pos hlong] at hresult
      cases hresult
    · rw [if_neg hlong] at hresult
      cases hresult
      obtain ⟨front, back, htext, -, hstatements⟩ := hedited rfl
      have hsame : front ++ value ++ back = text := by
        have hlists : tx.statements ++ [text] = tx.statements ++ [front ++ value ++ back] :=
          hstatements
        simpa using hlists.symm
      rw [htext, List.append_assoc, List.append_cancel_left_eq,
        show chr '?' :: back = [chr '?'] ++ back from rfl, List.append_cancel_right_eq] at hsame
      exact ⟨hsame, hok.mp rfl⟩
  · intro h
    obtain ⟨rfl, hidx⟩ := h
    have hfits : ¬ text.length < idx.toNat :=
      Nat.not_lt.mpr (Nat.le_trans hidx.le List.count_le_length)
    obtain ⟨front, back, htext, hcount⟩ := exists_split_of_lt_count hidx
    rw [if_neg hfits]
    refine ⟨.OK, tx.appendStatement text, rfl, iff_of_true rfl hidx, fun _ => ?_, fun hfailed => ?_⟩
    · refine ⟨front, back, htext, hcount, ?_⟩
      rw [List.append_assoc, List.singleton_append, ← htext]
      rfl
    · exact absurd rfl hfailed

/-- No number is written as a question mark. -/
theorem stringOfInt_ne_placeholder (value : Int32) : stringOfInt value ≠ [chr '?'] := by
  intro heq
  have hmem : chr '?' ∈ formatD 0 value.toInt := by
    rw [← stringOfInt, heq]
    exact List.mem_singleton_self _
  have hdigit : chr '?' ∉ decimal value.toInt.natAbs := by
    intro h
    exact absurd (isdigit_of_mem_decimal h) (by decide)
  simp only [formatD, Nat.zero_sub, List.replicate_zero, List.nil_append] at hmem
  split at hmem
  · rcases List.mem_cons.mp hmem with hminus | hmem
    · exact absurd hminus (by decide)
    · exact hdigit hmem
  · exact hdigit hmem

/-- **When a parameter is set**: `SetParamInt` never sets one, and `SetParamString` exactly when the
value is the placeholder itself. -/
theorem substitutes_iff (tx : SQLTransaction) (text : Bytes) (idx : UInt32) :
    (∀ value : Int32, ¬ Substitutes tx text idx (stringOfInt value)
        ((tx.appendStatement text).setParamInt idx value)) ∧
      ∀ value : Bytes, Substitutes tx text idx value
          ((tx.appendStatement text).setParamString idx value) ↔
        value = [chr '?'] ∧ idx.toNat < text.count (chr '?') := by
  constructor
  · intro value h
    have hplaceholder := (substitutes_setParam_iff tx text idx (stringOfInt value)).mp h
    exact stringOfInt_ne_placeholder value hplaceholder.1
  · intro value
    exact substitutes_setParam_iff tx text idx value

/-- `SetParamInt(0, 5)` on `a=?` reports success and leaves `a=?`. -/
theorem not_substitutes_first :
    ¬ ∀ (tx : SQLTransaction) (text : Bytes) (idx : UInt32),
      (∀ value : Int32, Substitutes tx text idx (stringOfInt value)
        ((tx.appendStatement text).setParamInt idx value)) ∧
      ∀ value : Bytes, Substitutes tx text idx value
        ((tx.appendStatement text).setParamString idx value) := by
  intro h
  have hset := (h (new 0) (ascii "a=?") 0).1 5
  exact stringOfInt_ne_placeholder 5 ((substitutes_setParam_iff _ _ _ _).mp hset).1

end SQLTransaction

end ServerTest.Database
