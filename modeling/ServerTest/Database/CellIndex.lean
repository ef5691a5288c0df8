import ServerTest.Database.FetchRuns

/-!
# Where a cell is written, and where it is read

The fetch loop and the getters both put cell `(r, c)` at `r * FieldCount + c`, but not in the same
arithmetic. The loop counts rows in a `uint32` and multiplies in `uint32`; the getters take the row from
a cursor of 64 bits and multiply in `uint64`, and take the column as a `uint8`.
-/

set_option autoImplicit false

namespace ServerTest.Database

open Lib

/-- `rowIndex` of the fetch loop, after `r` rows. -/
def rowIndexAfter : Nat → UInt32
  | 0 => 0
  | r + 1 => rowIndexAfter r + 1

/-- `rowIndex * FieldCount + fieldIndex`, in the iteration for cell `(r, c)`. -/
def writtenIndex (fieldCount : UInt32) (r c : Nat) : UInt32 :=
  rowIndexAfter r * fieldCount + UInt32.ofNat c

/-- The index a getter uses for cell `(r, c)`: the cursor is moved to row `r` from the start, and the
column is converted to the type of the argument. -/
def readIndex (rowCount : UInt64) (fieldCount : UInt32) (r c : Nat) : UInt64 :=
  let rs := { SQLOperationResultSet.new with rowCount := rowCount, fieldCount := fieldCount }
  (rs.advance (r + 1)).cellIndex (UInt8.ofNat c)

theorem rowIndexAfter_eq (r : Nat) : rowIndexAfter r = UInt32.ofNat r := by
  induction r with
  | zero => rfl
  | succ r ih =>
    rw [rowIndexAfter, ih, UInt32.ofNat_add]
    rfl

/-- The loop makes the assignment for cell `(r, c)` at `writtenIndex`. -/
theorem index_of_fetchLoop {cols : List Column} {length : Nat} {rows : List Row}
    {stores : List (UInt32 × Slot)} (h : fetchLoop cols length rows = .ok stores) {r c : Nat}
    {col : Column} (hr : r < rows.length) (hc : cols[c]? = some col) (hindex : col.index = c) :
    (stores[r * cols.length + c]?).map (·.1) =
      some (writtenIndex (UInt32.ofNat cols.length) r c) := by
  obtain ⟨-, rfl⟩ := fetchLoop_eq_ok.mp h
  rw [getElem?_landRows_stores hr hc, writtenIndex, rowIndexAfter_eq, Option.map_some, storeIndex,
    hindex]

theorem toNat_writtenIndex (fieldCount : UInt32) (r c : Nat) :
    (writtenIndex fieldCount r c).toNat = (r * fieldCount.toNat + c) % 2 ^ 32 := by
  rw [writtenIndex, rowIndexAfter_eq, UInt32.toNat_add, UInt32.toNat_mul, UInt32.toNat_ofNat',
    UInt32.toNat_ofNat', Nat.mod_mul_mod, ← Nat.add_mod]

/-- After `r + 1` calls of `GetNextRowOfResultSet` the cursor is at row `r`. -/
theorem cursor_advance {rs : SQLOperationResultSet} (hfields : rs.fieldCount ≠ 0) {n : Nat}
    (hn : rs.currentRowCursor.toNat + n ≤ rs.rowCount.toNat) :
    rs.advance n = { rs with currentRowCursor := rs.currentRowCursor + UInt64.ofNat n } := by
  induction n generalizing rs with
  | zero =>
    have hzero : rs.currentRowCursor + UInt64.ofNat 0 = rs.currentRowCursor := UInt64.add_zero _
    rw [hzero]
    rfl
  | succ n ih =>
    have hnext : rs.getNextRowOfResultSet.2 =
        { rs with currentRowCursor := rs.currentRowCursor + 1 } := by
      have hlt : rs.currentRowCursor < rs.rowCount := by
        rw [UInt64.lt_iff_toNat_lt]
        omega
      rw [SQLOperationResultSet.getNextRowOfResultSet, if_pos ⟨hfields, hlt⟩]
    have hcursor : (rs.currentRowCursor + 1).toNat = rs.currentRowCursor.toNat + 1 := by
      have hlt := rs.rowCount.toNat_lt
      rw [UInt64.toNat_add]
      exact Nat.mod_eq_of_lt (Nat.lt_of_le_of_lt (show _ ≤ rs.rowCount.toNat by simp; omega) hlt)
    have hsum : rs.currentRowCursor + 1 + UInt64.ofNat n =
        rs.currentRowCursor + UInt64.ofNat (n + 1) := by
      rw [UInt64.add_assoc, UInt64.add_comm 1, UInt64.ofNat_add]
      rfl
    rw [SQLOperationResultSet.advance, hnext, ih]
    · show SQLOperationResultSet.mk _ _ _ (rs.currentRowCursor + 1 + UInt64.ofNat n) _ _ = _
      rw [hsum]
    · exact hfields
    · show (rs.currentRowCursor + 1).toNat + n ≤ rs.rowCount.toNat
      omega

theorem toNat_readIndex {rowCount : UInt64} {fieldCount : UInt32}
    (h : rowCount.toNat * fieldCount.toNat < 2 ^ 64) {r c : Nat} (hr : r < rowCount.toNat)
    (hc : c < fieldCount.toNat) :
    (readIndex rowCount fieldCount r c).toNat = r * fieldCount.toNat + c % 256 := by
  have hfields : fieldCount ≠ 0 := by
    rintro rfl
    exact absurd hc (Nat.not_lt_zero c)
  have hcell := cell_lt hr hc
  have hle : c % 256 ≤ c := Nat.mod_le c 256
  have hrow : UInt64.ofNat (r + 1) - 1 = UInt64.ofNat r := by
    rw [UInt64.ofNat_add]
    exact UInt64.add_sub_cancel _ _
  have hvalue : (UInt64.ofNat r).toNat = r :=
    UInt64.toNat_ofNat_of_lt' (Nat.lt_trans hr rowCount.toNat_lt)
  have hproduct : r * fieldCount.toNat < 2 ^ 64 := by omega
  have hcursor : (0 : UInt64).toNat + (r + 1) ≤ rowCount.toNat := by
    rw [UInt64.toNat_zero]
    omega
  rw [readIndex, cursor_advance hfields hcursor]
  show (((0 : UInt64) + UInt64.ofNat (r + 1) - 1) * fieldCount.toUInt64 +
    (UInt8.ofNat c).toUInt64).toNat = _
  rw [UInt64.zero_add, hrow, UInt64.toNat_add, UInt64.toNat_mul, hvalue, UInt32.toNat_toUInt64,
    Nat.mod_eq_of_lt hproduct, UInt8.toNat_toUInt64, UInt8.toNat_ofNat']
  exact Nat.mod_eq_of_lt (by omega)

/-- The index determines the cell. -/
theorem cell_inj {width r c r' c' : Nat} (hc : c < width) (hc' : c' < width)
    (h : r * width + c = r' * width + c') : r = r' ∧ c = c' := by
  have hpos : 0 < width := Nat.zero_lt_of_lt hc
  have hcell : ∀ r c, c < width → (r * width + c) / width = r ∧ (r * width + c) % width = c :=
    fun r c hc => (Nat.div_mod_unique hpos).mpr ⟨by rw [Nat.mul_comm, Nat.add_comm], hc⟩
  obtain ⟨hrow, hcolumn⟩ := hcell r c hc
  rw [h] at hrow hcolumn
  obtain ⟨hrow', hcolumn'⟩ := hcell r' c' hc'
  exact ⟨hrow.symm.trans hrow', hcolumn.symm.trans hcolumn'⟩

/-- The loop and the getters use one index for a cell, inside the array, and another for every other
cell. -/
structure SameIndex (rowCount : UInt64) (fieldCount : UInt32) : Prop where
  agree : ∀ r c, r < rowCount.toNat → c < fieldCount.toNat →
    (writtenIndex fieldCount r c).toNat = (readIndex rowCount fieldCount r c).toNat
  below : ∀ r c, r < rowCount.toNat → c < fieldCount.toNat →
    (writtenIndex fieldCount r c).toNat < rowCount.toNat * fieldCount.toNat
  distinct : ∀ r c r' c', r < rowCount.toNat → c < fieldCount.toNat → r' < rowCount.toNat →
    c' < fieldCount.toNat → writtenIndex fieldCount r c = writtenIndex fieldCount r' c' →
    r = r' ∧ c = c'

/-- **When writer and reader agree**: when no index leaves 32 bits, and no column 8 bits. -/
theorem sameIndex_iff {rowCount : UInt64} {fieldCount : UInt32}
    (h : rowCount.toNat * fieldCount.toNat < 2 ^ 64) :
    SameIndex rowCount fieldCount ↔
      rowCount = 0 ∨ rowCount.toNat * fieldCount.toNat ≤ 2 ^ 32 ∧ fieldCount.toNat ≤ 256 := by
  constructor
  · intro hsame
    by_cases hrows : rowCount.toNat = 0
    · exact .inl (UInt64.toNat_inj.mp hrows)
    refine .inr ?_
    -- Column 256 is read as column 0.
    have hwidth : fieldCount.toNat ≤ 256 := by
      by_contra hwide
      have hcell := hsame.agree 0 256 (by omega) (by omega)
      rw [toNat_writtenIndex, toNat_readIndex h (by omega) (by omega), Nat.zero_mul] at hcell
      cases hcell
    refine ⟨?_, hwidth⟩
    -- The cell at `2 ^ 32` is written at 0.
    by_contra hmany
    have hpos : 0 < fieldCount.toNat := by
      apply Nat.pos_of_ne_zero
      intro hzero
      rw [hzero, Nat.mul_zero] at hmany
      exact hmany (Nat.zero_le _)
    have hr : 2 ^ 32 / fieldCount.toNat < rowCount.toNat := by
      rw [Nat.div_lt_iff_lt_mul hpos]
      exact Nat.lt_of_not_le hmany
    have hc := Nat.mod_lt (2 ^ 32) hpos
    have hsplit := Nat.div_add_mod' (2 ^ 32) fieldCount.toNat
    have hnarrow : 2 ^ 32 % fieldCount.toNat < 256 := Nat.lt_of_lt_of_le hc hwidth
    have hcell := hsame.agree _ _ hr hc
    rw [toNat_writtenIndex, toNat_readIndex h hr hc, Nat.mod_eq_of_lt hnarrow, hsplit,
      Nat.mod_self] at hcell
    cases hcell
  · intro hfits
    have hcells : ∀ r c, r < rowCount.toNat → c < fieldCount.toNat →
        (writtenIndex fieldCount r c).toNat = r * fieldCount.toNat + c ∧ c < 256 := by
      intro r c hr hc
      rcases hfits with rfl | ⟨hmany, hwidth⟩
      · exact absurd hr (Nat.not_lt_zero r)
      · have hcell := cell_lt hr hc
        rw [toNat_writtenIndex, Nat.mod_eq_of_lt (by omega)]
        exact ⟨rfl, by omega⟩
    refine ⟨fun r c hr hc => ?_, fun r c hr hc => ?_, fun r c r' c' hr hc hr' hc' heq => ?_⟩
    · obtain ⟨hwritten, hlt⟩ := hcells r c hr hc
      rw [hwritten, toNat_readIndex h hr hc, Nat.mod_eq_of_lt hlt]
    · rw [(hcells r c hr hc).1]
      exact cell_lt hr hc
    · have hvalue := congrArg UInt32.toNat heq
      rw [(hcells r c hr hc).1, (hcells r' c' hr' hc').1] at hvalue
      exact cell_inj hc hc' hvalue

theorem sameIndex_iff_small :
    (2 : UInt64).toNat * (3 : UInt32).toNat < 2 ^ 64 ∧
      (SameIndex 2 3 ↔ (2 : UInt64) = 0 ∨
        (2 : UInt64).toNat * (3 : UInt32).toNat ≤ 2 ^ 32 ∧ (3 : UInt32).toNat ≤ 256) :=
  ⟨by decide, sameIndex_iff (by decide)⟩

/-- Row `2 ^ 32` of one column is written over row 0 and read behind it, and column 256 is read as
column 0. -/
theorem not_sameIndex :
    ((writtenIndex 1 4294967296 0).toNat = 0 ∧
      (readIndex 4294967297 1 4294967296 0).toNat = 4294967296 ∧ ¬ SameIndex 4294967297 1) ∧
    (writtenIndex 257 0 256).toNat = 256 ∧ (readIndex 1 257 0 256).toNat = 0 ∧ ¬ SameIndex 1 257 := by
  have hwritten : (writtenIndex 1 4294967296 0).toNat = 0 := toNat_writtenIndex 1 4294967296 0
  have hread : (readIndex 4294967297 1 4294967296 0).toNat = 4294967296 :=
    toNat_readIndex (by decide) (by decide) (by decide)
  refine ⟨⟨hwritten, hread, fun hsame => ?_⟩, by decide, by decide, fun hsame => ?_⟩
  · have hcell := hsame.agree 4294967296 0 (by decide) (by decide)
    rw [hwritten, hread] at hcell
    cases hcell
  · exact absurd (hsame.agree 0 256 (by decide) (by decide)) (by decide)

end ServerTest.Database
