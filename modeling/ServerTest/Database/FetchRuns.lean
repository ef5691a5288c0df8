import ServerTest.Database.FetchLoop

/-!
# What the fetch loop stores, and when it finishes

The loop of `FetchLoop.lean` without its checks is a fold, `buffersAfter`; `fetchLoop_eq_ok` says
that the loop returns exactly when no check fails along that fold, and `stored_of_fetchLoop` what it
has stored then: for cell `(r, c)`, what column `c` holds once row `r` has been fetched. The rest of
the file describes that memory: which cell a byte of `RowData` comes from (`landRow_byte`,
`landRow_byte_outside`), what a block holds (`landRow_block`), and when the loop gets that far
(`fetchLoop_finishes_iff`).
-/

set_option autoImplicit false

namespace ServerTest.Database

open Lib

/-! ## The loop without its checks -/

/-- `fetchCell` where it returns. -/
def landCell (row : Row) (s : RowBuffers) (col : Column) : RowBuffers :=
  match cellAt row col.index with
  | none => s
  | some value =>
    if col.isBlock then
      let filled := fillBlock col (s.block col.index) value
      { s with block := Function.update s.block col.index filled }
    else
      let stop := 8 * col.index + (col.image value).length
      { s with
        rowData := s.rowData.write (8 * col.index) (col.image value)
        intact := fun j => s.intact j && !(8 * j < stop && col.index < j + 1) }

def landRow (cols : List Column) (s : RowBuffers) (row : Row) : RowBuffers :=
  cols.foldl (landCell row) s

/-- The memory after the rows. -/
def buffersAfter (cols : List Column) (rows : List Row) : RowBuffers :=
  rows.foldl (landRow cols) (.initial cols)

/-- `slotOf` where it returns. -/
def slotIn (s : RowBuffers) (col : Column) : Slot :=
  if col.isBlock then .block ((s.block col.index).take col.bind.bufferLength.toNat)
  else .word ((List.range 8).map fun b => s.rowData (8 * col.index + b))

/-- A value of the row for this column stays inside `RowData`. -/
def InBounds (fieldCount : Nat) (row : Row) (col : Column) : Prop :=
  ∀ value, cellAt row col.index = some value → col.isBlock = false →
    8 * col.index + (col.image value).length ≤ 8 * fieldCount

theorem fetchCell_eq_ok {fieldCount : Nat} {row : Row} {s s' : RowBuffers} {col : Column} :
    fetchCell fieldCount row s col = .ok s' ↔
      InBounds fieldCount row col ∧ landCell row s col = s' := by
  unfold fetchCell landCell InBounds
  cases hcell : cellAt row col.index with
  | none => simp
  | some value =>
    cases hblock : col.isBlock with
    | true => simp
    | false =>
      by_cases hstop : 8 * col.index + (col.image value).length ≤ 8 * fieldCount
      · simp [hstop]
      · simp [hstop]

theorem fetchRow_eq_ok {cols : List Column} {row : Row} {s s' : RowBuffers} :
    fetchRow cols row s = .ok s' ↔
      (∀ col ∈ cols, InBounds cols.length row col) ∧ landRow cols s row = s' :=
  foldlM_checked_each (f := landCell row) (K := InBounds cols.length row)
    fun _ _ _ => fetchCell_eq_ok

theorem slotOf_eq_ok {s : RowBuffers} {col : Column} {slot : Slot} :
    slotOf s col = .ok slot ↔
      (col.isBlock = true → s.intact col.index = true) ∧ slotIn s col = slot := by
  unfold slotOf slotIn
  cases hblock : col.isBlock with
  | false => simp
  | true =>
    cases hint : s.intact col.index with
    | false => simp
    | true => simp

/-- The index of an assignment, as the loop computes it. -/
def storeIndex (cols : List Column) (rowIndex : UInt32) (col : Column) : UInt32 :=
  rowIndex * UInt32.ofNat cols.length + UInt32.ofNat col.index

theorem copyCell_eq_ok {cols : List Column} {rowIndex : UInt32} {length : Nat} {s : RowBuffers}
    {stores stores' : List (UInt32 × Slot)} {col : Column} :
    copyCell (UInt32.ofNat cols.length) rowIndex length s stores col = .ok stores' ↔
      ((col.isBlock = true → s.intact col.index = true) ∧
        (storeIndex cols rowIndex col).toNat < length) ∧
      stores ++ [(storeIndex cols rowIndex col, slotIn s col)] = stores' := by
  unfold copyCell
  rw [bind_returns]
  constructor
  · intro hpair
    obtain ⟨slot, hslot, h⟩ := hpair
    obtain ⟨hint, rfl⟩ := slotOf_eq_ok.mp hslot
    dsimp only at h
    split at h
    · rename_i hlt
      cases h
      exact ⟨⟨hint, hlt⟩, rfl⟩
    · cases h
  · intro h
    obtain ⟨⟨hint, hlt⟩, rfl⟩ := h
    refine ⟨slotIn s col, slotOf_eq_ok.mpr ⟨hint, rfl⟩, ?_⟩
    exact if_pos hlt

/-- What one row adds to the assignments. -/
def rowStores (cols : List Column) (rowIndex : UInt32) (s : RowBuffers) : List (UInt32 × Slot) :=
  cols.map fun col => (storeIndex cols rowIndex col, slotIn s col)

/-- `fetchStep` where it returns. -/
def landStep (cols : List Column) (s : FetchState) (row : Row) : FetchState :=
  let buffers := landRow cols s.buffers row
  ⟨buffers, s.rowIndex + 1, s.stores ++ rowStores cols s.rowIndex buffers⟩

/-- What has to hold for one row to be fetched and copied. -/
structure RowFits (cols : List Column) (length : Nat) (s : FetchState) (row : Row) : Prop where
  inBounds : ∀ col ∈ cols, InBounds cols.length row col
  intact : ∀ col ∈ cols, col.isBlock = true →
    (landRow cols s.buffers row).intact col.index = true
  index : ∀ col ∈ cols, (storeIndex cols s.rowIndex col).toNat < length

theorem fetchStep_eq_ok {cols : List Column} {length : Nat} {s s' : FetchState} {row : Row} :
    fetchStep cols length s row = .ok s' ↔
      RowFits cols length s row ∧ landStep cols s row = s' := by
  have happend : ∀ (l : List Column) (buffers : RowBuffers) (stores : List (UInt32 × Slot)),
      l.foldl (fun stores col => stores ++ [(storeIndex cols s.rowIndex col, slotIn buffers col)])
        stores = stores ++ l.map fun col => (storeIndex cols s.rowIndex col, slotIn buffers col) := by
    intro l buffers stores
    induction l generalizing stores with
    | nil => simp
    | cons col l ih => rw [List.foldl_cons, ih, List.map_cons, List.append_assoc]; rfl
  unfold fetchStep
  constructor
  · intro h
    obtain ⟨buffers, hrow, h⟩ := bind_returns.mp h
    obtain ⟨hbounds, rfl⟩ := fetchRow_eq_ok.mp hrow
    obtain ⟨stores, hcopy, h⟩ := bind_returns.mp h
    obtain ⟨hall, rfl⟩ := (foldlM_checked_each (f := fun stores col =>
      stores ++ [(storeIndex cols s.rowIndex col, slotIn (landRow cols s.buffers row) col)])
      fun _ _ _ => copyCell_eq_ok).mp hcopy
    cases h
    refine ⟨⟨hbounds, fun col hcol => (hall col hcol).1, fun col hcol => (hall col hcol).2⟩, ?_⟩
    rw [happend]
    rfl
  · intro h
    obtain ⟨hfits, rfl⟩ := h
    rw [bind_returns]
    refine ⟨_, fetchRow_eq_ok.mpr ⟨hfits.inBounds, rfl⟩, ?_⟩
    rw [bind_returns]
    refine ⟨_, (foldlM_checked_each (f := fun stores col =>
      stores ++ [(storeIndex cols s.rowIndex col, slotIn (landRow cols s.buffers row) col)])
      fun _ _ _ => copyCell_eq_ok).mpr
      ⟨fun col hcol => ⟨hfits.intact col hcol, hfits.index col hcol⟩, rfl⟩, ?_⟩
    rw [happend]
    rfl

/-- The state after the rows, checks aside. -/
def landRows (cols : List Column) (rows : List Row) : FetchState :=
  rows.foldl (landStep cols) ⟨.initial cols, 0, []⟩

theorem fetchLoop_eq_ok {cols : List Column} {length : Nat} {rows : List Row}
    {stores : List (UInt32 × Slot)} :
    fetchLoop cols length rows = .ok stores ↔
      (∀ before row after, rows = before ++ row :: after →
        RowFits cols length (landRows cols before) row) ∧ (landRows cols rows).stores = stores := by
  unfold fetchLoop
  rw [bind_returns]
  constructor
  · intro h
    obtain ⟨s, hfold, hs⟩ := h
    obtain ⟨hall, rfl⟩ := (foldlM_checked (f := landStep cols) fun _ _ _ => fetchStep_eq_ok).mp hfold
    cases hs
    exact ⟨hall, rfl⟩
  · intro h
    obtain ⟨hall, rfl⟩ := h
    exact ⟨_, (foldlM_checked (f := landStep cols) fun _ _ _ => fetchStep_eq_ok).mpr ⟨hall, rfl⟩, rfl⟩

/-! ## What has been stored -/

theorem landRows_append (cols : List Column) (rows : List Row) (row : Row) :
    landRows cols (rows ++ [row]) = landStep cols (landRows cols rows) row := by
  simp [landRows, List.foldl_append]

theorem landRows_buffers (cols : List Column) (rows : List Row) :
    (landRows cols rows).buffers = buffersAfter cols rows := by
  induction rows using List.reverseRecOn with
  | nil => rfl
  | append_singleton rows row ih =>
    rw [landRows_append, landStep, ih]
    simp [buffersAfter, List.foldl_append]

theorem landRows_rowIndex (cols : List Column) (rows : List Row) :
    (landRows cols rows).rowIndex = UInt32.ofNat rows.length := by
  induction rows using List.reverseRecOn with
  | nil => rfl
  | append_singleton rows row ih =>
    rw [landRows_append]
    show (landRows cols rows).rowIndex + 1 = _
    rw [ih, List.length_append, List.length_singleton, UInt32.ofNat_add]
    rfl

theorem length_landRows_stores (cols : List Column) (rows : List Row) :
    (landRows cols rows).stores.length = rows.length * cols.length := by
  induction rows using List.reverseRecOn with
  | nil => simp [landRows]
  | append_singleton rows row ih =>
    rw [landRows_append, List.length_append, Nat.add_mul]
    show ((landRows cols rows).stores ++ _).length = _
    rw [List.length_append, ih]
    simp [rowStores]

/-- The slot the loop stores for cell `(r, c)`: its `r * FieldCount + c`-th assignment. -/
def storedAt (fieldCount : Nat) (stores : List (UInt32 × Slot)) (r c : Nat) : Option Slot :=
  stores[r * fieldCount + c]?.map (·.2)

/-- A cell of `count` rows of `width` columns. -/
theorem cell_lt {count width r c : Nat} (hr : r < count) (hc : c < width) :
    r * width + c < count * width := by
  calc r * width + c < r * width + width := Nat.add_lt_add_left hc _
    _ = (r + 1) * width := by rw [Nat.add_mul, Nat.one_mul]
    _ ≤ count * width := Nat.mul_le_mul_right _ hr

/-- The assignment the loop makes for a cell: its index, and the slot. -/
theorem getElem?_landRows_stores {cols : List Column} {rows : List Row} {r c : Nat} {col : Column}
    (hr : r < rows.length) (hc : cols[c]? = some col) :
    (landRows cols rows).stores[r * cols.length + c]? =
      some (storeIndex cols (UInt32.ofNat r) col,
        slotIn (buffersAfter cols (rows.take (r + 1))) col) := by
  have hclt : c < cols.length := (List.getElem?_eq_some_iff.mp hc).1
  induction rows using List.reverseRecOn with
  | nil => simp at hr
  | append_singleton rows row ih =>
    rw [landRows_append]
    show ((landRows cols rows).stores ++ rowStores cols _ _)[r * cols.length + c]? = _
    rcases Nat.lt_or_ge r rows.length with hlt | hge
    · -- An earlier row: its assignment is already there.
      have hin : r * cols.length + c < (landRows cols rows).stores.length := by
        rw [length_landRows_stores]
        exact cell_lt hlt hclt
      rw [List.getElem?_append_left hin, List.take_append_of_le_length hlt]
      exact ih hlt
    · have heq : r = rows.length := by
        rw [List.length_append, List.length_singleton] at hr
        omega
      subst heq
      rw [List.getElem?_append_right (by rw [length_landRows_stores]; omega),
        length_landRows_stores, Nat.add_sub_cancel_left, rowStores, List.getElem?_map, hc,
        landRows_buffers, landRows_rowIndex, List.take_of_length_le (by simp)]
      simp [buffersAfter, List.foldl_append]

theorem storedAt_landRows {cols : List Column} {rows : List Row} {r c : Nat} {col : Column}
    (hr : r < rows.length) (hc : cols[c]? = some col) :
    storedAt cols.length (landRows cols rows).stores r c =
      some (slotIn (buffersAfter cols (rows.take (r + 1))) col) := by
  rw [storedAt, getElem?_landRows_stores hr hc]
  rfl

theorem stored_of_fetchLoop {cols : List Column} {length : Nat} {rows : List Row}
    {stores : List (UInt32 × Slot)} (h : fetchLoop cols length rows = .ok stores) {r c : Nat}
    {col : Column} (hr : r < rows.length) (hc : cols[c]? = some col) :
    storedAt cols.length stores r c =
      some (slotIn (buffersAfter cols (rows.take (r + 1))) col) := by
  obtain ⟨-, rfl⟩ := fetchLoop_eq_ok.mp h
  exact storedAt_landRows hr hc

/-! ## Where a byte of `RowData` comes from -/

/-- The row writes byte `a` of `RowData` through this column. -/
def Covers (row : Row) (col : Column) (a : Nat) : Prop :=
  ∃ value, cellAt row col.index = some value ∧ col.isBlock = false ∧ 8 * col.index ≤ a ∧
    a < 8 * col.index + (col.image value).length

theorem landCell_byte_outside {row : Row} {col : Column} {a : Nat} (h : ¬ Covers row col a)
    (s : RowBuffers) : (landCell row s col).rowData a = s.rowData a := by
  unfold landCell
  cases hcell : cellAt row col.index with
  | none => rfl
  | some value =>
    cases hblock : col.isBlock with
    | true => rfl
    | false =>
      apply Memory.write_outside
      by_contra hin
      exact h ⟨value, hcell, hblock, by omega, by omega⟩

theorem foldl_byte_outside {row : Row} {l : List Column} {a : Nat}
    (h : ∀ col ∈ l, ¬ Covers row col a) (s : RowBuffers) :
    (l.foldl (landCell row) s).rowData a = s.rowData a := by
  induction l generalizing s with
  | nil => rfl
  | cons col l ih =>
    rw [List.foldl_cons, ih fun d hd => h d (List.mem_cons_of_mem _ hd)]
    exact landCell_byte_outside (h col List.mem_cons_self) s

/-- A byte no column of the row covers keeps its value. -/
theorem landRow_byte_outside {cols : List Column} {row : Row} {a : Nat}
    (h : ∀ col ∈ cols, ¬ Covers row col a) (s : RowBuffers) :
    (landRow cols s row).rowData a = s.rowData a :=
  foldl_byte_outside h s

/-- A byte has the value of the last column that covers it. -/
theorem landRow_byte {before after : List Column} {col : Column} {row : Row} {value : Bytes}
    {k : Nat} {x : UInt8} (hcell : cellAt row col.index = some value) (hfixed : col.isBlock = false)
    (hk : (col.image value)[k]? = some x) (hafter : ∀ d ∈ after, ¬ Covers row d (8 * col.index + k))
    (s : RowBuffers) :
    (landRow (before ++ col :: after) s row).rowData (8 * col.index + k) = x := by
  unfold landRow
  rw [List.foldl_append, List.foldl_cons, foldl_byte_outside hafter]
  simp only [landCell, hcell, hfixed]
  exact Memory.write_inside hk

theorem buffersAfter_append (cols : List Column) (rows : List Row) (row : Row) :
    buffersAfter cols (rows ++ [row]) = landRow cols (buffersAfter cols rows) row := by
  simp [buffersAfter, List.foldl_append]

/-- The row makes byte `a` of `RowData` something else than zero through this column. -/
def Marks (row : Row) (col : Column) (a : Nat) : Prop :=
  ∃ value, cellAt row col.index = some value ∧ col.isBlock = false ∧ 8 * col.index ≤ a ∧
    (col.image value)[a - 8 * col.index]?.getD 0 ≠ 0

theorem landCell_byte_zero {row : Row} {col : Column} {a : Nat} {s : RowBuffers}
    (h : ¬ Marks row col a) (hzero : s.rowData a = 0) : (landCell row s col).rowData a = 0 := by
  by_cases hcovers : Covers row col a
  · obtain ⟨value, hcell, hfixed, hle, hlt⟩ := hcovers
    obtain ⟨k, rfl⟩ : ∃ k, a = 8 * col.index + k := ⟨a - 8 * col.index, by omega⟩
    have hget : (col.image value)[k]? = some (col.image value)[k] :=
      List.getElem?_eq_getElem (by omega)
    have hbyte : (landCell row s col).rowData (8 * col.index + k) = (col.image value)[k] := by
      simp only [landCell, hcell, hfixed]
      exact Memory.write_inside hget
    rw [hbyte]
    by_contra hne
    refine h ⟨value, hcell, hfixed, hle, ?_⟩
    rwa [Nat.add_sub_cancel_left, hget]
  · rw [landCell_byte_outside hcovers, hzero]

theorem landRow_byte_zero {cols : List Column} {row : Row} {a : Nat}
    (h : ∀ col ∈ cols, ¬ Marks row col a) {s : RowBuffers} (hzero : s.rowData a = 0) :
    (landRow cols s row).rowData a = 0 := by
  unfold landRow
  induction cols generalizing s with
  | nil => exact hzero
  | cons col cols ih =>
    rw [List.foldl_cons]
    exact ih (fun d hd => h d (List.mem_cons_of_mem _ hd))
      (landCell_byte_zero (h col List.mem_cons_self) hzero)

/-- `RowData` starts out zero. -/
theorem buffersAfter_byte_zero {cols : List Column} {rows : List Row} {a : Nat}
    (h : ∀ row ∈ rows, ∀ col ∈ cols, ¬ Marks row col a) : (buffersAfter cols rows).rowData a = 0 := by
  induction rows using List.reverseRecOn with
  | nil => rfl
  | append_singleton rows row ih =>
    rw [buffersAfter_append]
    exact landRow_byte_zero (h row (by simp)) (ih fun r hr => h r (List.mem_append_left _ hr))

/-! ## Which addresses survive -/

/-- The row writes over the word of column `j` through this column. -/
def Clobbers (row : Row) (col : Column) (j : Nat) : Prop :=
  ∃ value, cellAt row col.index = some value ∧ col.isBlock = false ∧
    8 * j < 8 * col.index + (col.image value).length ∧ col.index < j + 1

theorem landCell_intact {row : Row} {col : Column} {j : Nat} {s : RowBuffers} :
    (landCell row s col).intact j = true ↔ s.intact j = true ∧ ¬ Clobbers row col j := by
  unfold landCell Clobbers
  cases hcell : cellAt row col.index with
  | none => simp
  | some value =>
    cases hblock : col.isBlock with
    | true => simp
    | false =>
      simp only [Bool.false_eq_true, if_false, Bool.and_eq_true, Bool.not_eq_true',
        Bool.and_eq_false_iff, decide_eq_false_iff_not, Option.some.injEq, exists_eq_left', true_and,
        not_and_or]

theorem landRow_intact {cols : List Column} {row : Row} {j : Nat} {s : RowBuffers} :
    (landRow cols s row).intact j = true ↔
      s.intact j = true ∧ ∀ col ∈ cols, ¬ Clobbers row col j := by
  unfold landRow
  induction cols generalizing s with
  | nil => simp
  | cons col cols ih =>
    rw [List.foldl_cons, ih, landCell_intact]
    simp [and_assoc]

theorem buffersAfter_intact {cols : List Column} {rows : List Row} {j : Nat} :
    (buffersAfter cols rows).intact j = true ↔ ∀ row ∈ rows, ∀ col ∈ cols, ¬ Clobbers row col j := by
  induction rows using List.reverseRecOn with
  | nil => simp [buffersAfter, RowBuffers.initial]
  | append_singleton rows row ih =>
    rw [buffersAfter_append, landRow_intact, ih]
    constructor
    · rintro ⟨hrows, hrow⟩ r hr
      rcases List.mem_append.mp hr with hr | hr
      · exact hrows r hr
      · rw [List.mem_singleton.mp hr]
        exact hrow
    · intro h
      exact ⟨fun r hr => h r (List.mem_append_left _ hr), h row (by simp)⟩

/-- **When the loop finishes.** With room for every cell: exactly when no value of any row leaves
`RowData` and none lands on the address of a block. -/
theorem fetchLoop_finishes_iff {cols : List Column} (rows : List Row)
    (hindex : ∀ col ∈ cols, col.index < cols.length) :
    (∃ stores, fetchLoop cols (rows.length * cols.length) rows = .ok stores) ↔
      ∀ row ∈ rows, ∀ col ∈ cols, InBounds cols.length row col ∧
        ∀ d ∈ cols, d.isBlock = true → ¬ Clobbers row col d.index := by
  constructor
  · rintro ⟨stores, h⟩ row hrow col hcol
    obtain ⟨before, after, hsplit⟩ := List.append_of_mem hrow
    have hfits := (fetchLoop_eq_ok.mp h).1 before row after hsplit
    refine ⟨hfits.inBounds col hcol, fun d hd hblock => ?_⟩
    exact (landRow_intact.mp (hfits.intact d hd hblock)).2 col hcol
  · intro h
    refine ⟨_, fetchLoop_eq_ok.mpr ⟨fun before row after hsplit => ?_, rfl⟩⟩
    have hrow : row ∈ rows := by rw [hsplit]; simp
    refine ⟨fun col hcol => (h row hrow col hcol).1, fun d hd hblock => ?_, fun col hcol => ?_⟩
    · rw [landRow_intact, landRows_buffers, buffersAfter_intact]
      refine ⟨fun r hr col hcol => ?_, fun col hcol => (h row hrow col hcol).2 d hd hblock⟩
      refine (h r ?_ col hcol).2 d hd hblock
      rw [hsplit]
      exact List.mem_append_left _ hr
    · -- The index wraps, and a wrapped index is only smaller.
      have hlt : before.length < rows.length := by
        rw [hsplit]
        simp
      have hcell := cell_lt hlt (hindex col hcol)
      rw [storeIndex, landRows_rowIndex, ← UInt32.ofNat_mul, ← UInt32.ofNat_add,
        UInt32.toNat_ofNat']
      exact Nat.lt_of_le_of_lt (Nat.mod_le _ _) hcell

/-! ## What a block holds -/

theorem landCell_block_other {row : Row} {col : Column} {j : Nat} (h : j ≠ col.index)
    (s : RowBuffers) : (landCell row s col).block j = s.block j := by
  unfold landCell
  cases cellAt row col.index with
  | none => rfl
  | some value =>
    cases col.isBlock with
    | false => rfl
    | true => exact Function.update_of_ne h _ _

theorem foldl_block_other {row : Row} {l : List Column} {j : Nat} (h : ∀ col ∈ l, j ≠ col.index)
    (s : RowBuffers) : (l.foldl (landCell row) s).block j = s.block j := by
  induction l generalizing s with
  | nil => rfl
  | cons col l ih =>
    rw [List.foldl_cons, ih fun d hd => h d (List.mem_cons_of_mem _ hd)]
    exact landCell_block_other (h col List.mem_cons_self) s

theorem landCell_block_self {row : Row} {col : Column} (hblock : col.isBlock = true)
    (s : RowBuffers) :
    (landCell row s col).block col.index =
      match cellAt row col.index with
      | none => s.block col.index
      | some value => fillBlock col (s.block col.index) value := by
  unfold landCell
  cases cellAt row col.index with
  | none => rfl
  | some value => simp [hblock]

/-- A block is filled through its own column and no other. -/
theorem landRow_block {before after : List Column} {col : Column} {row : Row}
    (hblock : col.isBlock = true) (hbefore : ∀ d ∈ before, col.index ≠ d.index)
    (hafter : ∀ d ∈ after, col.index ≠ d.index) (s : RowBuffers) :
    (landRow (before ++ col :: after) s row).block col.index =
      match cellAt row col.index with
      | none => s.block col.index
      | some value => fillBlock col (s.block col.index) value := by
  unfold landRow
  rw [List.foldl_append, List.foldl_cons, foldl_block_other hafter, landCell_block_self hblock,
    foldl_block_other hbefore]

theorem length_le_fillBlock (col : Column) (old value : Bytes) :
    old.length ≤ (fillBlock col old value).length := by
  simp only [fillBlock, List.length_append, List.length_drop]
  omega

theorem length_le_landRow_block {cols : List Column} {row : Row} {j : Nat} (s : RowBuffers) :
    (s.block j).length ≤ ((landRow cols s row).block j).length := by
  unfold landRow
  induction cols generalizing s with
  | nil => exact Nat.le_refl _
  | cons col cols ih =>
    refine Nat.le_trans ?_ (ih (landCell row s col))
    by_cases hj : j = col.index
    · subst hj
      unfold landCell
      cases cellAt row col.index with
      | none => exact Nat.le_refl _
      | some value =>
        cases col.isBlock with
        | false => exact Nat.le_refl _
        | true => simpa using length_le_fillBlock col _ value
    · exact Nat.le_of_eq (congrArg List.length (landCell_block_other hj s).symm)

theorem length_le_buffersAfter_block (cols : List Column) (rows : List Row) (j : Nat) :
    ((RowBuffers.initial cols).block j).length ≤ ((buffersAfter cols rows).block j).length := by
  induction rows using List.reverseRecOn with
  | nil => exact Nat.le_refl _
  | append_singleton rows row ih =>
    rw [buffersAfter_append]
    exact Nat.le_trans ih (length_le_landRow_block _)

end ServerTest.Database
