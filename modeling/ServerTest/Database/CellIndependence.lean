import ServerTest.Database.FetchRuns
import ServerTest.Database.MysqlTime

/-!
# Whether a cell depends on the others

Two result sets of the same shape that agree on one cell: does the loop store the same for it? The
memory is shared between rows, and partly between columns, so this is a statement about pairs of
runs, and it holds for some cells and not for others.

A value of a fixed-width column is written over what was there, so it is stored as it is unless a
date or time to its left leaves something in the bytes it does not write itself. A `NULL` stores
whatever the rows above left in its word. A text or binary column stores its whole block: the length
of the block is set by the longest value of the column, and the bytes behind the value are those of
other rows or of the allocator.
-/

set_option autoImplicit false

namespace ServerTest.Database

open Lib

/-- The cell of a table. -/
def cell (T : List Row) (r c : Nat) : Option Bytes := cellAt (T.getD r []) c

/-- `max_length` of a column after `mysql_stmt_store_result`. -/
def longest (T : List Row) (i : Nat) : Nat :=
  (T.map fun row => ((cellAt row i).getD []).length).foldr max 0

/-- The fields of a table of the given column types. -/
def fieldsOf (shape : List MysqlField) (T : List Row) : List MysqlField :=
  shape.mapIdx fun i f => { f with maxLength := longest T i }

def tableColumns (model : DataModel) (junk : Nat → Nat → UInt8) (shape : List MysqlField)
    (T : List Row) : List Column :=
  bindFields model junk (fieldsOf shape T)

/-- Fetching a whole table with `RowCount` the number of its rows. -/
def fetchTable (model : DataModel) (junk : Nat → Nat → UInt8) (shape : List MysqlField)
    (T : List Row) : Except Fault (List (UInt32 × Slot)) :=
  fetchLoop (tableColumns model junk shape T) (T.length * shape.length) T

/-- A value of a column is one that can be written for its type. -/
def Matches (model : DataModel) (f : MysqlField) (content : Option Bytes) : Prop :=
  ∀ v, content = some v → Writable model f.type v

/-- A table of `R` rows with values of the given column types. -/
structure IsTable (model : DataModel) (shape : List MysqlField) (R : Nat) (T : List Row) :
    Prop where
  rows : T.length = R
  cells : ∀ row ∈ T, ∀ i f, shape[i]? = some f → Matches model f (cellAt row i)

/-- Any two tables of this shape with `content` in cell `(r, c)` whose fetches finish store the same
slot for it, whatever else they hold and whatever the allocator returns. -/
def CellIndependent (model : DataModel) (shape : List MysqlField) (R r c : Nat)
    (content : Option Bytes) : Prop :=
  ∀ T₁ T₂ junk₁ junk₂ stores₁ stores₂, IsTable model shape R T₁ → IsTable model shape R T₂ →
    cell T₁ r c = content → cell T₂ r c = content →
    fetchTable model junk₁ shape T₁ = .ok stores₁ → fetchTable model junk₂ shape T₂ = .ok stores₂ →
    storedAt shape.length stores₁ r c = storedAt shape.length stores₂ r c

/-! ## The condition -/

def isBlockType (type : EnumFieldTypes) : Prop := type = .VAR_STRING ∨ type = .BLOB

instance (type : EnumFieldTypes) : Decidable (isBlockType type) :=
  inferInstanceAs (Decidable (_ ∨ _))

/-- How many bytes of `RowData` a value of column `i` writes. -/
def widthAt (model : DataModel) (shape : List MysqlField) (i : Nat) : Nat :=
  match shape[i]? with
  | none => 0
  | some f => fetchWidth model f.type

/-- A value in column `i` can have something else than zero in byte `k`. -/
def VariesAt (model : DataModel) (shape : List MysqlField) (i k : Nat) : Prop :=
  match shape[i]? with
  | none => False
  | some f => Varies model f.type k

instance (model : DataModel) (shape : List MysqlField) (i k : Nat) :
    Decidable (VariesAt model shape i k) :=
  match h : shape[i]? with
  | none => isFalse (by simp [VariesAt, h])
  | some f => decidable_of_iff (Varies model f.type k) (by simp [VariesAt, h])

/-- A value in column `i` neither leaves `RowData` nor lands on the address of a block. In a run
that finishes, the other columns are `NULL` throughout. -/
def Harmless (model : DataModel) (shape : List MysqlField) (i : Nat) : Prop :=
  8 * i + widthAt model shape i ≤ 8 * shape.length ∧
    ∀ d f, shape[d]? = some f → isBlockType f.type →
      ¬ (8 * d < 8 * i + widthAt model shape i ∧ i < d + 1)

/-- No value of a harmless column to the left leaves anything in byte `start` or later of the word of
column `c`. -/
def NoSpill (model : DataModel) (shape : List MysqlField) (c start : Nat) : Prop :=
  ∀ j < c, Harmless model shape j → ∀ b, start ≤ b → b < 8 →
    ¬ VariesAt model shape j (8 * c + b - 8 * j)

/-- A cell of a fixed-width column that depends on nothing but its content. -/
def FixedIndependent (model : DataModel) (shape : List MysqlField) (r c : Nat)
    (content : Option Bytes) : Prop :=
  (content ≠ none → Harmless model shape c →
    NoSpill model shape c (widthAt model shape c)) ∧
  (content = none → NoSpill model shape c 0 ∧
    (r = 0 ∨ ¬ Harmless model shape c ∨ ∀ b < 8, ¬ VariesAt model shape c b))

/-- A cell of a text or binary column that depends on nothing but its content. -/
def BlockIndependent (R : Nat) (f : MysqlField) (content : Option Bytes) : Prop :=
  R = 1 ∧ ∃ v, content = some v ∧ (f.type = .BLOB ∧ f.isBinary = true → 2 ^ 32 ≤ v.length + 1)

def Independent (model : DataModel) (shape : List MysqlField) (R r c : Nat) (f : MysqlField)
    (content : Option Bytes) : Prop :=
  if isBlockType f.type then BlockIndependent R f content
  else FixedIndependent model shape r c content

/-! ## The columns of a table -/

/-- Column `i` of a table, bound. -/
def tableColumn (model : DataModel) (junk : Nat → Nat → UInt8) (T : List Row) (i : Nat)
    (f : MysqlField) : Column :=
  bindField model junk i { f with maxLength := longest T i }

section Columns

variable {model : DataModel} {junk : Nat → Nat → UInt8} {shape : List MysqlField} {T : List Row}

@[simp] theorem tableColumn_index (i : Nat) (f : MysqlField) :
    (tableColumn model junk T i f).index = i := rfl

variable (model junk shape T) in
theorem length_tableColumns : (tableColumns model junk shape T).length = shape.length := by
  simp [tableColumns, bindFields, fieldsOf]

variable (model junk T) in
theorem tableColumns_getElem? {i : Nat} {f : MysqlField} (h : shape[i]? = some f) :
    (tableColumns model junk shape T)[i]? =
      some (tableColumn model junk T i f) := by
  simp [tableColumns, bindFields, fieldsOf, tableColumn, h]

theorem exists_of_mem_tableColumns {col : Column} (h : col ∈ tableColumns model junk shape T) :
    ∃ i f, shape[i]? = some f ∧ i < shape.length ∧
      col = tableColumn model junk T i f := by
  obtain ⟨i, hi⟩ := List.mem_iff_getElem?.mp h
  have hlt : i < shape.length := by
    rw [← length_tableColumns model junk shape T]
    exact (List.getElem?_eq_some_iff.mp hi).1
  obtain ⟨f, hf⟩ : ∃ f, shape[i]? = some f := ⟨_, List.getElem?_eq_getElem hlt⟩
  rw [tableColumns_getElem? model junk T hf] at hi
  exact ⟨i, f, hf, hlt, (Option.some.inj hi).symm⟩

theorem tableColumn_isBlock (i : Nat) (f : MysqlField) :
    (tableColumn model junk T i f).isBlock = decide (isBlockType f.type) := by
  have htype : (tableColumn model junk T i f).bind.bufferType = f.type := by
    unfold tableColumn bindField setBind
    by_cases h : f.type = .VAR_STRING ∨ f.type = .BLOB
    · simp only [h, if_true, MysqlBind.zero]
      split
      · rfl
      · rfl
    · simp [h, MysqlBind.zero]
  unfold Column.isBlock
  rw [htype]
  exact (Bool.decide_or _ _).symm

theorem widthAt_eq {i : Nat} {f : MysqlField} (h : shape[i]? = some f) :
    widthAt model shape i = fetchWidth model f.type := by
  simp [widthAt, h]

theorem variesAt_eq {i : Nat} {f : MysqlField} (h : shape[i]? = some f) (k : Nat) :
    VariesAt model shape i k = Varies model f.type k := by
  simp [VariesAt, h]

theorem VariesAt.lt {i k : Nat} (h : VariesAt model shape i k) : k < widthAt model shape i := by
  unfold VariesAt at h
  unfold widthAt
  cases hf : shape[i]? with
  | none => simp [hf] at h
  | some f =>
    simp only [hf] at h
    exact h.lt

theorem fetchWidth_block {type : EnumFieldTypes} (h : isBlockType type) :
    fetchWidth model type = 0 := by
  rcases h with rfl | rfl <;> rfl

variable (junk T) in
theorem length_image {f : MysqlField} {v : Bytes} (h : Matches model f (some v)) (i : Nat) :
    ((tableColumn model junk T i f).image v).length = fetchWidth model f.type := by
  show (v.take (fetchWidth model f.type)).length = _
  rw [List.length_take]
  rcases Nat.eq_zero_or_pos (fetchWidth model f.type) with hz | hpos
  · rw [hz]
    exact Nat.zero_min _
  · rw [(h v rfl).length hpos, Nat.min_self]

variable {R : Nat} {row : Row} {i : Nat} {f : MysqlField}

theorem covers_iff (hT : IsTable model shape R T) (hrow : row ∈ T) (hf : shape[i]? = some f)
    {a : Nat} :
    Covers row (tableColumn model junk T i f) a ↔
      (cellAt row i).isSome ∧ 8 * i ≤ a ∧ a < 8 * i + widthAt model shape i := by
  have hmatch := hT.cells row hrow i f hf
  unfold Covers
  simp only [tableColumn_isBlock, tableColumn_index, widthAt_eq hf]
  cases hcell : cellAt row i with
  | none => simp
  | some v =>
    rw [hcell] at hmatch
    have himage := length_image junk T hmatch i
    by_cases hblock : isBlockType f.type
    · simp [hblock, fetchWidth_block hblock]
    · simp [hblock, himage]

/-- A row marks only the bytes that vary. -/
theorem variesAt_of_marks (hT : IsTable model shape R T) (hrow : row ∈ T) (hf : shape[i]? = some f)
    {a : Nat} (h : Marks row (tableColumn model junk T i f) a) :
    (cellAt row i).isSome ∧ 8 * i ≤ a ∧ VariesAt model shape i (a - 8 * i) := by
  obtain ⟨v, hcell, -, hle, hne⟩ := h
  rw [tableColumn_index] at hcell hle hne
  refine ⟨by rw [hcell]; rfl, hle, ?_⟩
  rw [variesAt_eq hf]
  by_contra hvaries
  exact hne ((hT.cells row hrow i f hf v hcell).byte_zero hvaries)

theorem clobbers_iff (hT : IsTable model shape R T) (hrow : row ∈ T) (hf : shape[i]? = some f)
    {j : Nat} :
    Clobbers row (tableColumn model junk T i f) j ↔
      (cellAt row i).isSome ∧ 8 * j < 8 * i + widthAt model shape i ∧ i < j + 1 := by
  have hmatch := hT.cells row hrow i f hf
  unfold Clobbers
  simp only [tableColumn_isBlock, tableColumn_index, widthAt_eq hf]
  cases hcell : cellAt row i with
  | none => simp
  | some v =>
    rw [hcell] at hmatch
    have himage := length_image junk T hmatch i
    by_cases hblock : isBlockType f.type
    · -- A column of width zero clobbers nothing.
      rw [fetchWidth_block hblock]
      have hnone : ¬ (8 * j < 8 * i + 0 ∧ i < j + 1) := by omega
      exact iff_of_false (by simp [hblock]) fun h => hnone h.2
    · simp [hblock, himage]

theorem inBounds_iff (hT : IsTable model shape R T) (hrow : row ∈ T) (hf : shape[i]? = some f)
    (hi : i < shape.length) :
    InBounds shape.length row (tableColumn model junk T i f) ↔
      ((cellAt row i).isSome → 8 * i + widthAt model shape i ≤ 8 * shape.length) := by
  have hmatch := hT.cells row hrow i f hf
  unfold InBounds
  simp only [tableColumn_isBlock, tableColumn_index, widthAt_eq hf]
  cases hcell : cellAt row i with
  | none => simp
  | some v =>
    rw [hcell] at hmatch
    have himage := length_image junk T hmatch i
    by_cases hblock : isBlockType f.type
    · simp [hblock, fetchWidth_block hblock]
      omega
    · simp [hblock, himage]

/-- **A table is fetched to the end exactly when its values are all in harmless columns.** -/
theorem fetchTable_finishes_iff (hT : IsTable model shape R T) :
    (∃ stores, fetchTable model junk shape T = .ok stores) ↔
      ∀ row ∈ T, ∀ i < shape.length, (cellAt row i).isSome → Harmless model shape i := by
  have hindex : ∀ col ∈ tableColumns model junk shape T,
      col.index < (tableColumns model junk shape T).length := by
    intro col hcol
    obtain ⟨i, f, -, hi, rfl⟩ := exists_of_mem_tableColumns hcol
    rw [length_tableColumns]
    exact hi
  have hfin := fetchLoop_finishes_iff T hindex
  rw [length_tableColumns] at hfin
  unfold fetchTable
  rw [hfin]
  constructor
  · intro h row hrow i hi hsome
    have hf : shape[i]? = some shape[i] := List.getElem?_eq_getElem hi
    obtain ⟨hbounds, hclobber⟩ :=
      h row hrow _ (List.mem_of_getElem? (tableColumns_getElem? model junk T hf))
    refine ⟨(inBounds_iff hT hrow hf hi).mp hbounds hsome, fun d g hg hblock hover => ?_⟩
    refine hclobber _ (List.mem_of_getElem? (tableColumns_getElem? model junk T hg)) ?_
      ((clobbers_iff hT hrow hf).mpr ⟨hsome, hover⟩)
    rw [tableColumn_isBlock]
    exact decide_eq_true hblock
  · intro h row hrow col hcol
    obtain ⟨i, f, hf, hi, rfl⟩ := exists_of_mem_tableColumns hcol
    refine ⟨(inBounds_iff hT hrow hf hi).mpr fun hsome => (h row hrow i hi hsome).1, ?_⟩
    intro d hd hblock hclobber
    obtain ⟨j, g, hg, -, rfl⟩ := exists_of_mem_tableColumns hd
    obtain ⟨hsome, hover⟩ := (clobbers_iff hT hrow hf).mp hclobber
    rw [tableColumn_isBlock] at hblock
    exact (h row hrow i hi hsome).2 j g hg (of_decide_eq_true hblock) hover

variable (model junk T) in
/-- The columns around column `c`. -/
theorem tableColumns_split {c : Nat} (hf : shape[c]? = some f) :
    ∃ before after, tableColumns model junk shape T =
        before ++ tableColumn model junk T c f :: after ∧
      (∀ d ∈ before, ∃ j g, shape[j]? = some g ∧ j < c ∧ d = tableColumn model junk T j g) ∧
      ∀ d ∈ after, ∃ j g, shape[j]? = some g ∧ c < j ∧ d = tableColumn model junk T j g := by
  have hcol := tableColumns_getElem? model junk T hf
  obtain ⟨hlt, heq⟩ := List.getElem?_eq_some_iff.mp hcol
  have hget : ∀ j d, (tableColumns model junk shape T)[j]? = some d →
      ∃ g, shape[j]? = some g ∧ d = tableColumn model junk T j g := by
    intro j d hd
    have hj : j < shape.length := by
      rw [← length_tableColumns model junk shape T]
      exact (List.getElem?_eq_some_iff.mp hd).1
    refine ⟨shape[j], List.getElem?_eq_getElem hj, ?_⟩
    rw [tableColumns_getElem? model junk T (List.getElem?_eq_getElem hj)] at hd
    exact (Option.some.inj hd).symm
  refine ⟨(tableColumns model junk shape T).take c, (tableColumns model junk shape T).drop (c + 1),
    ?_, ?_, ?_⟩
  · rw [← heq, ← List.drop_eq_getElem_cons hlt, List.take_append_drop]
  · intro d hd
    obtain ⟨j, hj⟩ := List.mem_iff_getElem?.mp hd
    rw [List.getElem?_take] at hj
    split at hj
    · rename_i hjc
      obtain ⟨g, hg, rfl⟩ := hget j d hj
      exact ⟨j, g, hg, hjc, rfl⟩
    · cases hj
  · intro d hd
    obtain ⟨j, hj⟩ := List.mem_iff_getElem?.mp hd
    rw [List.getElem?_drop] at hj
    obtain ⟨g, hg, rfl⟩ := hget (c + 1 + j) d hj
    exact ⟨c + 1 + j, g, hg, by omega, rfl⟩

end Columns

/-! ## Fixed-width columns -/

/-- The memory row `r` is copied from, in the fetch of a table. -/
def memoryAt (model : DataModel) (junk : Nat → Nat → UInt8) (shape : List MysqlField) (T : List Row)
    (r : Nat) : RowBuffers :=
  buffersAfter (tableColumns model junk shape T) (T.take (r + 1))

section Fixed

variable {model : DataModel} {junk : Nat → Nat → UInt8} {shape : List MysqlField} {T : List Row}
variable {R r c : Nat} {f : MysqlField} {content : Option Bytes}

theorem take_succ_of_lt {r : Nat} (hr : r < T.length) : T.take (r + 1) = T.take r ++ [T.getD r []] := by
  rw [List.take_succ_eq_append_getElem hr]
  simp [hr]

theorem getD_mem {r : Nat} (hr : r < T.length) : T.getD r [] ∈ T := by
  simp [hr]

theorem memoryAt_eq {r : Nat} (hr : r < T.length) :
    memoryAt model junk shape T r = landRow (tableColumns model junk shape T)
      (buffersAfter (tableColumns model junk shape T) (T.take r)) (T.getD r []) := by
  rw [memoryAt, take_succ_of_lt hr, buffersAfter_append]

variable (junk) in
/-- A value is copied as it is where no column further right in its row reaches. -/
theorem memoryAt_byte (hT : IsTable model shape R T) (hr : r < T.length) (hf : shape[c]? = some f)
    {v : Bytes} (hcell : cell T r c = some v) {k a : Nat} (hk : k < widthAt model shape c)
    (ha : a = 8 * c + k)
    (hlater : ∀ j, c < j → j < shape.length → (cell T r j).isSome → 8 * j ≤ a →
      8 * j + widthAt model shape j ≤ a) :
    some ((memoryAt model junk shape T r).rowData a) = v[k]? := by
  subst ha
  have hrow := getD_mem hr
  have hfixed : ¬ isBlockType f.type := by
    intro hblock
    rw [widthAt_eq hf, fetchWidth_block hblock] at hk
    cases hk
  rw [widthAt_eq hf] at hk
  have hlen : v.length = fetchWidth model f.type :=
    (hT.cells _ hrow c f hf v hcell).length (Nat.lt_of_le_of_lt (Nat.zero_le k) hk)
  have himage : ((tableColumn model junk T c f).image v)[k]? = v[k]? := by
    show (v.take (fetchWidth model f.type))[k]? = _
    rw [List.getElem?_take_of_lt hk]
  have hget : v[k]? = some v[k] := List.getElem?_eq_getElem (by omega)
  obtain ⟨before, after, hsplit, -, hafter⟩ := tableColumns_split model junk T hf
  rw [memoryAt_eq hr, hsplit, hget]
  refine congrArg some (@landRow_byte _ _ (tableColumn model junk T c f) _ _ _ _ hcell ?_
    (himage.trans hget) ?_ _)
  · rw [tableColumn_isBlock]
    exact decide_eq_false hfixed
  · intro d hd hcovers
    obtain ⟨j, g, hg, hj, rfl⟩ := hafter d hd
    obtain ⟨hsome, hle, hlt⟩ := (covers_iff hT hrow hg).mp hcovers
    have := hlater j hj (List.getElem?_eq_some_iff.mp hg).1 hsome hle
    simp only [tableColumn_index] at *
    omega

variable (junk) in
/-- A byte no column of a row reaches is copied as in the row above. -/
theorem memoryAt_byte_above (hT : IsTable model shape R T) (hr : r + 1 < T.length) {a : Nat}
    (h : ∀ j < shape.length, (cell T (r + 1) j).isSome → 8 * j ≤ a →
      8 * j + widthAt model shape j ≤ a) :
    (memoryAt model junk shape T (r + 1)).rowData a = (memoryAt model junk shape T r).rowData a := by
  rw [memoryAt_eq hr, landRow_byte_outside, memoryAt]
  intro col hcol hcovers
  obtain ⟨j, g, hg, hjlt, rfl⟩ := exists_of_mem_tableColumns hcol
  obtain ⟨hsome, hle, hlt⟩ := (covers_iff hT (getD_mem hr) hg).mp hcovers
  have := h j hjlt hsome hle
  omega

/-- What an independent cell of a fixed-width column stores. -/
def fixedSlot (width : Nat) (content : Option Bytes) : Slot :=
  .word ((List.range 8).map fun b => if b < width then (content.getD []).getD b 0 else 0)

/-- A byte of an independent cell that the cell does not write itself is zero: no column has written
anything else there in any row so far. -/
theorem byte_zero (hT : IsTable model shape R T) (hr : r < T.length) (hf : shape[c]? = some f)
    (hcell : cell T r c = content)
    (hharmless : ∀ row ∈ T, ∀ i < shape.length, (cellAt row i).isSome → Harmless model shape i)
    (hind : FixedIndependent model shape r c content) {b : Nat} (hb : b < 8)
    (hown : content ≠ none → widthAt model shape c ≤ b) :
    (memoryAt model junk shape T r).rowData (8 * c + b) = 0 := by
  have hclt : c < shape.length := (List.getElem?_eq_some_iff.mp hf).1
  apply buffersAfter_byte_zero
  intro row hrow' col hcol hmarks
  have hmem : row ∈ T := List.mem_of_mem_take hrow'
  obtain ⟨j, g, hg, hjlt, rfl⟩ := exists_of_mem_tableColumns hcol
  obtain ⟨hsome, hle, hvaries⟩ := variesAt_of_marks hT hmem hg hmarks
  have hj := hharmless row hmem j hjlt hsome
  rcases Nat.lt_or_ge j c with hjc | hjc
  · -- A column to the left would have to spill into the cell.
    by_cases hnone : content = none
    · exact (hind.2 hnone).1 j hjc hj b (Nat.zero_le b) hb hvaries
    · have hc : Harmless model shape c := by
        apply hharmless _ (getD_mem hr) c hclt
        rw [show cellAt (T.getD r []) c = content from hcell]
        exact Option.isSome_iff_ne_none.mpr hnone
      exact hind.1 hnone hc j hjc hj b (hown hnone) hb hvaries
  · -- Its own column writes here only above row `r`, and only if the cell is `NULL`.
    obtain rfl : j = c := by omega
    rw [Nat.add_sub_cancel_left] at hvaries
    by_cases hnone : content = none
    · rcases (hind.2 hnone).2 with h0 | hnot | hzero
      · subst h0
        rw [take_succ_of_lt hr, List.take_zero, List.nil_append] at hrow'
        rw [List.mem_singleton.mp hrow', show cellAt (T.getD 0 []) j = content from hcell,
          hnone] at hsome
        cases hsome
      · exact hnot hj
      · exact hzero b hb hvaries
    · have := hown hnone
      have := hvaries.lt
      omega

theorem slotIn_fixed (hT : IsTable model shape R T) (hr : r < T.length) (hf : shape[c]? = some f)
    (hfixed : ¬ isBlockType f.type) (hcell : cell T r c = content)
    (hharmless : ∀ row ∈ T, ∀ i < shape.length, (cellAt row i).isSome → Harmless model shape i)
    (hind : FixedIndependent model shape r c content) :
    slotIn (memoryAt model junk shape T r) (tableColumn model junk T c f) =
      fixedSlot (widthAt model shape c) content := by
  unfold slotIn fixedSlot
  rw [tableColumn_isBlock, decide_eq_false hfixed]
  simp only [Bool.false_eq_true, if_false, tableColumn_index]
  refine congrArg Slot.word (List.map_congr_left fun b hb => ?_)
  have hb8 : b < 8 := List.mem_range.mp hb
  cases hcontent : content with
  | none =>
    rw [byte_zero hT hr hf hcell hharmless hind hb8 fun h => absurd hcontent h]
    simp
  | some v =>
    by_cases hbw : b < widthAt model shape c
    · have hown := memoryAt_byte junk hT hr hf (hcell.trans hcontent) hbw rfl
        fun j hj _ _ hle => by omega
      have hget : v.getD b 0 = v[b]?.getD 0 := List.getD_eq_getElem?_getD
      rw [if_pos hbw, Option.getD_some, hget, ← hown]
      rfl
    · rw [if_neg hbw]
      exact byte_zero hT hr hf hcell hharmless hind hb8 fun _ => Nat.le_of_not_lt hbw

end Fixed

/-! ## Tables with one cell set besides the given one -/

/-- The table of a function. -/
def grid (R F : Nat) (cells : Nat → Nat → Option Bytes) : List Row :=
  (List.range R).map fun r => (List.range F).map (cells r)

/-- `content` in cell `(r, c)`, `other` in cell `(r₀, j₀)`, and `NULL` everywhere else. -/
def twoCells (r c : Nat) (content : Option Bytes) (r₀ j₀ : Nat) (other : Option Bytes) :
    Nat → Nat → Option Bytes := fun r' c' =>
  if r' = r ∧ c' = c then content else if r' = r₀ ∧ c' = j₀ then other else none

section Grid

variable {model : DataModel} {shape : List MysqlField} {R F : Nat}
variable {cells : Nat → Nat → Option Bytes}

theorem length_grid : (grid R F cells).length = R := by simp [grid]

theorem grid_getD {r : Nat} (hr : r < R) :
    (grid R F cells).getD r [] = (List.range F).map (cells r) := by
  simp [grid, hr]

theorem cellAt_range {g : Nat → Option Bytes} {c : Nat} (hc : c < F) :
    cellAt ((List.range F).map g) c = g c := by
  simp [cellAt, hc]

variable (cells) in
theorem cell_grid {r c : Nat} (hr : r < R) (hc : c < F) : cell (grid R F cells) r c = cells r c := by
  rw [cell, grid_getD hr, cellAt_range hc]

theorem isTable_grid
    (h : ∀ r i f, r < R → shape[i]? = some f → Matches model f (cells r i)) :
    IsTable model shape R (grid R shape.length cells) := by
  refine ⟨length_grid, fun row hrow i f hf => ?_⟩
  obtain ⟨r, hr, rfl⟩ := List.mem_map.mp hrow
  rw [cellAt_range (List.getElem?_eq_some_iff.mp hf).1]
  exact h r i f (List.mem_range.mp hr) hf

theorem grid_finishes (junk : Nat → Nat → UInt8)
    (hT : IsTable model shape R (grid R shape.length cells))
    (h : ∀ r i, r < R → i < shape.length → (cells r i).isSome → Harmless model shape i) :
    ∃ stores, fetchTable model junk shape (grid R shape.length cells) = .ok stores := by
  rw [fetchTable_finishes_iff hT]
  intro row hrow i hi hsome
  obtain ⟨r, hr, rfl⟩ := List.mem_map.mp hrow
  rw [cellAt_range hi] at hsome
  exact h r i (List.mem_range.mp hr) hi hsome

variable {r c r₀ j₀ : Nat} {content other : Option Bytes} {f g : MysqlField}

variable (R r r₀) in
theorem isTable_twoCells (hf : shape[c]? = some f) (hcontent : Matches model f content)
    (hg : shape[j₀]? = some g) (hother : Matches model g other) :
    IsTable model shape R (grid R shape.length (twoCells r c content r₀ j₀ other)) := by
  apply isTable_grid
  intro r' i k hr' hk
  unfold twoCells
  by_cases h₁ : r' = r ∧ i = c
  · rw [if_pos h₁]
    obtain rfl := h₁.2
    rw [hf] at hk
    cases hk
    exact hcontent
  · rw [if_neg h₁]
    by_cases h₂ : r' = r₀ ∧ i = j₀
    · rw [if_pos h₂]
      obtain rfl := h₂.2
      rw [hg] at hk
      cases hk
      exact hother
    · rw [if_neg h₂]
      exact fun v hv => nomatch hv

theorem twoCells_finishes (junk : Nat → Nat → UInt8)
    (hT : IsTable model shape R (grid R shape.length (twoCells r c content r₀ j₀ other)))
    (hc : content.isSome → Harmless model shape c) (hj : other.isSome → Harmless model shape j₀) :
    ∃ stores, fetchTable model junk shape
      (grid R shape.length (twoCells r c content r₀ j₀ other)) = .ok stores := by
  apply grid_finishes junk hT
  intro r' i hr' hi hsome
  unfold twoCells at hsome
  split at hsome
  · rename_i h
    exact h.2 ▸ hc hsome
  · split at hsome
    · rename_i h
      exact h.2 ▸ hj hsome
    · cases hsome

end Grid

/-! ## Why the others are not independent -/

section Necessity

variable {model : DataModel} {shape : List MysqlField} {R r c : Nat} {f : MysqlField}
variable {content : Option Bytes}

theorem storedAt_fetchTable {T : List Row} {junk : Nat → Nat → UInt8}
    {stores : List (UInt32 × Slot)} (hrun : fetchTable model junk shape T = .ok stores)
    (hr : r < T.length) (hf : shape[c]? = some f) :
    storedAt shape.length stores r c =
      some (slotIn (memoryAt model junk shape T r) (tableColumn model junk T c f)) := by
  rw [← length_tableColumns model junk shape T]
  exact stored_of_fetchLoop hrun hr (tableColumns_getElem? model junk T hf)

/-- Independence, in terms of what is copied. -/
theorem CellIndependent.slot_eq (h : CellIndependent model shape R r c content) (hr : r < R)
    (hf : shape[c]? = some f) {T₁ T₂ : List Row} {junk₁ junk₂ : Nat → Nat → UInt8}
    (hT₁ : IsTable model shape R T₁) (hT₂ : IsTable model shape R T₂)
    (h₁ : cell T₁ r c = content) (h₂ : cell T₂ r c = content)
    (hfin₁ : ∃ stores, fetchTable model junk₁ shape T₁ = .ok stores)
    (hfin₂ : ∃ stores, fetchTable model junk₂ shape T₂ = .ok stores) :
    slotIn (memoryAt model junk₁ shape T₁ r) (tableColumn model junk₁ T₁ c f) =
      slotIn (memoryAt model junk₂ shape T₂ r) (tableColumn model junk₂ T₂ c f) := by
  obtain ⟨stores₁, hrun₁⟩ := hfin₁
  obtain ⟨stores₂, hrun₂⟩ := hfin₂
  have hsame := h T₁ T₂ junk₁ junk₂ stores₁ stores₂ hT₁ hT₂ h₁ h₂ hrun₁ hrun₂
  rw [storedAt_fetchTable hrun₁ (hT₁.rows.symm ▸ hr) hf,
    storedAt_fetchTable hrun₂ (hT₂.rows.symm ▸ hr) hf] at hsame
  exact Option.some.inj hsame

theorem slotIn_fixed_byte (hfixed : ¬ isBlockType f.type) {s₁ s₂ : RowBuffers}
    {junk₁ junk₂ : Nat → Nat → UInt8} {T₁ T₂ : List Row}
    (h : slotIn s₁ (tableColumn model junk₁ T₁ c f) = slotIn s₂ (tableColumn model junk₂ T₂ c f))
    {b : Nat} (hb : b < 8) : s₁.rowData (8 * c + b) = s₂.rowData (8 * c + b) := by
  unfold slotIn at h
  rw [tableColumn_isBlock, tableColumn_isBlock, decide_eq_false hfixed] at h
  simp only [Bool.false_eq_true, if_false, tableColumn_index, Slot.word.injEq] at h
  exact List.map_inj_left.mp h b (List.mem_range.mpr hb)

/-- A value of width `w` whose bytes are all `x`. -/
def filled (w : Nat) (x : UInt8) : Option Bytes := some (List.replicate w x)

variable (model) in
theorem matches_none (f : MysqlField) : Matches model f none := fun _ h => nomatch h

variable (model) in
theorem matches_zero (f : MysqlField) : Matches model f (filled (fetchWidth model f.type) 0) :=
  fun _ hv => Option.some.inj hv ▸ writable_zero model f.type

variable (model) in
theorem matches_full (f : MysqlField) : Matches model f (some (fullValue model f.type)) :=
  fun _ hv => Option.some.inj hv ▸ writable_fullValue model f.type

/-- A column to the left that reaches the cell puts its own byte there. -/
theorem spilled_byte (junk : Nat → Nat → UInt8) (hr : r < R) (hf : shape[c]? = some f)
    (hcontent : Matches model f content) {j : Nat} {g : MysqlField} (hg : shape[j]? = some g)
    (hj : j < c) {v : Bytes} (hv : Matches model g (some v)) {b : Nat}
    (hreach : 8 * c + b < 8 * j + widthAt model shape j)
    (hown : content ≠ none → widthAt model shape c ≤ b) :
    some ((memoryAt model junk shape (grid R shape.length (twoCells r c content r j (some v)))
      r).rowData (8 * c + b)) = v[8 * c + b - 8 * j]? := by
  have hT : IsTable model shape R (grid R shape.length (twoCells r c content r j (some v))) :=
    isTable_twoCells _ _ _ hf hcontent hg hv
  have hcell := cell_grid (twoCells r c content r j (some v)) hr (List.getElem?_eq_some_iff.mp hg).1
  rw [twoCells, if_neg (by omega), if_pos ⟨rfl, rfl⟩] at hcell
  refine memoryAt_byte junk hT (hT.rows.symm ▸ hr) hg hcell (by omega) (by omega) ?_
  -- Further right only the cell itself has a value, and it does not reach that far.
  intro j' hj' hlt hsome hle
  rw [cell_grid _ hr hlt, twoCells] at hsome
  split at hsome
  · rename_i heq
    obtain rfl := heq.2
    have := hown (Option.isSome_iff_ne_none.mp hsome)
    omega
  · rw [if_neg (by omega)] at hsome
    cases hsome

/-- A `NULL` below a value shows the value. -/
theorem stale_byte (junk : Nat → Nat → UInt8) (hr : r + 1 < R) (hf : shape[c]? = some f) {v : Bytes}
    (hv : Matches model f (some v)) {b : Nat} (hb : b < 8) (hlt : b < widthAt model shape c) :
    some ((memoryAt model junk shape (grid R shape.length (twoCells (r + 1) c none r c (some v)))
      (r + 1)).rowData (8 * c + b)) = v[b]? := by
  have hT : IsTable model shape R
      (grid R shape.length (twoCells (r + 1) c none r c (some v))) :=
    isTable_twoCells _ _ _ hf (matches_none model f) hf hv
  have hcell := cell_grid (twoCells (r + 1) c none r c (some v))
    (Nat.lt_of_succ_lt hr) (List.getElem?_eq_some_iff.mp hf).1
  rw [twoCells, if_neg (by omega), if_pos ⟨rfl, rfl⟩] at hcell
  rw [memoryAt_byte_above junk hT (hT.rows.symm ▸ hr)]
  · exact memoryAt_byte junk hT (hT.rows.symm ▸ Nat.lt_of_succ_lt hr) hf hcell hlt rfl
      fun j hj _ _ hle => by omega
  · -- The row below has no value at all.
    intro j hlt hsome hle
    rw [cell_grid _ hr hlt, twoCells] at hsome
    split at hsome
    · cases hsome
    · rw [if_neg (by omega)] at hsome
      cases hsome

/-- Of two values of a column, one has all its bytes zero and the other none that varies. -/
theorem zero_ne_full {g : MysqlField} {k : Nat} (hk : Varies model g.type k) :
    (List.replicate (fetchWidth model g.type) (0 : UInt8))[k]? ≠ (fullValue model g.type)[k]? := by
  intro heq
  apply fullValue_byte hk
  rw [← heq, List.getElem?_replicate, if_pos hk.lt]
  rfl

theorem CellIndependent.noSpill (h : CellIndependent model shape R r c content) (hr : r < R)
    (hf : shape[c]? = some f) (hfixed : ¬ isBlockType f.type) (hcontent : Matches model f content)
    (hc : content.isSome → Harmless model shape c) {start : Nat}
    (hstart : content ≠ none → widthAt model shape c ≤ start) : NoSpill model shape c start := by
  intro j hj hharm b hb hb8 hvaries
  have hreach := hvaries.lt
  obtain ⟨g, hg⟩ : ∃ g, shape[j]? = some g := by
    refine ⟨_, List.getElem?_eq_getElem ?_⟩
    exact Nat.lt_trans hj (List.getElem?_eq_some_iff.mp hf).1
  have hown : content ≠ none → widthAt model shape c ≤ b := fun hne => Nat.le_trans (hstart hne) hb
  -- The same table twice, with zeros and with everything set in the column that spills.
  have hcell := fun v => cell_grid (twoCells r c content r j (some v)) hr
    (List.getElem?_eq_some_iff.mp hf).1
  simp only [twoCells, and_self, if_true] at hcell
  have hT := fun v (hv : Matches model g (some v)) => isTable_twoCells R r r hf hcontent hg hv
  have hfin := fun v (hv : Matches model g (some v)) =>
    twoCells_finishes (fun _ _ => 0) (hT v hv) hc fun _ => hharm
  have hzero := matches_zero model g
  have hfull := matches_full model g
  have hslots := h.slot_eq hr hf (hT _ hzero) (hT _ hfull) (hcell _) (hcell _) (hfin _ hzero)
    (hfin _ hfull)
  have hbyte := congrArg some (slotIn_fixed_byte hfixed hslots hb8)
  rw [spilled_byte _ hr hf hcontent hg hj hzero (by omega) hown,
    spilled_byte _ hr hf hcontent hg hj hfull (by omega) hown] at hbyte
  rw [variesAt_eq hg] at hvaries
  exact zero_ne_full hvaries hbyte

/-- The condition for fixed-width columns is necessary. -/
theorem CellIndependent.fixed (h : CellIndependent model shape R r c content) (hr : r < R)
    (hf : shape[c]? = some f) (hfixed : ¬ isBlockType f.type) (hcontent : Matches model f content) :
    FixedIndependent model shape r c content := by
  refine ⟨fun _ hc => h.noSpill hr hf hfixed hcontent (fun _ => hc) fun _ => Nat.le_refl _, ?_⟩
  intro hnone
  subst hnone
  refine ⟨h.noSpill hr hf hfixed hcontent (fun hs => nomatch hs) fun hne => absurd rfl hne, ?_⟩
  by_contra hcon
  push Not at hcon
  obtain ⟨hr0, hc, b, hb8, hvaries⟩ := hcon
  obtain ⟨r', rfl⟩ : ∃ r', r = r' + 1 := ⟨r - 1, by omega⟩
  have hcell := fun v => cell_grid (twoCells (r' + 1) c none r' c (some v)) hr
    (List.getElem?_eq_some_iff.mp hf).1
  simp only [twoCells, and_self, if_true] at hcell
  have hT := fun v (hv : Matches model f (some v)) =>
    isTable_twoCells R (r' + 1) r' hf hcontent hf hv
  have hfin := fun v (hv : Matches model f (some v)) =>
    twoCells_finishes (fun _ _ => 0) (hT v hv) (fun hs => nomatch hs) fun _ => hc
  have hzero := matches_zero model f
  have hfull := matches_full model f
  have hslots := h.slot_eq hr hf (hT _ hzero) (hT _ hfull) (hcell _) (hcell _) (hfin _ hzero)
    (hfin _ hfull)
  have hbyte := congrArg some (slotIn_fixed_byte hfixed hslots hb8)
  rw [stale_byte _ hr hf hzero hb8 hvaries.lt, stale_byte _ hr hf hfull hb8 hvaries.lt] at hbyte
  rw [variesAt_eq hf] at hvaries
  exact zero_ne_full hvaries hbyte

end Necessity

/-! ## Text and binary columns -/

section Blocks

variable {model : DataModel} {junk : Nat → Nat → UInt8} {shape : List MysqlField} {T : List Row}
variable {R r c : Nat} {f : MysqlField} {content : Option Bytes}

theorem tableColumn_bufferLength (hblock : isBlockType f.type) :
    (tableColumn model junk T c f).bind.bufferLength = UInt32.ofNat (longest T c + 1) := by
  have hsize : sizeOfField model { f with maxLength := longest T c } = longest T c + 1 := by
    rcases hblock with h | h <;> simp [sizeOfField, h]
  have hif : f.type = .VAR_STRING ∨ f.type = .BLOB := hblock
  unfold tableColumn bindField setBind
  simp [hif, hsize, MysqlBind.zero]

theorem initial_block (hf : shape[c]? = some f) (hblock : isBlockType f.type) :
    (RowBuffers.initial (tableColumns model junk shape T)).block c =
      (List.range (longest T c + 1)).map (junk c) := by
  have hsize : sizeOfField model { f with maxLength := longest T c } = longest T c + 1 := by
    rcases hblock with h | h <;> simp [sizeOfField, h]
  have hif : f.type = .VAR_STRING ∨ f.type = .BLOB := hblock
  have hbuffer : (tableColumn model junk T c f).bind.buffer =
      .block ((List.range (longest T c + 1)).map (junk c)) := by
    unfold tableColumn bindField setBind
    simp [hif, hsize, MysqlBind.zero]
  simp only [RowBuffers.initial, tableColumns_getElem? model junk T hf, Option.map_some, hbuffer]

/-- What is copied out of a block: as many bytes as `buffer_length` says. -/
theorem slotIn_block (hblock : isBlockType f.type) (s : RowBuffers) :
    slotIn s (tableColumn model junk T c f) =
      .block ((s.block c).take ((longest T c + 1) % 2 ^ 32)) := by
  unfold slotIn
  rw [tableColumn_isBlock, decide_eq_true hblock, if_pos rfl, tableColumn_bufferLength hblock,
    tableColumn_index, UInt32.toNat_ofNat']

theorem landRow_block_table (hf : shape[c]? = some f) (hblock : isBlockType f.type) (row : Row)
    (s : RowBuffers) :
    (landRow (tableColumns model junk shape T) s row).block c =
      match cellAt row c with
      | none => s.block c
      | some v => fillBlock (tableColumn model junk T c f) (s.block c) v := by
  obtain ⟨before, after, hsplit, hbefore, hafter⟩ := tableColumns_split model junk T hf
  rw [hsplit]
  refine @landRow_block _ _ (tableColumn model junk T c f) _ ?_ ?_ ?_ s
  · rw [tableColumn_isBlock]
    exact decide_eq_true hblock
  · intro d hd
    obtain ⟨j, g, -, hj, rfl⟩ := hbefore d hd
    exact Nat.ne_of_gt hj
  · intro d hd
    obtain ⟨j, g, -, hj, rfl⟩ := hafter d hd
    exact Nat.ne_of_lt hj

theorem longest_cons (row : Row) (T : List Row) (i : Nat) :
    longest (row :: T) i = max ((cellAt row i).getD []).length (longest T i) := rfl

theorem longest_eq {m : Nat} (hle : ∀ row ∈ T, ((cellAt row c).getD []).length ≤ m)
    (hmax : ∃ row ∈ T, ((cellAt row c).getD []).length = m) : longest T c = m := by
  have hupper : ∀ {T : List Row}, (∀ row ∈ T, ((cellAt row c).getD []).length ≤ m) →
      longest T c ≤ m := by
    intro T
    induction T with
    | nil => exact fun _ => Nat.zero_le m
    | cons row T ih =>
      intro h
      rw [longest_cons]
      exact Nat.max_le.mpr ⟨h row List.mem_cons_self, ih fun r hr => h r (List.mem_cons_of_mem _ hr)⟩
  have hlower : ∀ {T : List Row} {row : Row}, row ∈ T →
      ((cellAt row c).getD []).length ≤ longest T c := by
    intro T row hrow
    induction T with
    | nil => cases hrow
    | cons row' T ih =>
      rw [longest_cons]
      rcases List.mem_cons.mp hrow with rfl | hrow
      · exact Nat.le_max_left _ _
      · exact Nat.le_trans (ih hrow) (Nat.le_max_right _ _)
  obtain ⟨row, hrow, hm⟩ := hmax
  exact Nat.le_antisymm (hupper hle) (hm ▸ hlower hrow)

/-- The block after the first row. -/
theorem memoryAt_block_first (hr : 0 < T.length) (hf : shape[c]? = some f)
    (hblock : isBlockType f.type) :
    (memoryAt model junk shape T 0).block c =
      match cell T 0 c with
      | none => (List.range (longest T c + 1)).map (junk c)
      | some v => fillBlock (tableColumn model junk T c f)
          ((List.range (longest T c + 1)).map (junk c)) v := by
  rw [memoryAt_eq hr, landRow_block_table hf hblock, List.take_zero]
  show (match cell T 0 c with
    | none => (RowBuffers.initial (tableColumns model junk shape T)).block c
    | some v => fillBlock (tableColumn model junk T c f)
        ((RowBuffers.initial (tableColumns model junk shape T)).block c) v) = _
  rw [initial_block hf hblock]

variable (model junk T) in
/-- A block never gets shorter than `buffer_length`, so that many bytes are copied. -/
theorem length_slotIn_block (hf : shape[c]? = some f) (hblock : isBlockType f.type) (r : Nat) :
    ∃ bytes, slotIn (memoryAt model junk shape T r) (tableColumn model junk T c f) = .block bytes ∧
      bytes.length = (longest T c + 1) % 2 ^ 32 := by
  refine ⟨_, slotIn_block hblock _, ?_⟩
  have hlen := length_le_buffersAfter_block (tableColumns model junk shape T) (T.take (r + 1)) c
  rw [initial_block hf hblock, List.length_map, List.length_range] at hlen
  rw [List.length_take]
  exact Nat.min_eq_left (Nat.le_trans (Nat.mod_le _ _) hlen)

theorem fillBlock_eq (hblock : isBlockType f.type) (old v : Bytes) :
    fillBlock (tableColumn model junk T c f) old v =
      let room := (longest T c + 1) % 2 ^ 32
      let terminator : Bytes :=
        if v.length < room ∧ ¬ (f.type = .BLOB ∧ f.isBinary) then [0] else []
      let written := v.take room ++ terminator
      written ++ old.drop written.length := by
  unfold fillBlock
  rw [tableColumn_bufferLength hblock, UInt32.toNat_ofNat']
  rfl

/-- With one row and a terminator after the value, the block is the value and the terminator. -/
theorem slotIn_single (hT : IsTable model shape 1 T) (hf : shape[c]? = some f)
    (hblock : isBlockType f.type) {v : Bytes} (hcell : cell T 0 c = some v)
    (hroom : f.type = .BLOB ∧ f.isBinary = true → 2 ^ 32 ≤ v.length + 1) :
    slotIn (memoryAt model junk shape T 0) (tableColumn model junk T c f) =
      .block ((v ++ [0]).take ((v.length + 1) % 2 ^ 32)) := by
  have hlong : longest T c = v.length := by
    obtain ⟨row, hTrow⟩ := List.length_eq_one_iff.mp hT.rows
    subst hTrow
    have hv : cellAt row c = some v := hcell
    rw [longest_cons, hv]
    exact Nat.max_eq_left (Nat.zero_le _)
  have hpos : 0 < T.length := by rw [hT.rows]; exact Nat.one_pos
  rw [slotIn_block hblock, memoryAt_block_first hpos hf hblock, hcell]
  simp only [fillBlock_eq hblock, hlong]
  congr 1
  rcases Nat.lt_or_ge (v.length + 1) (2 ^ 32) with hlt | hge
  · have hmod : (v.length + 1) % 2 ^ 32 = v.length + 1 := Nat.mod_eq_of_lt hlt
    have hbin : ¬ (f.type = .BLOB ∧ f.isBinary = true) := fun hb => by
      have := hroom hb
      omega
    rw [hmod, if_pos ⟨Nat.lt_succ_self _, hbin⟩, List.take_of_length_le (Nat.le_succ _)]
    rw [List.take_left' (by simp), List.take_of_length_le (by simp)]
  · -- `buffer_length` has wrapped: there is room for a prefix of the value only.
    have hle : (v.length + 1) % 2 ^ 32 ≤ v.length := by
      have := Nat.mod_lt (v.length + 1) (Nat.two_pow_pos 32)
      omega
    rw [if_neg (by omega), List.append_nil, List.take_left' (by
      rw [List.length_take]
      exact Nat.min_eq_left hle), List.take_append_of_le_length hle]

/-- Values of a block column never go through `RowData`. -/
theorem harmless_block (hf : shape[c]? = some f) (hblock : isBlockType f.type) :
    Harmless model shape c := by
  have hclt : c < shape.length := (List.getElem?_eq_some_iff.mp hf).1
  unfold Harmless
  rw [widthAt_eq hf, fetchWidth_block hblock]
  refine ⟨by omega, fun d g _ _ hover => ?_⟩
  omega

variable (model) in
theorem matches_block (hblock : isBlockType f.type) (content : Option Bytes) :
    Matches model f content := by
  intro v _
  refine writable_number ?_ fun hpos => ?_
  · rcases hblock with h | h <;> rw [h] <;> decide
  · rw [fetchWidth_block hblock] at hpos
    cases hpos

theorem longest_grid {F m : Nat} {cells : Nat → Nat → Option Bytes} (hc : c < F)
    (hle : ∀ r < R, ((cells r c).getD []).length ≤ m)
    (hmax : ∃ r < R, ((cells r c).getD []).length = m) : longest (grid R F cells) c = m := by
  refine longest_eq (fun row hrow => ?_) ?_
  · obtain ⟨r, hr, rfl⟩ := List.mem_map.mp hrow
    rw [cellAt_range hc]
    exact hle r (List.mem_range.mp hr)
  · obtain ⟨r, hr, hm⟩ := hmax
    refine ⟨_, List.mem_map.mpr ⟨r, List.mem_range.mpr hr, rfl⟩, ?_⟩
    rw [cellAt_range hc]
    exact hm

theorem twoCells_first (r c : Nat) (content : Option Bytes) (r' : Nat) (other : Option Bytes) :
    twoCells r c content r' c other r c = content :=
  if_pos ⟨rfl, rfl⟩

theorem twoCells_second {r r' : Nat} (h : r' ≠ r) (c : Nat) (content other : Option Bytes) :
    twoCells r c content r' c other r' c = other := by
  rw [twoCells, if_neg (by simp [h]), if_pos ⟨rfl, rfl⟩]

/-- Two cells of one column, and nothing else in it. -/
theorem longest_twoCells {R F r r' c : Nat} (hc : c < F) (hr : r < R) (hr' : r' < R) (h : r' ≠ r)
    (content other : Option Bytes) : longest (grid R F (twoCells r c content r' c other)) c =
      max (content.getD []).length (other.getD []).length := by
  refine longest_grid hc ?_ ?_
  · intro q _
    unfold twoCells
    split
    · exact Nat.le_max_left _ _
    · split
      · exact Nat.le_max_right _ _
      · exact Nat.zero_le _
  · rcases Nat.le_total (content.getD []).length (other.getD []).length with hle | hle
    · exact ⟨r', hr', by rw [twoCells_second h, Nat.max_eq_right hle]⟩
    · exact ⟨r, hr, by rw [twoCells_first, Nat.max_eq_left hle]⟩

/-- With a second row the length of the block is not the cell's to decide. -/
theorem CellIndependent.one_row (h : CellIndependent model shape R r c content) (hr : r < R)
    (hf : shape[c]? = some f) (hblock : isBlockType f.type) : R = 1 := by
  by_contra hR
  have hclt : c < shape.length := (List.getElem?_eq_some_iff.mp hf).1
  obtain ⟨r', hr', hne⟩ : ∃ r' < R, r' ≠ r := by
    rcases Nat.eq_zero_or_pos r with h0 | hpos
    · exact ⟨1, by omega, by omega⟩
    · exact ⟨0, by omega, by omega⟩
  let L := (content.getD []).length
  have hT := fun other => isTable_twoCells R r r' hf
    (matches_block model hblock content) hf (matches_block model hblock other)
  have hcell := fun other => cell_grid (twoCells r c content r' c other) hr hclt
  simp only [twoCells, and_self, if_true] at hcell
  have hfin := fun other => twoCells_finishes (fun _ _ => 0) (hT other)
    (fun _ => harmless_block hf hblock) fun _ => harmless_block hf hblock
  -- Nothing in the other row, and something longer than the cell.
  have hshort : longest (grid R shape.length (twoCells r c content r' c none)) c = L := by
    rw [longest_twoCells hclt hr hr' hne]
    exact Nat.max_eq_left (Nat.zero_le _)
  have hlong : longest (grid R shape.length
      (twoCells r c content r' c (filled (L + 1) 0))) c = L + 1 := by
    have hfilled : ((filled (L + 1) 0).getD []).length = L + 1 := by simp [filled]
    rw [longest_twoCells hclt hr hr' hne, hfilled]
    exact Nat.max_eq_right (Nat.le_succ _)
  have hslots := h.slot_eq hr hf (hT none) (hT (filled (L + 1) 0)) (hcell none)
    (hcell (filled (L + 1) 0)) (hfin none) (hfin (filled (L + 1) 0))
  obtain ⟨bytes₁, e₁, hlen₁⟩ := length_slotIn_block model (fun _ _ => 0)
    (grid R shape.length (twoCells r c content r' c none)) hf hblock r
  obtain ⟨bytes₂, e₂, hlen₂⟩ := length_slotIn_block model (fun _ _ => 0)
    (grid R shape.length (twoCells r c content r' c (filled (L + 1) 0))) hf hblock r
  rw [e₁, e₂] at hslots
  obtain rfl := Slot.block.inj hslots
  rw [hlen₁, hshort, hlong] at hlen₂
  omega

variable (junk) in
/-- The byte of a block behind its value, where no terminator is written. -/
theorem slotIn_junk (hT : IsTable model shape 1 T) (hf : shape[c]? = some f)
    (hblock : isBlockType f.type) {content : Option Bytes} (hcell : cell T 0 c = content)
    (hbare : ∀ v, content = some v → (f.type = .BLOB ∧ f.isBinary = true) ∧ v.length + 1 < 2 ^ 32) :
    ∃ bytes, slotIn (memoryAt model junk shape T 0) (tableColumn model junk T c f) = .block bytes ∧
      bytes[(content.getD []).length]? = some (junk c (content.getD []).length) := by
  have hpos : 0 < T.length := by rw [hT.rows]; exact Nat.one_pos
  have hlong : longest T c = (content.getD []).length := by
    obtain ⟨row, hTrow⟩ := List.length_eq_one_iff.mp hT.rows
    subst hTrow
    have hv : cellAt row c = content := hcell
    rw [longest_cons, hv]
    exact Nat.max_eq_left (Nat.zero_le _)
  refine ⟨_, slotIn_block hblock _, ?_⟩
  rw [memoryAt_block_first hpos hf hblock, hcell, hlong]
  cases content with
  | none => simp
  | some v =>
    obtain ⟨hbin, hlt⟩ := hbare v rfl
    have hmod : (v.length + 1) % 2 ^ 32 = v.length + 1 := Nat.mod_eq_of_lt hlt
    simp only [fillBlock_eq hblock, hlong, Option.getD_some, hmod, hbin]
    simp

/-- The condition for text and binary columns is necessary. -/
theorem CellIndependent.block (h : CellIndependent model shape R r c content) (hr : r < R)
    (hf : shape[c]? = some f) (hblock : isBlockType f.type) : BlockIndependent R f content := by
  have hR := h.one_row hr hf hblock
  subst hR
  obtain rfl : r = 0 := by omega
  refine ⟨rfl, ?_⟩
  by_contra hcon
  have hbare : ∀ v, content = some v →
      (f.type = .BLOB ∧ f.isBinary = true) ∧ v.length + 1 < 2 ^ 32 := by
    intro v hv
    by_contra hnot
    refine hcon ⟨v, hv, fun hbin => ?_⟩
    by_contra hlt
    exact hnot ⟨hbin, Nat.lt_of_not_le hlt⟩
  have hT := isTable_twoCells 1 0 0 hf
    (matches_block model hblock content) hf (matches_block model hblock none)
  have hcell := cell_grid (twoCells 0 c content 0 c none) Nat.one_pos
    (List.getElem?_eq_some_iff.mp hf).1
  simp only [twoCells, and_self, if_true] at hcell
  have hfin := fun junk => twoCells_finishes junk hT (fun _ => harmless_block hf hblock)
    fun hs => nomatch hs
  have hslots := h.slot_eq Nat.one_pos hf hT hT hcell hcell (hfin fun _ _ => 0) (hfin fun _ _ => 1)
  obtain ⟨bytes₁, e₁, hjunk₁⟩ := slotIn_junk (fun _ _ => 0) hT hf hblock hcell hbare
  obtain ⟨bytes₂, e₂, hjunk₂⟩ := slotIn_junk (fun _ _ => 1) hT hf hblock hcell hbare
  rw [e₁, e₂] at hslots
  obtain rfl := Slot.block.inj hslots
  rw [hjunk₁] at hjunk₂
  exact absurd (Option.some.inj hjunk₂) (by decide)

end Blocks

/-! ## The theorem -/

/-- **Which cells are independent of the others.** For every shape, every number of rows and every
content a cell of it can have: exactly the cells `Independent` describes. -/
theorem cellIndependent_iff (model : DataModel) (shape : List MysqlField) (R r c : Nat)
    (f : MysqlField) (content : Option Bytes) (hr : r < R) (hf : shape[c]? = some f)
    (hcontent : Matches model f content) :
    CellIndependent model shape R r c content ↔ Independent model shape R r c f content := by
  unfold Independent
  by_cases hblock : isBlockType f.type
  · rw [if_pos hblock]
    refine ⟨fun h => h.block hr hf hblock, ?_⟩
    rintro ⟨rfl, v, rfl, hroom⟩ T₁ T₂ junk₁ junk₂ stores₁ stores₂ hT₁ hT₂ h₁ h₂ hrun₁ hrun₂
    obtain rfl : r = 0 := by omega
    rw [storedAt_fetchTable hrun₁ (hT₁.rows.symm ▸ hr) hf,
      storedAt_fetchTable hrun₂ (hT₂.rows.symm ▸ hr) hf]
    exact congrArg some ((slotIn_single hT₁ hf hblock h₁ hroom).trans
      (slotIn_single hT₂ hf hblock h₂ hroom).symm)
  · rw [if_neg hblock]
    refine ⟨fun h => h.fixed hr hf hblock hcontent, ?_⟩
    intro hind T₁ T₂ junk₁ junk₂ stores₁ stores₂ hT₁ hT₂ h₁ h₂ hrun₁ hrun₂
    have hharm₁ := (fetchTable_finishes_iff hT₁).mp ⟨stores₁, hrun₁⟩
    have hharm₂ := (fetchTable_finishes_iff hT₂).mp ⟨stores₂, hrun₂⟩
    rw [storedAt_fetchTable hrun₁ (hT₁.rows.symm ▸ hr) hf,
      storedAt_fetchTable hrun₂ (hT₂.rows.symm ▸ hr) hf]
    exact congrArg some
      ((slotIn_fixed hT₁ (hT₁.rows.symm ▸ hr) hf hblock h₁ hharm₁ hind).trans
        (slotIn_fixed hT₂ (hT₂.rows.symm ▸ hr) hf hblock h₂ hharm₂ hind).symm)

/-- The number 5 right of a `DATE`, whose `MYSQL_TIME` covers the upper half of its word with zeros. -/
theorem cellIndependent_long :
    CellIndependent .LP64 (⟨.DATE, false, false, 0⟩ :: List.replicate 4 ⟨.LONG, false, false, 0⟩)
      1 0 1 (some [5, 0, 0, 0]) := by
  refine (cellIndependent_iff .LP64 _ 1 0 1 ⟨.LONG, false, false, 0⟩ _ (by decide) rfl ?_).mpr ?_
  · rintro v ⟨⟩
    exact writable_number (by decide) fun _ => rfl
  · refine ⟨fun _ _ j hj _ b hb hb8 => ?_, fun hnone => nomatch hnone⟩
    obtain rfl : j = 0 := by omega
    have hall : ∀ b, b < 8 → 4 ≤ b → ¬ VariesAt .LP64
        (⟨.DATE, false, false, 0⟩ :: List.replicate 4 ⟨.LONG, false, false, 0⟩) 0
        (8 * 1 + b - 8 * 0) := by
      decide
    exact hall b hb8 hb

/-- A `NULL` in the second row of a `LONG` column: below a 5 it stores 5, and below a 6 it stores
6. -/
theorem not_cellIndependent_null :
    ¬ CellIndependent .LP64 [⟨.LONG, false, false, 0⟩] 2 1 0 none := by
  intro h
  have hT : ∀ x, IsTable .LP64 [⟨.LONG, false, false, 0⟩] 2 [[some [x, 0, 0, 0]], [none]] := by
    refine fun x => ⟨rfl, fun row hrow i f hf v hv => ?_⟩
    cases i with
    | succ i => cases hf
    | zero =>
      cases hf
      simp only [List.mem_cons, List.not_mem_nil, or_false] at hrow
      rcases hrow with rfl | rfl
      · cases hv
        exact writable_number (by decide) fun _ => rfl
      · cases hv
  have hsame := h _ _ (fun _ _ => 0) (fun _ _ => 0) _ _ (hT 5) (hT 6) rfl rfl rfl rfl
  exact absurd hsame (by decide)

end ServerTest.Database
