import Mathlib.Logic.Function.Basic
import ServerTest.Lib.Memory
import ServerTest.Database.SQLOperationResultSet

/-!
# Binding columns and fetching rows

The second half of `SQLStatement::Execute`, from `mysql_stmt_bind_result` to the end of the fetch
loop, and the part of libmariadb it drives (`mthd_stmt_fetch_to_bind` and the `ps_fetch_…`
functions of `ma_stmt_codec.c`).

Every column is bound to memory that is allocated once and reused for all rows: a `VAR_STRING` or
`BLOB` column to a block of its own, every other column to its `uint64` of `RowData`. Fetching a
row writes the columns left to right and leaves a `NULL` column's memory alone; the loop then copies
out one slot per column. A date or time column writes a whole `MYSQL_TIME` at its eight bytes, so it
also lands on the columns to its right, or outside `RowData`.

`RowData` is modelled bytewise; `intact i` says that the address stored in `RowData[i]` for a block
column has not been written over. `stores` is every assignment to `ResultSetData`, in order.
-/

set_option autoImplicit false

namespace ServerTest.Database

open Lib

/-- One row as `mysql_stmt_fetch` delivers it: for each column its bytes, or `none` for `NULL`. -/
abbrev Row := List (Option Bytes)

def cellAt (row : Row) (i : Nat) : Option Bytes := row[i]?.join

/-- The number of bytes libmariadb writes for a non-`NULL` value bound with its own type and a zero
`buffer_length`. Types it would convert to text write nothing then. -/
def fetchWidth (model : DataModel) : EnumFieldTypes → Nat
  | .TINY => 1
  | .SHORT | .YEAR => 2
  | .INT24 | .LONG | .FLOAT => 4
  | .LONGLONG | .DOUBLE => 8
  | .TIME | .DATE | .DATETIME | .TIMESTAMP => sizeofMysqlTime model
  | _ => 0

/-- A column after the binding loop. -/
structure Column where
  index : Nat
  width : Nat
  field : MysqlField
  bind : MysqlBind

/-- The test of the binding loop and of the copying loop. -/
def Column.isBlock (col : Column) : Bool :=
  col.bind.bufferType = .VAR_STRING || col.bind.bufferType = .BLOB

/-- One iteration of the binding loop. `junk` is what the new block holds. -/
def bindField (model : DataModel) (junk : Nat → Nat → UInt8) (i : Nat) (field : MysqlField) :
    Column where
  index := i
  width := fetchWidth model field.type
  field := field
  bind :=
    let size := sizeOfField model field
    if field.type = .VAR_STRING ∨ field.type = .BLOB then
      setBind .zero field.type (.block ((List.range size).map (junk i))) false size size false
    else setBind .zero field.type (.slot i) field.isUnsigned 0 0 false

def bindFields (model : DataModel) (junk : Nat → Nat → UInt8) (fields : List MysqlField) :
    List Column :=
  fields.mapIdx (bindField model junk)

/-- The memory the binds point into. -/
structure RowBuffers where
  rowData : Memory
  intact : Nat → Bool
  block : Nat → Bytes

/-- After the binding loop: `RowData` is zero but for the addresses of the blocks. -/
def RowBuffers.initial (cols : List Column) : RowBuffers where
  rowData := fun _ => 0
  intact := fun _ => true
  block := fun i =>
    match (cols[i]?).map (fun col => col.bind.buffer) with
    | some (Buffer.block bytes) => bytes
    | _ => []

/-- A value fetched into a block: as much of it as `buffer_length` allows, and a NUL where there is
room, which `ps_fetch_bin` leaves out. -/
def fillBlock (col : Column) (old value : Bytes) : Bytes :=
  let room := col.bind.bufferLength.toNat
  let terminator : Bytes :=
    if value.length < room ∧ ¬ (col.field.type = .BLOB ∧ col.field.isBinary) then [0] else []
  let written := value.take room ++ terminator
  written ++ old.drop written.length

/-- The bytes a value of the column writes into `RowData`. -/
def Column.image (col : Column) (value : Bytes) : Bytes := value.take col.width

/-- `mysql_stmt_fetch` on one column. -/
def fetchCell (fieldCount : Nat) (row : Row) (s : RowBuffers) (col : Column) :
    Except Fault RowBuffers :=
  match cellAt row col.index with
  | none => .ok s
  | some value =>
    if col.isBlock then
      let filled := fillBlock col (s.block col.index) value
      .ok { s with block := Function.update s.block col.index filled }
    else
      let stop := 8 * col.index + (col.image value).length
      if stop ≤ 8 * fieldCount then
        .ok { s with
          rowData := s.rowData.write (8 * col.index) (col.image value)
          intact := fun j => s.intact j && !(8 * j < stop && col.index < j + 1) }
      else .error .outOfBounds

def fetchRow (cols : List Column) (row : Row) (s : RowBuffers) : Except Fault RowBuffers :=
  cols.foldlM (fetchCell cols.length row) s

/-- What the copying loop takes out of a column. -/
def slotOf (s : RowBuffers) (col : Column) : Except Fault Slot :=
  if col.isBlock then
    if s.intact col.index then
      .ok (.block ((s.block col.index).take col.bind.bufferLength.toNat))
    else .error .wildPointer
  else .ok (.word ((List.range 8).map fun b => s.rowData (8 * col.index + b)))

/-- One assignment to `ResultSetData`. The index is `uint32` arithmetic. -/
def copyCell (fieldCount rowIndex : UInt32) (length : Nat) (s : RowBuffers)
    (stores : List (UInt32 × Slot)) (col : Column) : Except Fault (List (UInt32 × Slot)) := do
  let slot ← slotOf s col
  let index := rowIndex * fieldCount + UInt32.ofNat col.index
  if index.toNat < length then return stores ++ [(index, slot)] else .error .outOfBounds

structure FetchState where
  buffers : RowBuffers
  rowIndex : UInt32
  stores : List (UInt32 × Slot)

/-- One iteration of the fetch loop. -/
def fetchStep (cols : List Column) (length : Nat) (s : FetchState) (row : Row) :
    Except Fault FetchState := do
  let buffers ← fetchRow cols row s.buffers
  let stores ← cols.foldlM (copyCell (UInt32.ofNat cols.length) s.rowIndex length buffers) s.stores
  return ⟨buffers, s.rowIndex + 1, stores⟩

/-- The fetch loop over the rows delivered, into an allocation of `length` words. -/
def fetchLoop (cols : List Column) (length : Nat) (rows : List Row) :
    Except Fault (List (UInt32 × Slot)) := do
  let s ← rows.foldlM (fetchStep cols length) ⟨.initial cols, 0, []⟩
  return s.stores

end ServerTest.Database
