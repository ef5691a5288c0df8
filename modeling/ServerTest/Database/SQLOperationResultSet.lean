import ServerTest.Database.SQLOperationParams

/-!
# The result set of a statement

`SQLOperationResultSet.{h,cpp}`: where a run leaves its rows, and how the caller walks over them.
The cursor is one-based and the getters subtract one in `uint64`, so reading before the first
`GetNextRowOfResultSet` is an access far outside the array.
-/

set_option autoImplicit false

namespace ServerTest.Database

open Lib

/-- The members of `MYSQL_FIELD` the code reads. -/
structure MysqlField where
  type : EnumFieldTypes
  /-- `flags & BINARY_FLAG` -/
  isBinary : Bool
  /-- `flags & UNSIGNED_FLAG` -/
  isUnsigned : Bool
  maxLength : Nat
  deriving DecidableEq, Repr

/-- `sizeof(MYSQL_TIME)`: six `unsigned int`, an `unsigned long`, a `my_bool` and an enumeration. -/
def sizeofMysqlTime : DataModel → Nat
  | .LP64 => 40
  | .LLP64 => 36

/-- `SQLOperationResultSet::SizeOfField`. -/
def sizeOfField (model : DataModel) (field : MysqlField) : Nat :=
  match field.type with
  | .NULL => 0
  | .TINY => 1
  | .YEAR | .SHORT => 2
  | .INT24 | .LONG | .FLOAT => 4
  | .DOUBLE | .LONGLONG | .BIT => 8
  | .TIMESTAMP | .DATE | .TIME | .DATETIME => sizeofMysqlTime model
  | .TINY_BLOB | .MEDIUM_BLOB | .LONG_BLOB | .BLOB | .STRING | .VAR_STRING => field.maxLength + 1
  | .DECIMAL | .NEWDECIMAL => 64
  | .GEOMETRY | .NEWDATE | .VARCHAR | .ENUM | .SET => 0

/-- A `uint64` of `ResultSetData`: eight bytes of a value, or the address of a copied block. -/
inductive Slot where
  | word (image : Bytes)
  | block (bytes : Bytes)
  deriving DecidableEq, Repr

/-- `ResultSetData` is not initialised when it is allocated: a slot nobody wrote is `none`. Of
`RowData` only its length is kept, since nothing reads it after a run; while there is one, the fetch
loop has its contents. -/
structure SQLOperationResultSet where
  fieldBinds : Option (List MysqlBind)
  rowCount : UInt64
  fieldCount : UInt32
  currentRowCursor : UInt64
  rowData : Option Nat
  resultSetData : Option (List (Option Slot))
  deriving DecidableEq, Repr

namespace SQLOperationResultSet

/-- The member initialisers. -/
def new : SQLOperationResultSet := ⟨none, 0, 0, 0, none, none⟩

def getNextRowOfResultSet (rs : SQLOperationResultSet) : Bool × SQLOperationResultSet :=
  if rs.fieldCount ≠ 0 ∧ rs.currentRowCursor < rs.rowCount then
    (true, { rs with currentRowCursor := rs.currentRowCursor + 1 })
  else (false, rs)

/-- `(CurrentRowCursor - 1) * FieldCount + Index`. -/
def cellIndex (rs : SQLOperationResultSet) (index : UInt8) : UInt64 :=
  (rs.currentRowCursor - 1) * rs.fieldCount.toUInt64 + index.toUInt64

/-- The subscript every getter starts with. An uninitialised slot has no value to return. -/
def getResult (rs : SQLOperationResultSet) (index : UInt8) : Except Fault Slot :=
  match rs.resultSetData with
  | none => .error .nullPointer
  | some data => do
    match ← subscript data (rs.cellIndex index).toNat with
    | some slot => return slot
    | none => .error .wildPointer

/-- A little-endian word. -/
def wordValue (image : Bytes) : UInt64 :=
  image.foldr (fun b acc => acc * 256 + b.toUInt64) 0

/-- `GetResultUInt64`. On a string column this is an address, which the model has no number for. -/
def getResultUInt64 (rs : SQLOperationResultSet) (index : UInt8) : Except Fault UInt64 := do
  match ← rs.getResult index with
  | .word image => return wordValue image
  | .block _ => .error .wildPointer

/-- `GetResultString`: the C string at the address in the slot. -/
def getResultString (rs : SQLOperationResultSet) (index : UInt8) : Except Fault Bytes := do
  match ← rs.getResult index with
  | .word _ => .error .wildPointer
  | .block bytes => if 0 ∈ bytes then return cStr bytes else .error .outOfBounds

/-- `delete[]` of a slot as an address. -/
def deleteSlot : Option Slot → Except Fault Unit
  | some (.block _) => .ok ()
  | _ => .error .wildPointer

/-- `ClearResultSet`. The three counters stay, and so the guard does not notice a second call. -/
def clearResultSet (rs : SQLOperationResultSet) : Except Fault SQLOperationResultSet := do
  if rs.fieldCount = 0 then return rs
  match rs.fieldBinds with
  | none => .error .nullPointer
  | some binds =>
    let extraMemoryItemIndex ← (List.range rs.fieldCount.toNat).filterM fun i => do
      let bind ← subscript binds i
      if SQLOperationParams.hasBlock bind.bufferType then
        SQLOperationParams.deleteBuffer bind.buffer
        return true
      return false
    (List.range rs.rowCount.toNat).forM fun row =>
      extraMemoryItemIndex.forM fun index =>
        match rs.resultSetData with
        | none => .error .nullPointer
        | some data => do
          let slot ← subscript data ((rs.fieldCount.toUInt64 * UInt64.ofNat row).toNat + index)
          deleteSlot slot
    return { rs with fieldBinds := none, resultSetData := none, rowData := none }

/-- A sequence of `GetNextRowOfResultSet` calls: how many of the first `n` returned true. -/
def rowsWalked : Nat → SQLOperationResultSet → Nat
  | 0, _ => 0
  | n + 1, rs =>
    match rs.getNextRowOfResultSet with
    | (true, rs) => rowsWalked n rs + 1
    | (false, rs) => rowsWalked n rs

/-- The state after `n` calls of `GetNextRowOfResultSet`. -/
def advance : Nat → SQLOperationResultSet → SQLOperationResultSet
  | 0, rs => rs
  | n + 1, rs => advance n rs.getNextRowOfResultSet.2

/-- `GetNextRowOfResultSet` stays false once it was. -/
theorem rowsWalked_of_stop {rs : SQLOperationResultSet} (h : rs.getNextRowOfResultSet = (false, rs))
    (n : Nat) : rs.rowsWalked n = 0 := by
  induction n with
  | zero => rfl
  | succ n ih =>
    simp only [rowsWalked, h]
    exact ih

end SQLOperationResultSet

end ServerTest.Database
