import ServerTest.Lib.Cpp

/-!
# Statement parameters

`SQLOperationParams.{h,cpp}` and the part of `MYSQL_BIND` the code touches.

Three things in the setters are easy to lose in a model and are kept here:

* `ParamData[Index] = reinterpret_cast<const uint64&>(Value)` reads eight bytes at the address of an
  argument that may be shorter. The bytes behind it are whatever the caller's memory holds: the
  `around` argument of every scalar setter.
* `ParamBinds` and `ParamData` are `nullptr` until a statement has been prepared, and the setters
  do not look.
* `SetBind` writes a length only when it is positive, so an earlier `length_value` survives a zero.

The `Move…` members, which hand over a caller's allocation, are left out.
-/

set_option autoImplicit false

namespace ServerTest.Database

open Lib

/-- `enum_field_types`, without the three members only the binary log uses. -/
inductive EnumFieldTypes where
  | DECIMAL | TINY | SHORT | LONG | FLOAT | DOUBLE | NULL | TIMESTAMP | LONGLONG | INT24 | DATE
  | TIME | DATETIME | YEAR | NEWDATE | VARCHAR | BIT | NEWDECIMAL | ENUM | SET | TINY_BLOB
  | MEDIUM_BLOB | LONG_BLOB | BLOB | VAR_STRING | STRING | GEOMETRY
  deriving DecidableEq, Repr

/-- What a `void* buffer` points at: a slot of the `uint64` array allocated with the binds, or a
`new char[]` of its own, given by its contents. -/
inductive Buffer where
  | null
  | slot (index : Nat)
  | block (bytes : Bytes)
  deriving DecidableEq, Repr

/-- `MYSQL_BIND`. `length` is a pointer the code never assigns; its target is the value. -/
structure MysqlBind where
  bufferType : EnumFieldTypes
  buffer : Buffer
  bufferLength : UInt32
  isNullValue : Bool
  length : Option UInt32
  lengthValue : UInt32
  isUnsigned : Bool
  deriving DecidableEq, Repr

/-- A bind after `memset(…, 0, …)`; `MYSQL_TYPE_DECIMAL` is 0. -/
def MysqlBind.zero : MysqlBind := ⟨.DECIMAL, .null, 0, false, none, 0, false⟩

/-- `SQLOperationParams::SetBind`. -/
def setBind (bind : MysqlBind) (bufferType : EnumFieldTypes) (bufferLocation : Buffer)
    (isUnsigned : Bool) (bufferLength dataSize : Nat) (isNull : Bool) : MysqlBind :=
  let bind := { bind with
    bufferType := bufferType
    buffer := bufferLocation
    bufferLength := UInt32.ofNat bufferLength
    isNullValue := isNull
    isUnsigned := isUnsigned }
  if 0 < dataSize then
    match bind.length with
    | some _ => { bind with length := some (UInt32.ofNat dataSize) }
    | none => { bind with lengthValue := UInt32.ofNat dataSize }
  else bind

/-- A `uint64` of `ParamData`: its bytes, or the address of the block the bind points at. -/
inductive Word where
  | bytes (image : Bytes)
  | address
  deriving DecidableEq, Repr

structure SQLOperationParams where
  paramCount : UInt32
  paramSetBitMask : UInt32
  paramBinds : Option (List MysqlBind)
  paramData : Option (List Word)
  deriving DecidableEq, Repr

/-- The low `width` bytes of `value`, least significant first. -/
def littleEndian (width value : Nat) : Bytes :=
  (List.range width).map fun k => (value / 256 ^ k).toUInt8

namespace SQLOperationParams

/-- The member initialisers. -/
def new : SQLOperationParams := ⟨0, 0, none, none⟩

/-- `ParamSetBitMask |= 1 << Index`. -/
def mark (p : SQLOperationParams) (index : UInt8) : Except Fault SQLOperationParams :=
  if index < 32 then
    .ok { p with paramSetBitMask := p.paramSetBitMask ||| (1 <<< index.toUInt32) }
  else .error .badShift

/-- `ParamData[Index] = …`. -/
def writeData (p : SQLOperationParams) (index : UInt8) (word : Word) :
    Except Fault SQLOperationParams :=
  match p.paramData with
  | none => .error .nullPointer
  | some data => do
    let data ← store data index.toNat word
    return { p with paramData := some data }

/-- `SetBind(&ParamBinds[Index], …)`. -/
def writeBind (p : SQLOperationParams) (index : UInt8) (update : MysqlBind → MysqlBind) :
    Except Fault SQLOperationParams :=
  match p.paramBinds with
  | none => .error .nullPointer
  | some binds => do
    let bind ← subscript binds index.toNat
    let binds ← store binds index.toNat (update bind)
    return { p with paramBinds := some binds }

/-! ## The setters -/

/-- The scalar setters: they differ in the bind's type, the width of the argument and the flag. -/
def setScalar (bufferType : EnumFieldTypes) (width : Nat) (isUnsigned : Bool) (value : Nat)
    (p : SQLOperationParams) (index : UInt8) (around : Nat → UInt8) :
    Except Fault SQLOperationParams := do
  let p ← p.mark index
  let image := littleEndian width value ++ (List.range (8 - width)).map around
  let p ← p.writeData index (.bytes image)
  p.writeBind index fun bind => setBind bind bufferType (.slot index.toNat) isUnsigned 0 0 false

/-- The setters that copy their argument into a new block. -/
def setBlock (bufferType : EnumFieldTypes) (block : Bytes) (bufferLength dataSize : Nat)
    (p : SQLOperationParams) (index : UInt8) : Except Fault SQLOperationParams := do
  let p ← p.mark index
  let p ← p.writeData index .address
  p.writeBind index fun bind =>
    setBind bind bufferType (.block block) false bufferLength dataSize false

def setBool (value : Bool) := setScalar .TINY 1 true value.toNat
def setUInt8 (value : UInt8) := setScalar .TINY 1 true value.toNat
def setUInt16 (value : UInt16) := setScalar .SHORT 2 true value.toNat
def setUInt32 (value : UInt32) := setScalar .LONG 4 true value.toNat
def setUInt64 (value : UInt64) := setScalar .LONGLONG 8 true value.toNat
def setInt8 (value : Int8) := setScalar .TINY 1 false value.toUInt8.toNat
def setInt16 (value : Int16) := setScalar .SHORT 2 false value.toUInt16.toNat
def setInt32 (value : Int32) := setScalar .LONG 4 false value.toUInt32.toNat
def setInt64 (value : Int64) := setScalar .LONGLONG 8 false value.toUInt64.toNat

/-- `SetFloat`, on the bits of its argument. `Value > 0.0f` holds of the positive numbers and of
infinity, which are the patterns up to `0x7f800000`. -/
def setFloat (bits : UInt32) :=
  setScalar .FLOAT 4 (decide (0 < bits ∧ bits ≤ 0x7f800000)) bits.toNat

def setDouble (bits : UInt64) :=
  setScalar .DOUBLE 8 (decide (0 < bits ∧ bits ≤ 0x7ff0000000000000)) bits.toNat

/-- Both overloads of `SetString`; a `const char*` is its bytes before the first NUL. -/
def setString (value : Bytes) := setBlock .VAR_STRING (value ++ [0]) (value.length + 1) value.length

/-- Both overloads of `SetBinary`. -/
def setBinary (value : Bytes) := setBlock .BLOB value value.length value.length

def setNull (p : SQLOperationParams) (index : UInt8) : Except Fault SQLOperationParams := do
  let p ← p.mark index
  p.writeBind index fun bind => setBind bind .NULL .null false 0 0 true

/-- `SQLStatement::InitializeParamMemory`, given what `mysql_stmt_param_count` returned. Whatever
was there before is forgotten. -/
def initializeParamMemory (p : SQLOperationParams) (count : UInt32) : SQLOperationParams :=
  if count = 0 then { p with paramCount := count }
  else { p with
    paramCount := count
    paramBinds := some (List.replicate count.toNat MysqlBind.zero)
    paramData := some (List.replicate count.toNat (.bytes (List.replicate 8 0))) }

/-- `delete[]` of what a bind points at. A slot is no allocation of its own. -/
def deleteBuffer : Buffer → Except Fault Unit
  | .null | .block _ => .ok ()
  | .slot _ => .error .wildPointer

/-- The types whose values stand in a block of their own. -/
def hasBlock (type : EnumFieldTypes) : Bool := type = .VAR_STRING || type = .BLOB

/-- `ClearParams`. The count and the mask stay. `is_null` is a pointer the code never assigns, and
deleting a `length` is no access. -/
def clearParams (p : SQLOperationParams) : Except Fault SQLOperationParams := do
  let paramData := if p.paramCount ≠ 0 then none else p.paramData
  match p.paramBinds with
  | none => return { p with paramData := paramData }
  | some binds =>
    (List.range p.paramCount.toNat).forM fun i => do
      let bind ← subscript binds i
      if hasBlock bind.bufferType then deleteBuffer bind.buffer
    return { p with paramData := paramData, paramBinds := none }

/-! ## Calls as data -/

/-- One call of a setter, with its argument. -/
inductive Setter where
  | bool (value : Bool)
  | uint8 (value : UInt8)
  | uint16 (value : UInt16)
  | uint32 (value : UInt32)
  | uint64 (value : UInt64)
  | int8 (value : Int8)
  | int16 (value : Int16)
  | int32 (value : Int32)
  | int64 (value : Int64)
  | float (bits : UInt32)
  | double (bits : UInt64)
  | string (value : Bytes)
  | binary (value : Bytes)
  | null

def Setter.call (around : Nat → UInt8) (p : SQLOperationParams) (index : UInt8) :
    Setter → Except Fault SQLOperationParams
  | .bool v => setBool v p index around
  | .uint8 v => setUInt8 v p index around
  | .uint16 v => setUInt16 v p index around
  | .uint32 v => setUInt32 v p index around
  | .uint64 v => setUInt64 v p index around
  | .int8 v => setInt8 v p index around
  | .int16 v => setInt16 v p index around
  | .int32 v => setInt32 v p index around
  | .int64 v => setInt64 v p index around
  | .float v => setFloat v p index around
  | .double v => setDouble v p index around
  | .string v => setString v p index
  | .binary v => setBinary v p index
  | .null => setNull p index

/-- The value a call stands for: the type it is sent as, and its bytes unless it is `NULL`. -/
def Setter.value : Setter → EnumFieldTypes × Option Bytes
  | .bool v => (.TINY, some (littleEndian 1 v.toNat))
  | .uint8 v => (.TINY, some (littleEndian 1 v.toNat))
  | .uint16 v => (.SHORT, some (littleEndian 2 v.toNat))
  | .uint32 v => (.LONG, some (littleEndian 4 v.toNat))
  | .uint64 v => (.LONGLONG, some (littleEndian 8 v.toNat))
  | .int8 v => (.TINY, some (littleEndian 1 v.toUInt8.toNat))
  | .int16 v => (.SHORT, some (littleEndian 2 v.toUInt16.toNat))
  | .int32 v => (.LONG, some (littleEndian 4 v.toUInt32.toNat))
  | .int64 v => (.LONGLONG, some (littleEndian 8 v.toUInt64.toNat))
  | .float v => (.FLOAT, some (littleEndian 4 v.toNat))
  | .double v => (.DOUBLE, some (littleEndian 8 v.toNat))
  | .string v => (.VAR_STRING, some v)
  | .binary v => (.BLOB, some v)
  | .null => (.NULL, none)

/-- What a bind points at, given the array its slots refer to. -/
def bufferBytes (data : List Word) : Buffer → Option Bytes
  | .null => none
  | .block bytes => some bytes
  | .slot i =>
    match data[i]? with
    | some (.bytes image) => some image
    | _ => none

/-- The bind holds the value of the call: its type, and its bytes at the start of the buffer (or
the `NULL` type). -/
def Setter.CarriedBy (setter : Setter) (data : List Word) (bind : MysqlBind) : Prop :=
  bind.bufferType = setter.value.1 ∧
    ∀ bytes, setter.value.2 = some bytes →
      ∃ image, bufferBytes data bind.buffer = some image ∧ bytes <+: image

/-- Calls in sequence, each with its index. -/
def callAll (around : Nat → UInt8) (p : SQLOperationParams) (calls : List (UInt8 × Setter)) :
    Except Fault SQLOperationParams :=
  calls.foldlM (fun p c => c.2.call around p c.1) p

/-! ## Before the first allocation -/

theorem setScalar_unallocated {type : EnumFieldTypes} {width value : Nat} {flag : Bool}
    {p : SQLOperationParams} {index : UInt8} {around : Nat → UInt8} (h : p.paramData = none) :
    ∃ fault, setScalar type width flag value p index around = .error fault := by
  by_cases hi : index < 32
  · exact ⟨.nullPointer, by simp [setScalar, mark, hi, writeData, h, bind, Except.bind]⟩
  · exact ⟨.badShift, by simp [setScalar, mark, hi, bind, Except.bind]⟩

theorem setBlock_unallocated {type : EnumFieldTypes} {block : Bytes} {length size : Nat}
    {p : SQLOperationParams} {index : UInt8} (h : p.paramData = none) :
    ∃ fault, setBlock type block length size p index = .error fault := by
  by_cases hi : index < 32
  · exact ⟨.nullPointer, by simp [setBlock, mark, hi, writeData, h, bind, Except.bind]⟩
  · exact ⟨.badShift, by simp [setBlock, mark, hi, bind, Except.bind]⟩

/-- **No setter can run before the storage exists.** Every one of them dereferences `ParamData` or
`ParamBinds`, which are null. -/
theorem Setter.call_unallocated (setter : Setter) (around : Nat → UInt8) (index : UInt8)
    {p : SQLOperationParams} (hdata : p.paramData = none) (hbinds : p.paramBinds = none) :
    ∃ fault, setter.call around p index = .error fault := by
  cases setter with
  | string v => exact setBlock_unallocated hdata
  | binary v => exact setBlock_unallocated hdata
  | null =>
    by_cases hi : index < 32
    · exact ⟨.nullPointer, by simp [call, setNull, mark, hi, writeBind, hbinds, bind, Except.bind]⟩
    · exact ⟨.badShift, by simp [call, setNull, mark, hi, bind, Except.bind]⟩
  | bool | uint8 | uint16 | uint32 | uint64 | int8 | int16 | int32 | int64 | float | double =>
    exact setScalar_unallocated hdata

end SQLOperationParams

end ServerTest.Database
