import ServerTest.Database.SQLOperationParams

/-!
# The last setter of a parameter

A parameter may be set more than once before a statement is executed, and what is sent should then
be what the last call said. `BindView` is one parameter with the length it is sent with, which is
its `buffer_length`: `length` stays null, and `mysql_stmt_bind_param` never reads the `length_value`
that `SetBind` stores when there is data and otherwise leaves as it was.

The calls are limited by the mask they all set a bit of. It has 32, and from index 32 on the shift
has no defined result; nothing keeps a statement from having more placeholders than that.

What a call does at its index is the same in every state. `Setter.stateFree` says so once for all
setters, and the rest is an induction over the calls.
-/

set_option autoImplicit false

namespace ServerTest.Database

open Lib

namespace SQLOperationParams

/-! ## What is observed -/

/-- One parameter: its fields, the bytes it points at and the length it is sent with. -/
structure BindView where
  bufferType : EnumFieldTypes
  bytes : Option Bytes
  bufferLength : UInt32
  length : UInt32
  isNull : Bool
  isUnsigned : Bool
  deriving DecidableEq, Repr

/-- `buffer_length` once `mysql_stmt_bind_param` has seen the bind: the width of a type that has one,
and what the setter stored for the others. -/
def boundLength (bufferType : EnumFieldTypes) (bufferLength : UInt32) : UInt32 :=
  match bufferType with
  | .TINY => 1
  | .SHORT | .YEAR => 2
  | .LONG | .FLOAT => 4
  | .LONGLONG | .DOUBLE => 8
  | .DATETIME | .TIMESTAMP => 12
  | .TIME => 13
  | .DATE => 5
  | _ => bufferLength

/-- A bind, with the length `mysql_stmt_bind_param` gives it: a null `length` is pointed at the
bind's own `buffer_length`. -/
def viewOf (data : List Word) (bind : MysqlBind) : BindView :=
  ⟨bind.bufferType, bufferBytes data bind.buffer, bind.bufferLength,
    bind.length.getD (boundLength bind.bufferType bind.bufferLength), bind.isNullValue,
    bind.isUnsigned⟩

def view (p : SQLOperationParams) (i : Nat) : Option BindView :=
  match p.paramBinds, p.paramData with
  | some binds, some data => binds[i]?.map (viewOf data)
  | _, _ => none

/-- The bind and the word at an index, with everything in them. -/
def raw (p : SQLOperationParams) (i : Nat) : Option MysqlBind × Option Word :=
  (p.paramBinds.bind (·[i]?), p.paramData.bind (·[i]?))

/-- A call with the bytes that stand behind its argument. -/
structure SetCall where
  setter : Setter
  around : Nat → UInt8

/-- Calls on one parameter, in sequence. -/
def setAll (index : UInt8) (p : SQLOperationParams) (calls : List SetCall) :
    Except Fault SQLOperationParams :=
  calls.foldlM (fun p call => call.setter.call call.around p index) p

/-- After these calls the parameter is as the last one alone would have left it, and no other
parameter has been touched. -/
def LastWins (zeroed : SQLOperationParams) (index : UInt8) (earlier : List SetCall)
    (last : SetCall) : Prop :=
  ∃ p once, setAll index zeroed (earlier ++ [last]) = .ok p ∧
    setAll index zeroed [last] = .ok once ∧
    p.view index.toNat = once.view index.toNat ∧
    ∀ j, j ≠ index.toNat → p.raw j = zeroed.raw j

/-! ## One call -/

/-- The arrays of a prepared statement; no bind's `length` points anywhere. -/
def Allocated (count : Nat) (p : SQLOperationParams) : Prop :=
  ∃ binds data, p.paramBinds = some binds ∧ p.paramData = some data ∧
    binds.length = count ∧ data.length = count ∧ ∀ bind ∈ binds, bind.length = none

/-- All that a call writes: the bind's fields and, except for `SetNull`, the word. -/
structure Written where
  bufferType : EnumFieldTypes
  buffer : Buffer
  isUnsigned : Bool
  bufferLength : Nat
  dataSize : Nat
  isNull : Bool
  word : Option Word

def Written.bind (w : Written) (bind : MysqlBind) : MysqlBind :=
  setBind bind w.bufferType w.buffer w.isUnsigned w.bufferLength w.dataSize w.isNull

def Written.data (w : Written) (i : Nat) (data : List Word) : List Word :=
  w.word.elim data (data.set i)

section Call

variable {p : SQLOperationParams} {index : UInt8} {binds : List MysqlBind} {data : List Word}
  {old : MysqlBind}

theorem mark_ok (hshift : index < 32) :
    p.mark index =
      .ok { p with paramSetBitMask := p.paramSetBitMask ||| (1 <<< index.toUInt32) } :=
  if_pos hshift

theorem writeData_ok (hdata : p.paramData = some data) (hi : index.toNat < data.length)
    (word : Word) :
    p.writeData index word = .ok { p with paramData := some (data.set index.toNat word) } := by
  simp only [writeData, hdata, store, if_pos hi]
  rfl

theorem writeBind_ok (hbinds : p.paramBinds = some binds) (hold : binds[index.toNat]? = some old)
    (update : MysqlBind → MysqlBind) :
    p.writeBind index update =
      .ok { p with paramBinds := some (binds.set index.toNat (update old)) } := by
  have hi : index.toNat < binds.length := (List.getElem?_eq_some_iff.mp hold).1
  simp only [writeBind, hbinds, subscript, hold, store]
  show (if _ then _ else _ : Except Fault _) >>= _ = _
  rw [if_pos hi]
  rfl

end Call

/-- The call writes this and nothing else, whatever the state. -/
def Setter.Writes (setter : Setter) (around : Nat → UInt8) (index : UInt8) (w : Written) : Prop :=
  ∀ (p : SQLOperationParams) (binds : List MysqlBind) (data : List Word) (old : MysqlBind),
    p.paramBinds = some binds → p.paramData = some data → binds[index.toNat]? = some old →
    index.toNat < data.length →
    ∃ p', setter.call around p index = .ok p' ∧
      p'.paramBinds = some (binds.set index.toNat (w.bind old)) ∧
      p'.paramData = some (w.data index.toNat data)

/-- There is one such effect for all states, and the buffer then holds the same bytes. -/
def Setter.StateFree (setter : Setter) (around : Nat → UInt8) (index : UInt8) : Prop :=
  ∃ w bytes, setter.Writes around index w ∧
    ∀ data : List Word, index.toNat < data.length →
      bufferBytes (w.data index.toNat data) w.buffer = bytes

section Writes

variable {index : UInt8} (hshift : index < 32)

include hshift

/-- The body of every setter but `SetNull`. -/
theorem write_ok (word : Word) (update : MysqlBind → MysqlBind) {p : SQLOperationParams}
    {binds : List MysqlBind} {data : List Word} {old : MysqlBind}
    (hbinds : p.paramBinds = some binds) (hdata : p.paramData = some data)
    (hold : binds[index.toNat]? = some old) (hi : index.toNat < data.length) :
    ∃ p', (do
        let p ← p.mark index
        let p ← p.writeData index word
        p.writeBind index update) = .ok p' ∧
      p'.paramBinds = some (binds.set index.toNat (update old)) ∧
      p'.paramData = some (data.set index.toNat word) := by
  let marked := { p with paramSetBitMask := p.paramSetBitMask ||| (1 <<< index.toUInt32) }
  let filled := { marked with paramData := some (data.set index.toNat word) }
  have hwrite : marked.writeData index word = .ok filled :=
    writeData_ok (p := marked) hdata hi word
  have hbind := writeBind_ok (p := filled) hbinds hold update
  exact ⟨_, bind_returns.mpr ⟨marked, mark_ok hshift, bind_returns.mpr ⟨filled, hwrite, hbind⟩⟩,
    rfl, rfl⟩

theorem stateFree_scalar {setter : Setter} {around : Nat → UInt8} (bufferType : EnumFieldTypes)
    (width : Nat) (flag : Bool) (value : Nat)
    (hcall : ∀ p, setter.call around p index =
      setScalar bufferType width flag value p index around) :
    setter.StateFree around index := by
  let image := littleEndian width value ++ (List.range (8 - width)).map around
  refine ⟨⟨bufferType, .slot index.toNat, flag, 0, 0, false, some (.bytes image)⟩, some image,
    ?_, ?_⟩
  · intro p binds data old hbinds hdata hold hi
    rw [hcall]
    exact write_ok hshift _ _ hbinds hdata hold hi
  · intro data hi
    simp [Written.data, bufferBytes, hi]

theorem stateFree_block {setter : Setter} {around : Nat → UInt8} (bufferType : EnumFieldTypes)
    (block : Bytes) (bufferLength dataSize : Nat)
    (hcall : ∀ p, setter.call around p index =
      setBlock bufferType block bufferLength dataSize p index) :
    setter.StateFree around index := by
  refine ⟨⟨bufferType, .block block, false, bufferLength, dataSize, false, some .address⟩,
    some block, ?_, fun data hi => rfl⟩
  intro p binds data old hbinds hdata hold hi
  rw [hcall]
  exact write_ok hshift _ _ hbinds hdata hold hi

/-- **What a call writes does not depend on the state.** -/
theorem Setter.stateFree (setter : Setter) (around : Nat → UInt8) :
    setter.StateFree around index := by
  cases setter with
  | string value => exact stateFree_block hshift _ _ _ _ fun _ => rfl
  | binary value => exact stateFree_block hshift _ _ _ _ fun _ => rfl
  | null =>
    refine ⟨⟨.NULL, .null, false, 0, 0, true, none⟩, none, ?_, fun data hi => rfl⟩
    intro p binds data old hbinds hdata hold hi
    let marked := { p with paramSetBitMask := p.paramSetBitMask ||| (1 <<< index.toUInt32) }
    have hbind := writeBind_ok (p := marked) hbinds hold
    exact ⟨_, bind_returns.mpr ⟨marked, mark_ok hshift, hbind _⟩, rfl, hdata⟩
  | bool | uint8 | uint16 | uint32 | uint64 | int8 | int16 | int32 | int64 | float | double =>
    exact stateFree_scalar hshift _ _ _ _ fun _ => rfl

end Writes

/-- `SetBind` assigns no pointer. -/
theorem setBind_length {bind : MysqlBind} (hnone : bind.length = none) (bufferType : EnumFieldTypes)
    (buffer : Buffer) (flag : Bool) (bufferLength dataSize : Nat) (isNull : Bool) :
    (setBind bind bufferType buffer flag bufferLength dataSize isNull).length = none := by
  unfold setBind
  by_cases hsize : 0 < dataSize
  · simp [hsize, hnone]
  · simp [hsize, hnone]

/-- So the `length_value` it stores, or leaves from an earlier call, is not looked at. -/
theorem viewOf_setBind {bind : MysqlBind} (hnone : bind.length = none) (data : List Word)
    (bufferType : EnumFieldTypes) (buffer : Buffer) (flag : Bool) (bufferLength dataSize : Nat)
    (isNull : Bool) :
    viewOf data (setBind bind bufferType buffer flag bufferLength dataSize isNull) =
      ⟨bufferType, bufferBytes data buffer, UInt32.ofNat bufferLength,
        boundLength bufferType (UInt32.ofNat bufferLength), isNull, flag⟩ := by
  unfold viewOf
  rw [setBind_length hnone, Option.getD_none]
  unfold setBind
  by_cases hsize : 0 < dataSize
  · simp [hsize, hnone]
  · simp [hsize]

/-- `seen` is what every call of this setter leaves at its index, and nothing happens at another. -/
def Setter.SeenAs (setter : Setter) (around : Nat → UInt8) (count : Nat) (index : UInt8)
    (seen : BindView) : Prop :=
  ∀ p, Allocated count p → ∃ p', setter.call around p index = .ok p' ∧ Allocated count p' ∧
    p'.view index.toNat = some seen ∧ ∀ j, j ≠ index.toNat → p'.raw j = p.raw j

/-- **One call**, as it is seen from outside. -/
theorem Setter.exists_seenAs {count : Nat} {index : UInt8} (hshift : index < 32)
    (hi : index.toNat < count) (setter : Setter) (around : Nat → UInt8) :
    ∃ seen, setter.SeenAs around count index seen := by
  obtain ⟨w, bytes, hwrites, hbytes⟩ := setter.stateFree hshift around
  refine ⟨⟨w.bufferType, bytes, UInt32.ofNat w.bufferLength,
    boundLength w.bufferType (UInt32.ofNat w.bufferLength), w.isNull, w.isUnsigned⟩, ?_⟩
  intro p hp
  obtain ⟨binds, data, hbinds, hdata, hbindsLength, hdataLength, hnone⟩ := hp
  have hlt : index.toNat < binds.length := by omega
  have hold : binds[index.toNat]? = some binds[index.toNat] := List.getElem?_eq_getElem hlt
  have holdNone := hnone _ (List.getElem_mem hlt)
  obtain ⟨p', hcall, hbinds', hdata'⟩ := hwrites p binds data _ hbinds hdata hold (by omega)
  refine ⟨p', hcall, ?_, ?_, ?_⟩
  · refine ⟨_, _, hbinds', hdata', ?_, ?_, fun bind hbind => ?_⟩
    · rw [List.length_set, hbindsLength]
    · cases hword : w.word <;> simp [Written.data, hword, hdataLength]
    · rcases List.mem_or_eq_of_mem_set hbind with hmem | rfl
      · exact hnone bind hmem
      · exact setBind_length holdNone _ _ _ _ _ _
  · simp only [view, hbinds', hdata']
    rw [List.getElem?_set_self hlt, Option.map_some, Written.bind, viewOf_setBind holdNone,
      hbytes data (by omega)]
  · intro j hj
    have hword : (w.data index.toNat data)[j]? = data[j]? := by
      cases hword : w.word with
      | none => simp [Written.data, hword]
      | some word => simp [Written.data, hword, List.getElem?_set_ne (Ne.symm hj)]
    simp only [raw, hbinds, hdata, hbinds', hdata', Option.bind_some, hword,
      List.getElem?_set_ne (Ne.symm hj)]

/-! ## All calls -/

theorem setAll_append (index : UInt8) (p : SQLOperationParams) (calls : List SetCall)
    (call : SetCall) :
    setAll index p (calls ++ [call]) =
      setAll index p calls >>= fun p => call.setter.call call.around p index := by
  simp [setAll]

section Zeroed

variable {p : SQLOperationParams} {count : UInt32} {index : UInt8}

theorem allocated_initialize (hi : index.toNat < count.toNat) :
    Allocated count.toNat (p.initializeParamMemory count) := by
  have hcount : count ≠ 0 := by
    rintro rfl
    exact absurd hi (Nat.not_lt_zero _)
  unfold initializeParamMemory
  rw [if_neg hcount]
  refine ⟨_, _, rfl, rfl, List.length_replicate, List.length_replicate, fun bind hbind => ?_⟩
  rw [List.eq_of_mem_replicate hbind]
  rfl

/-- The run: every call goes through, and the other parameters stay as they were. -/
theorem setAll_ok (hshift : index < 32) {n : Nat} (hi : index.toNat < n) (hp : Allocated n p)
    (calls : List SetCall) :
    ∃ p', setAll index p calls = .ok p' ∧ Allocated n p' ∧
      ∀ j, j ≠ index.toNat → p'.raw j = p.raw j := by
  induction calls using List.reverseRecOn with
  | nil => exact ⟨p, rfl, hp, fun j _ => rfl⟩
  | append_singleton calls call ih =>
    obtain ⟨p₁, hrun, hp₁, hothers₁⟩ := ih
    obtain ⟨seen, hcall⟩ := call.setter.exists_seenAs hshift hi call.around
    obtain ⟨p₂, hok, hp₂, -, hothers₂⟩ := hcall p₁ hp₁
    refine ⟨p₂, ?_, hp₂, fun j hj => (hothers₂ j hj).trans (hothers₁ j hj)⟩
    rw [setAll_append]
    exact bind_returns.mpr ⟨p₁, hrun, hok⟩

/-- The shift of the mask is by the index. -/
theorem Setter.call_badShift (hshift : ¬ index < 32) (setter : Setter) (around : Nat → UInt8) :
    setter.call around p index = .error .badShift := by
  have hmark : p.mark index = .error .badShift := if_neg hshift
  cases setter <;>
    simp only [call, setBool, setUInt8, setUInt16, setUInt32, setUInt64, setInt8, setInt16, setInt32,
      setInt64, setFloat, setDouble, setString, setBinary, setNull, setScalar, setBlock, hmark] <;>
    rfl

/-- Within the mask the last call decides. -/
theorem lastWins_of_lt (hshift : index < 32) (hi : index.toNat < count.toNat)
    (earlier : List SetCall) (last : SetCall) :
    LastWins (p.initializeParamMemory count) index earlier last := by
  have halloc := allocated_initialize (p := p) hi
  obtain ⟨seen, hcall⟩ := last.setter.exists_seenAs hshift hi last.around
  obtain ⟨p₁, hrun, hp₁, hothers₁⟩ := setAll_ok hshift hi halloc earlier
  obtain ⟨p₂, hok, -, hview, hothers₂⟩ := hcall p₁ hp₁
  obtain ⟨once, honce, -, hviewOnce, -⟩ := hcall _ halloc
  refine ⟨p₂, once, ?_, ?_, hview.trans hviewOnce.symm,
    fun j hj => (hothers₂ j hj).trans (hothers₁ j hj)⟩
  · rw [setAll_append]
    exact bind_returns.mpr ⟨p₁, hrun, hok⟩
  · show setAll index (p.initializeParamMemory count) ([] ++ [last]) = .ok once
    rw [setAll_append]
    exact honce

/-- Beyond it there is no last call to speak of. -/
theorem not_lastWins_of_not_lt (hshift : ¬ index < 32) (zeroed : SQLOperationParams)
    (earlier : List SetCall) (last : SetCall) : ¬ LastWins zeroed index earlier last := by
  intro h
  obtain ⟨p₁, once, -, honce, -, -⟩ := h
  have hfault : setAll index zeroed [last] = .error .badShift := by
    show setAll index zeroed ([] ++ [last]) = _
    rw [setAll_append]
    exact last.setter.call_badShift hshift last.around
  rw [hfault] at honce
  cases honce

end Zeroed

/-- **When the last setter wins**: exactly at the 32 indices the mask has room for. -/
theorem lastWins_iff (p : SQLOperationParams) {count : UInt32} {index : UInt8}
    (hi : index.toNat < count.toNat) (earlier : List SetCall) (last : SetCall) :
    LastWins (p.initializeParamMemory count) index earlier last ↔ index < 32 := by
  constructor
  · intro h
    by_contra hshift
    exact not_lastWins_of_not_lt hshift _ earlier last h
  · intro hshift
    exact lastWins_of_lt hshift hi earlier last

/-- An empty string after one that is not. -/
theorem lastWins_empty :
    LastWins (new.initializeParamMemory 1) 0 [⟨.string (ascii "abc"), fun _ => 0⟩]
      ⟨.string [], fun _ => 0⟩ := by
  have hi : (0 : UInt8).toNat < (1 : UInt32).toNat := by decide
  exact (lastWins_iff new hi _ _).mpr (by decide)

/-- The last of 33 placeholders. -/
theorem not_lastWins_33rd :
    ¬ ∀ (p : SQLOperationParams) (count : UInt32) (index : UInt8) (earlier : List SetCall)
        (last : SetCall), index.toNat < count.toNat →
      LastWins (p.initializeParamMemory count) index earlier last := by
  intro h
  have hwins := h new 33 32 [] ⟨.int32 1, fun _ => 0⟩ (by decide)
  exact not_lastWins_of_not_lt (by decide) _ _ _ hwins

end SQLOperationParams

end ServerTest.Database
