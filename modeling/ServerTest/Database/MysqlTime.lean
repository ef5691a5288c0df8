import Mathlib.Data.List.Forall2
import ServerTest.Database.FetchLoop

/-!
# Dates and times as they are fetched

`ps_fetch_datetime` and `convert_to_datetime` of `ma_stmt_codec.c`, and the bytes of the `MYSQL_TIME`
they fill in.

A date or time column always writes the whole structure, but `convert_to_datetime` begins with a
`memset` and sets few of its bytes: `month` comes from one byte of the row, `DATE` has no clock time,
`TIME` no date. The library looks at nothing else, neither at the length of the value beyond three
comparisons nor at any field's range, so the length and the bytes of the row are arbitrary here.
`Varies` is the table of the bytes that can be anything but zero, and it is exact: the others never are
(`Writable.byte_zero`), and one value has all of these set (`writable_fullValue`, `fullValue_byte`).
-/

set_option autoImplicit false

namespace ServerTest.Database

open Lib

/-! ## `MYSQL_TIME` -/

/-- `enum_mysql_timestamp_type`, without the members for no date and for an error. -/
inductive MysqlTimestampType where
  | DATE | DATETIME | TIME
  deriving DecidableEq, Repr

def MysqlTimestampType.toNat : MysqlTimestampType → Nat
  | .DATE => 0
  | .DATETIME => 1
  | .TIME => 2

def sizeofULong : DataModel → Nat
  | .LP64 => 8
  | .LLP64 => 4

/-- `MYSQL_TIME`. Where an `unsigned long` has 32 bits, `second_part` is the low half. -/
structure MysqlTime where
  year : UInt32
  month : UInt32
  day : UInt32
  hour : UInt32
  minute : UInt32
  second : UInt32
  secondPart : UInt64
  neg : UInt8
  timeType : MysqlTimestampType
  deriving DecidableEq, Repr

/-- After `memset(t, 0, sizeof(MYSQL_TIME))`. -/
def MysqlTime.zero : MysqlTime := ⟨0, 0, 0, 0, 0, 0, 0, 0, .DATE⟩

/-- The fields in order, with their widths. The three bytes behind `neg` are padding. -/
def MysqlTime.fields (model : DataModel) (t : MysqlTime) : List (Nat × Nat) :=
  [(4, t.year.toNat), (4, t.month.toNat), (4, t.day.toNat), (4, t.hour.toNat), (4, t.minute.toNat),
    (4, t.second.toNat), (sizeofULong model, t.secondPart.toNat), (1, t.neg.toNat), (3, 0),
    (4, t.timeType.toNat)]

def layoutBytes (fields : List (Nat × Nat)) : Bytes :=
  fields.flatMap fun field => littleEndian field.1 field.2

def MysqlTime.image (model : DataModel) (t : MysqlTime) : Bytes := layoutBytes (t.fields model)

/-! ## The conversion -/

def sint2korr (to_ : Nat → UInt8) : Int16 :=
  ((to_ 0).toUInt16 ||| (to_ 1).toUInt16 <<< 8).toInt16

def sint4korr (to_ : Nat → UInt8) : Int32 :=
  ((to_ 0).toUInt32 ||| (to_ 1).toUInt32 <<< 8 ||| (to_ 2).toUInt32 <<< 16 |||
    (to_ 3).toUInt32 <<< 24).toInt32

/-- The second half of `convert_to_datetime`, from `if (len > 4)` on. -/
def convertClock (t : MysqlTime) (to_ : Nat → UInt8) (len offset : Nat) (type : EnumFieldTypes)
    (hasDate : Bool) : MysqlTime :=
  let t := if 4 < len then
      { t with
        hour := (to_ 4).toUInt32 + if type = .TIME then t.day * 24 else 0
        minute := (to_ 5).toUInt32
        second := (to_ 6).toUInt32
        timeType := if hasDate then .DATETIME else t.timeType }
    else t
  if offset < len then
    -- `(ulong)sint4korr(to+7)` extends the sign.
    { t with secondPart := (sint4korr fun i => to_ (7 + i)).toInt64.toUInt64 }
  else t

/-- `convert_to_datetime`; `row` is what stands at `*row`. -/
def convertToDatetime (row : Nat → UInt8) (len : Nat) (type : EnumFieldTypes) : MysqlTime :=
  let t := MysqlTime.zero
  if len = 0 then t
  else if type = .TIME then
    let t := { t with
      neg := row 0
      day := (sint4korr fun i => row (1 + i)).toUInt32
      timeType := .TIME }
    convertClock t (fun i => row (1 + i)) len 8 type false
  else
    let t := { t with
      year := (sint2korr row).toInt32.toUInt32
      month := (row 2).toUInt32
      day := (row 3).toUInt32
      timeType := .DATE }
    if type = .DATE then t else convertClock t row len 7 type true

/-- `ps_fetch_datetime` into a bind of the column's own type. -/
def psFetchDatetime (row : Nat → UInt8) (len : Nat) (type : EnumFieldTypes) : MysqlTime :=
  let t := convertToDatetime row len type
  if type = .TIME then { t with year := 0, month := 0, day := 0 } else t

/-! ## What a column can write -/

def isDatetimeType (type : EnumFieldTypes) : Prop :=
  type = .DATE ∨ type = .DATETIME ∨ type = .TIMESTAMP ∨ type = .TIME

instance (type : EnumFieldTypes) : Decidable (isDatetimeType type) :=
  inferInstanceAs (Decidable (_ ∨ _))

/-- What libmariadb can write into `RowData` for a value of a column: a `MYSQL_TIME` converted from some
row, or any bytes of the width of the type. -/
def Writable (model : DataModel) (type : EnumFieldTypes) (value : Bytes) : Prop :=
  if isDatetimeType type then ∃ row len, value = (psFetchDatetime row len type).image model
  else 0 < fetchWidth model type → value.length = fetchWidth model type

/-- The fields a value of the type consists of, each with its width and the number of its low bytes that
are ever set. A number is one field. -/
def bytesInUse (model : DataModel) : EnumFieldTypes → List (Nat × Nat)
  | .DATE =>
    [(4, 4), (4, 1), (4, 1), (4, 0), (4, 0), (4, 0), (sizeofULong model, 0), (1, 0), (3, 0), (4, 0)]
  | .DATETIME | .TIMESTAMP =>
    [(4, 4), (4, 1), (4, 1), (4, 1), (4, 1), (4, 1), (sizeofULong model, sizeofULong model), (1, 0),
      (3, 0), (4, 1)]
  | .TIME =>
    [(4, 0), (4, 0), (4, 0), (4, 4), (4, 1), (4, 1), (sizeofULong model, sizeofULong model), (1, 1),
      (3, 0), (4, 1)]
  | type => [(fetchWidth model type, fetchWidth model type)]

def layoutFlags (used : List (Nat × Nat)) : List Bool :=
  used.flatMap fun field => (List.range field.1).map fun k => decide (k < field.2)

/-- Byte `k` of a value of the type can be anything but zero. -/
def Varies (model : DataModel) (type : EnumFieldTypes) (k : Nat) : Prop :=
  (layoutFlags (bytesInUse model type))[k]? = some true

instance (model : DataModel) (type : EnumFieldTypes) (k : Nat) : Decidable (Varies model type k) :=
  inferInstanceAs (Decidable (_ = _))

/-! ## Layouts -/

@[simp] theorem length_littleEndian (width value : Nat) :
    (littleEndian width value).length = width := by
  simp [littleEndian]

theorem littleEndian_getElem? {width k : Nat} (hk : k < width) (value : Nat) :
    (littleEndian width value)[k]? = some (value / 256 ^ k).toUInt8 := by
  simp [littleEndian, hk]

/-- The field has this width, and nothing above the bytes in use. -/
def Fits (field used : Nat × Nat) : Prop :=
  field.1 = used.1 ∧ (used.2 < used.1 → field.2 < 256 ^ used.2)

theorem layoutFlags_eq_some_iff {used : Nat × Nat} {rest : List (Nat × Nat)} {k : Nat}
    (hk : k < used.1) : (layoutFlags (used :: rest))[k]? = some true ↔ k < used.2 := by
  rw [layoutFlags, List.flatMap_cons, List.getElem?_append_left (by simpa using hk)]
  simp [hk]

theorem layoutFlags_getElem?_add (used : Nat × Nat) (rest : List (Nat × Nat)) (k : Nat) :
    (layoutFlags (used :: rest))[used.1 + k]? = (layoutFlags rest)[k]? := by
  rw [layoutFlags, List.flatMap_cons, List.getElem?_append_right (by simp)]
  simp [layoutFlags]

theorem layoutBytes_getElem? {field : Nat × Nat} {rest : List (Nat × Nat)} {k : Nat}
    (hk : k < field.1) :
    (layoutBytes (field :: rest))[k]? = some (field.2 / 256 ^ k).toUInt8 := by
  rw [layoutBytes, List.flatMap_cons, List.getElem?_append_left (by simpa using hk)]
  exact littleEndian_getElem? hk _

theorem layoutBytes_getElem?_add (field : Nat × Nat) (rest : List (Nat × Nat)) (k : Nat) :
    (layoutBytes (field :: rest))[field.1 + k]? = (layoutBytes rest)[k]? := by
  rw [layoutBytes, List.flatMap_cons, List.getElem?_append_right (by simp)]
  simp [layoutBytes]

/-- A byte that is not in use is zero. -/
theorem layoutBytes_byte_zero {fields used : List (Nat × Nat)} (h : List.Forall₂ Fits fields used)
    {k : Nat} (hk : (layoutFlags used)[k]? ≠ some true) : (layoutBytes fields)[k]?.getD 0 = 0 := by
  induction h generalizing k with
  | nil => rfl
  | @cons field used fields rest hfits _ ih =>
    obtain ⟨hwidth, hvalue⟩ := hfits
    rcases Nat.lt_or_ge k field.1 with hlt | hge
    · rw [Ne, layoutFlags_eq_some_iff (hwidth ▸ hlt)] at hk
      have hused : used.2 ≤ k := Nat.le_of_not_lt hk
      have hsmall : field.2 < 256 ^ k :=
        Nat.lt_of_lt_of_le (hvalue (by omega)) (Nat.pow_le_pow_right (by decide) hused)
      rw [layoutBytes_getElem? hlt, Nat.div_eq_of_lt hsmall]
      rfl
    · obtain ⟨j, rfl⟩ : ∃ j, k = field.1 + j := ⟨k - field.1, by omega⟩
      rw [layoutBytes_getElem?_add]
      refine ih ?_
      rwa [hwidth, layoutFlags_getElem?_add] at hk

/-! ## What is fetched -/

section Fetched

variable (row : Nat → UInt8) (len : Nat)

/-- The clock: from one byte each, except that the hours of a `TIME` include its days. -/
theorem convertClock_eq (t : MysqlTime) (to_ : Nat → UInt8) (offset : Nat) (type : EnumFieldTypes)
    (hasDate : Bool) (hminute : t.minute = 0) (hsecond : t.second = 0) :
    ∃ (hour : UInt32) (minute second : UInt8) (secondPart : UInt64) (timeType : MysqlTimestampType),
      convertClock t to_ len offset type hasDate =
        { t with
          hour := hour
          minute := minute.toUInt32
          second := second.toUInt32
          secondPart := secondPart
          timeType := timeType } ∧
      (type ≠ .TIME → t.hour = 0 → ∃ byte : UInt8, hour = byte.toUInt32) := by
  unfold convertClock
  by_cases hlong : 4 < len
  · rw [if_pos hlong]
    refine ⟨(to_ 4).toUInt32 + if type = .TIME then t.day * 24 else 0, to_ 5, to_ 6,
      if offset < len then (sint4korr fun i => to_ (7 + i)).toInt64.toUInt64 else t.secondPart,
      if hasDate then .DATETIME else t.timeType, ?_, fun hne _ => ?_⟩
    · by_cases hfraction : offset < len
      · simp only [if_pos hfraction]
      · simp only [if_neg hfraction]
    · rw [if_neg hne]
      exact ⟨to_ 4, UInt32.add_zero _⟩
  · rw [if_neg hlong]
    refine ⟨t.hour, 0, 0,
      if offset < len then (sint4korr fun i => to_ (7 + i)).toInt64.toUInt64 else t.secondPart,
      t.timeType, ?_, fun _ hhour => ⟨0, hhour⟩⟩
    obtain ⟨year, month, day, hour, minute, second, secondPart, neg, timeType⟩ := t
    obtain rfl : minute = 0 := hminute
    obtain rfl : second = 0 := hsecond
    by_cases hfraction : offset < len
    · simp only [if_pos hfraction]
      rfl
    · simp only [if_neg hfraction]
      rfl

theorem psFetchDatetime_date : ∃ (year : UInt32) (month day : UInt8),
    psFetchDatetime row len .DATE =
      { MysqlTime.zero with year := year, month := month.toUInt32, day := day.toUInt32 } := by
  by_cases hlen : len = 0
  · exact ⟨0, 0, 0, by rw [hlen]; rfl⟩
  · refine ⟨(sint2korr row).toInt32.toUInt32, row 2, row 3, ?_⟩
    simp only [psFetchDatetime, convertToDatetime, hlen, if_false]
    rfl

theorem psFetchDatetime_datetime {type : EnumFieldTypes} (htime : type ≠ .TIME)
    (hdate : type ≠ .DATE) :
    ∃ (year : UInt32) (month day hour minute second : UInt8) (secondPart : UInt64)
      (timeType : MysqlTimestampType), psFetchDatetime row len type =
        ⟨year, month.toUInt32, day.toUInt32, hour.toUInt32, minute.toUInt32, second.toUInt32,
          secondPart, 0, timeType⟩ := by
  simp only [psFetchDatetime, convertToDatetime, if_neg htime, if_neg hdate]
  by_cases hlen : len = 0
  · exact ⟨0, 0, 0, 0, 0, 0, 0, .DATE, by rw [if_pos hlen]; rfl⟩
  · rw [if_neg hlen]
    obtain ⟨hour, minute, second, secondPart, timeType, hclock, hhour⟩ := convertClock_eq len
      { MysqlTime.zero with
        year := (sint2korr row).toInt32.toUInt32
        month := (row 2).toUInt32
        day := (row 3).toUInt32 } row 7 type true rfl rfl
    obtain ⟨byte, rfl⟩ := hhour htime rfl
    exact ⟨_, row 2, row 3, byte, minute, second, secondPart, timeType, hclock⟩

theorem psFetchDatetime_time :
    ∃ (hour : UInt32) (minute second : UInt8) (secondPart : UInt64) (neg : UInt8)
      (timeType : MysqlTimestampType), psFetchDatetime row len .TIME =
        ⟨0, 0, 0, hour, minute.toUInt32, second.toUInt32, secondPart, neg, timeType⟩ := by
  simp only [psFetchDatetime, convertToDatetime, if_true]
  by_cases hlen : len = 0
  · exact ⟨0, 0, 0, 0, 0, .DATE, by rw [if_pos hlen]; rfl⟩
  · rw [if_neg hlen]
    obtain ⟨hour, minute, second, secondPart, timeType, hclock, -⟩ := convertClock_eq len
      { MysqlTime.zero with
        neg := row 0
        day := (sint4korr fun i => row (1 + i)).toUInt32
        timeType := .TIME } (fun i => row (1 + i)) 8 .TIME false rfl rfl
    exact ⟨hour, minute, second, secondPart, row 0, timeType, by rw [hclock]⟩

theorem MysqlTimestampType.toNat_lt (timeType : MysqlTimestampType) : timeType.toNat < 256 := by
  cases timeType <;> decide

theorem secondPart_fits (model : DataModel) (secondPart : UInt64) :
    Fits (sizeofULong model, secondPart.toNat) (sizeofULong model, sizeofULong model) :=
  ⟨rfl, fun h => absurd h (Nat.lt_irrefl _)⟩

theorem word_fits (value : UInt32) : Fits (4, value.toNat) (4, 4) :=
  ⟨rfl, fun h => absurd h (Nat.lt_irrefl _)⟩

theorem byte_fits (value : UInt8) : Fits (4, value.toUInt32.toNat) (4, 1) :=
  ⟨rfl, fun _ => by simpa using value.toNat_lt⟩

theorem zero_fits (width : Nat) : Fits (width, 0) (width, 0) := ⟨rfl, fun _ => Nat.one_pos⟩

/-- **Every field of what is fetched keeps to its bytes in use.** -/
theorem fields_fit (model : DataModel) {type : EnumFieldTypes} (htype : isDatetimeType type) :
    List.Forall₂ Fits ((psFetchDatetime row len type).fields model) (bytesInUse model type) := by
  have hneg : ∀ neg : UInt8, Fits (1, neg.toNat) (1, 1) :=
    fun neg => ⟨rfl, fun h => absurd h (Nat.lt_irrefl _)⟩
  have htimeType : ∀ timeType : MysqlTimestampType, Fits (4, timeType.toNat) (4, 1) :=
    fun timeType => ⟨rfl, fun _ => timeType.toNat_lt⟩
  have hdatetime : ∀ type, type ≠ .TIME → type ≠ .DATE →
      bytesInUse model type = bytesInUse model .DATETIME →
      List.Forall₂ Fits ((psFetchDatetime row len type).fields model) (bytesInUse model type) := by
    intro type htime hdate huse
    obtain ⟨year, month, day, hour, minute, second, secondPart, timeType, heq⟩ :=
      psFetchDatetime_datetime row len htime hdate
    rw [heq, huse]
    exact .cons (word_fits _) <| .cons (byte_fits _) <| .cons (byte_fits _) <|
      .cons (byte_fits _) <| .cons (byte_fits _) <| .cons (byte_fits _) <|
      .cons (secondPart_fits _ _) <| .cons (zero_fits _) <| .cons (zero_fits _) <|
      .cons (htimeType _) .nil
  rcases htype with rfl | rfl | rfl | rfl
  · obtain ⟨year, month, day, heq⟩ := psFetchDatetime_date row len
    rw [heq]
    exact .cons (word_fits _) <| .cons (byte_fits _) <| .cons (byte_fits _) <|
      .cons (zero_fits _) <| .cons (zero_fits _) <| .cons (zero_fits _) <| .cons (zero_fits _) <|
      .cons (zero_fits _) <| .cons (zero_fits _) <| .cons (zero_fits _) .nil
  · exact hdatetime .DATETIME nofun nofun rfl
  · exact hdatetime .TIMESTAMP nofun nofun rfl
  · obtain ⟨hour, minute, second, secondPart, neg, timeType, heq⟩ := psFetchDatetime_time row len
    rw [heq]
    exact .cons (zero_fits _) <| .cons (zero_fits _) <| .cons (zero_fits _) <|
      .cons (word_fits _) <| .cons (byte_fits _) <| .cons (byte_fits _) <|
      .cons (secondPart_fits _ _) <| .cons (hneg _) <| .cons (zero_fits _) <|
      .cons (htimeType _) .nil

end Fetched

/-! ## Values -/

theorem MysqlTime.length_image (model : DataModel) (t : MysqlTime) :
    (t.image model).length = sizeofMysqlTime model := by
  simp only [MysqlTime.image, layoutBytes, MysqlTime.fields, List.flatMap_cons, List.flatMap_nil,
    List.length_append, List.length_nil, length_littleEndian]
  cases model <;> rfl

section Values

variable {model : DataModel} {type : EnumFieldTypes}

theorem fetchWidth_datetime (htype : isDatetimeType type) :
    fetchWidth model type = sizeofMysqlTime model := by
  rcases htype with rfl | rfl | rfl | rfl <;> rfl

theorem bytesInUse_number (htype : ¬ isDatetimeType type) :
    bytesInUse model type = [(fetchWidth model type, fetchWidth model type)] := by
  cases type <;> first | rfl | exact absurd (by decide) htype

/-- A number has any bytes. -/
theorem writable_number {value : Bytes} (htype : ¬ isDatetimeType type)
    (h : 0 < fetchWidth model type → value.length = fetchWidth model type) :
    Writable model type value := by
  unfold Writable
  rw [if_neg htype]
  exact h

theorem Writable.length {value : Bytes} (h : Writable model type value)
    (hpos : 0 < fetchWidth model type) : value.length = fetchWidth model type := by
  unfold Writable at h
  split at h
  · rename_i htype
    obtain ⟨row, len, rfl⟩ := h
    rw [MysqlTime.length_image, fetchWidth_datetime htype]
  · exact h hpos

variable (model type) in
/-- The table is as wide as the type. -/
theorem length_layoutFlags :
    (layoutFlags (bytesInUse model type)).length = fetchWidth model type := by
  by_cases htype : isDatetimeType type
  · rcases htype with rfl | rfl | rfl | rfl <;> cases model <;> rfl
  · simp [bytesInUse_number htype, layoutFlags]

theorem Varies.lt {k : Nat} (h : Varies model type k) : k < fetchWidth model type := by
  rw [← length_layoutFlags model type]
  exact (List.getElem?_eq_some_iff.mp h).1

/-- **What is written is zero where it never varies.** -/
theorem Writable.byte_zero {value : Bytes} (h : Writable model type value) {k : Nat}
    (hk : ¬ Varies model type k) : (value.take (fetchWidth model type))[k]?.getD 0 = 0 := by
  by_cases hlt : k < fetchWidth model type
  · unfold Writable at h
    split at h
    · rename_i htype
      obtain ⟨row, len, rfl⟩ := h
      rw [List.getElem?_take_of_lt hlt]
      exact layoutBytes_byte_zero (fields_fit row len model htype) hk
    · rename_i htype
      rw [Varies, bytesInUse_number htype, layoutFlags_eq_some_iff hlt] at hk
      exact absurd hlt hk
  · rw [List.getElem?_take_eq_none (Nat.le_of_not_lt hlt)]
    rfl

variable (model type) in
/-- A value with all its bytes zero. -/
theorem writable_zero : Writable model type (List.replicate (fetchWidth model type) 0) := by
  unfold Writable
  split
  · rename_i htype
    refine ⟨fun _ => 0, 0, ?_⟩
    rw [fetchWidth_datetime htype]
    rcases htype with rfl | rfl | rfl | rfl <;> cases model <;> rfl
  · exact fun _ => List.length_replicate

variable (model type) in
/-- A value with every byte set that can be. -/
def fullValue : Bytes :=
  match type with
  | .TIME => (psFetchDatetime (fun k => if k < 8 then 1 else 255) 12 .TIME).image model
  | .DATE => (psFetchDatetime (fun _ => 255) 4 .DATE).image model
  | .DATETIME => (psFetchDatetime (fun _ => 255) 11 .DATETIME).image model
  | .TIMESTAMP => (psFetchDatetime (fun _ => 255) 11 .TIMESTAMP).image model
  | type => List.replicate (fetchWidth model type) 255

theorem fullValue_number (htype : ¬ isDatetimeType type) :
    fullValue model type = List.replicate (fetchWidth model type) 255 := by
  cases type <;> first | rfl | exact absurd (by decide) htype

variable (model type) in
theorem writable_fullValue : Writable model type (fullValue model type) := by
  unfold Writable
  split
  · rename_i htype
    rcases htype with rfl | rfl | rfl | rfl <;> exact ⟨_, _, rfl⟩
  · rename_i htype
    rw [fullValue_number htype]
    exact fun _ => List.length_replicate

/-- **Every byte that can vary does**, all of them in one value. -/
theorem fullValue_byte {k : Nat} (hk : Varies model type k) :
    (fullValue model type)[k]?.getD 0 ≠ 0 := by
  by_cases htype : isDatetimeType type
  · have hall : ∀ k < fetchWidth model type, Varies model type k →
        (fullValue model type)[k]?.getD 0 ≠ 0 := by
      rcases htype with rfl | rfl | rfl | rfl <;> cases model <;> decide +kernel
    exact hall k hk.lt hk
  · rw [fullValue_number htype, List.getElem?_replicate, if_pos hk.lt]
    decide

end Values

end ServerTest.Database
