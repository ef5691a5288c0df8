import ServerTest.Lib.Cpp

/-!
# `MessageBuffer`

A byte vector with a read and a write cursor. The bytes between the cursors are the *active* ones:
written and not yet read. `std::size_t` is 64 bits wide, so the cursor arithmetic is taken modulo
`2 ^ 64`, and `GetActiveSize` of a buffer whose cursors have crossed is a number close to `2 ^ 64`
as it is in the code. `WellFormed` says the cursors have not crossed and lie inside the vector.

The first half is what the write side of a socket uses of the class, the second half the rest of it.
The operations that touch memory are in `Except Fault`; each has one lemma that says it returns on a
well-formed buffer, keeps it so, and what it does to the active bytes. Nothing after this module
unfolds them.
-/

set_option autoImplicit false

namespace ServerTest.Network

open Lib

structure MessageBuffer where
  wpos : Nat
  rpos : Nat
  storage : Bytes
  deriving DecidableEq, Repr

namespace MessageBuffer

def readCompleted (b : MessageBuffer) (bytes : Nat) : MessageBuffer :=
  { b with rpos := (b.rpos + bytes) % 2 ^ 64 }

def getActiveSize (b : MessageBuffer) : Nat := (b.wpos + 2 ^ 64 - b.rpos) % 2 ^ 64

/-- The bytes `asio::buffer(GetReadPointer(), GetActiveSize())` covers. -/
def active (b : MessageBuffer) : Bytes := (b.storage.drop b.rpos).take b.getActiveSize

/-- `Move()`, whose result every caller moves from at once: the storage, and what is left. -/
def move (b : MessageBuffer) : Bytes × MessageBuffer := (b.storage, ⟨0, 0, []⟩)

/-- The move constructor: the new buffer, and `right` afterwards. The cursors are copied before
`Move` zeroes them, because `_storage` is the last member. -/
def moveConstruct (right : MessageBuffer) : MessageBuffer × MessageBuffer :=
  let wpos := right.wpos
  let rpos := right.rpos
  let (storage, right) := right.move
  (⟨wpos, rpos, storage⟩, right)

@[simp] theorem moveConstruct_fst (b : MessageBuffer) : b.moveConstruct.1 = b := rfl

/-- The class invariant. -/
structure WellFormed (b : MessageBuffer) : Prop where
  rpos_le_wpos : b.rpos ≤ b.wpos
  wpos_le_size : b.wpos ≤ b.storage.length
  size_lt : b.storage.length < 2 ^ 64

variable {b : MessageBuffer}

theorem WellFormed.getActiveSize_eq (h : b.WellFormed) : b.getActiveSize = b.wpos - b.rpos := by
  obtain ⟨hle, hsize, hlt⟩ := h
  unfold getActiveSize
  omega

theorem WellFormed.length_active (h : b.WellFormed) : b.active.length = b.getActiveSize := by
  have hsize := h.getActiveSize_eq
  obtain ⟨hle, hin, -⟩ := h
  rw [active, List.length_take, List.length_drop]
  omega

theorem WellFormed.length_active_lt (h : b.WellFormed) : b.active.length < 2 ^ 64 := by
  rw [h.length_active, h.getActiveSize_eq]
  have hwpos := h.wpos_le_size
  have hsize := h.size_lt
  omega

theorem WellFormed.active_eq_nil_iff (h : b.WellFormed) : b.active = [] ↔ b.getActiveSize = 0 := by
  rw [← h.length_active, List.length_eq_zero_iff]

section ReadCompleted

variable {n : Nat} (h : b.WellFormed) (hn : n ≤ b.getActiveSize)

include h hn

theorem WellFormed.rpos_readCompleted : (b.readCompleted n).rpos = b.rpos + n := by
  have hsize := h.getActiveSize_eq
  obtain ⟨hle, hin, hlt⟩ := h
  show (b.rpos + n) % 2 ^ 64 = b.rpos + n
  exact Nat.mod_eq_of_lt (by omega)

theorem WellFormed.readCompleted : (b.readCompleted n).WellFormed where
  rpos_le_wpos := by
    have hsize := h.getActiveSize_eq
    have hle := h.rpos_le_wpos
    rw [h.rpos_readCompleted hn]
    show b.rpos + n ≤ b.wpos
    omega
  wpos_le_size := h.wpos_le_size
  size_lt := h.size_lt

/-- Reading `n` of the active bytes drops exactly those. -/
theorem WellFormed.active_readCompleted : (b.readCompleted n).active = b.active.drop n := by
  have hsize : (b.readCompleted n).getActiveSize = b.getActiveSize - n := by
    rw [(h.readCompleted hn).getActiveSize_eq, h.rpos_readCompleted hn, h.getActiveSize_eq]
    exact Nat.sub_add_eq b.wpos b.rpos n
  rw [active, hsize, h.rpos_readCompleted hn, active, List.drop_take, List.drop_drop]
  rfl

end ReadCompleted

/-! ## The rest of the class -/

/-- `_storage.resize(n)`; new bytes are zero. -/
def resizeStorage (storage : Bytes) (n : Nat) : Bytes :=
  storage.take n ++ List.replicate (n - storage.length) 0

/-- `MessageBuffer(std::size_t)`. -/
def ofSize (initialSize : Nat) : MessageBuffer := ⟨0, 0, resizeStorage [] initialSize⟩

/-- `MessageBuffer()`. -/
def new : MessageBuffer := ofSize 4096

def reset (b : MessageBuffer) : MessageBuffer := { b with wpos := 0, rpos := 0 }

def resize (b : MessageBuffer) (bytes : Nat) : MessageBuffer :=
  { b with storage := resizeStorage b.storage bytes }

def writeCompleted (b : MessageBuffer) (bytes : Nat) : MessageBuffer :=
  { b with wpos := (b.wpos + bytes) % 2 ^ 64 }

def getRemainingSpace (b : MessageBuffer) : Nat := (b.storage.length + 2 ^ 64 - b.wpos) % 2 ^ 64

def getBufferSize (b : MessageBuffer) : Nat := b.storage.length

def normalize (b : MessageBuffer) : Except Fault MessageBuffer :=
  if b.rpos ≠ 0 then do
    let storage ←
      if b.rpos ≠ b.wpos then do
        -- `memmove` reads all of its source before it writes.
        let source ← load b.storage b.rpos b.getActiveSize
        memcpy b.storage 0 source
      else pure b.storage
    return ⟨(b.wpos + 2 ^ 64 - b.rpos) % 2 ^ 64, 0, storage⟩
  else return b

/-- The size `EnsureFreeSpace` grows to. `_storage.size() * 3` is `std::size_t` arithmetic. -/
def grownSize (b : MessageBuffer) : Nat := b.storage.length * 3 % 2 ^ 64 / 2

def ensureFreeSpace (b : MessageBuffer) : MessageBuffer :=
  if b.getRemainingSpace = 0 then b.resize b.grownSize else b

/-- Storing `data` through `GetWritePointer()`, which leaves the cursors where they are. -/
def fill (b : MessageBuffer) (data : Bytes) : Except Fault MessageBuffer := do
  let storage ← memcpy b.storage b.wpos data
  return { b with storage := storage }

def write (b : MessageBuffer) (data : Bytes) : Except Fault MessageBuffer :=
  if data.length ≠ 0 then do
    let b ← b.fill data
    return b.writeCompleted data.length
  else return b

/-- What `WriteCompleted(n)` is about to make active: the bytes at the write pointer. -/
def written (b : MessageBuffer) (n : Nat) : Bytes := (b.storage.drop b.wpos).take n

/-- `operator=(MessageBuffer&&)` between two objects: both afterwards. The moved-from vector is empty
or holds what the target's vector held, as the library chooses. -/
def moveAssign (target right : MessageBuffer) (swaps : Bool) : MessageBuffer × MessageBuffer :=
  let wpos := right.wpos
  let rpos := right.rpos
  let storage := right.move.1
  (⟨wpos, rpos, storage⟩, ⟨0, 0, if swaps then target.storage else []⟩)

/-! ### What each operation keeps and does -/

theorem length_resizeStorage (storage : Bytes) (n : Nat) : (resizeStorage storage n).length = n := by
  rw [resizeStorage, List.length_append, List.length_take, List.length_replicate]
  omega

/-- The active bytes as a slice. -/
theorem WellFormed.active_eq (h : b.WellFormed) :
    b.active = (b.storage.take b.wpos).drop b.rpos := by
  rw [active, h.getActiveSize_eq, List.drop_take]

theorem WellFormed.getRemainingSpace_eq (h : b.WellFormed) :
    b.getRemainingSpace = b.storage.length - b.wpos := by
  obtain ⟨hle, hin, hlt⟩ := h
  unfold getRemainingSpace
  omega

/-- A buffer whose cursors are both zero. -/
theorem wellFormed_of_zero {storage : Bytes} (h : storage.length < 2 ^ 64) :
    (⟨0, 0, storage⟩ : MessageBuffer).WellFormed :=
  ⟨Nat.le_refl 0, Nat.zero_le _, h⟩

theorem active_of_zero {storage : Bytes} (h : storage.length < 2 ^ 64) :
    (⟨0, 0, storage⟩ : MessageBuffer).active = [] := by
  rw [(wellFormed_of_zero h).active_eq, List.take_zero, List.drop_nil]

/-- Changing the storage behind the write cursor. -/
theorem WellFormed.with_storage (h : b.WellFormed) {storage : Bytes}
    (hin : b.wpos ≤ storage.length) (hlt : storage.length < 2 ^ 64)
    (hsame : storage.take b.wpos = b.storage.take b.wpos) :
    MessageBuffer.WellFormed { b with storage := storage } ∧
      MessageBuffer.active { b with storage := storage } = b.active := by
  have hwf : MessageBuffer.WellFormed { b with storage := storage } := ⟨h.rpos_le_wpos, hin, hlt⟩
  refine ⟨hwf, ?_⟩
  rw [hwf.active_eq, h.active_eq]
  exact congrArg (List.drop b.rpos) hsame

theorem WellFormed.resize (h : b.WellFormed) {n : Nat} (hn : b.wpos ≤ n) (hlt : n < 2 ^ 64) :
    (b.resize n).WellFormed ∧ (b.resize n).active = b.active := by
  have hlen : (resizeStorage b.storage n).length = n := length_resizeStorage b.storage n
  refine h.with_storage (by omega) (by omega) ?_
  have hfront : b.wpos ≤ (b.storage.take n).length := by
    rw [List.length_take]
    exact Nat.le_min.mpr ⟨hn, h.wpos_le_size⟩
  rw [resizeStorage, List.take_append_of_le_length hfront, List.take_take, Nat.min_eq_left hn]

/-- Growing by half does not wrap below `2 ^ 64 / 3` bytes, and gains at least a byte from two on. -/
theorem WellFormed.ensureFreeSpace (h : b.WellFormed) (hsmall : b.storage.length * 3 < 2 ^ 64) :
    b.ensureFreeSpace.WellFormed ∧ b.ensureFreeSpace.active = b.active ∧
      b.storage.length ≤ b.ensureFreeSpace.storage.length ∧
      (2 ≤ b.storage.length → 0 < b.ensureFreeSpace.getRemainingSpace) := by
  have hgrown : b.grownSize = b.storage.length * 3 / 2 := by
    rw [grownSize, Nat.mod_eq_of_lt hsmall]
  have hroom := h.getRemainingSpace_eq
  have hin := h.wpos_le_size
  unfold MessageBuffer.ensureFreeSpace
  split
  · rename_i hfull
    have hsize : (b.resize b.grownSize).storage.length = b.grownSize :=
      length_resizeStorage b.storage b.grownSize
    obtain ⟨hwf, hactive⟩ := h.resize (n := b.grownSize) (by omega) (by omega)
    refine ⟨hwf, hactive, by omega, ?_⟩
    intro htwo
    rw [hwf.getRemainingSpace_eq, hsize]
    show 0 < b.grownSize - b.wpos
    omega
  · rename_i hfree
    exact ⟨h, rfl, Nat.le_refl _, fun _ => Nat.pos_of_ne_zero hfree⟩

theorem WellFormed.normalize (h : b.WellFormed) :
    ∃ b', b.normalize = .ok b' ∧ b'.WellFormed ∧ b'.active = b.active ∧
      b'.storage.length = b.storage.length := by
  have hsize := h.getActiveSize_eq
  have hle := h.rpos_le_wpos
  have hin := h.wpos_le_size
  have hlt := h.size_lt
  have hwpos : (b.wpos + 2 ^ 64 - b.rpos) % 2 ^ 64 = b.wpos - b.rpos := hsize
  by_cases hzero : b.rpos = 0
  · exact ⟨b, by rw [MessageBuffer.normalize, if_neg (not_not.mpr hzero)]; rfl, h, rfl, rfl⟩
  · by_cases hempty : b.rpos = b.wpos
    · -- Nothing is active, so nothing is moved.
      have hnone : b.wpos - b.rpos = 0 := by omega
      refine ⟨⟨0, 0, b.storage⟩, ?_, wellFormed_of_zero hlt, ?_, rfl⟩
      · rw [MessageBuffer.normalize, if_pos hzero, if_neg (not_not.mpr hempty), hwpos, hnone]
        rfl
      · rw [active_of_zero hlt, eq_comm, h.active_eq_nil_iff, hsize, hnone]
    · have hlen : b.active.length = b.wpos - b.rpos := h.length_active.trans hsize
      have hfits : 0 + b.active.length ≤ b.storage.length := by omega
      have hload : load b.storage b.rpos b.getActiveSize = .ok b.active :=
        if_pos (by omega)
      have hcopy : memcpy b.storage 0 b.active = .ok (overwrite b.storage 0 b.active) :=
        if_pos hfits
      let moved : MessageBuffer := ⟨b.wpos - b.rpos, 0, overwrite b.storage 0 b.active⟩
      have hkeep : moved.storage.length = b.storage.length := length_overwrite hfits
      have hwf : moved.WellFormed := ⟨Nat.zero_le _, by rw [hkeep]; show b.wpos - b.rpos ≤ _; omega,
        by rw [hkeep]; exact hlt⟩
      refine ⟨moved, ?_, hwf, ?_, hkeep⟩
      · rw [MessageBuffer.normalize, if_pos hzero, if_pos hempty, hwpos]
        exact bind_returns.mpr ⟨_, hload, bind_returns.mpr ⟨_, hcopy, rfl⟩⟩
      · rw [hwf.active_eq, List.drop_zero]
        show (overwrite b.storage 0 b.active).take (b.wpos - b.rpos) = b.active
        have hinside := overwrite_inside hfits
        rwa [List.drop_zero, hlen] at hinside

theorem WellFormed.fill (h : b.WellFormed) {data : Bytes} (hd : data.length ≤ b.getRemainingSpace) :
    ∃ b', b.fill data = .ok b' ∧ b'.WellFormed ∧ b'.active = b.active ∧
      b'.storage.length = b.storage.length ∧ b'.wpos = b.wpos ∧
      b'.written data.length = data := by
  have hin := h.wpos_le_size
  have hfits : b.wpos + data.length ≤ b.storage.length := by
    rw [h.getRemainingSpace_eq] at hd
    omega
  have hlen : (overwrite b.storage b.wpos data).length = b.storage.length := length_overwrite hfits
  have hlt := h.size_lt
  obtain ⟨hwf, hactive⟩ := h.with_storage (by omega) (by omega) (overwrite_before hfits)
  refine ⟨_, bind_returns.mpr ⟨_, if_pos hfits, rfl⟩, hwf, hactive, hlen, rfl, ?_⟩
  exact overwrite_inside hfits

theorem WellFormed.writeCompleted (h : b.WellFormed) {n : Nat} (hn : n ≤ b.getRemainingSpace) :
    (b.writeCompleted n).WellFormed ∧ (b.writeCompleted n).active = b.active ++ b.written n := by
  have hle := h.rpos_le_wpos
  have hin := h.wpos_le_size
  have hlt := h.size_lt
  rw [h.getRemainingSpace_eq] at hn
  have hwpos : (b.writeCompleted n).wpos = b.wpos + n := Nat.mod_eq_of_lt (by omega)
  have hwf : (b.writeCompleted n).WellFormed :=
    ⟨by rw [hwpos]; show b.rpos ≤ b.wpos + n; omega,
      by rw [hwpos]; show b.wpos + n ≤ b.storage.length; omega, hlt⟩
  refine ⟨hwf, ?_⟩
  rw [hwf.active_eq, hwpos, h.active_eq]
  show (b.storage.take (b.wpos + n)).drop b.rpos = _
  have hfront : b.rpos ≤ (b.storage.take b.wpos).length := by
    rw [List.length_take]
    omega
  rw [List.take_add, List.drop_append_of_le_length hfront]
  rfl

theorem WellFormed.write (h : b.WellFormed) {data : Bytes}
    (hd : data.length ≤ b.getRemainingSpace) :
    ∃ b', b.write data = .ok b' ∧ b'.WellFormed ∧ b'.active = b.active ++ data ∧
      b'.storage.length = b.storage.length := by
  by_cases hempty : data.length = 0
  · refine ⟨b, by rw [MessageBuffer.write, if_neg (not_not.mpr hempty)]; rfl, h, ?_, rfl⟩
    rw [List.length_eq_zero_iff.mp hempty, List.append_nil]
  · obtain ⟨b₁, hfill, hwf₁, hactive₁, hlen₁, hwpos₁, hwritten⟩ := h.fill hd
    have hd₁ : data.length ≤ b₁.getRemainingSpace := by
      rw [hwf₁.getRemainingSpace_eq, hlen₁, hwpos₁, ← h.getRemainingSpace_eq]
      exact hd
    obtain ⟨hwf₂, hactive₂⟩ := hwf₁.writeCompleted hd₁
    refine ⟨b₁.writeCompleted data.length, ?_, hwf₂, ?_, hlen₁⟩
    · rw [MessageBuffer.write, if_pos hempty]
      exact bind_returns.mpr ⟨b₁, hfill, rfl⟩
    · rw [hactive₂, hactive₁, hwritten]

/-! ### Making room

What a read starts with: `Normalize` and then `EnsureFreeSpace`, which "ensures there's some free
space". Half of the size is added, and half of zero or one is nothing. -/

/-- `Normalize(); EnsureFreeSpace();` -/
def makeRoom (b : MessageBuffer) : Except Fault MessageBuffer := do
  let b ← b.normalize
  return b.ensureFreeSpace

/-- There is room afterwards, and the same bytes are active. -/
def MakesRoom (b : MessageBuffer) : Prop :=
  ∃ b', b.makeRoom = .ok b' ∧ 0 < b'.getRemainingSpace ∧ b'.active = b.active

theorem WellFormed.normalize_cursors (h : b.WellFormed) {b' : MessageBuffer}
    (hb : b.normalize = .ok b') : b'.rpos = 0 ∧ b'.wpos = b.wpos - b.rpos := by
  have hwpos : (b.wpos + 2 ^ 64 - b.rpos) % 2 ^ 64 = b.wpos - b.rpos := h.getActiveSize_eq
  by_cases hzero : b.rpos = 0
  · rw [MessageBuffer.normalize, if_neg (not_not.mpr hzero)] at hb
    cases hb
    exact ⟨hzero, by omega⟩
  · rw [MessageBuffer.normalize, if_pos hzero] at hb
    dsimp only at hb
    split at hb
    · obtain ⟨source, -, hb⟩ := bind_returns.mp hb
      obtain ⟨storage, -, hb⟩ := bind_returns.mp hb
      cases hb
      exact ⟨rfl, hwpos⟩
    · cases hb
      exact ⟨rfl, hwpos⟩

/-- Half as much again is more, unless it is half of nothing or the product wraps. -/
theorem lt_grownSize_iff (h : b.WellFormed) :
    b.storage.length < b.grownSize ↔ 2 ≤ b.storage.length ∧ b.storage.length * 3 < 2 ^ 64 := by
  have hlt := h.size_lt
  unfold grownSize
  by_cases hwrap : b.storage.length * 3 < 2 ^ 64
  · rw [Nat.mod_eq_of_lt hwrap]
    omega
  · have hless : b.storage.length * 3 % 2 ^ 64 ≤ b.storage.length * 3 - 2 ^ 64 := by
      rw [Nat.mod_eq_sub_mod (Nat.not_lt.mp hwrap)]
      exact Nat.mod_le _ _
    omega

/-- A full buffer keeps its bytes and gets room only if its grown size is larger than its size. -/
theorem WellFormed.grow_of_full (h : b.WellFormed) (hfull : b.getRemainingSpace = 0)
    (hroom : 0 < b.ensureFreeSpace.getRemainingSpace) (hactive : b.ensureFreeSpace.active = b.active)
    (hrpos : b.rpos = 0) : b.storage.length < b.grownSize := by
  have hsize := h.getActiveSize_eq
  have hin := h.wpos_le_size
  have hspace := h.getRemainingSpace_eq
  have hgrown : b.ensureFreeSpace = b.resize b.grownSize := if_pos hfull
  have hlen : (b.resize b.grownSize).storage.length = b.grownSize :=
    length_resizeStorage b.storage b.grownSize
  -- The active bytes are the whole storage before, so they cannot be in a smaller one after.
  have hcount : b.active.length = b.storage.length := by
    rw [h.length_active]
    omega
  have hkept : b.storage.length ≤ b.grownSize := by
    rw [← hcount, ← hactive, hgrown, active, List.length_take, List.length_drop, hlen]
    exact Nat.le_trans (Nat.min_le_right _ _) (Nat.sub_le _ _)
  refine Nat.lt_of_le_of_ne hkept fun heq => ?_
  have hwpos : (b.resize b.grownSize).wpos = b.wpos := rfl
  have hsame : (b.resize b.grownSize).getRemainingSpace = b.getRemainingSpace := by
    rw [getRemainingSpace, getRemainingSpace, hlen, hwpos, ← heq]
  rw [hgrown, hsame, hfull] at hroom
  exact Nat.lt_irrefl 0 hroom

/-- **When growth makes room.** Exactly when bytes that were read can be discarded, or there was
room already, or the buffer has at least two bytes and less than `2 ^ 64 / 3`. -/
theorem makesRoom_iff (b : MessageBuffer) (h : b.WellFormed) :
    b.MakesRoom ↔ b.rpos ≠ 0 ∨ b.wpos < b.storage.length ∨
      (2 ≤ b.storage.length ∧ b.storage.length * 3 < 2 ^ 64) := by
  obtain ⟨b', hnormal, hwf, hactive, hlen⟩ := h.normalize
  obtain ⟨hrpos, hwpos⟩ := h.normalize_cursors hnormal
  have hrun : b.makeRoom = .ok b'.ensureFreeSpace := bind_returns.mpr ⟨b', hnormal, rfl⟩
  have hspace := hwf.getRemainingSpace_eq
  have hle := h.rpos_le_wpos
  have hin := h.wpos_le_size
  constructor
  · intro hroom
    obtain ⟨b'', hmade, hpos, hsame⟩ := hroom
    rw [hrun] at hmade
    obtain rfl := Except.ok.inj hmade
    by_cases hfull : b'.getRemainingSpace = 0
    · have hgrows := hwf.grow_of_full hfull hpos (hsame.trans hactive.symm) hrpos
      rw [lt_grownSize_iff hwf, hlen] at hgrows
      exact Or.inr (Or.inr hgrows)
    · omega
  · intro hcond
    refine ⟨b'.ensureFreeSpace, hrun, ?_⟩
    by_cases hfull : b'.getRemainingSpace = 0
    · have hgrows : 2 ≤ b.storage.length ∧ b.storage.length * 3 < 2 ^ 64 := by omega
      rw [← hlen] at hgrows
      obtain ⟨-, hkept, -, hpos⟩ := hwf.ensureFreeSpace hgrows.2
      exact ⟨hpos hgrows.1, hkept.trans hactive⟩
    · have hidle : b'.ensureFreeSpace = b' := if_neg hfull
      rw [hidle]
      exact ⟨Nat.pos_of_ne_zero hfull, hactive⟩

/-- A full buffer of two bytes. -/
theorem makesRoom_two : MakesRoom ⟨2, 0, [1, 2]⟩ := by
  refine (makesRoom_iff _ ⟨?_, ?_, ?_⟩).mpr (Or.inr (Or.inr ?_)) <;> decide

/-- `MessageBuffer(0)` never gets any. -/
theorem not_makesRoom_zero : (ofSize 0).WellFormed ∧ ¬ (ofSize 0).MakesRoom := by
  have hwf : (ofSize 0).WellFormed := ⟨by decide, by decide, by decide⟩
  refine ⟨hwf, fun hroom => ?_⟩
  obtain ⟨b', hmade, hpos, -⟩ := hroom
  have hempty : (ofSize 0).makeRoom = .ok ⟨0, 0, []⟩ := by
    simp [ofSize, resizeStorage, makeRoom, MessageBuffer.normalize, MessageBuffer.ensureFreeSpace,
      MessageBuffer.resize, getRemainingSpace, grownSize, bind, Except.bind, pure, Except.pure]
  rw [hempty] at hmade
  obtain rfl := Except.ok.inj hmade
  simp [getRemainingSpace] at hpos

end MessageBuffer

/-- A buffer a caller may hand to `QueuePacket`: one whose active bytes exist. -/
abbrev Packet := { b : MessageBuffer // b.WellFormed }

/-- A packet that is all active bytes. -/
def packetOf (bytes : Bytes) (h : bytes.length < 2 ^ 64) : Packet :=
  ⟨⟨bytes.length, 0, bytes⟩, ⟨Nat.zero_le _, Nat.le_refl _, h⟩⟩

theorem getActiveSize_packetOf (bytes : Bytes) (h : bytes.length < 2 ^ 64) :
    (packetOf bytes h).val.getActiveSize = bytes.length :=
  (packetOf bytes h).property.getActiveSize_eq

theorem active_packetOf (bytes : Bytes) (h : bytes.length < 2 ^ 64) :
    (packetOf bytes h).val.active = bytes := by
  rw [MessageBuffer.active, getActiveSize_packetOf]
  exact List.take_length

end ServerTest.Network
