import ServerTest.Lib.Cpp

/-!
# Flat memory and checked loops

The two general facts the models of buffer-filling code rest on: a byte memory in which a write is
visible where it lands and nowhere else, and a loop of checked steps, which returns exactly when
every check holds at the state its prefix leads to.
-/

set_option autoImplicit false

namespace ServerTest.Lib

/-- A byte memory, by offset. Bounds are the business of the code that writes. -/
abbrev Memory := Nat → UInt8

namespace Memory

/-- `memcpy(mem + start, bytes, bytes.size())`. -/
def write (mem : Memory) (start : Nat) (bytes : Bytes) : Memory := fun a =>
  if start ≤ a then bytes[a - start]?.getD (mem a) else mem a

theorem write_outside {mem : Memory} {start a : Nat} {bytes : Bytes}
    (h : a < start ∨ start + bytes.length ≤ a) : mem.write start bytes a = mem a := by
  unfold write
  rcases h with h | h
  · rw [if_neg (by omega)]
  · rw [if_pos (by omega), List.getElem?_eq_none (by omega)]
    rfl

theorem write_inside {mem : Memory} {start k : Nat} {bytes : Bytes} {b : UInt8}
    (h : bytes[k]? = some b) : mem.write start bytes (start + k) = b := by
  unfold write
  rw [if_pos (by omega), Nat.add_sub_cancel_left, h]
  rfl

end Memory

section Loops

variable {α β : Type} {step : β → α → Except Fault β} {C : β → α → Prop} {f : β → α → β}

/-- **Checked loops.** If a step returns exactly when its check holds, and then does `f`, then the
loop returns exactly when every check holds along the way, and then does `f` throughout. -/
theorem foldlM_checked (hstep : ∀ b a b', step b a = .ok b' ↔ C b a ∧ f b a = b') {l : List α}
    {b b' : β} :
    l.foldlM step b = .ok b' ↔
      (∀ before a after, l = before ++ a :: after → C (before.foldl f b) a) ∧
        l.foldl f b = b' := by
  induction l generalizing b with
  | nil =>
    constructor
    · intro h
      refine ⟨fun before a after e => ?_, by cases h; rfl⟩
      simp at e
    · intro h
      obtain ⟨-, rfl⟩ := h
      rfl
  | cons x rest ih =>
    rw [List.foldlM_cons, bind_returns]
    constructor
    · intro h
      obtain ⟨b₁, h₁, h₂⟩ := h
      obtain ⟨hcheck, rfl⟩ := (hstep _ _ _).mp h₁
      obtain ⟨hrest, hfold⟩ := ih.mp h₂
      refine ⟨fun before a after e => ?_, hfold⟩
      cases before with
      | nil =>
        obtain ⟨rfl, rfl⟩ := List.cons.inj e
        exact hcheck
      | cons y before =>
        obtain ⟨rfl, rfl⟩ := List.cons.inj e
        exact hrest before a after rfl
    · intro h
      obtain ⟨hall, hfold⟩ := h
      refine ⟨f b x, (hstep _ _ _).mpr ⟨hall [] x rest rfl, rfl⟩, ih.mpr ⟨?_, hfold⟩⟩
      intro before a after e
      exact hall (x :: before) a after (by rw [e]; rfl)

/-- The case of a check that does not look at the state. -/
theorem foldlM_checked_each {K : α → Prop}
    (hstep : ∀ b a b', step b a = .ok b' ↔ K a ∧ f b a = b') {l : List α} {b b' : β} :
    l.foldlM step b = .ok b' ↔ (∀ a ∈ l, K a) ∧ l.foldl f b = b' := by
  rw [foldlM_checked (C := fun _ a => K a) hstep]
  constructor
  · intro h
    obtain ⟨hall, hfold⟩ := h
    refine ⟨fun a ha => ?_, hfold⟩
    obtain ⟨before, after, e⟩ := List.append_of_mem ha
    exact hall before a after e
  · intro h
    obtain ⟨hall, hfold⟩ := h
    refine ⟨fun before a after e => hall a ?_, hfold⟩
    rw [e]
    simp

end Loops

end ServerTest.Lib
