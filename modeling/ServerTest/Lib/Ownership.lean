import Mathlib.Data.List.Nodup

/-!
# Who holds a handle, and what has been closed

A resource that is opened, referred to from places, and closed by hand. `Owned` is what a program
that closes by hand wants at all times: nothing is closed twice, and no place refers to what is
closed. Nothing here says how handles get from place to place; a step is known by what it closes and
by which handles are held afterwards.

* `Owned.move` — a step that closes nothing and holds nothing new, or only what was never closed,
  keeps it;
* `Owned.close_iff` — a step that closes some of what was held keeps it exactly if it closes nothing
  twice and leaves none of it behind.
-/

set_option autoImplicit false

namespace ServerTest.Lib

/-- The handle each place holds, and those closed so far, in order. -/
structure Holdings (P H : Type*) where
  held : P → Option H
  closed : List H

namespace Holdings

variable {P H : Type*} {s : Holdings P H}

structure Owned (s : Holdings P H) : Prop where
  once : s.closed.Nodup
  live : ∀ p h, s.held p = some h → h ∉ s.closed

theorem Owned.move (hs : s.Owned) {held : P → Option H}
    (hheld : ∀ p h, held p = some h → (∃ q, s.held q = some h) ∨ h ∉ s.closed) :
    Owned ⟨held, s.closed⟩ := by
  refine ⟨hs.once, fun p h hp => ?_⟩
  rcases hheld p h hp with ⟨q, hq⟩ | hnew
  · exact hs.live q h hq
  · exact hnew

theorem Owned.close_iff (hs : s.Owned) {held : P → Option H} {handles : List H}
    (hclosed : ∀ h ∈ handles, ∃ p, s.held p = some h)
    (hheld : ∀ p h, held p = some h → ∃ q, s.held q = some h) :
    Owned ⟨held, s.closed ++ handles⟩ ↔
      handles.Nodup ∧ ∀ p h, held p = some h → h ∉ handles := by
  constructor
  · intro h
    obtain ⟨-, hnodup, -⟩ := List.nodup_append.mp h.once
    refine ⟨hnodup, fun p x hp hx => ?_⟩
    exact h.live p x hp (List.mem_append_right _ hx)
  · intro h
    obtain ⟨hnodup, hleft⟩ := h
    refine ⟨?_, fun p x hp hx => ?_⟩
    · refine List.nodup_append.mpr ⟨hs.once, hnodup, fun x hx y hy => ?_⟩
      rintro rfl
      obtain ⟨p, hp⟩ := hclosed x hy
      exact hs.live p x hp hx
    · rcases List.mem_append.mp hx with hx | hx
      · obtain ⟨q, hq⟩ := hheld p x hp
        exact hs.live q x hq hx
      · exact hleft p x hp hx

end Holdings

end ServerTest.Lib
