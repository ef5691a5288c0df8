import Mathlib.Data.List.Infix
import Mathlib.Data.Set.Basic

/-!
# Streams of words of a prefix code

A receiver that is handed a stream and not words can tell where a word ends only if no word is a
beginning of another. That is all there is to it: a stream of such words that begins another one is
made of the first words of the other. In particular a stream can be taken apart in one way, and one
that stops between two words has not begun a third.
-/

set_option autoImplicit false

namespace ServerTest.Lib

variable {α : Type*}

structure PrefixCode (S : Set (List α)) : Prop where
  nil_notMem : [] ∉ S
  eq_of_prefix : ∀ u ∈ S, ∀ v ∈ S, u <+: v → u = v

namespace PrefixCode

variable {S : Set (List α)} {us vs : List (List α)}

/-- Two words that begin the same stream are the same. -/
theorem eq_of_append (hS : PrefixCode S) {u v s t : List α} (hu : u ∈ S) (hv : v ∈ S)
    (h : u ++ s = v ++ t) : u = v := by
  rcases List.prefix_or_prefix_of_prefix ⟨s, h⟩ (List.prefix_append v t) with huv | hvu
  · exact hS.eq_of_prefix u hu v hv huv
  · exact (hS.eq_of_prefix v hv u hu hvu).symm

/-- **A stream that begins another is made of its first words.** Induction on the words of the
first; the words of the second follow. -/
theorem prefix_of_flatten_prefix (hS : PrefixCode S) (hus : ∀ u ∈ us, u ∈ S)
    (hvs : ∀ v ∈ vs, v ∈ S) (h : us.flatten <+: vs.flatten) : us <+: vs := by
  induction us generalizing vs with
  | nil => exact List.nil_prefix
  | cons u us ih =>
    have hu : u ∈ S := hus u (by simp)
    obtain ⟨rest, hrest⟩ := h
    cases vs with
    | nil =>
      have hempty : u = [] := by simp at hrest; exact hrest.1
      exact absurd (hempty ▸ hu) hS.nil_notMem
    | cons v vs =>
      rw [List.flatten_cons, List.flatten_cons, List.append_assoc] at hrest
      obtain rfl : u = v := hS.eq_of_append hu (hvs v (by simp)) hrest
      have htail : us <+: vs :=
        ih (fun w hw => hus w (by simp [hw])) (fun w hw => hvs w (by simp [hw]))
          ⟨rest, List.append_cancel_left hrest⟩
      exact List.prefix_cons_inj u |>.mpr htail

end PrefixCode

end ServerTest.Lib
