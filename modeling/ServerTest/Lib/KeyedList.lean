import Mathlib.Data.List.Nodup
import Mathlib.Logic.Function.Basic

/-!
# A list as a store

A list whose elements carry a key, searched from the front, is a store: `Represents` says which
one. Two operations keep it so: appending an element whose key is absent, and dropping every
element with a given key. The store is a function, the plainest thing that has a value at a key, and
each operation is `Function.update`.
-/

set_option autoImplicit false

namespace ServerTest.Lib

variable {α κ : Type*} [DecidableEq κ]

/-- The first element with key `k` is what `store` has at `k`, and no key occurs twice. -/
structure Represents (key : α → κ) (l : List α) (store : κ → Option α) : Prop where
  find_eq : ∀ k, l.find? (key · = k) = store k
  nodup : (l.map key).Nodup

namespace Represents

variable {key : α → κ} {l : List α} {store : κ → Option α}

theorem nil : Represents key [] fun _ => none where
  find_eq _ := rfl
  nodup := List.nodup_nil

/-- An absent key is the key of no element. -/
theorem notMem_of_absent (h : Represents key l store) {k : κ} (habsent : store k = none) :
    k ∉ l.map key := by
  rw [← h.find_eq, List.find?_eq_none] at habsent
  intro hmem
  obtain ⟨a, ha, hkey⟩ := List.mem_map.mp hmem
  exact habsent a ha (decide_eq_true hkey)

theorem append (h : Represents key l store) {a : α} (habsent : store (key a) = none) :
    Represents key (l ++ [a]) (Function.update store (key a) (some a)) where
  find_eq k := by
    rw [List.find?_append, h.find_eq]
    by_cases hk : key a = k
    · subst hk
      simp [habsent]
    · simp [hk, Function.update_of_ne (Ne.symm hk)]
  nodup := by
    rw [List.map_append, List.map_singleton]
    exact h.nodup.append (List.nodup_singleton _)
      (List.disjoint_singleton.mpr (h.notMem_of_absent habsent))

theorem drop (h : Represents key l store) (k : κ) :
    Represents key (l.filter (key · ≠ k)) (Function.update store k none) where
  find_eq k' := by
    rw [List.find?_filter]
    by_cases hk : k' = k
    · subst hk
      simp
    · rw [Function.update_of_ne hk, ← h.find_eq]
      congr 1
      funext a
      by_cases ha : key a = k'
      · simp [ha, hk]
      · simp [ha]
  nodup := h.nodup.sublist (List.filter_sublist.map key)

theorem countP_le_one (h : Represents key l store) (k : κ) : l.countP (key · = k) ≤ 1 := by
  have hcount : l.countP (key · = k) = (l.map key).count k := by
    rw [List.count, List.countP_map]
    rfl
  rw [hcount]
  exact List.nodup_iff_count_le_one.mp h.nodup k

end Represents

end ServerTest.Lib
