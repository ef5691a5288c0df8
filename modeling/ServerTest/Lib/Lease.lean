import Mathlib.Logic.Function.Basic
import ServerTest.Lib.Transition

/-!
# Exclusive leases

The specification of a pool, in its own terms: resources `ρ`, clients `ι`, and for every resource
*who holds it* — a function into `Option ι`, so that two holders of one resource cannot even be
written down. An implementation keeps something else: a flag per resource, and in every client its
own notes of what it holds. `Represents` says the two descriptions are about the same leases, and
the lemmas below say how it moves under the two operations. A pool is exclusive once every step of
it is one of those moves, or none.
-/

set_option autoImplicit false

namespace ServerTest.Lib.Lease

variable {ρ ι : Type*}

/-- Who holds each resource. -/
abbrev Holders (ρ ι : Type*) := ρ → Option ι

/-- The two moves of the specification. -/
inductive Step [DecidableEq ρ] : Holders ρ ι → Holders ρ ι → Prop
  | acquire {h : Holders ρ ι} (r : ρ) (i : ι) (free : h r = none) :
      Step h (Function.update h r (some i))
  | release {h : Holders ρ ι} (r : ρ) (i : ι) (held : h r = some i) :
      Step h (Function.update h r none)

/-- The specification: nothing is held at first. -/
def system (ρ ι : Type*) [DecidableEq ρ] : System (Holders ρ ι) where
  init h := ∀ r, h r = none
  step := Step

/-- Flags and per-client notes that describe the leases `h`. -/
structure Represents (available : ρ → Bool) (holds : ι → ρ → Prop) (h : Holders ρ ι) : Prop where
  available_iff : ∀ r, available r = true ↔ h r = none
  holds_iff : ∀ i r, holds i r ↔ h r = some i

namespace Represents

variable {available : ρ → Bool} {holds : ι → ρ → Prop} {h : Holders ρ ι}

/-- Represented leases are exclusive. -/
theorem exclusive (hr : Represents available holds h) {i j : ι} {r : ρ} (hi : holds i r)
    (hj : holds j r) : i = j :=
  Option.some.inj (((hr.holds_iff i r).mp hi).symm.trans ((hr.holds_iff j r).mp hj))

/-- A flag is down exactly while somebody holds the resource. -/
theorem unavailable_iff (hr : Represents available holds h) (r : ρ) :
    available r = false ↔ ∃ i, holds i r := by
  constructor
  · intro hdown
    have hne : h r ≠ none := fun hnone => by
      rw [(hr.available_iff r).mpr hnone] at hdown
      cases hdown
    obtain ⟨i, hi⟩ := Option.ne_none_iff_exists'.mp hne
    exact ⟨i, (hr.holds_iff i r).mpr hi⟩
  · intro h
    obtain ⟨i, hi⟩ := h
    by_contra hup
    have hnone := (hr.available_iff r).mp (by simpa using hup)
    rw [(hr.holds_iff i r).mp hi] at hnone
    cases hnone

/-- Taking a resource whose flag is up: lower the flag, note the lease. -/
theorem acquire [DecidableEq ρ] (hr : Represents available holds h) {available' : ρ → Bool}
    {holds' : ι → ρ → Prop} {i : ι} {r : ρ} (hup : available r = true)
    (hflag : ∀ x, available' x = if x = r then false else available x)
    (hholds : ∀ j x, holds' j x ↔ (j = i ∧ x = r) ∨ holds j x) :
    Represents available' holds' (Function.update h r (some i)) := by
  have hfree : h r = none := (hr.available_iff r).mp hup
  refine ⟨fun x => ?_, fun j x => ?_⟩
  · by_cases hx : x = r
    · subst hx
      simp [hflag]
    · simp [hflag, hx, hr.available_iff]
  · rw [hholds, hr.holds_iff]
    by_cases hx : x = r
    · subst hx
      simp [hfree, eq_comm]
    · simp [hx]

/-- Giving back a resource one holds: raise the flag, forget the lease. -/
theorem release [DecidableEq ρ] (hr : Represents available holds h) {available' : ρ → Bool}
    {holds' : ι → ρ → Prop} {i : ι} {r : ρ} (hheld : holds i r)
    (hflag : ∀ x, available' x = if x = r then true else available x)
    (hholds : ∀ j x, holds' j x ↔ ¬ (j = i ∧ x = r) ∧ holds j x) :
    Represents available' holds' (Function.update h r none) := by
  have hsome : h r = some i := (hr.holds_iff i r).mp hheld
  refine ⟨fun x => ?_, fun j x => ?_⟩
  · by_cases hx : x = r
    · subst hx
      simp [hflag]
    · simp [hflag, hx, hr.available_iff]
  · rw [hholds, hr.holds_iff]
    by_cases hx : x = r
    · subst hx
      simp [hsome, eq_comm]
    · simp [hx]

end Represents

end ServerTest.Lib.Lease
