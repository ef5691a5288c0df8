import Mathlib.Logic.Relation

/-!
# Transition systems: reachable states, invariants, simulations

Everything this development says "at every reachable state" or "over every run" goes through
this file. A `System` is a set of initial states and a step relation; nothing here knows what the
states are, so a pool of connections, a socket and a configuration store are three instances and
not three copies of the same induction.

Three rules are exported, and the proofs downstream use them by name:

* `System.Reachable.invariant` — a predicate that holds initially and is kept by every step holds
  in every reachable state;
* `System.Reachable.mono` — a system whose steps are steps of a larger one reaches no more;
* `Simulation.reachable` — a forward simulation carries every reachable concrete state to a
  reachable abstract one, related to it. The abstract step may be empty, because most steps of a
  program (a failed compare-and-exchange, a partial write) mean nothing to its specification.

A `Machine` is the special case most models here are: one initial state and a partial step function
driven by events, so that a run is a list of events and can be evaluated. `Machine.run_keeps` and
`Machine.run_reachable` go from such lists to the rules above, and `Machine.comes_to_rest` is the rule
for termination: a measure every event makes smaller.
-/

set_option autoImplicit false

namespace ServerTest.Lib

/-- A transition system: initial states and a step relation. -/
structure System (σ : Type*) where
  init : σ → Prop
  step : σ → σ → Prop

namespace System

variable {σ : Type*}

/-- `s` is reached from an initial state in finitely many steps. -/
def Reachable (S : System σ) (s : σ) : Prop :=
  ∃ s₀, S.init s₀ ∧ Relation.ReflTransGen S.step s₀ s

theorem Reachable.start {S : System σ} {s : σ} (h : S.init s) : S.Reachable s :=
  ⟨s, h, .refl⟩

theorem Reachable.next {S : System σ} {s t : σ} (h : S.Reachable s) (hst : S.step s t) :
    S.Reachable t :=
  let ⟨s₀, h₀, hr⟩ := h
  ⟨s₀, h₀, hr.tail hst⟩

/-- **The invariant rule.** The step premise may use that the source state is reachable, so an
invariant can be proved on top of one already established. -/
theorem Reachable.invariant {S : System σ} {P : σ → Prop} (hinit : ∀ s, S.init s → P s)
    (hstep : ∀ s t, S.Reachable s → P s → S.step s t → P t) {s : σ} (h : S.Reachable s) :
    P s := by
  obtain ⟨s₀, h₀, hr⟩ := h
  induction hr with
  | refl => exact hinit s₀ h₀
  | tail hpre hlast ih => exact hstep _ _ ⟨s₀, h₀, hpre⟩ ih hlast

theorem Reachable.mono {S T : System σ} (hinit : ∀ s, S.init s → T.init s)
    (hstep : ∀ s t, S.step s t → T.step s t) {s : σ} (h : S.Reachable s) : T.Reachable s := by
  obtain ⟨s₀, h₀, hr⟩ := h
  exact ⟨s₀, hinit s₀ h₀, Relation.ReflTransGen.mono hstep _ _ hr⟩

end System

/-- A forward simulation of `C` by `A` along `R`, with stuttering: one concrete step is matched by
any number of abstract ones. -/
structure Simulation {σ τ : Type*} (C : System σ) (A : System τ) (R : σ → τ → Prop) : Prop where
  init : ∀ s, C.init s → ∃ t, A.init t ∧ R s t
  step : ∀ s s' t, R s t → C.step s s' → ∃ t', Relation.ReflTransGen A.step t t' ∧ R s' t'

theorem Simulation.reachable {σ τ : Type*} {C : System σ} {A : System τ} {R : σ → τ → Prop}
    (h : Simulation C A R) {s : σ} (hs : C.Reachable s) : ∃ t, A.Reachable t ∧ R s t := by
  refine hs.invariant (P := fun s => ∃ t, A.Reachable t ∧ R s t) ?_ ?_
  · intro s₀ h₀
    obtain ⟨t₀, ht₀, hr⟩ := h.init s₀ h₀
    exact ⟨t₀, .start ht₀, hr⟩
  · rintro s₁ s₂ - ⟨t, ⟨t₀, ht₀, hpre⟩, hr⟩ hst
    obtain ⟨t', htt', hr'⟩ := h.step s₁ s₂ t hr hst
    exact ⟨t', ⟨t₀, ht₀, hpre.trans htt'⟩, hr'⟩

/-- A transition system whose steps are driven by events. `none` means that the event cannot happen
in that state. -/
structure Machine (σ ε : Type*) where
  start : σ
  step : σ → ε → Option σ

namespace Machine

variable {σ ε : Type*}

def system (M : Machine σ ε) : System σ where
  init s := s = M.start
  step s t := ∃ e, M.step s e = some t

/-- The events of a list in order; `none` as soon as one of them cannot happen. -/
def run (M : Machine σ ε) : σ → List ε → Option σ
  | s, [] => some s
  | s, e :: es =>
    match M.step s e with
    | some t => M.run t es
    | none => none

theorem run_cons {M : Machine σ ε} {s u : σ} {e : ε} {es : List ε} :
    M.run s (e :: es) = some u ↔ ∃ t, M.step s e = some t ∧ M.run t es = some u := by
  simp only [run]
  cases M.step s e with
  | none => simp
  | some t => simp

theorem run_step {M : Machine σ ε} {s t : σ} {e : ε} (h : M.step s e = some t) (es : List ε) :
    M.run s (e :: es) = M.run t es := by
  simp only [run, h]

theorem run_append {M : Machine σ ε} {es fs : List ε} {s u : σ} :
    M.run s (es ++ fs) = some u ↔ ∃ t, M.run s es = some t ∧ M.run t fs = some u := by
  induction es generalizing s with
  | nil => simp [run]
  | cons e es ih =>
    simp only [List.cons_append, run_cons, ih]
    constructor
    · rintro ⟨t, hfirst, v, hmid, hlast⟩
      exact ⟨v, ⟨t, hfirst, hmid⟩, hlast⟩
    · rintro ⟨v, ⟨t, hfirst, hmid⟩, hlast⟩
      exact ⟨t, hfirst, v, hmid, hlast⟩

/-- A property the steps of a run keep holds at its end. The step premise may use that the event is
one of the run's. -/
theorem run_keeps {M : Machine σ ε} {P : σ → Prop} :
    ∀ {es : List ε} {s t : σ}, P s →
      (∀ s e t, e ∈ es → P s → M.step s e = some t → P t) → M.run s es = some t → P t
  | [], _, _, hs, _, hrun => by
    cases hrun
    exact hs
  | e :: es, s, _, hs, hstep, hrun => by
    obtain ⟨u, hfirst, hrest⟩ := run_cons.mp hrun
    have hu : P u := hstep s e u (by simp) hs hfirst
    exact run_keeps hu (fun s e t he => hstep s e t (List.mem_cons_of_mem _ he)) hrest

theorem run_reachable {M : Machine σ ε} {es : List ε} {s : σ} (h : M.run M.start es = some s) :
    M.system.Reachable s :=
  run_keeps (P := M.system.Reachable) (.start rfl) (fun _ e _ _ hs hst => hs.next ⟨e, hst⟩) h

/-- **A measure bounds a run.** If every event of a run leads from a state with `P` to one with `P` and a
smaller measure, the run is no longer than what the measure has lost. -/
theorem run_length_le {M : Machine σ ε} {P : σ → Prop} {f : σ → Nat} :
    ∀ {es : List ε} {s t : σ}, P s →
      (∀ s e t, e ∈ es → P s → M.step s e = some t → P t ∧ f t < f s) →
      M.run s es = some t → es.length + f t ≤ f s
  | [], _, _, _, _, hrun => by
    cases hrun
    exact Nat.le_of_eq (Nat.zero_add _)
  | e :: es, s, t, hs, hstep, hrun => by
    obtain ⟨u, hfirst, hrest⟩ := run_cons.mp hrun
    obtain ⟨hu, hless⟩ := hstep s e u (by simp) hs hfirst
    have hlater := run_length_le hu (fun s e t he => hstep s e t (List.mem_cons_of_mem _ he)) hrest
    rw [List.length_cons]
    omega

/-- …and can be carried on until no event of its kind can happen any more. -/
theorem exists_run_stuck {M : Machine σ ε} {P : σ → Prop} {f : σ → Nat} {E : ε → Prop}
    (hstep : ∀ s e t, E e → P s → M.step s e = some t → P t ∧ f t < f s) {s : σ} (hs : P s) :
    ∃ es t, (∀ e ∈ es, E e) ∧ M.run s es = some t ∧ P t ∧ ∀ e, E e → M.step t e = none := by
  by_cases hstuck : ∀ e, E e → M.step s e = none
  · exact ⟨[], s, by simp, rfl, hs, hstuck⟩
  · simp only [Classical.not_forall] at hstuck
    obtain ⟨e, he, hsome⟩ := hstuck
    obtain ⟨u, hu⟩ := Option.ne_none_iff_exists'.mp hsome
    obtain ⟨hPu, hless⟩ := hstep s e u he hs hu
    obtain ⟨es, t, hes, hrun, ht, hend⟩ := exists_run_stuck hstep hPu
    refine ⟨e :: es, t, ?_, run_cons.mpr ⟨u, hu, hrun⟩, ht, hend⟩
    intro e' he'
    rcases List.mem_cons.mp he' with rfl | hlater
    · exact he
    · exact hes e' hlater
termination_by f s

/-- **The rule for runs that come to rest.** If every event of a kind keeps `P` and makes a measure
smaller, a run of such events keeps `P`, is no longer than the measure of its start, and can be carried
on until none of them can happen. -/
theorem comes_to_rest {M : Machine σ ε} {P : σ → Prop} {f : σ → Nat} {E : ε → Prop}
    (hstep : ∀ s e t, E e → P s → M.step s e = some t → P t ∧ f t < f s) {es : List ε} {s t : σ}
    (hs : P s) (hes : ∀ e ∈ es, E e) (hrun : M.run s es = some t) :
    P t ∧ es.length ≤ f s ∧
      ∃ es' u, (∀ e ∈ es', E e) ∧ M.run t es' = some u ∧ P u ∧ ∀ e, E e → M.step u e = none := by
  have ht : P t := run_keeps hs (fun s e t he hs h => (hstep s e t (hes e he) hs h).1) hrun
  have hshort := run_length_le hs (fun s e t he => hstep s e t (hes e he)) hrun
  exact ⟨ht, Nat.le_trans (Nat.le_add_right ..) hshort, exists_run_stuck hstep ht⟩

/-- **The invariant rule for machines.** -/
theorem invariant {M : Machine σ ε} {P : σ → Prop} (hstart : P M.start)
    (hstep : ∀ s e t, P s → M.step s e = some t → P t) {s : σ} (h : M.system.Reachable s) : P s :=
  h.invariant (fun _ h₀ => h₀ ▸ hstart) fun s t _ hs ⟨e, he⟩ => hstep s e t hs he

end Machine

end ServerTest.Lib
