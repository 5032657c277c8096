import Mathlib.Data.List.Basic

/-!
# Runs of a step relation

A run is recorded as the events it consists of, each with the state it found. A property that one
kind of step may break holds along a run exactly when none of its steps breaks it.
-/

namespace XbdmGdbBridge.Lib

variable {ι σ : Type}

inductive Run (step : ι → σ → σ → Prop) : σ → List (ι × σ) → σ → Prop where
  | nil (s : σ) : Run step s [] s
  | cons {e : ι} {s s' s'' : σ} {rest : List (ι × σ)} (first : step e s s')
      (others : Run step s' rest s'') : Run step s ((e, s) :: rest) s''

namespace Run

variable {step : ι → σ → σ → Prop} {s s' : σ} {events : List (ι × σ)}

/-- The property holds in every state of the run. -/
def Always (P : σ → Prop) (events : List (ι × σ)) (s' : σ) : Prop :=
  (∀ e ∈ events, P e.2) ∧ P s'

theorem always_cons {P : σ → Prop} {e : ι × σ} :
    Always P (e :: events) s' ↔ P e.2 ∧ Always P events s' := by
  unfold Always
  rw [List.forall_mem_cons, and_assoc]

theorem Always.first {P : σ → Prop} (h : Run step s events s') (ha : Always P events s') : P s := by
  cases h with
  | nil => exact ha.2
  | cons first others => exact (always_cons.mp ha).1

/-- What every well behaved step keeps holds in every state of a run of such steps. -/
theorem always_of {P : σ → Prop} {good : ι → σ → Prop}
    (hstep : ∀ e s s', P s → good e s → step e s s' → P s') (h : Run step s events s') (hs : P s)
    (hgood : ∀ e ∈ events, good e.1 e.2) : Always P events s' := by
  induction h with
  | nil s => exact ⟨by simp, hs⟩
  | cons first others ih =>
    obtain ⟨hfirst, hrest⟩ := List.forall_mem_cons.mp hgood
    exact always_cons.mpr ⟨hs, ih (hstep _ _ _ hs hfirst first) hrest⟩

theorem always {P : σ → Prop} (hstep : ∀ e s s', P s → step e s s' → P s')
    (h : Run step s events s') (hs : P s) : Always P events s' :=
  always_of (fun e s s' hs (_ : True) => hstep e s s' hs) h hs (by simp)

/-- A property that a step keeps exactly when it is well behaved. -/
theorem always_iff {P : σ → Prop} {good : ι → σ → Prop}
    (hstep : ∀ e s s', P s → step e s s' → (P s' ↔ good e s)) (h : Run step s events s')
    (hs : P s) : Always P events s' ↔ ∀ e ∈ events, good e.1 e.2 := by
  induction h with
  | nil s => exact iff_of_true ⟨by simp, hs⟩ (by simp)
  | @cons e s s' s'' rest first others ih =>
    rw [always_cons, List.forall_mem_cons]
    constructor
    · rintro ⟨-, ha⟩
      have hs' : P s' := ha.first others
      exact ⟨(hstep _ _ _ hs first).mp hs', (ih hs').mp ha⟩
    · rintro ⟨hgood, hrest⟩
      have hs' : P s' := (hstep _ _ _ hs first).mpr hgood
      exact ⟨hs, (ih hs').mpr hrest⟩

theorem always_and {P Q : σ → Prop} :
    Always (fun s => P s ∧ Q s) events s' ↔ Always P events s' ∧ Always Q events s' := by
  unfold Always
  constructor
  · rintro ⟨hevents, hs⟩
    exact ⟨⟨fun e he => (hevents e he).1, hs.1⟩, fun e he => (hevents e he).2, hs.2⟩
  · rintro ⟨⟨hP, hsP⟩, hQ, hsQ⟩
    exact ⟨fun e he => ⟨hP e he, hQ e he⟩, hsP, hsQ⟩

/-- The same along runs that keep an invariant. -/
theorem always_iff_of_invariant {I P : σ → Prop} {good : ι → σ → Prop}
    (hinvariant : ∀ e s s', I s → step e s s' → I s')
    (hstep : ∀ e s s', I s → P s → step e s s' → (P s' ↔ good e s)) (h : Run step s events s')
    (hs : I s) (hP : P s) : Always P events s' ↔ ∀ e ∈ events, good e.1 e.2 := by
  have hboth : Always (fun s => I s ∧ P s) events s' ↔ ∀ e ∈ events, good e.1 e.2 := by
    refine h.always_iff ?_ ⟨hs, hP⟩
    intro e s s' hs hfirst
    rw [← hstep e s s' hs.1 hs.2 hfirst]
    exact and_iff_right (hinvariant e s s' hs.1 hfirst)
  rw [← hboth, always_and]
  exact (and_iff_right (h.always hinvariant hs)).symm

end Run

/-- The run that some events make, if each can happen where it comes. -/
def replay (next : ι → σ → Option σ) : σ → List ι → Option (List (ι × σ) × σ)
  | s, [] => some ([], s)
  | s, e :: rest => do
    let s' ← next e s
    let (events, last) ← replay next s' rest
    return ((e, s) :: events, last)

theorem run_of_replay {next : ι → σ → Option σ} {s s' : σ} {inputs : List ι}
    {events : List (ι × σ)} (h : replay next s inputs = some (events, s')) :
    Run (fun e s s' => next e s = some s') s events s' := by
  induction inputs generalizing s events with
  | nil =>
    cases h
    exact .nil _
  | cons e rest ih =>
    obtain ⟨s₁, hfirst, hrest⟩ := Option.bind_eq_some_iff.mp h
    obtain ⟨⟨events', last⟩, hreplay, hpair⟩ := Option.bind_eq_some_iff.mp hrest
    cases hpair
    exact .cons hfirst (ih hreplay)

end XbdmGdbBridge.Lib
