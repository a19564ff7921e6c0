import Mathlib.Data.List.Basic

/-! # Labelled step machines

A machine is a set of initial states and a partial step function.  The label of
a step resolves every choice of the environment, so a run is a list of labels
and can be computed.  Reachability, invariants, runs whose steps all meet a
guard, and forward simulations are stated here once for all machines.
-/

universe u v w x

/-- A machine with state `σ` and labels `α`; `none` means that the labelled
    step is not enabled. -/
structure StepMachine (σ : Type u) (α : Type v) where
  init : σ → Prop
  step : σ → α → Option σ

namespace StepMachine

variable {σ : Type u} {α : Type v} {τ : Type w} {β : Type x}

/-- The state after the labelled steps, when every one of them is enabled. -/
def run (m : StepMachine σ α) : σ → List α → Option σ
  | s, [] => some s
  | s, a :: as =>
      match m.step s a with
      | some s' => m.run s' as
      | none => none

/-- The states that some run from an initial state ends in. -/
def Reachable (m : StepMachine σ α) (s : σ) : Prop :=
  ∃ s₀ as, m.init s₀ ∧ m.run s₀ as = some s

@[simp] theorem run_nil (m : StepMachine σ α) (s : σ) : m.run s [] = some s := rfl

theorem run_cons (m : StepMachine σ α) {s t : σ} {a : α} (h : m.step s a = some t) (as : List α) :
    m.run s (a :: as) = m.run t as := by
  simp only [run, h]

theorem run_cons_eq_some {m : StepMachine σ α} {s u : σ} {a : α} {as : List α}
    (h : m.run s (a :: as) = some u) : ∃ t, m.step s a = some t ∧ m.run t as = some u := by
  cases hs : m.step s a with
  | none => simp [run, hs] at h
  | some t => exact ⟨t, rfl, by simpa only [run, hs] using h⟩

theorem run_append {m : StepMachine σ α} {s t : σ} {as : List α} (h : m.run s as = some t)
    (bs : List α) : m.run s (as ++ bs) = m.run t bs := by
  induction as generalizing s with
  | nil => cases h; rfl
  | cons a as ih =>
      obtain ⟨s', hs, hr⟩ := run_cons_eq_some h
      rw [List.cons_append, run_cons m hs]
      exact ih hr

theorem run_invariant {m : StepMachine σ α} (P : σ → Prop)
    (preserved : ∀ s a s', P s → m.step s a = some s' → P s')
    {s t : σ} {as : List α} (hs : P s) (h : m.run s as = some t) : P t := by
  induction as generalizing s with
  | nil => cases h; exact hs
  | cons a as ih =>
      obtain ⟨s', step, rest⟩ := run_cons_eq_some h
      exact ih (preserved s a s' hs step) rest

theorem Reachable.of_init {m : StepMachine σ α} {s : σ} (h : m.init s) : m.Reachable s :=
  ⟨s, [], h, rfl⟩

theorem Reachable.step {m : StepMachine σ α} {s t : σ} {a : α} (h : m.Reachable s)
    (hs : m.step s a = some t) : m.Reachable t := by
  obtain ⟨s₀, as, h0, hr⟩ := h
  refine ⟨s₀, as ++ [a], h0, ?_⟩
  rw [run_append hr, run_cons m hs, run_nil]

theorem Reachable.run {m : StepMachine σ α} {s t : σ} {as : List α} (h : m.Reachable s)
    (hr : m.run s as = some t) : m.Reachable t := by
  obtain ⟨s₀, bs, h0, hb⟩ := h
  exact ⟨s₀, bs ++ as, h0, (run_append hb as).trans hr⟩

theorem Reachable.get {m : StepMachine σ α} {s : σ} {as : List α} (h : m.init s)
    (enabled : (m.run s as).isSome) : m.Reachable ((m.run s as).get enabled) :=
  ⟨s, as, h, (Option.some_get enabled).symm⟩

/-- The invariant rule: it holds initially and every step preserves it. -/
theorem Reachable.invariant {m : StepMachine σ α} (P : σ → Prop)
    (base : ∀ s, m.init s → P s) (preserved : ∀ s a s', P s → m.step s a = some s' → P s')
    {s : σ} (h : m.Reachable s) : P s := by
  obtain ⟨s₀, as, h0, hr⟩ := h
  exact run_invariant P preserved (base s₀ h0) hr

/-- The machine that takes only the steps that meet `guard`. -/
def restrict (m : StepMachine σ α) (guard : σ → α → Prop) [∀ s a, Decidable (guard s a)] :
    StepMachine σ α where
  init := m.init
  step s a := if guard s a then m.step s a else none

theorem restrict_step {m : StepMachine σ α} {guard : σ → α → Prop}
    [∀ s a, Decidable (guard s a)] {s t : σ} {a : α} :
    (m.restrict guard).step s a = some t ↔ guard s a ∧ m.step s a = some t := by
  simp only [restrict]
  split <;> simp_all

theorem restrict_run_mono {m : StepMachine σ α} {guard weaker : σ → α → Prop}
    [∀ s a, Decidable (guard s a)] [∀ s a, Decidable (weaker s a)]
    (weakens : ∀ s a, guard s a → weaker s a) {s t : σ} {as : List α}
    (h : (m.restrict guard).run s as = some t) : (m.restrict weaker).run s as = some t := by
  induction as generalizing s with
  | nil => exact h
  | cons a as ih =>
      obtain ⟨s', step, rest⟩ := run_cons_eq_some h
      obtain ⟨met, step⟩ := restrict_step.mp step
      rw [run_cons _ (restrict_step.mpr ⟨weakens s a met, step⟩)]
      exact ih rest

/-- When an allowed step that keeps `P` and lowers the measure is enabled wherever the goal
    is not reached, some run of allowed steps reaches it. -/
theorem reaches {m : StepMachine σ α} {P goal : σ → Prop} {allowed : α → Prop} (measure : σ → Nat)
    (progress : ∀ s, P s → ¬ goal s →
      ∃ a s', allowed a ∧ m.step s a = some s' ∧ P s' ∧ measure s' < measure s)
    (s : σ) (hs : P s) :
    ∃ as t, m.run s as = some t ∧ (∀ a ∈ as, allowed a) ∧ P t ∧ goal t := by
  by_cases reached : goal s
  · exact ⟨[], s, rfl, nofun, hs, reached⟩
  · obtain ⟨a, s', ok, step, hs', lower⟩ := progress s hs reached
    obtain ⟨as, t, run, all, ht, goal⟩ := reaches measure progress s' hs'
    exact ⟨a :: as, t, (run_cons m step as).trans run, List.forall_mem_cons.mpr ⟨ok, all⟩, ht, goal⟩
termination_by measure s

/-- Every state of the one machine is matched by a state of the other, step by
    step; one concrete step may be any number of abstract steps. -/
structure Simulation (m : StepMachine σ α) (n : StepMachine τ β) (R : σ → τ → Prop) : Prop where
  init : ∀ s, m.init s → ∃ t, n.init t ∧ R s t
  step : ∀ s t a s', R s t → m.step s a = some s' → ∃ bs t', n.run t bs = some t' ∧ R s' t'

/-- A simulation carries reachable states to reachable states. -/
theorem Simulation.reachable {m : StepMachine σ α} {n : StepMachine τ β} {R : σ → τ → Prop}
    (sim : Simulation m n R) {s : σ} (h : m.Reachable s) : ∃ t, n.Reachable t ∧ R s t := by
  refine h.invariant (fun s => ∃ t, n.Reachable t ∧ R s t) ?_ ?_
  · intro s h0
    obtain ⟨t, ht, rel⟩ := sim.init s h0
    exact ⟨t, .of_init ht, rel⟩
  · rintro s a s' ⟨t, ⟨t₀, as, ht₀, hr⟩, rel⟩ step
    obtain ⟨bs, t', run, rel'⟩ := sim.step s t a s' rel step
    exact ⟨t', ⟨t₀, as ++ bs, ht₀, (run_append hr bs).trans run⟩, rel'⟩

end StepMachine
