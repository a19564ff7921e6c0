import RpiFanServe.Foundation.StepMachine

/-! # Threads of atomic actions

A thread is a finite tree of atomic actions on a shared state; what it does next
depends on the answers it got.  A pool interleaves any number of threads, one
action at a time, with steps of an environment.

`Conforms` is the program logic: a thread carries a view, each action has a
precondition on the view, and each answer moves the view.  The rule
`Pool.conforms_invariant` turns sequential conformance of every thread into an
invariant of all interleavings, provided that views survive the actions of the
other threads.
-/

/-- A program over the actions `E`, where `R e` is what `e` answers. -/
inductive Prog (E : Type) (R : E → Type) (α : Type) where
  | ret (value : α)
  | act (e : E) (next : R e → Prog E R α)

namespace Prog

variable {E : Type} {R : E → Type} {α β : Type}

def bind : Prog E R α → (α → Prog E R β) → Prog E R β
  | .ret a, f => f a
  | .act e next, f => .act e (fun r => (next r).bind f)

instance : Monad (Prog E R) where
  pure := .ret
  bind := .bind

/-- One action, returning its answer. -/
def perform (e : E) : Prog E R (R e) := .act e .ret

@[simp] theorem pure_eq (a : α) : (pure a : Prog E R α) = .ret a := rfl
@[simp] theorem ret_bind (a : α) (f : α → Prog E R β) : (Prog.ret a >>= f) = f a := rfl
@[simp] theorem act_bind (e : E) (next : R e → Prog E R α) (f : α → Prog E R β) :
    (Prog.act e next >>= f) = .act e (fun r => next r >>= f) := rfl
@[simp] theorem perform_bind (e : E) (f : R e → Prog E R β) :
    ((perform e : Prog E R (R e)) >>= f) = .act e f := rfl

theorem bind_assoc {γ : Type} (p : Prog E R α) (f : α → Prog E R β) (g : β → Prog E R γ) :
    (p >>= f) >>= g = p >>= fun a => f a >>= g := by
  induction p with
  | ret a => rfl
  | act e next ih => exact congrArg (Prog.act e) (funext ih)

/-- Run alone against a handler; `none` when an action blocks. -/
def exec {σ : Type} (handle : σ → (e : E) → Option (R e × σ)) : Prog E R α → σ → Option (α × σ)
  | .ret a, s => some (a, s)
  | .act e next, s =>
      match handle s e with
      | some (r, s') => (next r).exec handle s'
      | none => none

theorem exec_bind {σ : Type} {handle : σ → (e : E) → Option (R e × σ)} {p : Prog E R α}
    {f : α → Prog E R β} {s s' : σ} {a : α} (first : p.exec handle s = some (a, s')) :
    (p >>= f).exec handle s = (f a).exec handle s' := by
  induction p generalizing s with
  | ret b =>
      cases first
      rfl
  | act e next ih =>
      rw [act_bind]
      simp only [exec] at first ⊢
      split at first
      · exact ih _ first
      · cases first

theorem exec_invariant {σ : Type} {handle : σ → (e : E) → Option (R e × σ)} (P : σ → Prop)
    (preserved : ∀ s e r s', P s → handle s e = some (r, s') → P s') {p : Prog E R α} {s s' : σ}
    {a : α} (hs : P s) (h : p.exec handle s = some (a, s')) : P s' := by
  induction p generalizing s with
  | ret b =>
      cases h
      exact hs
  | act e next ih =>
      simp only [exec] at h
      split at h
      · rename_i r middle handled
        exact ih r (preserved s e r middle hs handled) h
      · cases h

/-- Run alone from `s` the program ends, with a value and a state that satisfy `Q`. -/
def Wp {σ : Type} (handle : σ → (e : E) → Option (R e × σ)) (Q : α → σ → Prop) :
    Prog E R α → σ → Prop
  | .ret a, s => Q a s
  | .act e next, s => ∃ r s', handle s e = some (r, s') ∧ (next r).Wp handle Q s'

section Wp

variable {σ : Type} {handle : σ → (e : E) → Option (R e × σ)} {Q : α → σ → Prop} {s : σ}

theorem wp_iff {p : Prog E R α} :
    p.Wp handle Q s ↔ ∃ a s', p.exec handle s = some (a, s') ∧ Q a s' := by
  induction p generalizing s with
  | ret a =>
      constructor
      · intro post
        exact ⟨a, s, rfl, post⟩
      · intro ended
        obtain ⟨a, s', ran, post⟩ := ended
        cases ran
        exact post
  | act e next ih =>
      constructor
      · intro wp
        obtain ⟨r, s', handled, rest⟩ := wp
        obtain ⟨a, t, ran, post⟩ := (ih r).mp rest
        exact ⟨a, t, by simp only [exec, handled, ran], post⟩
      · intro ended
        obtain ⟨a, t, ran, post⟩ := ended
        simp only [exec] at ran
        split at ran
        · rename_i r s' handled
          exact ⟨r, s', handled, (ih r).mpr ⟨a, t, ran, post⟩⟩
        · cases ran

/-- What holds at the end of every run holds at the end of this one. -/
theorem Wp.of_exec {p : Prog E R α} {a : α} {s' : σ} (wp : p.Wp handle Q s)
    (ran : p.exec handle s = some (a, s')) : Q a s' := by
  obtain ⟨b, t, ran', post⟩ := wp_iff.mp wp
  rw [ran] at ran'
  cases ran'
  exact post

theorem Wp.keep {P : σ → Prop} {p : Prog E R α} (wp : p.Wp handle Q s) (hs : P s)
    (preserved : ∀ s e r s', P s → handle s e = some (r, s') → P s') :
    p.Wp handle (fun a s' => P s' ∧ Q a s') s := by
  obtain ⟨a, s', ran, post⟩ := wp_iff.mp wp
  exact wp_iff.mpr ⟨a, s', ran, exec_invariant P preserved hs ran, post⟩

theorem Wp.mono {Q' : α → σ → Prop} {p : Prog E R α} (wp : p.Wp handle Q s)
    (post : ∀ a s', Q a s' → Q' a s') : p.Wp handle Q' s := by
  obtain ⟨a, s', ran, holds⟩ := wp_iff.mp wp
  exact wp_iff.mpr ⟨a, s', ran, post a s' holds⟩

theorem Wp.bind {Q : β → σ → Prop} {p : Prog E R α} {f : α → Prog E R β}
    (wp : p.Wp handle (fun a s' => (f a).Wp handle Q s') s) : (p >>= f).Wp handle Q s := by
  induction p generalizing s with
  | ret a => exact wp
  | act e next ih =>
      obtain ⟨r, s', handled, rest⟩ := wp
      exact ⟨r, s', handled, ih r rest⟩

end Wp

/-- A protocol over views: which actions a thread with this view may take, and
    which views it may have after the answer. -/
structure Protocol (E : Type) (R : E → Type) (V : Type) where
  allowed : V → E → Prop
  next : V → (e : E) → R e → V → Prop

/-- The program keeps to the protocol from the view `v`, and the view and the
    value it ends with satisfy `Q`. -/
def Conforms {V : Type} (P : Protocol E R V) (Q : V → α → Prop) : V → Prog E R α → Prop
  | v, .ret a => Q v a
  | v, .act e next => P.allowed v e ∧ ∀ r v', P.next v e r v' → (next r).Conforms P Q v'

theorem Conforms.perform {V : Type} {P : Protocol E R V} {Q : V → β → Prop} {v : V} {e : E}
    {f : R e → Prog E R β} (allowed : P.allowed v e)
    (next : ∀ r v', P.next v e r v' → (f r).Conforms P Q v') :
    (Prog.perform e >>= f).Conforms P Q v :=
  ⟨allowed, next⟩

theorem Conforms.bind {V : Type} {P : Protocol E R V} {Q : V → β → Prop} {v : V}
    {p : Prog E R α} {f : α → Prog E R β}
    (h : p.Conforms P (fun v a => (f a).Conforms P Q v) v) : (p >>= f).Conforms P Q v := by
  induction p generalizing v with
  | ret a => exact h
  | act e next ih => exact ⟨h.1, fun r v' hv => ih r (h.2 r v' hv)⟩

theorem Conforms.mono {V : Type} {P : Protocol E R V} {Q Q' : V → α → Prop} {v : V}
    {p : Prog E R α} (h : p.Conforms P Q v) (post : ∀ v a, Q v a → Q' v a) :
    p.Conforms P Q' v := by
  induction p generalizing v with
  | ret a => exact post v a h
  | act e next ih => exact ⟨h.1, fun r v' hv => ih r (h.2 r v' hv)⟩

theorem Conforms.keep {V : Type} {P : Protocol E R V} {Q : V → α → Prop} {K : V → Prop} {v : V}
    {p : Prog E R α} (h : p.Conforms P Q v) (holds : K v)
    (kept : ∀ v e r v', K v → P.next v e r v' → K v') :
    p.Conforms P (fun v a => K v ∧ Q v a) v := by
  induction p generalizing v with
  | ret a => exact ⟨holds, h⟩
  | act e next ih => exact ⟨h.1, fun r v' hv => ih r (h.2 r v' hv) (kept v e r v' holds hv)⟩

/-- Two protocols at once, each over a view of its own. -/
def Protocol.both {V W : Type} (P : Protocol E R V) (P' : Protocol E R W) :
    Protocol E R (V × W) where
  allowed v e := P.allowed v.1 e ∧ P'.allowed v.2 e
  next v e r v' := P.next v.1 e r v'.1 ∧ P'.next v.2 e r v'.2

theorem Conforms.both {V W : Type} {P : Protocol E R V} {P' : Protocol E R W} {Q : V → α → Prop}
    {Q' : W → α → Prop} {v : V} {w : W} {p : Prog E R α} (h : p.Conforms P Q v)
    (h' : p.Conforms P' Q' w) :
    p.Conforms (P.both P') (fun v a => Q v.1 a ∧ Q' v.2 a) (v, w) := by
  induction p generalizing v w with
  | ret a => exact ⟨h, h'⟩
  | act e next ih =>
      refine ⟨⟨h.1, h'.1⟩, ?_⟩
      intro r v' moved
      exact ih r (h.2 r v'.1 moved.1) (h'.2 r v'.2 moved.2)

end Prog

/-- Any number of threads over one shared state. -/
structure Pool (E : Type) (R : E → Type) (σ α : Type) where
  shared : σ
  threads : Nat → Prog E R α

/-- Who moves: a thread performs its next action, or the environment moves. -/
inductive Move (ε : Type) where
  | thread (t : Nat)
  | environment (a : ε)
  deriving DecidableEq

/-- What the shared state does on a thread's action and on an environment step;
    `none` means blocked. -/
structure Handler (E : Type) (R : E → Type) (σ ε : Type) where
  handle : Nat → σ → (e : E) → Option (R e × σ)
  environment : σ → ε → Option σ

/-- The handler that takes only the actions that meet `guard`. -/
def Handler.restrict {E : Type} {R : E → Type} {σ ε : Type} (H : Handler E R σ ε)
    (guard : σ → E → Bool) : Handler E R σ ε where
  handle t s e := if guard s e then H.handle t s e else none
  environment := H.environment

/-- The handler that keeps the states it has passed, the last one first. -/
def Handler.recording {E : Type} {R : E → Type} {σ ε : Type} (H : Handler E R σ ε) :
    Handler E R (σ × List σ) ε where
  handle t s e := (H.handle t s.1 e).map fun answer => (answer.1, answer.2, s.1 :: s.2)
  environment s a := (H.environment s.1 a).map fun shared => (shared, s.1 :: s.2)

namespace Pool

variable {E : Type} {R : E → Type} {σ ε α V : Type}

/-- One scheduling step. -/
def step (H : Handler E R σ ε) (s : Pool E R σ α) : Move ε → Option (Pool E R σ α)
  | .thread t =>
      match s.threads t with
      | .ret _ => none
      | .act e next =>
          match H.handle t s.shared e with
          | some (r, shared) => some ⟨shared, Function.update s.threads t (next r)⟩
          | none => none
  | .environment a =>
      match H.environment s.shared a with
      | some shared => some { s with shared }
      | none => none

/-- What one scheduling step can be: an action of one thread with its answer, or
    an environment step. -/
theorem step_cases {H : Handler E R σ ε} {s s' : Pool E R σ α} {a : Move ε}
    (h : s.step H a = some s') :
    (∃ t e next r shared, a = .thread t ∧ s.threads t = .act e next ∧
      H.handle t s.shared e = some (r, shared) ∧
      s' = ⟨shared, Function.update s.threads t (next r)⟩) ∨
    (∃ b shared, a = .environment b ∧ H.environment s.shared b = some shared ∧
      s' = { s with shared }) := by
  cases a with
  | thread t =>
      simp only [step] at h
      split at h
      · cases h
      · rename_i e next located
        split at h
        · rename_i r shared handled
          exact .inl ⟨t, e, next, r, shared, rfl, located, handled, (Option.some.inj h).symm⟩
        · cases h
  | environment b =>
      simp only [step] at h
      split at h
      · rename_i shared moved
        exact .inr ⟨b, shared, rfl, moved, (Option.some.inj h).symm⟩
      · cases h

theorem step_ret {H : Handler E R σ ε} {s s' : Pool E R σ α} {a : Move ε} (h : s.step H a = some s')
    {t : Nat} {value : α} (ended : s.threads t = .ret value) : s'.threads t = .ret value := by
  obtain ⟨u, e, next, r, shared, -, located, -, rfl⟩ | ⟨b, shared, -, -, rfl⟩ := step_cases h
  · have other : t ≠ u := by
      intro same
      rw [← same, ended] at located
      cases located
    simp only [Function.update_of_ne other]
    exact ended
  · exact ended

/-- The pools as a machine; `init` is a condition on the first pool. -/
def machine (H : Handler E R σ ε) (init : Pool E R σ α → Prop) :
    StepMachine (Pool E R σ α) (Move ε) where
  init := init
  step := step H

/-- The proof obligations of a shared invariant `I` and of views tied to the
    shared state by `Rel`: a thread's own allowed action moves its view and keeps
    the invariant, and the views of all others survive. -/
structure Obligations (H : Handler E R σ ε) (P : Prog.Protocol E R V) (I : σ → Prop)
    (Rel : Nat → V → σ → Prop) : Prop where
  own : ∀ t s v e r s', I s → Rel t v s → P.allowed v e → H.handle t s e = some (r, s') →
    I s' ∧ ∃ v', P.next v e r v' ∧ Rel t v' s'
  others : ∀ t u s v w e r s', u ≠ t → I s → Rel t v s → Rel u w s → P.allowed v e →
    H.handle t s e = some (r, s') → Rel u w s'
  environment : ∀ s a s', I s → H.environment s a = some s' →
    I s' ∧ ∀ t v, Rel t v s → Rel t v s'

/-- The shared invariant holds, and every thread `t` has a valid view from which the
    rest of its program conforms and ends as `Q t` says. -/
def ConformingTo (P : Prog.Protocol E R V) (Q : Nat → V → α → Prop) (I : σ → Prop)
    (Rel : Nat → V → σ → Prop) (s : Pool E R σ α) : Prop :=
  I s.shared ∧ ∀ t, ∃ v, Rel t v s.shared ∧ (s.threads t).Conforms P (Q t) v

/-- The shared invariant holds and every thread has a valid view from which the
    rest of its program conforms. -/
def Conforming (P : Prog.Protocol E R V) (I : σ → Prop) (Rel : Nat → V → σ → Prop)
    (s : Pool E R σ α) : Prop :=
  I s.shared ∧ ∀ t, ∃ v, Rel t v s.shared ∧ (s.threads t).Conforms P (fun _ _ => True) v

theorem conformingTo_step {H : Handler E R σ ε} {P : Prog.Protocol E R V}
    {Q : Nat → V → α → Prop} {I : σ → Prop} {Rel : Nat → V → σ → Prop}
    (ob : Obligations H P I Rel) {s s' : Pool E R σ α} {a : Move ε}
    (hs : ConformingTo P Q I Rel s) (h : s.step H a = some s') : ConformingTo P Q I Rel s' := by
  obtain ⟨inv, views⟩ := hs
  obtain ⟨t, e, next, r, shared, -, located, handled, rfl⟩ | ⟨b, shared, -, moved, rfl⟩ :=
    step_cases h
  · obtain ⟨v, rel, conforms⟩ := views t
    rw [located] at conforms
    obtain ⟨inv', v', hv', rel'⟩ := ob.own t s.shared v e r shared inv rel conforms.1 handled
    refine ⟨inv', fun u => ?_⟩
    by_cases hu : u = t
    · subst hu
      exact ⟨v', rel', by simpa only [Function.update_self] using conforms.2 r v' hv'⟩
    · obtain ⟨w, relu, conformsu⟩ := views u
      refine ⟨w, ob.others t u s.shared v w e r shared hu inv rel relu conforms.1 handled, ?_⟩
      simpa only [Function.update_of_ne hu] using conformsu
  · obtain ⟨inv', keep⟩ := ob.environment s.shared b shared inv moved
    refine ⟨inv', fun u => ?_⟩
    obtain ⟨w, relu, conformsu⟩ := views u
    exact ⟨w, keep u w relu, conformsu⟩

theorem conforming_step {H : Handler E R σ ε} {P : Prog.Protocol E R V} {I : σ → Prop}
    {Rel : Nat → V → σ → Prop} (ob : Obligations H P I Rel) {s s' : Pool E R σ α} {a : Move ε}
    (hs : Conforming P I Rel s) (h : s.step H a = some s') : Conforming P I Rel s' :=
  conformingTo_step ob hs h

/-- Conformance of every thread is an invariant of every interleaving. -/
theorem conforms_invariant {H : Handler E R σ ε} {P : Prog.Protocol E R V} {I : σ → Prop}
    {Rel : Nat → V → σ → Prop} (ob : Obligations H P I Rel) {init : Pool E R σ α → Prop}
    (base : ∀ s, init s → Conforming P I Rel s) {s : Pool E R σ α}
    (h : (machine H init).Reachable s) : Conforming P I Rel s :=
  h.invariant (Conforming P I Rel) base (fun _ _ _ hs step => conforming_step ob hs step)

/-- In every interleaving a thread that has ended has a valid view and ended as it should. -/
theorem conformingTo_invariant {H : Handler E R σ ε} {P : Prog.Protocol E R V}
    {Q : Nat → V → α → Prop} {I : σ → Prop} {Rel : Nat → V → σ → Prop}
    (ob : Obligations H P I Rel) {init : Pool E R σ α → Prop}
    (base : ∀ s, init s → ConformingTo P Q I Rel s) {s : Pool E R σ α}
    (h : (machine H init).Reachable s) : ConformingTo P Q I Rel s :=
  h.invariant (ConformingTo P Q I Rel) base (fun _ _ _ hs step => conformingTo_step ob hs step)

theorem ConformingTo.ended {P : Prog.Protocol E R V} {Q : Nat → V → α → Prop} {I : σ → Prop}
    {Rel : Nat → V → σ → Prop} {s : Pool E R σ α} (hs : ConformingTo P Q I Rel s) {t : Nat}
    {a : α} (ended : s.threads t = .ret a) : ∃ v, Rel t v s.shared ∧ Q t v a := by
  obtain ⟨v, rel, conforms⟩ := hs.2 t
  rw [ended] at conforms
  exact ⟨v, rel, conforms⟩

theorem restrict_handle {H : Handler E R σ ε} {guard : σ → E → Bool} {t : Nat} {s s' : σ} {e : E}
    {r : R e} (handled : (H.restrict guard).handle t s e = some (r, s')) :
    guard s e = true ∧ H.handle t s e = some (r, s') := by
  simp only [Handler.restrict] at handled
  split at handled
  · rename_i allowed
    exact ⟨allowed, handled⟩
  · cases handled

theorem step_restrict {H : Handler E R σ ε} {guard : σ → E → Bool} {s s' : Pool E R σ α} {a : Move ε}
    (h : s.step H a = some s')
    (allowed : ∀ t e next, a = .thread t → s.threads t = .act e next → guard s.shared e = true) :
    s.step (H.restrict guard) a = some s' := by
  obtain ⟨t, e, next, r, shared, rfl, located, handled, rfl⟩ | ⟨b, shared, rfl, moved, rfl⟩ :=
    step_cases h
  · have restricted : (H.restrict guard).handle t s.shared e = some (r, shared) := by
      simp only [Handler.restrict, allowed t e next rfl located, if_true, handled]
    simp only [step, located, restricted]
  · exact h

theorem reachable_of_restrict {H : Handler E R σ ε} {guard : σ → E → Bool}
    {init : Pool E R σ α → Prop} {s : Pool E R σ α}
    (h : (machine (H.restrict guard) init).Reachable s) : (machine H init).Reachable s := by
  refine h.invariant (fun s => (machine H init).Reachable s) ?_ ?_
  · intro s first
    exact .of_init first
  · intro s a s' reached stepped
    obtain ⟨t, e, next, r, shared, rfl, located, handled, rfl⟩ | ⟨b, shared, rfl, moved, rfl⟩ :=
      step_cases stepped
    · have handled := (restrict_handle handled).2
      have same : (machine H init).step s (.thread t) =
          some ⟨shared, Function.update s.threads t (next r)⟩ := by
        simp only [machine, step, located, handled]
      exact reached.step same
    · have moved : H.environment s.shared b = some shared := moved
      have same : (machine H init).step s (.environment b) = some { s with shared } := by
        simp only [machine, step, moved]
      exact reached.step same

/-! ## Recorded runs -/

/-- The pool with the states it has passed. -/
def record (s : Pool E R σ α) (past : List σ) : Pool E R (σ × List σ) α :=
  ⟨(s.shared, past), s.threads⟩

theorem recording_handle {H : Handler E R σ ε} {t : Nat} {s s' : σ × List σ} {e : E} {r : R e}
    (handled : H.recording.handle t s e = some (r, s')) :
    H.handle t s.1 e = some (r, s'.1) ∧ s'.2 = s.1 :: s.2 := by
  obtain ⟨answer, taken, same⟩ := Option.map_eq_some_iff.mp handled
  cases same
  exact ⟨taken, rfl⟩

theorem recording_environment {H : Handler E R σ ε} {s s' : σ × List σ} {a : ε}
    (moved : H.recording.environment s a = some s') :
    H.environment s.1 a = some s'.1 ∧ s'.2 = s.1 :: s.2 := by
  obtain ⟨shared, taken, same⟩ := Option.map_eq_some_iff.mp moved
  cases same
  exact ⟨taken, rfl⟩

theorem step_record {H : Handler E R σ ε} {s s' : Pool E R σ α} {a : Move ε} (past : List σ)
    (h : s.step H a = some s') :
    (s.record past).step H.recording a = some (s'.record (s.shared :: past)) := by
  obtain ⟨t, e, next, r, shared, rfl, located, handled, rfl⟩ | ⟨b, shared, rfl, moved, rfl⟩ :=
    step_cases h
  · simp only [step, record, located, Handler.recording, handled, Option.map_some]
  · simp only [step, record, Handler.recording, moved, Option.map_some]

/-- A run can be recorded, and what it records are the states in between. -/
theorem run_record {H : Handler E R σ ε} {init : Pool E R σ α → Prop}
    (init' : Pool E R (σ × List σ) α → Prop) {s s' : Pool E R σ α} {as : List (Move ε)}
    (run : (machine H init).run s as = some s') (past : List σ) :
    ∃ past', (machine H.recording init').run (s.record past) as = some (s'.record past') ∧
      ∀ shared ∈ past', shared ∈ past ∨
        ∃ earlier p, earlier <+: as ∧ (machine H init).run s earlier = some p ∧
          p.shared = shared := by
  induction as generalizing s past with
  | nil =>
      cases run
      exact ⟨past, rfl, fun shared member => .inl member⟩
  | cons a as ih =>
      obtain ⟨middle, stepped, rest⟩ := StepMachine.run_cons_eq_some run
      obtain ⟨past', recorded, passed⟩ := ih rest (s.shared :: past)
      have stepped' : (machine H.recording init').step (s.record past) a =
          some (middle.record (s.shared :: past)) := step_record past stepped
      refine ⟨past', (StepMachine.run_cons _ stepped' as).trans recorded, ?_⟩
      intro shared member
      rcases passed shared member with before | ⟨earlier, p, front, reached, same⟩
      · rcases List.mem_cons.mp before with rfl | before
        · exact .inr ⟨[], s, List.nil_prefix, rfl, rfl⟩
        · exact .inl before
      · exact .inr ⟨a :: earlier, p, List.cons_prefix_cons.mpr ⟨rfl, front⟩,
          (StepMachine.run_cons _ stepped earlier).trans reached, same⟩

/-- Where a thread is about to run `p`, it can run the whole of it alone. -/
theorem reachable_exec {H : Handler E R σ ε} {init : Pool E R σ α → Prop} {β : Type}
    {s : Pool E R σ α} {t : Nat} {p : Prog E R β} {f : β → Prog E R α} {b : β} {shared : σ}
    (h : (machine H init).Reachable s) (located : s.threads t = p >>= f)
    (alone : p.exec (H.handle t) s.shared = some (b, shared)) :
    (machine H init).Reachable ⟨shared, Function.update s.threads t (f b)⟩ := by
  induction p generalizing s with
  | ret a =>
      cases alone
      have same : Function.update s.threads t (f b) = s.threads := by
        rw [Function.update_eq_self_iff]
        exact located.symm
      rw [same]
      exact h
  | act e next ih =>
      simp only [Prog.exec] at alone
      split at alone
      · rename_i r middle handled
        have stepped : (machine H init).step s (.thread t) =
            some ⟨middle, Function.update s.threads t (next r >>= f)⟩ := by
          simp only [machine, step, located, Prog.act_bind, handled]
        have rest := ih r (h.step stepped) (Function.update_self _ _ _) alone
        rwa [Function.update_idem] at rest
      · cases alone

end Pool
