import RpiFanServe.Foundation.StepMachine

/-! # Threads and their owners

An owner starts a thread that runs until a flag is cleared and uses members of the owner
on its way.  The destructor of the owner is a list of operations: it clears the flag, joins
the thread and destroys the members, in whatever order its classes do.  The members are
never used when they are gone exactly when a join comes before they go.  What a thread does
that uses them after that has no meaning, and is no step here: the destructor can come to
its end exactly when the thread is not at such a place.
-/

universe u v

/-- What a thread does from place to place, given the flag and an outcome of its calls;
    at `none` it ends.  At the places in `uses` it uses the members. -/
structure ThreadLoop (π : Type u) (ω : Type v) where
  first : π
  next : Bool → ω → π → Option π
  uses : π → Bool

/-- One operation of a destructor. -/
inductive Cleanup where
  | clear
  | join
  | destroy
  deriving DecidableEq

namespace OwnedThread

/-- Before its start and after its join a thread is absent. -/
inductive Status (π : Type u) where
  | absent
  | located (place : π)
  | ended

/-- `cleanup` is what is left of the destructor once it has begun. -/
structure State (π : Type u) where
  running : Bool
  thread : Status π
  cleanup : Option (List Cleanup)
  destroyed : Bool

inductive Action (ω : Type v) where
  | start
  | destruct
  /-- The next operation of the destructor. -/
  | cleanup
  | thread (outcome : ω)

variable {π : Type u} {ω : Type v}

def Status.joinable : Status π → Bool
  | .located _ => false
  | .absent | .ended => true

/-- A join waits until the thread has ended. -/
def State.perform (s : State π) : Cleanup → Option (State π)
  | .clear => some { s with running := false }
  | .join => if s.thread.joinable then some { s with thread := .absent } else none
  | .destroy => some { s with destroyed := true }

def step (loop : ThreadLoop π ω) (destructor : List Cleanup) (s : State π) :
    Action ω → Option (State π)
  | .start =>
      match s.thread, s.cleanup with
      | .absent, none => some { s with thread := .located loop.first }
      | _, _ => none
  | .destruct =>
      match s.cleanup with
      | none => some { s with cleanup := some destructor }
      | some _ => none
  | .cleanup =>
      match s.cleanup with
      | some (operation :: rest) => (s.perform operation).map fun s => { s with cleanup := some rest }
      | _ => none
  | .thread outcome =>
      match s.thread with
      | .located place =>
          if s.destroyed && loop.uses place then none
          else
            match loop.next s.running outcome place with
            | some place => some { s with thread := .located place }
            | none => some { s with thread := .ended }
      | .absent | .ended => none

def boot : State π := ⟨true, .absent, none, false⟩

def machine (loop : ThreadLoop π ω) (destructor : List Cleanup) :
    StepMachine (State π) (Action ω) where
  init s := s = boot
  step := step loop destructor

/-- The thread uses the members after they are gone. -/
def State.UsesDestroyed (loop : ThreadLoop π ω) (s : State π) : Prop :=
  s.destroyed = true ∧ ∃ place, s.thread = .located place ∧ loop.uses place = true

theorem step_cases {loop : ThreadLoop π ω} {destructor : List Cleanup} {s s' : State π}
    {action : Action ω} (stepped : step loop destructor s action = some s') :
    (action = .start ∧ s.thread = .absent ∧ s.cleanup = none ∧
      s' = { s with thread := .located loop.first }) ∨
    (action = .destruct ∧ s.cleanup = none ∧ s' = { s with cleanup := some destructor }) ∨
    (∃ operation rest middle, action = .cleanup ∧ s.cleanup = some (operation :: rest) ∧
      s.perform operation = some middle ∧ s' = { middle with cleanup := some rest }) ∨
    ∃ outcome place, action = .thread outcome ∧ s.thread = .located place ∧
      ¬ s.UsesDestroyed loop ∧ s' = { s with thread := match loop.next s.running outcome place with
        | some place => .located place
        | none => .ended } := by
  cases action with
  | start =>
      simp only [step] at stepped
      split at stepped
      · rename_i absent before
        cases stepped
        exact .inl ⟨rfl, absent, before, rfl⟩
      · cases stepped
  | destruct =>
      simp only [step] at stepped
      split at stepped
      · rename_i before
        cases stepped
        exact .inr (.inl ⟨rfl, before, rfl⟩)
      · cases stepped
  | cleanup =>
      simp only [step] at stepped
      split at stepped
      · rename_i operation rest left
        obtain ⟨middle, performed, rfl⟩ := Option.map_eq_some_iff.mp stepped
        exact .inr (.inr (.inl ⟨operation, rest, middle, rfl, left, performed, rfl⟩))
      · cases stepped
  | thread outcome =>
      simp only [step] at stepped
      split at stepped
      · rename_i place located
        simp only [Option.ite_none_left_eq_some, Bool.and_eq_true] at stepped
        obtain ⟨there, stepped⟩ := stepped
        refine .inr (.inr (.inr ⟨outcome, place, rfl, located, ?_, ?_⟩))
        · rintro ⟨destroyed, place', located', uses⟩
          rw [located] at located'
          cases located'
          exact there ⟨destroyed, uses⟩
        · cases next : loop.next s.running outcome place with
          | none =>
              rw [next] at stepped
              exact (Option.some.inj stepped).symm
          | some place' =>
              rw [next] at stepped
              exact (Option.some.inj stepped).symm
      · cases stepped
      · cases stepped

/-! ## The members are not used when they are gone -/

/-- A join comes before the members are destroyed. -/
def joinsFirst : List Cleanup → Bool
  | [] | .join :: _ => true
  | .destroy :: _ => false
  | .clear :: rest => joinsFirst rest

/-- The members are there as long as the destructor has not begun, and until the thread is
    joined a join still comes before they go. -/
def Guarded (s : State π) : Prop :=
  match s.cleanup with
  | none => s.destroyed = false
  | some rest => s.thread = .absent ∨ s.destroyed = false ∧ joinsFirst rest = true

theorem guarded_step {loop : ThreadLoop π ω} {destructor : List Cleanup} {s s' : State π}
    {action : Action ω} (joins : joinsFirst destructor = true) (guarded : Guarded s)
    (stepped : step loop destructor s action = some s') : Guarded s' := by
  rcases step_cases stepped with ⟨-, -, before, rfl⟩ | ⟨-, before, rfl⟩ |
    ⟨operation, rest, middle, -, left, performed, rfl⟩ | ⟨outcome, place, -, located, -, rfl⟩
  · unfold Guarded at guarded ⊢
    rw [before] at guarded
    simp only [before]
    exact guarded
  · unfold Guarded at guarded ⊢
    rw [before] at guarded
    exact .inr ⟨guarded, joins⟩
  · unfold Guarded at guarded ⊢
    rw [left] at guarded
    cases operation with
    | clear =>
        cases performed
        exact guarded
    | join =>
        simp only [State.perform] at performed
        split at performed
        · cases performed
          exact .inl rfl
        · cases performed
    | destroy =>
        cases performed
        cases guarded with
        | inl absent => exact .inl absent
        | inr there => cases there.2
  · unfold Guarded at guarded ⊢
    cases left : s.cleanup with
    | none =>
        rw [left] at guarded
        exact guarded
    | some rest =>
        rw [left] at guarded
        cases guarded with
        | inl absent =>
            rw [located] at absent
            cases absent
        | inr there => exact .inr there

/-- Where the thread comes with these outcomes while the flag is set. -/
def follow (loop : ThreadLoop π ω) : List ω → π → Option π
  | [], place => some place
  | outcome :: outcomes, place =>
      match loop.next true outcome place with
      | some place => follow loop outcomes place
      | none => none

theorem run_follow {loop : ThreadLoop π ω} {destructor : List Cleanup} {outcomes : List ω}
    {place place' : π} (follows : follow loop outcomes place = some place') {s : State π}
    (running : s.running = true) (there : s.destroyed = false) (located : s.thread = .located place) :
    (machine loop destructor).run s (outcomes.map .thread) =
      some { s with thread := .located place' } := by
  induction outcomes generalizing place s with
  | nil =>
      cases follows
      rw [← located]
      rfl
  | cons outcome outcomes ih =>
      simp only [follow] at follows
      split at follows
      · rename_i middle next
        have stepped : (machine loop destructor).step s (.thread outcome) =
            some { s with thread := .located middle } := by
          simp only [machine, step, located, running, there, next, Bool.false_and,
            Bool.false_eq_true, if_false]
        rw [List.map_cons, StepMachine.run_cons _ stepped]
        exact ih (s := { s with thread := .located middle }) follows running there rfl
      · cases follows

theorem exists_clears {destructor : List Cleanup} (late : joinsFirst destructor = false) :
    ∃ n rest, destructor = List.replicate n .clear ++ .destroy :: rest := by
  induction destructor with
  | nil => cases late
  | cons operation destructor ih =>
      cases operation with
      | clear =>
          obtain ⟨n, rest, same⟩ := ih late
          exact ⟨n + 1, rest, congrArg (List.cons Cleanup.clear) same⟩
      | join => cases late
      | destroy => exact ⟨0, destructor, rfl⟩

theorem run_clears (loop : ThreadLoop π ω) (destructor : List Cleanup) {rest : List Cleanup} (n : Nat)
    {s : State π}
    (left : s.cleanup = some (List.replicate n .clear ++ .destroy :: rest)) :
    ∃ t, (machine loop destructor).run s (List.replicate (n + 1) .cleanup) = some t ∧
      t.destroyed = true ∧ t.thread = s.thread := by
  induction n generalizing s with
  | zero =>
      have stepped : (machine loop destructor).step s .cleanup =
          some { s with destroyed := true, cleanup := some rest } := by
        simp [machine, step, left, State.perform]
      exact ⟨_, (StepMachine.run_cons _ stepped []).trans rfl, rfl, rfl⟩
  | succ n ih =>
      have stepped : (machine loop destructor).step s .cleanup = some { s with
          running := false
          cleanup := some (List.replicate n .clear ++ .destroy :: rest) } := by
        simp [machine, step, left, State.perform, List.replicate_succ]
      obtain ⟨t, run, destroyed, same⟩ := ih (s := { s with
        running := false
        cleanup := some (List.replicate n .clear ++ .destroy :: rest) }) rfl
      rw [List.replicate_succ, StepMachine.run_cons _ stepped]
      exact ⟨t, run, destroyed, same⟩

/-- For a thread that can come to use the members, they are never used when they are gone
    exactly when the destructor joins it before it destroys them. -/
theorem safe_iff {loop : ThreadLoop π ω} {destructor : List Cleanup} {outcomes : List ω} {place : π}
    (follows : follow loop outcomes loop.first = some place) (uses : loop.uses place = true) :
    (∀ s, (machine loop destructor).Reachable s → ¬ s.UsesDestroyed loop) ↔
      joinsFirst destructor = true := by
  constructor
  · intro safe
    by_contra late
    rw [Bool.not_eq_true] at late
    obtain ⟨n, rest, rfl⟩ := exists_clears late
    -- The thread is left where it uses the members, and the destructor runs up to their end.
    let busy : State π := ⟨true, .located place, none, false⟩
    have started : (machine loop (List.replicate n .clear ++ .destroy :: rest)).Reachable busy := by
      have first : (machine loop (List.replicate n .clear ++ .destroy :: rest)).step boot .start =
          some ⟨true, .located loop.first, none, false⟩ := rfl
      exact ((StepMachine.Reachable.of_init rfl).step first).run (run_follow follows rfl rfl rfl)
    have begun : (machine loop (List.replicate n .clear ++ .destroy :: rest)).step busy .destruct =
        some { busy with cleanup := some (List.replicate n .clear ++ .destroy :: rest) } := rfl
    obtain ⟨t, run, destroyed, same⟩ := run_clears loop
      (List.replicate n .clear ++ .destroy :: rest) n
      (s := { busy with cleanup := some (List.replicate n .clear ++ .destroy :: rest) }) rfl
    exact safe t ((started.step begun).run run) ⟨destroyed, place, same, uses⟩
  · intro joins s reachable used
    have guarded : Guarded s := by
      refine reachable.invariant Guarded ?_ (fun s action s' => guarded_step joins)
      intro s first
      subst first
      rfl
    obtain ⟨destroyed, place, located, -⟩ := used
    unfold Guarded at guarded
    split at guarded
    · rw [guarded] at destroyed
      cases destroyed
    · rcases guarded with absent | ⟨there, -⟩
      · rw [absent] at located
        cases located
      · rw [there] at destroyed
        cases destroyed

/-! ## A thread that only the flag ends -/

/-- While the flag is set the thread goes on. -/
def Persists (loop : ThreadLoop π ω) : Prop := ∀ outcome place, (loop.next true outcome place).isSome

theorem not_ended {loop : ThreadLoop π ω} {destructor : List Cleanup} (persists : Persists loop)
    {s : State π} (reachable : (machine loop destructor).Reachable s) :
    s.running = true → s.thread ≠ .ended := by
  refine reachable.invariant (fun s => s.running = true → s.thread ≠ .ended) ?_ ?_
  · intro s first _ ended
    subst first
    cases ended
  · intro s action s' alive stepped running ended
    rcases step_cases stepped with ⟨-, -, -, rfl⟩ | ⟨-, -, rfl⟩ |
      ⟨operation, rest, middle, -, -, performed, rfl⟩ | ⟨outcome, place, -, -, -, rfl⟩
    · cases ended
    · exact alive running ended
    · cases operation with
      | clear =>
          cases performed
          cases running
      | join =>
          simp only [State.perform] at performed
          split at performed
          · cases performed
            cases ended
          · cases performed
      | destroy =>
          cases performed
          exact alive running ended
    · have running : s.running = true := running
      simp only [running] at ended
      cases next : loop.next true outcome place with
      | none =>
          have goes_on := persists outcome place
          rw [next] at goes_on
          cases goes_on
      | some place' =>
          rw [next] at ended
          cases ended

/-- What the part of the destructor that has run has done. -/
def Done (destructor : List Cleanup) (s : State π) : Prop :=
  match s.cleanup with
  | none => s.running = true
  | some rest => ∃ done, destructor = done ++ rest ∧ (.clear ∉ done → s.running = true) ∧
      (.destroy ∈ done → s.destroyed = true) ∧ (.join ∈ done → s.thread = .absent)

theorem Done.perform {done : List Cleanup} {s middle : State π} {operation : Cleanup}
    (performed : s.perform operation = some middle) (running : .clear ∉ done → s.running = true)
    (destroyed : .destroy ∈ done → s.destroyed = true) (joined : .join ∈ done → s.thread = .absent) :
    (.clear ∉ done ++ [operation] → middle.running = true) ∧
      (.destroy ∈ done ++ [operation] → middle.destroyed = true) ∧
      (.join ∈ done ++ [operation] → middle.thread = .absent) := by
  cases operation with
  | clear =>
      cases performed
      simpa using ⟨destroyed, joined⟩
  | join =>
      simp only [State.perform] at performed
      split at performed
      · cases performed
        simpa using ⟨running, destroyed⟩
      · cases performed
  | destroy =>
      cases performed
      simpa using ⟨running, joined⟩

theorem done_of_reachable {loop : ThreadLoop π ω} {destructor : List Cleanup} {s : State π}
    (reachable : (machine loop destructor).Reachable s) : Done destructor s := by
  refine reachable.invariant (Done destructor) ?_ ?_
  · intro s first
    subst first
    rfl
  · intro s action s' done stepped
    rcases step_cases stepped with ⟨-, -, before, rfl⟩ | ⟨-, before, rfl⟩ |
      ⟨operation, rest, middle, -, left, performed, rfl⟩ | ⟨outcome, place, -, located, -, rfl⟩
    · unfold Done at done ⊢
      rw [before] at done
      simp only [before]
      exact done
    · unfold Done at done
      rw [before] at done
      exact ⟨[], rfl, fun _ => done, by simp, by simp⟩
    · unfold Done at done
      rw [left] at done
      obtain ⟨done, whole, running, destroyed, joined⟩ := done
      have performed := Done.perform performed running destroyed joined
      refine ⟨done ++ [operation], ?_, performed⟩
      rw [whole, List.append_assoc]
      rfl
    · unfold Done at done ⊢
      cases left : s.cleanup with
      | none =>
          rw [left] at done
          exact done
      | some rest =>
          rw [left] at done
          obtain ⟨done, whole, running, destroyed, joined⟩ := done
          refine ⟨done, whole, running, destroyed, fun member => ?_⟩
          rw [joined member] at located
          cases located

/-! ## The destructor comes to its end -/

/-- The flag is cleared before the first join. -/
def clearsFirst : List Cleanup → Bool
  | [] | .clear :: _ => true
  | .join :: _ => false
  | .destroy :: rest => clearsFirst rest

/-- The thread can leave the members, whatever the flag, and does not come back to them on
    its way to its end once the flag is cleared. -/
structure Leaves (loop : ThreadLoop π ω) (rank : π → Nat) : Prop where
  leaves : ∀ running place, loop.uses place = true →
    ∃ outcome place', loop.next running outcome place = some place' ∧ rank place' < rank place
  ends : ∀ outcome place place', loop.uses place = false →
    loop.next false outcome place = some place' → loop.uses place' = false ∧ rank place' < rank place

def Status.rank (rank : π → Nat) : Status π → Nat
  | .located place => rank place + 1
  | .absent | .ended => 0

/-- The destructor has begun, and the flag is cleared or will be before the next join. -/
def Ending (s : State π) : Prop :=
  ∃ rest, s.cleanup = some rest ∧ (s.running = false ∨ clearsFirst rest = true)

/-- What is left of the destructor and of the way of the thread. -/
def State.left (rank : π → Nat) (s : State π) : Nat :=
  (s.cleanup.getD []).length + s.thread.rank rank

section Progress

variable {loop : ThreadLoop π ω} {destructor : List Cleanup} {rank : π → Nat} {s : State π}
  {rest : List Cleanup} {place : π}

theorem leaves_progress (leaves : Leaves loop rank) (ending : Ending s)
    (located : s.thread = .located place) (uses : loop.uses place = true)
    (there : s.destroyed = false) :
    ∃ action s', (machine loop destructor).step s action = some s' ∧
      (Ending s' ∧ ¬ s'.UsesDestroyed loop) ∧ s'.left rank < s.left rank := by
  obtain ⟨outcome, place', next, nearer⟩ := leaves.leaves s.running place uses
  refine ⟨.thread outcome, { s with thread := .located place' }, ?_, ⟨ending, ?_⟩, ?_⟩
  · simp [machine, step, located, there, next]
  · rintro ⟨gone, -⟩
    rw [there] at gone
    cases gone
  · simpa [State.left, located, Status.rank] using nearer

theorem ends_progress [Inhabited ω] (leaves : Leaves loop rank) (ending : Ending s)
    (located : s.thread = .located place) (unused : loop.uses place = false)
    (cleared : s.running = false) :
    ∃ action s', (machine loop destructor).step s action = some s' ∧
      (Ending s' ∧ ¬ s'.UsesDestroyed loop) ∧ s'.left rank < s.left rank := by
  cases next : loop.next false default place with
  | none =>
      refine ⟨.thread default, { s with thread := .ended }, ?_, ⟨ending, ?_⟩, ?_⟩
      · simp [machine, step, located, unused, cleared, next]
      · rintro ⟨-, place', same, -⟩
        cases same
      · simp [State.left, located, Status.rank]
  | some place' =>
      obtain ⟨unused', nearer⟩ := leaves.ends default place place' unused next
      refine ⟨.thread default, { s with thread := .located place' }, ?_, ⟨ending, ?_⟩, ?_⟩
      · simp [machine, step, located, unused, cleared, next]
      · rintro ⟨-, place'', same, uses⟩
        cases same
        rw [unused'] at uses
        cases uses
      · simpa [State.left, located, Status.rank] using nearer

theorem destroy_progress (left : s.cleanup = some (.destroy :: rest))
    (cleared : s.running = false ∨ clearsFirst rest = true)
    (unused : ∀ place, s.thread = .located place → loop.uses place = false) :
    ∃ action s', (machine loop destructor).step s action = some s' ∧
      (Ending s' ∧ ¬ s'.UsesDestroyed loop) ∧ s'.left rank < s.left rank := by
  refine ⟨.cleanup, { s with destroyed := true, cleanup := some rest }, ?_,
    ⟨⟨rest, rfl, cleared⟩, ?_⟩, ?_⟩
  · simp [machine, step, left, State.perform]
  · rintro ⟨-, place, located, uses⟩
    rw [unused place located] at uses
    cases uses
  · simp [State.left, left]

theorem ending_progress [Inhabited ω] (leaves : Leaves loop rank) (ending : Ending s)
    (unused : ¬ s.UsesDestroyed loop) (unfinished : s.cleanup ≠ some []) :
    ∃ action s', (machine loop destructor).step s action = some s' ∧
      (Ending s' ∧ ¬ s'.UsesDestroyed loop) ∧ s'.left rank < s.left rank := by
  obtain ⟨rest, left, cleared⟩ := ending
  have ending : Ending s := ⟨rest, left, cleared⟩
  have there {place : π} (located : s.thread = .located place) (uses : loop.uses place = true) :
      s.destroyed = false := Bool.eq_false_iff.mpr fun gone => unused ⟨gone, place, located, uses⟩
  cases rest with
  | nil => exact absurd left unfinished
  | cons operation rest =>
      cases operation with
      | clear =>
          refine ⟨.cleanup, { s with running := false, cleanup := some rest }, ?_,
            ⟨⟨rest, rfl, .inl rfl⟩, unused⟩, ?_⟩
          · simp [machine, step, left, State.perform]
          · simp [State.left, left]
      | destroy =>
          cases located : s.thread with
          | located place =>
              cases uses : loop.uses place with
              | true => exact leaves_progress leaves ending located uses (there located uses)
              | false =>
                  apply destroy_progress left cleared
                  intro place' same
                  rw [located] at same
                  cases same
                  exact uses
          | _ =>
              apply destroy_progress left cleared
              intro place' same
              rw [located] at same
              cases same
      | join =>
          have cleared : s.running = false := cleared.resolve_right (by simp [clearsFirst])
          cases located : s.thread with
          | located place =>
              cases uses : loop.uses place with
              | true => exact leaves_progress leaves ending located uses (there located uses)
              | false => exact ends_progress leaves ending located uses cleared
          | _ =>
              refine ⟨.cleanup, { s with thread := .absent, cleanup := some rest }, ?_,
                ⟨⟨rest, rfl, .inl cleared⟩, ?_⟩, ?_⟩
              · simp [machine, step, left, State.perform, located, Status.joinable]
              · rintro ⟨-, place, same, -⟩
                cases same
              · simp [State.left, left, located, Status.rank]

end Progress

theorem ending_step {loop : ThreadLoop π ω} {destructor : List Cleanup} {s s' : State π}
    {action : Action ω} (clears : clearsFirst destructor = true)
    (ending : s.cleanup ≠ none → Ending s) (stepped : step loop destructor s action = some s')
    (begun : s'.cleanup ≠ none) : Ending s' := by
  rcases step_cases stepped with ⟨-, -, before, rfl⟩ | ⟨-, -, rfl⟩ |
    ⟨operation, rest, middle, -, left, performed, rfl⟩ | ⟨outcome, place, -, -, -, rfl⟩
  · exact absurd before begun
  · exact ⟨destructor, rfl, .inr clears⟩
  · obtain ⟨rest', left', cleared⟩ := ending (by rw [left]; simp)
    rw [left] at left'
    cases left'
    refine ⟨rest, rfl, ?_⟩
    cases operation with
    | clear =>
        cases performed
        exact .inl rfl
    | join =>
        simp only [State.perform] at performed
        split at performed
        · cases performed
          exact .inl (cleared.resolve_right (by simp [clearsFirst]))
        · cases performed
    | destroy =>
        cases performed
        exact cleared
  · exact ending begun

/-- A destructor that clears the flag before its first join can come to its end from wherever
    the thread does not use the members that it has destroyed. -/
theorem finishes [Inhabited ω] {loop : ThreadLoop π ω} {destructor : List Cleanup} {rank : π → Nat}
    (leaves : Leaves loop rank) (clears : clearsFirst destructor = true) {s : State π}
    (reachable : (machine loop destructor).Reachable s) (begun : s.cleanup ≠ none)
    (unused : ¬ s.UsesDestroyed loop) :
    ∃ actions t, (machine loop destructor).run s actions = some t ∧ t.cleanup = some [] := by
  have ending : s.cleanup ≠ none → Ending s := by
    refine reachable.invariant (fun s => s.cleanup ≠ none → Ending s) ?_ ?_
    · intro s first begun
      subst first
      exact absurd rfl begun
    · intro s action s' ending stepped begun
      exact ending_step clears ending stepped begun
  have progress : ∀ s : State π, Ending s ∧ ¬ s.UsesDestroyed loop → ¬ s.cleanup = some [] →
      ∃ action s', True ∧ (machine loop destructor).step s action = some s' ∧
        (Ending s' ∧ ¬ s'.UsesDestroyed loop) ∧ s'.left rank < s.left rank := by
    intro s ⟨ending, unused⟩ unfinished
    obtain ⟨action, s', stepped, nearer⟩ := ending_progress leaves ending unused unfinished
    exact ⟨action, s', trivial, stepped, nearer⟩
  obtain ⟨actions, t, run, -, -, finished⟩ := StepMachine.reaches
    (State.left rank) progress s ⟨ending begun, unused⟩
  exact ⟨actions, t, run, finished⟩

/-- A thread that uses members that are gone stays where it is, and a join waits for it. -/
theorem usesDestroyed_step {loop : ThreadLoop π ω} {destructor : List Cleanup} {s s' : State π}
    {action : Action ω} (used : s.UsesDestroyed loop)
    (stepped : step loop destructor s action = some s') : s'.UsesDestroyed loop := by
  obtain ⟨gone, place, located, uses⟩ := used
  rcases step_cases stepped with ⟨-, absent, -, -⟩ | ⟨-, -, rfl⟩ |
    ⟨operation, rest, middle, -, -, performed, rfl⟩ | ⟨outcome, place', -, -, unused, -⟩
  · rw [located] at absent
    cases absent
  · exact ⟨gone, place, located, uses⟩
  · cases operation with
    | join =>
        rw [State.perform, located] at performed
        cases performed
    | _ =>
        cases performed
        exact ⟨by first | exact gone | rfl, place, located, uses⟩
  · exact absurd ⟨gone, place, located, uses⟩ unused

theorem not_destroyed {loop : ThreadLoop π ω} {destructor : List Cleanup} {s : State π}
    (reachable : (machine loop destructor).Reachable s) : s.cleanup = none → s.destroyed = false := by
  refine reachable.invariant (fun s => s.cleanup = none → s.destroyed = false) ?_ ?_
  · intro s first _
    subst first
    rfl
  · intro s action s' there stepped whole
    rcases step_cases stepped with ⟨-, -, before, rfl⟩ | ⟨-, -, rfl⟩ |
      ⟨operation, rest, middle, -, -, -, rfl⟩ | ⟨outcome, place, -, -, -, rfl⟩
    · exact there before
    · cases whole
    · cases whole
    · exact there whole

theorem absent_of_finished {loop : ThreadLoop π ω} {destructor : List Cleanup} {s : State π}
    (joins : .join ∈ destructor) (reachable : (machine loop destructor).Reachable s)
    (finished : s.cleanup = some []) : s.thread = .absent := by
  have done := done_of_reachable reachable
  unfold Done at done
  rw [finished] at done
  obtain ⟨done, whole, -, -, joined⟩ := done
  rw [List.append_nil] at whole
  exact joined (whole ▸ joins)

/-- A destructor that clears the flag before its join can come to its end exactly when the
    thread does not use the members that it has destroyed. -/
theorem finishes_iff [Inhabited ω] {loop : ThreadLoop π ω} {destructor : List Cleanup}
    {rank : π → Nat} (leaves : Leaves loop rank) (clears : clearsFirst destructor = true)
    (joins : .join ∈ destructor) {s : State π} (reachable : (machine loop destructor).Reachable s)
    (begun : s.cleanup ≠ none) :
    (∃ actions t, (machine loop destructor).run s actions = some t ∧ t.cleanup = some []) ↔
      ¬ s.UsesDestroyed loop := by
  constructor
  · rintro ⟨actions, t, run, finished⟩ used
    obtain ⟨-, place, located, -⟩ : t.UsesDestroyed loop :=
      StepMachine.run_invariant (fun s => s.UsesDestroyed loop)
        (fun s action s' => usesDestroyed_step) used run
    rw [absent_of_finished joins (reachable.run run) finished] at located
    cases located
  · exact finishes leaves clears reachable begun

end OwnedThread
