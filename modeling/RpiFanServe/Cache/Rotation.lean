import RpiFanServe.Cache.Staleness

/-! # Rotation of the log

The check compares the birth minute of the active log with the stamp by a strict
less-than, and the stamp is taken after the seven files are read.  A rotation is
noticed when its minute lies past the stamp.  It is missed when it falls into the
minute of the stamp, and when it falls between the first look at a file and the
clock reading of the stamp that follows; then only the age of the cache counts.
-/

namespace RpiFanServe.Cache

open StepMachine

/-- The steps after which every rotation shows: the log is rotated only past the
    minute of the stamp, and an update whose reading began before the last rotation
    stamps a minute before it. -/
def Noticeable (setup : Setup) (s : Pool Call Answer Server (Except Fault Unit)) :
    Move Server.Outside → Bool
  | .thread t =>
      match s.threads t with
      | .act (.stamp epoch) _ =>
          !s.shared.history.rotatedInRead ||
            epoch.toNat < minutes setup.ticksPerSecond s.shared.birth
      | _ => true
  | .environment (.rotate _) =>
      s.shared.cache.creationEpochMinutes.toNat < minutes setup.ticksPerSecond s.shared.clock
  | .environment _ => true

/-- A rotation since the data were read left a birth minute past the stamp. -/
structure Shows (setup : Setup) (s : Server) : Prop where
  early : minutes setup.ticksPerSecond s.clock < maxMinutes
  born : s.birth ≤ s.clock
  shows : s.history.rotatedSinceData = true →
    s.cache.creationEpochMinutes.toNat < minutes setup.ticksPerSecond s.birth

/-- The machine that takes only these steps. -/
def noticing (setup : Setup) :
    StepMachine (Pool Call Answer Server (Except Fault Unit)) (Move Server.Outside) :=
  (server setup).restrict fun s move => Noticeable setup s move = true

theorem shows_thread {setup : Setup} {t : Nat} {s s' : Server} {call : Call} {answer : Answer call}
    (shows : Shows setup s) (handled : (handler setup).handle t s call = some (answer, s'))
    (ahead : ∀ epoch, call = .stamp epoch → s.history.rotatedInRead = true →
      epoch.toNat < minutes setup.ticksPerSecond s.birth) :
    Shows setup s' := by
  obtain ⟨clock, -, birth, -⟩ := handle_outside handled
  refine ⟨by rw [clock]; exact shows.early, by rw [birth, clock]; exact shows.born, ?_⟩
  cases call with
  | stamp epoch =>
      obtain ⟨creation, -, same, -⟩ := handle_stamp handled
      intro rotated
      rw [creation, birth]
      exact ahead epoch rfl (same ▸ rotated)
  | _ =>
      obtain ⟨creation, -, same⟩ := handle_stamped handled (by intro epoch same; cases same)
      rw [creation, birth, same]
      exact shows.shows

theorem shows_environment {setup : Setup} {s s' : Server} {action : Server.Outside}
    (shows : Shows setup s) (moved : (handler setup).environment s action = some s')
    (past : ∀ active, action = .rotate active →
      s.cache.creationEpochMinutes.toNat < minutes setup.ticksPerSecond s.clock) :
    Shows setup s' := by
  obtain ⟨later, early, -⟩ := environment_clock moved shows.early
  cases action with
  | rotate active =>
      cases moved
      exact ⟨shows.early, le_refl _, fun _ => past active rfl⟩
  | advance ticks =>
      simp only [handler, Server.outside, Option.map_if, Option.ite_none_right_eq_some] at moved
      obtain ⟨-, moved⟩ := moved
      cases moved
      exact ⟨early, shows.born.trans later, shows.shows⟩
  | write offset _ | deny offset =>
      simp only [handler, Server.outside, Option.map_if, Option.ite_none_right_eq_some] at moved
      obtain ⟨-, moved⟩ := moved
      cases moved
      exact ⟨shows.early, shows.born, shows.shows⟩
  | _ =>
      cases moved
      exact ⟨shows.early, shows.born, shows.shows⟩

theorem shows_of_reachable {setup : Setup} {s : Pool Call Answer Server (Except Fault Unit)}
    (reachable : (noticing setup).Reachable s) : Shows setup s.shared := by
  refine reachable.invariant (fun s => Shows setup s.shared) ?_ ?_
  · intro s started
    refine ⟨started.shared.early, started.shared.born, ?_⟩
    rw [started.shared.history]
    intro rotated
    cases rotated
  · intro s move s' shows step
    obtain ⟨noticeable, step⟩ := restrict_step.mp step
    cases Pool.step_cases step with
    | inl acted =>
        obtain ⟨t, call, next, answer, shared, rfl, located, handled, rfl⟩ := acted
        apply shows_thread shows handled
        intro epoch same rotated
        subst same
        simpa [Noticeable, located, rotated] using noticeable
    | inr moved =>
        obtain ⟨action, shared, rfl, moved, rfl⟩ := moved
        apply shows_environment shows moved
        intro active same
        subst same
        simpa [Noticeable] using noticeable

/-- In the runs that take only noticeable steps, a cache that the check finds
    unexpired holds data whose reading began after the last rotation. -/
theorem unexpired_unrotated {setup : Setup} {s : Pool Call Answer Server (Except Fault Unit)}
    (reachable : (noticing setup).Reachable s) (present : (s.shared.logs 0).isSome)
    (unexpired : s.shared.isCacheExpired setup = false) :
    s.shared.history.rotatedSinceData = false := by
  have shows := shows_of_reachable reachable
  cases rotated : s.shared.history.rotatedSinceData with
  | false => rfl
  | true =>
      have late := shows.shows rotated
      have born : minutes setup.ticksPerSecond s.shared.birth < maxMinutes :=
        (minutes_mono shows.born).trans_lt shows.early
      rw [Server.isCacheExpired_eq_false present (late.trans born) shows.early born] at unexpired
      omega

/-- Any other step leaves a rotation that the birth minute does not show. -/
theorem missed_of_unnoticeable {setup : Setup} {s s' : Pool Call Answer Server (Except Fault Unit)}
    {move : Move Server.Outside} (step : (server setup).step s move = some s')
    (unnoticeable : Noticeable setup s move = false) :
    s'.shared.history.rotatedSinceData = true ∧
      minutes setup.ticksPerSecond s'.shared.birth ≤ s'.shared.cache.creationEpochMinutes.toNat := by
  cases Pool.step_cases step with
  | inl acted =>
      obtain ⟨t, call, next, answer, shared, rfl, located, handled, rfl⟩ := acted
      simp only [Noticeable, located] at unnoticeable
      split at unnoticeable
      · rename_i epoch _ same
        cases same
        obtain ⟨creation, -, rotated, -⟩ := handle_stamp handled
        obtain ⟨-, -, birth, -⟩ := handle_outside handled
        rw [Bool.or_eq_false_iff, Bool.not_eq_false', decide_eq_false_iff_not, not_lt]
          at unnoticeable
        refine ⟨rotated.trans unnoticeable.1, ?_⟩
        rw [birth, creation]
        exact unnoticeable.2
      · cases unnoticeable
  | inr moved =>
      obtain ⟨action, shared, rfl, moved, rfl⟩ := moved
      cases action with
      | rotate active =>
          cases moved
          have late : minutes setup.ticksPerSecond s.shared.clock ≤
              s.shared.cache.creationEpochMinutes.toNat := by
            simpa [Noticeable] using unnoticeable
          exact ⟨rfl, late⟩
      | _ => cases unnoticeable

/-- The condition is exact: after any other step the log is rotated and the check goes
    by the age of the cache alone. -/
theorem unnoticed_by_age {setup : Setup} {s s' : Pool Call Answer Server (Except Fault Unit)}
    {move : Move Server.Outside} (reachable : (server setup).Reachable s)
    (step : (server setup).step s move = some s') (unnoticeable : Noticeable setup s move = false)
    (present : (s'.shared.logs 0).isSome) :
    s'.shared.history.rotatedSinceData = true ∧
      (s'.shared.isCacheExpired setup = false ↔
        minutes setup.ticksPerSecond s'.shared.clock <
          s'.shared.cache.creationEpochMinutes.toNat +
            s'.shared.mCacheLifeExpectancySeconds.toNat / 60) := by
  have timely := timely_of_reachable (reachable.step step)
  have early := timely.stamp_early
  obtain ⟨rotated, behind⟩ := missed_of_unnoticeable step unnoticeable
  have born : minutes setup.ticksPerSecond s'.shared.birth < maxMinutes := behind.trans_lt early
  refine ⟨rotated, ?_⟩
  rw [Server.isCacheExpired_eq_false present early timely.early born]
  exact and_iff_right behind

/-- A rotation a day after the first update, and a request that finds it a minute later. -/
def rotatedAndRead : List (Move Server.Outside) :=
  firstUpdate ++ [.environment (.advance 86400), .environment (.rotate []),
    .environment (.advance 60)] ++ List.replicate 26 (.thread 1)

theorem rotatedAndRead_noticing :
    ((noticing sampleSetup).run sampleBoot rotatedAndRead).isSome := by
  decide

theorem unexpired_unrotated_rotated_and_read :
    (((noticing sampleSetup).run sampleBoot rotatedAndRead).get
        rotatedAndRead_noticing).shared.birth = 1086400 ∧
      (((noticing sampleSetup).run sampleBoot rotatedAndRead).get
        rotatedAndRead_noticing).shared.history.rotatedSinceData = false :=
  ⟨by decide, unexpired_unrotated (.get sampleBoot_started rotatedAndRead_noticing) (by decide)
    (by decide)⟩

/-- The first update, and a rotation in the minute of its stamp. -/
def rotatedAtOnce : List (Move Server.Outside) := firstUpdate ++ [.environment (.rotate [])]

theorem rotatedAtOnce_enabled : ((server sampleSetup).run sampleBoot rotatedAtOnce).isSome := by
  decide

/-- A rotation in the minute of the stamp is missed. -/
theorem rotation_missed :
    ∃ s, (server sampleSetup).Reachable s ∧ (s.shared.logs 0).isSome ∧
      s.shared.isCacheExpired sampleSetup = false ∧ s.shared.history.rotatedSinceData = true :=
  ⟨_, .get sampleBoot_started rotatedAtOnce_enabled, by decide, by decide,
    by decide⟩

end RpiFanServe.Cache
