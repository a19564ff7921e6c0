import RpiFanServe.Cache.Server

/-! # Bounded staleness

A cache that is not expired was stamped less than one life expectancy ago, in
ticks of the clock and not only in minutes.  What an update stamps is the minute
of an instant at which it read the clock, so the view of a thread is that reading.
-/

namespace RpiFanServe.Cache

open Prog

/-- The stamp is no later than the instant of stamping, and the clock is in its
    range. -/
structure Timely (setup : Setup) (s : Server) : Prop where
  stamp : s.cache.creationEpochMinutes.toNat ≤ minutes setup.ticksPerSecond s.history.stampedAt
  past : s.history.stampedAt ≤ s.clock
  early : minutes setup.ticksPerSecond s.clock < maxMinutes

theorem Timely.stamp_early {setup : Setup} {s : Server} (timely : Timely setup s) :
    s.cache.creationEpochMinutes.toNat < maxMinutes :=
  timely.stamp.trans_lt ((minutes_mono timely.past).trans_lt timely.early)

/-- A thread stamps what it read from the clock. -/
def clockProtocol : Protocol Call Answer (Option CLong) where
  allowed reading call := ∀ epoch, call = .stamp epoch → reading = some epoch
  next
    | _, .now, epoch, reading' => reading' = some epoch
    | reading, _, _, reading' => reading' = reading

/-- A reading of the clock is past. -/
def ReadingPast (setup : Setup) (_ : Nat) (reading : Option CLong) (s : Server) : Prop :=
  ∀ epoch, reading = some epoch → epoch.toNat ≤ minutes setup.ticksPerSecond s.clock

theorem clock_obligations (setup : Setup) :
    Pool.Obligations (handler setup) clockProtocol (Timely setup) (ReadingPast setup) where
  own := by
    intro t s reading call answer s' timely past allowed handled
    have clock := (handle_outside handled).1
    cases call with
    | stamp epoch =>
        obtain ⟨creation, stampedAt, -, -⟩ := handle_stamp handled
        refine ⟨⟨?_, ?_, ?_⟩, reading, rfl, ?_⟩
        · rw [creation, stampedAt]
          exact past epoch (allowed epoch rfl)
        · rw [stampedAt, clock]
        · rw [clock]
          exact timely.early
        · intro epoch' same
          rw [clock]
          exact past epoch' same
    | now =>
        cases handled
        refine ⟨⟨timely.stamp, timely.past, timely.early⟩, _, rfl, ?_⟩
        intro epoch same
        cases same
        exact (epochMinutes_toNat timely.early).le
    | _ =>
        obtain ⟨creation, stampedAt, -⟩ := handle_stamped handled (by intro epoch same; cases same)
        refine ⟨⟨?_, ?_, ?_⟩, reading, rfl, ?_⟩
        · rw [creation, stampedAt]
          exact timely.stamp
        · rw [stampedAt, clock]
          exact timely.past
        · rw [clock]
          exact timely.early
        · intro epoch same
          rw [clock]
          exact past epoch same
  others := by
    intro t u s reading reading' call answer s' _ _ _ past _ handled epoch same
    rw [(handle_outside handled).1]
    exact past epoch same
  environment := by
    intro s action s' timely moved
    obtain ⟨later, early, cache, stampedAt⟩ := environment_clock moved timely.early
    refine ⟨⟨?_, ?_, early⟩, ?_⟩
    · rw [cache, stampedAt]
      exact timely.stamp
    · rw [stampedAt]
      exact timely.past.trans later
    · intro t reading past epoch same
      exact (past epoch same).trans (minutes_mono later)

theorem clock_permits : Permits clockProtocol where
  free _ _ _ other epoch same := absurd same (other epoch)
  empty _ _ epoch same := nomatch same
  read _ _ _ _ _ epoch same := nomatch same
  clock _ epoch v' moved epoch' same := by
    cases same
    exact moved

theorem timely_of_reachable {setup : Setup} {s : Pool Call Answer Server (Except Fault Unit)}
    (reachable : (server setup).Reachable s) : Timely setup s.shared := by
  refine (Pool.conforms_invariant (clock_obligations setup) ?_ reachable).1
  intro s started
  refine ⟨⟨?_, ?_, started.shared.early⟩, ?_⟩
  · rw [started.shared.stamp]
    exact Nat.zero_le _
  · rw [started.shared.history]
    exact Nat.zero_le _
  · intro t
    exact ⟨none, by simp [ReadingPast], clock_permits.threads started t none⟩

/-- A count of minutes that has not reached another one plus an age of whole
    sixtieths leaves less than the age, in ticks. -/
theorem ticks_of_minutes {ticksPerSecond now stampedAt life : Nat} (positive : 0 < ticksPerSecond)
    (young : minutes ticksPerSecond now < minutes ticksPerSecond stampedAt + life / 60) :
    now < stampedAt + life * ticksPerSecond := by
  unfold minutes at young
  have minute : 0 < 60 * ticksPerSecond := by omega
  have ahead : now < (now / (60 * ticksPerSecond) + 1) * (60 * ticksPerSecond) := by
    rw [Nat.add_one_mul]
    exact Nat.lt_div_mul_add minute
  have behind : stampedAt / (60 * ticksPerSecond) * (60 * ticksPerSecond) ≤ stampedAt :=
    Nat.div_mul_le_self stampedAt _
  have sixtieths : life / 60 * (60 * ticksPerSecond) ≤ life * ticksPerSecond := by
    rw [← Nat.mul_assoc]
    exact Nat.mul_le_mul_right _ (Nat.div_mul_le_self life 60)
  calc now < (now / (60 * ticksPerSecond) + 1) * (60 * ticksPerSecond) := ahead
    _ ≤ (stampedAt / (60 * ticksPerSecond) + life / 60) * (60 * ticksPerSecond) :=
        Nat.mul_le_mul_right _ young
    _ = stampedAt / (60 * ticksPerSecond) * (60 * ticksPerSecond) +
          life / 60 * (60 * ticksPerSecond) := Nat.add_mul _ _ _
    _ ≤ stampedAt + life * ticksPerSecond := Nat.add_le_add behind sixtieths

/-- In every run, a cache that the check finds unexpired was stamped less than one
    life expectancy ago, and nothing in the comparison wraps. -/
theorem isCacheExpired_bounds_staleness {setup : Setup}
    {s : Pool Call Answer Server (Except Fault Unit)} (reachable : (server setup).Reachable s) :
    (s.shared.isCacheExpired setup = false →
      s.shared.clock < s.shared.history.stampedAt +
        s.shared.mCacheLifeExpectancySeconds.toNat * setup.ticksPerSecond) ∧
    (epochMinutes setup.ticksPerSecond s.shared.clock).toInt =
      minutes setup.ticksPerSecond s.shared.clock ∧
    (s.shared.cache.creationEpochMinutes + s.shared.mCacheLifeExpectancySeconds / 60).toInt =
      s.shared.cache.creationEpochMinutes.toNat + s.shared.mCacheLifeExpectancySeconds.toNat / 60 := by
  have timely := timely_of_reachable reachable
  have early := timely.stamp_early
  have sixtieth := sixtieth_toNat s.shared.mCacheLifeExpectancySeconds
  refine ⟨?_, epochMinutes_toInt timely.early, ?_⟩
  · intro unexpired
    unfold Server.isCacheExpired at unexpired
    have young := ((isCacheExpired_eq_false early).mp unexpired).2
    rw [epochMinutes_toInt timely.early] at young
    apply ticks_of_minutes setup.positive
    have stamp := timely.stamp
    omega
  · rw [(stamp_add_exact early sixtieth.2).2, sixtieth.1]
    rfl

/-- A quarter of an hour passes after the first update. -/
def quarterLater : List (Move Server.Outside) := firstUpdate ++ [.environment (.advance 900)]

theorem quarterLater_enabled : ((server sampleSetup).run sampleBoot quarterLater).isSome := by
  decide

theorem isCacheExpired_bounds_staleness_quarter_later :
    (((server sampleSetup).run sampleBoot quarterLater).get quarterLater_enabled).shared.clock <
      1000000 + 1000 * 1 :=
  (isCacheExpired_bounds_staleness (.get sampleBoot_started quarterLater_enabled)).1 (by decide)

end RpiFanServe.Cache
