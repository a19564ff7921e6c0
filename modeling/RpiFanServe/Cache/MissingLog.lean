import RpiFanServe.Cache.Staleness

/-! # The checks without an active log

When the active log is missing, `offset2LogFilePath` returns the empty string and
`statx` fails, but `getActiveLogFileCreationTimeMinutes` reads its buffer all the
same.  What other calls left there then passes for the birth time of the log.
-/

namespace RpiFanServe.Cache

open CString

/-- The minute that the bytes left in the buffer stand for. -/
def Server.leftMinute (s : Server) : Nat :=
  (Cache.getActiveLogFileCreationTimeMinutes s.stxBtime).toNat

/-- The stamp is older than the life expectancy. -/
def Server.Aged (setup : Setup) (s : Server) : Prop :=
  s.cache.creationEpochMinutes.toNat + s.mCacheLifeExpectancySeconds.toNat / 60 ≤
    minutes setup.ticksPerSecond s.clock

/-- The stamp is older than 0.95 of the life expectancy. -/
def Server.Due (setup : Setup) (s : Server) : Prop :=
  s.cache.creationEpochMinutes.toNat + s.mCacheLifeExpectancySeconds.toNat / 60 * 95 / 100 ≤
    minutes setup.ticksPerSecond s.clock

/-- Both checks say what the age says. -/
structure AgeDecides (setup : Setup) (s : Server) : Prop where
  expired : s.isCacheExpired setup = true ↔ s.Aged setup
  needing : s.isCacheNeedingUpdate setup = true ↔ s.Due setup

theorem Server.Aged.due {setup : Setup} {s : Server} (aged : s.Aged setup) : s.Due setup := by
  unfold Server.Aged Server.Due at *
  omega

section Yes

variable {stamp life birth : CULong} {now : CLong} (early : stamp.toNat < maxMinutes)

include early

theorem isCacheExpired_eq_true : isCacheExpired stamp life now birth = true ↔
    stamp.toNat < birth.toNat ∨ (stamp.toNat + life.toNat / 60 : Nat) ≤ now.toInt := by
  rw [← Bool.not_eq_false, isCacheExpired_eq_false early]
  omega

theorem isCacheNeedingUpdate_eq_true : isCacheNeedingUpdate stamp life now birth = true ↔
    stamp.toNat < birth.toNat ∨ (stamp.toNat + life.toNat / 60 * 95 / 100 : Nat) ≤ now.toInt := by
  rw [← Bool.not_eq_false, isCacheNeedingUpdate_eq_false early]
  omega

end Yes

section Missing

variable {setup : Setup} {s : Server} (missing : s.logs 0 = none)
  (stamped : s.cache.creationEpochMinutes.toNat < maxMinutes)
  (early : minutes setup.ticksPerSecond s.clock < maxMinutes)

include missing in
theorem getActiveLogFileCreationTimeMinutes_missing :
    (s.getActiveLogFileCreationTimeMinutes setup).toNat = s.leftMinute := by
  unfold Server.getActiveLogFileCreationTimeMinutes Server.leftMinute
  rw [missing]
  rfl

include missing stamped early

/-- Without the log the first comparison is about the bytes left behind. -/
theorem isCacheExpired_missing : s.isCacheExpired setup = true ↔
    s.cache.creationEpochMinutes.toNat < s.leftMinute ∨ s.Aged setup := by
  unfold Server.isCacheExpired Server.Aged
  rw [isCacheExpired_eq_true stamped, getActiveLogFileCreationTimeMinutes_missing missing,
    epochMinutes_toInt early, Int.ofNat_le]

theorem isCacheNeedingUpdate_missing : s.isCacheNeedingUpdate setup = true ↔
    s.cache.creationEpochMinutes.toNat < s.leftMinute ∨ s.Due setup := by
  unfold Server.isCacheNeedingUpdate Server.Due
  rw [isCacheNeedingUpdate_eq_true stamped, getActiveLogFileCreationTimeMinutes_missing missing,
    epochMinutes_toInt early, Int.ofNat_le]

/-- The age alone decides exactly when the bytes left behind do not stand for a
    minute after the stamp, or the cache is expired by its age anyway. -/
theorem ageDecides_iff : AgeDecides setup s ↔
    s.leftMinute ≤ s.cache.creationEpochMinutes.toNat ∨ s.Aged setup := by
  constructor
  · intro decides
    by_contra both
    push Not at both
    exact both.2 (decides.expired.mp ((isCacheExpired_missing missing stamped early).mpr (.inl both.1)))
  · intro either
    constructor
    · rw [isCacheExpired_missing missing stamped early]
      exact or_iff_right_of_imp fun later => either.resolve_left (Nat.not_le.mpr later)
    · rw [isCacheNeedingUpdate_missing missing stamped early]
      exact or_iff_right_of_imp fun later => (either.resolve_left (Nat.not_le.mpr later)).due

end Missing

/-- In every state of a cache and a clock, those of every run among them, a missing
    log leaves the decision to the age exactly under that condition. -/
theorem missing_log_decides_iff (setup : Setup) :
    (∀ s : Server, s.cache.creationEpochMinutes.toNat < maxMinutes →
      minutes setup.ticksPerSecond s.clock < maxMinutes → s.logs 0 = none →
      (AgeDecides setup s ↔
        s.leftMinute ≤ s.cache.creationEpochMinutes.toNat ∨ s.Aged setup)) ∧
    (∀ p, (server setup).Reachable p →
      p.shared.cache.creationEpochMinutes.toNat < maxMinutes ∧
        minutes setup.ticksPerSecond p.shared.clock < maxMinutes) := by
  constructor
  · intro s stamped early missing
    exact ageDecides_iff missing stamped early
  · intro p reachable
    have timely := timely_of_reachable reachable
    exact ⟨timely.stamp_early, timely.early⟩

/-- The log is moved away after the first update, and a later instant is left in the
    buffer. -/
def movedAway : List (Move Server.Outside) :=
  firstUpdate ++ [.environment (.remove 0), .environment (.scribble 2000000)]

theorem movedAway_enabled : ((server sampleSetup).run sampleBoot movedAway).isSome := by
  decide

def movedAwayServer : Server :=
  (((server sampleSetup).run sampleBoot movedAway).get movedAway_enabled).shared

/-- The cache of this minute is taken for expired. -/
theorem not_ageDecides_movedAway : ¬ AgeDecides sampleSetup movedAwayServer := by
  intro decides
  have expired : movedAwayServer.isCacheExpired sampleSetup = true := by
    decide
  have young : ¬ movedAwayServer.Aged sampleSetup := by
    unfold Server.Aged
    decide
  exact young (decides.expired.mp expired)

end RpiFanServe.Cache
