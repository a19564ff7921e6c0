import Mathlib.Order.Bounds.Basic
import Mathlib.Tactic.Ring
import RpiFanServe.Cache.Staleness
import RpiFanServe.Cache.Refill

/-! # The background refresh

The timer of `setCacheTimer` asks at every tick whether the cache needs an update.  From
the age at which it does to the age at which it is expired there is always time for a
tick.  From two minutes of life on that age is past the minute of the stamp, so the cache
is left alone in it, and no request finds the cache expired.
-/

namespace RpiFanServe.Cache

open Prog CString

/-! ## The minute of the stamp -/

theorem cacheTimerCallback_spared {setup : Setup} {t : Nat} {s : Server}
    (spared : s.isCacheNeedingUpdate setup = false) :
    cacheTimerCallback.exec ((handler setup).handle t) s = some (.ok (), s.tick) := by
  have checked : (handler setup).handle t s .isCacheNeedingUpdate = some (false, s.tick) := by
    simp only [handler, Server.perform, Option.map_some, spared]
  unfold cacheTimerCallback
  simp only [perform_bind, exec, checked]
  rfl

/-- In every reachable state whose clock is in the minute of the stamp, with the active log
    born no later, a cache with an admitted life expectancy is left alone, by the checks and
    by the timer, exactly when the life is at least two minutes. -/
theorem fresh_cache_left_alone_iff {setup : Setup} {s : Pool Call Answer Server (Except Fault Unit)}
    (reachable : (server setup).Reachable s) (present : (s.shared.logs 0).isSome)
    (born : minutes setup.ticksPerSecond s.shared.birth ≤ s.shared.cache.creationEpochMinutes.toNat)
    (fresh : minutes setup.ticksPerSecond s.shared.clock = s.shared.cache.creationEpochMinutes.toNat)
    (admitted : 60 ≤ s.shared.mCacheLifeExpectancySeconds.toNat ∧
      s.shared.mCacheLifeExpectancySeconds.toNat ≤ 100000) :
    (s.shared.isCacheExpired setup = false ∧ s.shared.isCacheNeedingUpdate setup = false ∧
      ∀ t, cacheTimerCallback.exec ((handler setup).handle t) s.shared =
        some (.ok (), s.shared.tick)) ↔
      120 ≤ s.shared.mCacheLifeExpectancySeconds.toNat := by
  have timely := timely_of_reachable reachable
  have early := timely.stamp_early
  have born_early := born.trans_lt early
  have expired : s.shared.isCacheExpired setup = false := by
    rw [Server.isCacheExpired_eq_false present early timely.early born_early]
    omega
  have needing : s.shared.isCacheNeedingUpdate setup = false ↔
      120 ≤ s.shared.mCacheLifeExpectancySeconds.toNat := by
    rw [Server.isCacheNeedingUpdate_eq_false present early timely.early born_early]
    omega
  constructor
  · intro left_alone
    exact needing.mp left_alone.2.1
  · intro long
    have spared := needing.mpr long
    exact ⟨expired, spared, fun t => cacheTimerCallback_spared spared⟩

theorem fresh_cache_left_alone_iff_first_update :
    ((((server sampleSetup).run sampleBoot firstUpdate).get
        firstUpdate_enabled).shared.isCacheExpired sampleSetup = false ∧
      (((server sampleSetup).run sampleBoot firstUpdate).get
        firstUpdate_enabled).shared.isCacheNeedingUpdate sampleSetup = false ∧
      ∀ t, cacheTimerCallback.exec ((handler sampleSetup).handle t)
          (((server sampleSetup).run sampleBoot firstUpdate).get firstUpdate_enabled).shared =
        some (.ok (), (((server sampleSetup).run sampleBoot firstUpdate).get
          firstUpdate_enabled).shared.tick)) ↔
    120 ≤ (((server sampleSetup).run sampleBoot firstUpdate).get
      firstUpdate_enabled).shared.mCacheLifeExpectancySeconds.toNat :=
  fresh_cache_left_alone_iff (.get sampleBoot_started firstUpdate_enabled) (by decide)
    (by decide) (by decide) (by decide)

/-- A server whose cache is to live for a minute. -/
def minuteBoot : Pool Call Answer Server (Except Fault Unit) :=
  boot 60 1000000 (fun offset => if offset = 0 then some (some (utf8 "# fan\n")) else none)
    fun _ => handleAllTempsRequest

theorem minuteBoot_enabled : ((server sampleSetup).run minuteBoot firstUpdate).isSome := by
  decide

/-- Right after its first update that cache needs the next one. -/
theorem minute_life_never_fresh :
    ∃ s, (server sampleSetup).Reachable s ∧ s.shared.history.completed ≠ [] ∧
      (s.shared.logs 0).isSome ∧
      minutes sampleSetup.ticksPerSecond s.shared.birth ≤ s.shared.cache.creationEpochMinutes.toNat ∧
      minutes sampleSetup.ticksPerSecond s.shared.clock = s.shared.cache.creationEpochMinutes.toNat ∧
      s.shared.mCacheLifeExpectancySeconds = 60 ∧
      s.shared.isCacheNeedingUpdate sampleSetup = true :=
  ⟨_, .get (boot_started (by decide) fun _ => .inl rfl) minuteBoot_enabled, by decide,
    by decide, by decide, by decide, by decide, by decide⟩

/-! ## The window for a tick -/

/-- Ticks that come no further apart than the window is wide do not miss it. -/
theorem tick_in_window {first period start stop : Nat} (positive : 0 < period)
    (wide : start + period ≤ stop) (before : first ≤ start) :
    ∃ k, start ≤ first + k * period ∧ first + k * period < stop := by
  have behind := Nat.div_mul_le_self (start - first + (period - 1)) period
  have ahead : start - first + (period - 1) <
      (start - first + (period - 1)) / period * period + period := Nat.lt_div_mul_add positive
  refine ⟨(start - first + (period - 1)) / period, ?_, ?_⟩ <;> omega

/-- The instants at which a check of the age answers yes, as long as the clock fits. -/
def NeedsAt (ticksPerSecond : Nat) (stamp life birth : CULong) : Set Nat :=
  { clock | minutes ticksPerSecond clock < 2 ^ 63 ∧
      isCacheNeedingUpdate stamp life (epochMinutes ticksPerSecond clock) birth = true }

def ExpiredAt (ticksPerSecond : Nat) (stamp life birth : CULong) : Set Nat :=
  { clock | minutes ticksPerSecond clock < 2 ^ 63 ∧
      isCacheExpired stamp life (epochMinutes ticksPerSecond clock) birth = true }

section Window

variable {ticksPerSecond : Nat} {stamp life birth : CULong} (positive : 0 < ticksPerSecond)
  (early : stamp.toNat < maxMinutes) (current : birth.toNat ≤ stamp.toNat)

include early current

theorem mem_needsAt {clock : Nat} :
    clock ∈ NeedsAt ticksPerSecond stamp life birth ↔
      minutes ticksPerSecond clock < 2 ^ 63 ∧
        stamp.toNat + life.toNat / 60 * 95 / 100 ≤ minutes ticksPerSecond clock := by
  refine and_congr_right fun fits => ?_
  rw [← Bool.not_eq_false, isCacheNeedingUpdate_eq_false early, epochMinutes_toInt_of_lt fits]
  omega

theorem mem_expiredAt {clock : Nat} :
    clock ∈ ExpiredAt ticksPerSecond stamp life birth ↔
      minutes ticksPerSecond clock < 2 ^ 63 ∧
        stamp.toNat + life.toNat / 60 ≤ minutes ticksPerSecond clock := by
  refine and_congr_right fun fits => ?_
  rw [← Bool.not_eq_false, isCacheExpired_eq_false early, epochMinutes_toInt_of_lt fits]
  omega

end Window

/-- The first instant of a minute. -/
def minuteStart (ticksPerSecond minute : Nat) : Nat := minute * (60 * ticksPerSecond)

theorem minutes_minuteStart {ticksPerSecond : Nat} (positive : 0 < ticksPerSecond) (minute : Nat) :
    minutes ticksPerSecond (minuteStart ticksPerSecond minute) = minute :=
  Nat.mul_div_cancel minute (by omega)

theorem isLeast_minuteStart {ticksPerSecond minute : Nat} {S : Set Nat}
    (positive : 0 < ticksPerSecond) (fits : minute < 2 ^ 63)
    (mem : ∀ clock, clock ∈ S ↔
      minutes ticksPerSecond clock < 2 ^ 63 ∧ minute ≤ minutes ticksPerSecond clock) :
    IsLeast S (minuteStart ticksPerSecond minute) := by
  constructor
  · rw [mem, minutes_minuteStart positive]
    exact ⟨fits, le_refl _⟩
  · intro clock member
    exact (Nat.le_div_iff_mul_le (by omega)).mp ((mem clock).mp member).2

/-- For an admitted life, at least one tick falls between the first instant at which the
    cache needs an update by its age and the first at which it is expired by its age. -/
theorem tick_before_expiry {ticksPerMs : Nat} {stamp life birth : CULong} (positive : 0 < ticksPerMs)
    (early : stamp.toNat < maxMinutes) (current : birth.toNat ≤ stamp.toNat)
    (admitted : 60 ≤ life.toNat ∧ life.toNat ≤ 100000) :
    ∃ interval start stop, cacheTimerInterval life = some interval ∧
      IsLeast (NeedsAt (1000 * ticksPerMs) stamp life birth) start ∧
      IsLeast (ExpiredAt (1000 * ticksPerMs) stamp life birth) stop ∧
      ∀ first ≤ start, ∃ k, start ≤ first + k * (interval.toNat * ticksPerMs) ∧
        first + k * (interval.toNat * ticksPerMs) < stop := by
  obtain ⟨interval, computed, milliseconds⟩ :=
    cacheTimerInterval_eq (by omega : life.toNat * 5 < 2 ^ 64)
  have ticks : 0 < 1000 * ticksPerMs := by omega
  unfold maxMinutes at early
  refine ⟨interval, _, _, computed,
    isLeast_minuteStart ticks (by omega) fun _ => mem_needsAt early current,
    isLeast_minuteStart ticks (by omega) fun _ => mem_expiredAt early current, ?_⟩
  intro first before
  apply tick_in_window _ _ before
  · exact Nat.mul_pos (by omega) positive
  · have window : (stamp.toNat + life.toNat / 60 * 95 / 100) * 60000 + interval.toNat ≤
        (stamp.toNat + life.toNat / 60) * 60000 := by omega
    unfold minuteStart
    calc (stamp.toNat + life.toNat / 60 * 95 / 100) * (60 * (1000 * ticksPerMs)) +
          interval.toNat * ticksPerMs
        = ((stamp.toNat + life.toNat / 60 * 95 / 100) * 60000 + interval.toNat) * ticksPerMs := by
          ring
      _ ≤ (stamp.toNat + life.toNat / 60) * 60000 * ticksPerMs := Nat.mul_le_mul_right _ window
      _ = (stamp.toNat + life.toNat / 60) * (60 * (1000 * ticksPerMs)) := by ring

/-! ## Runs with instantaneous callbacks -/

/-- The server between two callbacks, and the instant of the next tick of the timer. -/
structure Timed where
  server : Server
  interval : CULong
  nextTick : Nat

/-- The active log is there, and no day raises. -/
def Reads (setup : Setup) (logs : Nat → Option LogFile) : Prop :=
  (logs 0).isSome ∧ ∀ offset : Fin 7, (dayEntry setup (logs offset)).isOk

instance (setup : Setup) (logs : Nat → Option LogFile) : Decidable (Reads setup logs) :=
  inferInstanceAs (Decidable (_ ∧ _))

theorem Reads.entries {setup : Setup} {logs : Nat → Option LogFile} (reads : Reads setup logs)
    (offset : Fin 7) : ∃ entry, dayEntry setup (logs offset) = .ok entry := by
  have returns := reads.2 offset
  cases read : dayEntry setup (logs offset) with
  | ok entry => exact ⟨entry, rfl⟩
  | error fault =>
      rw [read] at returns
      cases returns

inductive TimedMove where
  | advance (ticks : Nat)
  /-- The log files change; the active one stays the same file. -/
  | write (logs : Nat → Option LogFile)
  | tick (t : Nat)
  | request (t : Nat)

/-- The clock does not pass a tick that is due, the files stay such that no day raises, and a
    tick and a request run to their end. -/
def timedStep (setup : Setup) (ticksPerMs : Nat) (s : Timed) : TimedMove → Option Timed
  | .advance ticks =>
      if s.server.clock + ticks ≤ s.nextTick then
        (s.server.outside setup (.advance ticks)).map fun server => { s with server }
      else none
  | .write logs =>
      if Reads setup logs then some { s with server := { s.server with logs } } else none
  | .tick t =>
      if s.server.clock = s.nextTick then
        (cacheTimerCallback.exec ((handler setup).handle t) s.server).map fun ended =>
          { s with server := ended.2, nextTick := s.nextTick + s.interval.toNat * ticksPerMs }
      else none
  | .request t =>
      (handleAllTempsRequest.exec ((handler setup).handle t) s.server).map fun ended =>
        { s with server := ended.2 }

/-- The cache has just been refreshed, and a tick is due within the interval of the timer. -/
structure Refreshed (setup : Setup) (ticksPerMs : Nat) (s : Timed) : Prop where
  unlocked : s.server.cacheMutex = none
  reads : Reads setup s.server.logs
  born : minutes setup.ticksPerSecond s.server.birth ≤ s.server.cache.creationEpochMinutes.toNat
  stamped : s.server.cache.creationEpochMinutes.toNat = minutes setup.ticksPerSecond s.server.clock
  early : minutes setup.ticksPerSecond s.server.clock < maxMinutes
  computed : cacheTimerInterval s.server.mCacheLifeExpectancySeconds = some s.interval
  armed : s.server.clock ≤ s.nextTick ∧
    s.nextTick ≤ s.server.clock + s.interval.toNat * ticksPerMs

/-- The server on its own: nothing rotates the log or sets the life expectancy. -/
def timed (setup : Setup) (ticksPerMs : Nat) : StepMachine Timed TimedMove where
  init := Refreshed setup ticksPerMs
  step := timedStep setup ticksPerMs

/-- A life that is admitted and lasts two minutes. -/
def Lasting (life : CULong) : Prop := 120 ≤ life.toNat ∧ life.toNat ≤ 100000

/-- The next tick comes before the cache is expired. -/
structure Ahead (setup : Setup) (s : Timed) : Prop where
  unlocked : s.server.cacheMutex = none
  reads : Reads setup s.server.logs
  born : minutes setup.ticksPerSecond s.server.birth ≤ s.server.cache.creationEpochMinutes.toNat
  stamped : s.server.cache.creationEpochMinutes.toNat ≤ minutes setup.ticksPerSecond s.server.clock
  early : minutes setup.ticksPerSecond s.server.clock < maxMinutes
  computed : cacheTimerInterval s.server.mCacheLifeExpectancySeconds = some s.interval
  ahead : s.server.clock ≤ s.nextTick
  due : minutes setup.ticksPerSecond s.nextTick < s.server.cache.creationEpochMinutes.toNat +
    s.server.mCacheLifeExpectancySeconds.toNat / 60

theorem Ahead.unexpired {setup : Setup} {s : Timed} (ahead : Ahead setup s) :
    s.server.isCacheExpired setup = false := by
  have stamped := ahead.stamped.trans_lt ahead.early
  rw [Server.isCacheExpired_eq_false ahead.reads.1 stamped ahead.early (ahead.born.trans_lt stamped)]
  exact ⟨ahead.born, (minutes_mono ahead.ahead).trans_lt ahead.due⟩

/-- One interval later at most its whole minutes and one more have passed. -/
theorem minutes_add_interval {ticksPerMs : Nat} (positive : 0 < ticksPerMs) (clock interval : Nat) :
    minutes (1000 * ticksPerMs) (clock + interval * ticksPerMs) ≤
      minutes (1000 * ticksPerMs) clock + interval / 60000 + 1 := by
  unfold minutes
  have minute : 60 * (1000 * ticksPerMs) = 60000 * ticksPerMs := by ring
  rw [minute, Nat.add_div (by omega), Nat.mul_div_mul_right _ _ positive]
  split <;> omega

/-- For a life of two minutes or more, one interval of the timer is within the time between
    the two ages of the cache. -/
theorem Lasting.minutes_add_interval {setup : Setup} {ticksPerMs : Nat} {life interval : CULong}
    (lasting : Lasting life) (ticks : setup.ticksPerSecond = 1000 * ticksPerMs)
    (computed : cacheTimerInterval life = some interval) (clock : Nat) :
    minutes setup.ticksPerSecond (clock + interval.toNat * ticksPerMs) + life.toNat / 60 * 95 / 100 ≤
      minutes setup.ticksPerSecond clock + life.toNat / 60 := by
  obtain ⟨least, most⟩ := lasting
  have positive : 0 < ticksPerMs := by
    have := setup.positive
    omega
  obtain ⟨interval', computed', milliseconds⟩ :=
    cacheTimerInterval_eq (by omega : life.toNat * 5 < 2 ^ 64)
  rw [computed] at computed'
  cases computed'
  have next := Cache.minutes_add_interval positive clock interval.toNat
  rw [← ticks] at next
  omega

theorem Lasting.threshold_pos {life : CULong} (lasting : Lasting life) :
    0 < life.toNat / 60 * 95 / 100 := by
  have least := lasting.1
  omega

theorem cacheTimerCallback_needed {setup : Setup} {t : Nat} {s : Server}
    (needed : s.isCacheNeedingUpdate setup = true) (unlocked : s.cacheMutex = none) :
    ∃ history, cacheTimerCallback.exec ((handler setup).handle t) s =
      some ((refresh setup s).1,
        { s with cache := (refresh setup s).2, cacheMutex := none, history }) := by
  have checked : (handler setup).handle t s .isCacheNeedingUpdate = some (true, s.tick) := by
    simp only [handler, Server.perform, Option.map_some, needed]
  unfold cacheTimerCallback
  simp only [perform_bind, exec, checked]
  exact updateCache_exec setup t (unlocked : s.tick.cacheMutex = none)

theorem answerAllTemps_exec {setup : Setup} {t : Nat} {s s' : Server} {outcome : Except Fault Unit}
    (unlocked : s.cacheMutex = none)
    (ran : answerAllTemps.exec ((handler setup).handle t) s = some (outcome, s')) :
    ∃ history, s' = { s with cacheMutex := none, history } := by
  unfold answerAllTemps at ran
  simp only [perform_bind, exec, handle_lock setup t unlocked] at ran
  cases ran
  exact ⟨_, rfl⟩

theorem handleAllTempsRequest_unexpired {setup : Setup} {t : Nat} {s s' : Server}
    {outcome : Except Fault Unit} (unexpired : s.isCacheExpired setup = false)
    (unlocked : s.cacheMutex = none)
    (ran : handleAllTempsRequest.exec ((handler setup).handle t) s = some (outcome, s')) :
    ∃ history, s' = { s with cacheMutex := none, history } := by
  unfold handleAllTempsRequest at ran
  by_cases up : s.constructed = true
  · have received : ∃ history, (handler setup).handle t s .receive =
        some ((), { s with history }) := by
      simp only [handler, Server.perform, up, if_true, Option.map_some]
      exact ⟨_, rfl⟩
    obtain ⟨history, received⟩ := received
    have checked : ∃ history', (handler setup).handle t { s with history } .isCacheExpired =
        some (false, { s with history := history' }) := by
      have same : Server.isCacheExpired setup { s with history } = false := unexpired
      simp only [handler, Server.perform, same, Option.map_some]
      exact ⟨_, rfl⟩
    obtain ⟨history', checked⟩ := checked
    simp only [perform_bind, exec, received, checked, Bool.false_eq_true, if_false] at ran
    obtain ⟨history'', rfl⟩ := answerAllTemps_exec (by exact unlocked) ran
    exact ⟨history'', rfl⟩
  · have refused : (handler setup).handle t s .receive = none := by
      simp only [handler, Server.perform, up, if_false, Option.map_none, Bool.false_eq_true]
    simp only [perform_bind, exec, refused] at ran
    cases ran

theorem exec_life {setup : Setup} {t : Nat} {thread : Thread} {s s' : Server}
    {outcome : Except Fault Unit}
    (ran : thread.exec ((handler setup).handle t) s = some (outcome, s')) :
    s'.mCacheLifeExpectancySeconds = s.mCacheLifeExpectancySeconds := by
  refine exec_invariant
    (fun s' => s'.mCacheLifeExpectancySeconds = s.mCacheLifeExpectancySeconds) ?_ rfl ran
  intro _ _ _ _ same handled
  exact (handle_outside handled).2.2.2.trans same

section Steps

variable {setup : Setup} {ticksPerMs : Nat} {s s' : Timed}

theorem timedStep_life {move : TimedMove} (step : timedStep setup ticksPerMs s move = some s') :
    s'.server.mCacheLifeExpectancySeconds = s.server.mCacheLifeExpectancySeconds := by
  cases move with
  | advance ticks =>
      simp only [timedStep, Server.outside, Option.map_if, Option.ite_none_right_eq_some] at step
      obtain ⟨-, -, moved⟩ := step
      cases moved
      rfl
  | write logs =>
      simp only [timedStep, Option.ite_none_right_eq_some] at step
      obtain ⟨-, same⟩ := step
      cases same
      rfl
  | tick t =>
      simp only [timedStep, Option.ite_none_right_eq_some, Option.map_eq_some_iff] at step
      obtain ⟨-, ⟨outcome, server⟩, ran, same⟩ := step
      cases same
      exact exec_life ran
  | request t =>
      simp only [timedStep, Option.map_eq_some_iff] at step
      obtain ⟨⟨outcome, server⟩, ran, same⟩ := step
      cases same
      exact exec_life ran

theorem advance_ahead {ticks : Nat} (ahead : Ahead setup s)
    (step : timedStep setup ticksPerMs s (.advance ticks) = some s') :
    Ahead setup s' := by
  simp only [timedStep, Server.outside, Option.map_if, Option.ite_none_right_eq_some] at step
  obtain ⟨before, early, moved⟩ := step
  cases moved
  have later := ahead.stamped.trans (minutes_mono (Nat.le_add_right s.server.clock ticks))
  exact ⟨ahead.unlocked, ahead.reads, ahead.born, later, early, ahead.computed, before,
    ahead.due⟩

theorem write_ahead {logs : Nat → Option LogFile} (ahead : Ahead setup s)
    (step : timedStep setup ticksPerMs s (.write logs) = some s') : Ahead setup s' := by
  simp only [timedStep, Option.ite_none_right_eq_some] at step
  obtain ⟨reads, same⟩ := step
  cases same
  exact ⟨ahead.unlocked, reads, ahead.born, ahead.stamped, ahead.early, ahead.computed, ahead.ahead,
    ahead.due⟩

theorem request_ahead {t : Nat} (ahead : Ahead setup s)
    (step : timedStep setup ticksPerMs s (.request t) = some s') :
    Ahead setup s' := by
  simp only [timedStep, Option.map_eq_some_iff] at step
  obtain ⟨⟨outcome, server⟩, ran, same⟩ := step
  obtain ⟨history, rfl⟩ := handleAllTempsRequest_unexpired ahead.unexpired ahead.unlocked ran
  cases same
  exact ⟨rfl, ahead.reads, ahead.born, ahead.stamped, ahead.early, ahead.computed,
    ahead.ahead, ahead.due⟩

theorem tick_ahead {t : Nat} (ticks : setup.ticksPerSecond = 1000 * ticksPerMs)
    (lasting : Lasting s.server.mCacheLifeExpectancySeconds) (ahead : Ahead setup s)
    (step : timedStep setup ticksPerMs s (.tick t) = some s') :
    Ahead setup s' := by
  simp only [timedStep, Option.ite_none_right_eq_some, Option.map_eq_some_iff] at step
  obtain ⟨now, ⟨outcome, server⟩, ran, same⟩ := step
  have stamped := ahead.stamped.trans_lt ahead.early
  have next := lasting.minutes_add_interval ticks ahead.computed s.nextTick
  cases needing : s.server.isCacheNeedingUpdate setup with
  | false =>
      rw [cacheTimerCallback_spared needing] at ran
      cases ran
      cases same
      rw [Server.isCacheNeedingUpdate_eq_false ahead.reads.1 stamped ahead.early
        (ahead.born.trans_lt stamped), now] at needing
      refine ⟨ahead.unlocked, ahead.reads, ahead.born, ahead.stamped, ahead.early,
        ahead.computed, ?_, ?_⟩
      · exact ahead.ahead.trans (Nat.le_add_right _ _)
      · simp only [Server.tick]
        omega
  | true =>
      obtain ⟨history, updated⟩ := cacheTimerCallback_needed needing ahead.unlocked
      choose entry reads using ahead.reads.entries
      rw [updated, refresh_ok reads] at ran
      cases ran
      cases same
      have stamp := epochMinutes_toNat ahead.early
      refine ⟨rfl, ahead.reads, ?_, stamp.le, ahead.early, ahead.computed, ?_, ?_⟩
      · exact ahead.born.trans (ahead.stamped.trans stamp.ge)
      · exact ahead.ahead.trans (Nat.le_add_right _ _)
      · have past := lasting.threshold_pos
        simp only [stamp]
        rw [now]
        omega

end Steps

theorem refreshed_ahead {setup : Setup} {ticksPerMs : Nat} {s : Timed}
    (ticks : setup.ticksPerSecond = 1000 * ticksPerMs)
    (lasting : Lasting s.server.mCacheLifeExpectancySeconds)
    (refreshed : Refreshed setup ticksPerMs s) : Ahead setup s := by
  have next := lasting.minutes_add_interval ticks refreshed.computed s.server.clock
  have past := lasting.threshold_pos
  have armed : minutes setup.ticksPerSecond s.nextTick ≤ minutes setup.ticksPerSecond
      (s.server.clock + s.interval.toNat * ticksPerMs) := minutes_mono refreshed.armed.2
  have stamped := refreshed.stamped
  exact ⟨refreshed.unlocked, refreshed.reads, refreshed.born, stamped.le,
    refreshed.early, refreshed.computed, refreshed.armed.1, by omega⟩

theorem unexpired_of_reachable {setup : Setup} {ticksPerMs : Nat} {s : Timed}
    (ticks : setup.ticksPerSecond = 1000 * ticksPerMs)
    (reachable : (timed setup ticksPerMs).Reachable s)
    (lasting : Lasting s.server.mCacheLifeExpectancySeconds) :
    s.server.isCacheExpired setup = false := by
  have ahead := reachable.invariant
    (fun s => Lasting s.server.mCacheLifeExpectancySeconds → Ahead setup s) ?_ ?_
  · exact (ahead lasting).unexpired
  · intro s refreshed lasting
    exact refreshed_ahead ticks lasting refreshed
  · intro s move s' ahead step lasting
    have step : timedStep setup ticksPerMs s move = some s' := step
    rw [timedStep_life step] at lasting
    cases move with
    | advance ticks => exact advance_ahead (ahead lasting) step
    | write logs => exact write_ahead (ahead lasting) step
    | tick t => exact tick_ahead ticks lasting (ahead lasting) step
    | request t => exact request_ahead (ahead lasting) step

/-- An expired cache needs an update, whatever the stamp, the life, the clock and the birth of
    the log.  For an admitted life a tick falls between the two ages.  In every run in which
    nothing rotates the log and a tick takes no time, a cache that is to live two minutes or
    more is never found expired. -/
theorem refresh_before_expiry :
    (∀ (stamp life birth : CULong) (now : CLong), stamp.toNat < maxMinutes → 0 ≤ now.toInt →
      now.toInt < maxMinutes → isCacheExpired stamp life now birth = true →
      isCacheNeedingUpdate stamp life now birth = true) ∧
    (∀ (ticksPerMs : Nat) (stamp life birth : CULong), 0 < ticksPerMs → stamp.toNat < maxMinutes →
      birth.toNat ≤ stamp.toNat → 60 ≤ life.toNat ∧ life.toNat ≤ 100000 →
      ∃ interval start stop, cacheTimerInterval life = some interval ∧
        IsLeast (NeedsAt (1000 * ticksPerMs) stamp life birth) start ∧
        IsLeast (ExpiredAt (1000 * ticksPerMs) stamp life birth) stop ∧
        ∀ first ≤ start, ∃ k, start ≤ first + k * (interval.toNat * ticksPerMs) ∧
          first + k * (interval.toNat * ticksPerMs) < stop) ∧
    ∀ (setup : Setup) (ticksPerMs : Nat) (s : Timed),
      setup.ticksPerSecond = 1000 * ticksPerMs → (timed setup ticksPerMs).Reachable s →
      120 ≤ s.server.mCacheLifeExpectancySeconds.toNat →
      s.server.mCacheLifeExpectancySeconds.toNat ≤ 100000 →
      s.server.isCacheExpired setup = false := by
  refine ⟨?_, ?_, ?_⟩
  · intro stamp life birth now early _ _ expired
    exact needing_of_expired early expired
  · intro ticksPerMs stamp life birth positive early current admitted
    exact tick_before_expiry positive early current admitted
  · intro setup ticksPerMs s ticks reachable least most
    exact unexpired_of_reachable ticks reachable ⟨least, most⟩

/-- A server that counts milliseconds. -/
def millisecondSetup : Setup := ⟨1000, by decide, 1⟩

/-- A cache that is to live for so long, refreshed eleven seconds before the minute ends. -/
def refreshedAt (life : CULong) : Timed where
  server := {
    cache := ⟨1, fun _ => .array []⟩
    mCacheLifeExpectancySeconds := life
    cacheMutex := none
    constructed := true
    clock := 109000
    logs := fun offset => if offset = 0 then some (some (utf8 "# fan\n")) else none
    birth := 0
    stxBtime := 0
    history := .start }
  interval := 10000
  nextTick := 119000

theorem refreshedAt_refreshed {life : CULong} (computed : cacheTimerInterval life = some 10000) :
    Refreshed millisecondSetup 1 (refreshedAt life) where
  unlocked := rfl
  reads := by
    simp only [refreshedAt]
    decide
  born := by
    simp only [refreshedAt]
    decide
  stamped := by
    simp only [refreshedAt]
    decide
  early := by
    simp only [refreshedAt]
    decide
  computed := computed
  armed := by
    simp only [refreshedAt]
    decide

/-- Three ticks, the second of which refreshes the cache, and a request in between. -/
def nextMinute : List TimedMove :=
  [.advance 10000, .tick 1, .advance 10000, .tick 1, .advance 3000, .request 2, .advance 7000, .tick 1]

theorem nextMinute_enabled :
    ((timed millisecondSetup 1).run (refreshedAt 120) nextMinute).isSome := by
  decide

theorem refresh_before_expiry_two_minutes :
    ∃ s, (timed millisecondSetup 1).run (refreshedAt 120) nextMinute = some s ∧
      s.server.cache.creationEpochMinutes = 2 ∧ s.server.isCacheExpired millisecondSetup = false :=
  ⟨_, (Option.some_get nextMinute_enabled).symm, by decide,
    refresh_before_expiry.2.2 millisecondSetup 1 _ rfl
      (.get (refreshedAt_refreshed (by decide)) nextMinute_enabled) (by decide) (by decide)⟩

/-- The tick in the minute of the stamp, and the five seconds of the next minute. -/
def minuteEnds : List TimedMove := [.advance 10000, .tick 1, .advance 6000]

theorem minuteEnds_enabled : ((timed millisecondSetup 1).run (refreshedAt 60) minuteEnds).isSome := by
  decide

/-- A request in the next seconds finds the cache expired and has to refresh it. -/
theorem minute_life_found_expired :
    ∃ s, (timed millisecondSetup 1).Reachable s ∧
      60 ≤ s.server.mCacheLifeExpectancySeconds.toNat ∧
      s.server.mCacheLifeExpectancySeconds.toNat ≤ 100000 ∧
      s.server.isCacheExpired millisecondSetup = true :=
  ⟨_, .get (refreshedAt_refreshed (by decide)) minuteEnds_enabled, by decide, by decide,
    by decide⟩

end RpiFanServe.Cache
