import RpiFanServe.Log.File

/-! # Expiry of the cache

The two decisions of TempsCtrl.cc about the age of the cache, over the machine
integers that the source computes with: the stamp and the life expectancy are
`unsigned long`, the sum of stamp and age is cast to `long`, and the clock is a
count of minutes in `long`.  A clock reading counts ticks, any number of them a
second.
-/

namespace RpiFanServe.Cache

open CString Log

structure DaysDataCache where
  creationEpochMinutes : CULong
  data : Fin 7 → Json

/-- The bound under which every minute count of this layer stays: far above any
    reading of the system clock, and small enough for the sums of the source. -/
def maxMinutes : Nat := 2 ^ 62

/-- `getActiveLogFileCreationTimeMinutes`, from the seconds in the buffer of `statx`.  The
    time point of `system_clock` counts nanoseconds, 64 bits of them, so many seconds wrap;
    `duration_cast` truncates towards zero. -/
def getActiveLogFileCreationTimeMinutes (tvSec : CLong) : CULong :=
  BitVec.ofInt 64 ((tvSec * 1000000000).toInt.tdiv 60000000000)

/-- `isCacheExpired`, once the clock and the birth time of the log are read. -/
def isCacheExpired (creationEpochMinutes mCacheLifeExpectancySeconds : CULong)
    (currentEpoch : CLong) (activeLogFileCreationTime : CULong) : Bool :=
  if creationEpochMinutes < activeLogFileCreationTime then true
  else (creationEpochMinutes + mCacheLifeExpectancySeconds / 60).toInt ≤ currentEpoch.toInt

/-- `cache_update_time_minutes`, the product with 0.95 read as exact. -/
def cacheUpdateTimeMinutes (mCacheLifeExpectancySeconds : CULong) : CULong :=
  BitVec.ofNat 64 ((mCacheLifeExpectancySeconds / 60).toNat * 95 / 100)

/-- `isCacheNeedingUpdate`. -/
def isCacheNeedingUpdate (creationEpochMinutes mCacheLifeExpectancySeconds : CULong)
    (currentEpoch : CLong) (activeLogFileCreationTime : CULong) : Bool :=
  if creationEpochMinutes < activeLogFileCreationTime then true
  else (creationEpochMinutes + cacheUpdateTimeMinutes mCacheLifeExpectancySeconds).toInt ≤
    currentEpoch.toInt

/-- The whole minutes of a clock reading. -/
def minutes (ticksPerSecond clock : Nat) : Nat := clock / (60 * ticksPerSecond)

/-- The count that `duration_cast<minutes>` of `system_clock::now()` holds. -/
def epochMinutes (ticksPerSecond clock : Nat) : CLong := BitVec.ofNat 64 (minutes ticksPerSecond clock)

theorem minutes_mono {ticksPerSecond clock clock' : Nat} (h : clock ≤ clock') :
    minutes ticksPerSecond clock ≤ minutes ticksPerSecond clock' :=
  Nat.div_le_div_right h

theorem epochMinutes_toNat {ticksPerSecond clock : Nat}
    (early : minutes ticksPerSecond clock < maxMinutes) :
    (epochMinutes ticksPerSecond clock).toNat = minutes ticksPerSecond clock := by
  unfold epochMinutes
  rw [BitVec.toNat_ofNat, Nat.mod_eq_of_lt]
  unfold maxMinutes at early
  omega

theorem epochMinutes_toInt_of_lt {ticksPerSecond clock : Nat}
    (fits : minutes ticksPerSecond clock < 2 ^ 63) :
    (epochMinutes ticksPerSecond clock).toInt = minutes ticksPerSecond clock := by
  have toNat : (epochMinutes ticksPerSecond clock).toNat = minutes ticksPerSecond clock := by
    unfold epochMinutes
    rw [BitVec.toNat_ofNat, Nat.mod_eq_of_lt (by omega)]
  rw [BitVec.toInt_eq_toNat_of_lt (by omega), toNat]

theorem epochMinutes_toInt {ticksPerSecond clock : Nat}
    (early : minutes ticksPerSecond clock < maxMinutes) :
    (epochMinutes ticksPerSecond clock).toInt = minutes ticksPerSecond clock :=
  epochMinutes_toInt_of_lt (early.trans (by decide))

theorem getActiveLogFileCreationTimeMinutes_ofNat {seconds : Nat}
    (fits : seconds * 1000000000 < 2 ^ 63) :
    getActiveLogFileCreationTimeMinutes (BitVec.ofNat 64 seconds) = BitVec.ofNat 64 (seconds / 60) := by
  have product : (BitVec.ofNat 64 seconds * 1000000000 : CLong).toNat = seconds * 1000000000 := by
    rw [BitVec.toNat_mul, BitVec.toNat_ofNat, Nat.mod_eq_of_lt (by omega : seconds < 2 ^ 64),
      show (1000000000 : CLong).toNat = 1000000000 from rfl]
    exact Nat.mod_eq_of_lt (by omega)
  have whole : ((seconds * 1000000000 : Nat) : Int).tdiv 60000000000 = (seconds / 60 : Nat) := by
    rw [show (60000000000 : Int) = (60 * 1000000000 : Nat) from rfl, ← Int.ofNat_tdiv,
      Nat.mul_div_mul_right _ _ (by decide)]
  unfold getActiveLogFileCreationTimeMinutes
  rw [BitVec.toInt_eq_toNat_of_lt (by omega), product, whole, BitVec.ofInt_natCast]

/-- The birth of a log is an instant of the clock, and its minute that of the clock as long
    as `system_clock` can hold it. -/
theorem getActiveLogFileCreationTimeMinutes_birth {ticksPerSecond birth : Nat}
    (fits : birth / ticksPerSecond * 1000000000 < 2 ^ 63) :
    getActiveLogFileCreationTimeMinutes (BitVec.ofNat 64 (birth / ticksPerSecond)) =
      epochMinutes ticksPerSecond birth := by
  rw [getActiveLogFileCreationTimeMinutes_ofNat fits, epochMinutes, minutes, Nat.mul_comm,
    ← Nat.div_div_eq_div_mul]

/-! ## The sum of the stamp and an age -/

theorem sixtieth_toNat (life : CULong) :
    (life / 60).toNat = life.toNat / 60 ∧ (life / 60).toNat < 2 ^ 59 := by
  have bound := life.isLt
  rw [BitVec.toNat_udiv, show (60 : CULong).toNat = 60 from rfl]
  omega

theorem stamp_add_exact {stamp age : CULong} (early : stamp.toNat < maxMinutes)
    (short : age.toNat < 2 ^ 59) :
    (stamp + age).toNat = stamp.toNat + age.toNat ∧
      (stamp + age).toInt = (stamp.toNat + age.toNat : Nat) := by
  unfold maxMinutes at early
  have sum : (stamp + age).toNat = stamp.toNat + age.toNat := by
    rw [BitVec.toNat_add, Nat.mod_eq_of_lt (by omega)]
  refine ⟨sum, ?_⟩
  rw [BitVec.toInt_eq_toNat_of_lt (by omega), sum]

theorem isCacheExpired_eq_false {stamp life birth : CULong} {now : CLong}
    (early : stamp.toNat < maxMinutes) :
    isCacheExpired stamp life now birth = false ↔
      birth.toNat ≤ stamp.toNat ∧ now.toInt < (stamp.toNat + life.toNat / 60 : Nat) := by
  have sixtieth := sixtieth_toNat life
  unfold isCacheExpired
  rw [(stamp_add_exact early sixtieth.2).2, sixtieth.1]
  split
  · rename_i rotated
    rw [BitVec.lt_def] at rotated
    simp only [Bool.true_eq_false, false_iff, not_and]
    omega
  · rename_i current
    rw [BitVec.lt_def] at current
    rw [decide_eq_false_iff_not]
    omega

end RpiFanServe.Cache
