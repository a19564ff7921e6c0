import RpiFanServe.Cache.Expiry

/-! # The thresholds in numbers

The age from which the cache is expired is a truncated quotient, the age from which it
needs an update is a truncated part of that, and the interval of the timer is a product.
All three grow with the life expectancy as an `unsigned long`.  A negative `int` becomes
one of the largest, which every comparison then takes for a long life.
-/

namespace RpiFanServe.Cache

open CString

/-- `cacheTimerInterval` in milliseconds, the product with 0.005 and 1000 read as exact.
    `none` is the conversion of a product that `unsigned long` cannot hold. -/
def cacheTimerInterval (mCacheLifeExpectancySeconds : CULong) : Option CULong :=
  if mCacheLifeExpectancySeconds.toNat * 5 < 2 ^ 64 then
    let product : CULong := BitVec.ofNat 64 (mCacheLifeExpectancySeconds.toNat * 5)
    some (if product < 10000 then 10000 else product)
  else none

theorem cacheTimerInterval_eq {life : CULong} (fits : life.toNat * 5 < 2 ^ 64) :
    ∃ interval, cacheTimerInterval life = some interval ∧
      interval.toNat = max (life.toNat * 5) 10000 := by
  have exact : (BitVec.ofNat 64 (life.toNat * 5)).toNat = life.toNat * 5 := by
    rw [BitVec.toNat_ofNat, Nat.mod_eq_of_lt fits]
  refine ⟨_, if_pos fits, ?_⟩
  split
  · rename_i small
    rw [BitVec.lt_def, exact] at small
    exact (Nat.max_eq_right small.le).symm
  · rename_i large
    rw [BitVec.lt_def, exact, not_lt] at large
    rw [exact]
    exact (Nat.max_eq_left large).symm

theorem cacheTimerInterval_eq_none {life : CULong} (large : 2 ^ 64 ≤ life.toNat * 5) :
    cacheTimerInterval life = none :=
  if_neg (Nat.not_lt.mpr large)

theorem cacheUpdateTimeMinutes_toNat (life : CULong) :
    (cacheUpdateTimeMinutes life).toNat = life.toNat / 60 * 95 / 100 ∧
      (cacheUpdateTimeMinutes life).toNat < 2 ^ 59 := by
  have sixtieth := sixtieth_toNat life
  unfold cacheUpdateTimeMinutes
  rw [BitVec.toNat_ofNat, sixtieth.1]
  rw [sixtieth.1] at sixtieth
  have small : life.toNat / 60 * 95 / 100 < 2 ^ 59 := by omega
  rw [Nat.mod_eq_of_lt (small.trans (by decide))]
  exact ⟨rfl, small⟩

theorem isCacheNeedingUpdate_eq_false {stamp life birth : CULong} {now : CLong}
    (early : stamp.toNat < maxMinutes) :
    isCacheNeedingUpdate stamp life now birth = false ↔
      birth.toNat ≤ stamp.toNat ∧
        now.toInt < (stamp.toNat + life.toNat / 60 * 95 / 100 : Nat) := by
  have part := cacheUpdateTimeMinutes_toNat life
  unfold isCacheNeedingUpdate
  rw [(stamp_add_exact early part.2).2, part.1]
  split
  · rename_i rotated
    rw [BitVec.lt_def] at rotated
    simp only [Bool.true_eq_false, false_iff, not_and]
    omega
  · rename_i current
    rw [BitVec.lt_def] at current
    rw [decide_eq_false_iff_not]
    omega

/-- A check answers yes wherever another one does, when its no is a no of the other. -/
theorem yes_of_yes {check other : Bool} (no : check = false → other = false) (yes : other = true) :
    check = true := by
  cases check with
  | true => rfl
  | false => exact (no rfl).symm.trans yes

theorem needing_of_expired {stamp life birth : CULong} {now : CLong}
    (early : stamp.toNat < maxMinutes) (expired : isCacheExpired stamp life now birth = true) :
    isCacheNeedingUpdate stamp life now birth = true := by
  refine yes_of_yes ?_ expired
  rw [isCacheNeedingUpdate_eq_false early, isCacheExpired_eq_false early]
  intro spared
  have part : life.toNat / 60 * 95 / 100 ≤ life.toNat / 60 := by omega
  exact ⟨spared.1, by omega⟩

/-! ## Two life expectancies -/

section Mono

variable {stamp birth short long : CULong} {now : CLong} (early : stamp.toNat < maxMinutes)
  (le : short.toNat ≤ long.toNat)

include early le

theorem isCacheExpired_mono (expired : isCacheExpired stamp long now birth = true) :
    isCacheExpired stamp short now birth = true := by
  refine yes_of_yes ?_ expired
  rw [isCacheExpired_eq_false early, isCacheExpired_eq_false early]
  intro kept
  have age : short.toNat / 60 ≤ long.toNat / 60 := Nat.div_le_div_right le
  exact ⟨kept.1, by omega⟩

theorem isCacheNeedingUpdate_mono (needing : isCacheNeedingUpdate stamp long now birth = true) :
    isCacheNeedingUpdate stamp short now birth = true := by
  refine yes_of_yes ?_ needing
  rw [isCacheNeedingUpdate_eq_false early, isCacheNeedingUpdate_eq_false early]
  intro spared
  have age : short.toNat / 60 ≤ long.toNat / 60 := Nat.div_le_div_right le
  exact ⟨spared.1, by omega⟩

end Mono

/-! ## Two values of `int` -/

/-- With `a` in effect for `b` the cache is not kept longer, and needs its update no later. -/
def KeptNoLonger (a b : CInt) : Prop :=
  ∀ (stamp birth : CULong) (now : CLong), stamp.toNat < maxMinutes → 0 ≤ now.toInt →
    now.toInt < maxMinutes →
    (isCacheExpired stamp (CInt.toULong b) now birth = true →
      isCacheExpired stamp (CInt.toULong a) now birth = true) ∧
    (isCacheNeedingUpdate stamp (CInt.toULong b) now birth = true →
      isCacheNeedingUpdate stamp (CInt.toULong a) now birth = true)

/-- Both intervals of the timer are representable and in order. -/
def IntervalsOrdered (a b : CInt) : Prop :=
  ∃ shorter longer, cacheTimerInterval (CInt.toULong a) = some shorter ∧
    cacheTimerInterval (CInt.toULong b) = some longer ∧ shorter ≤ longer

theorem keptNoLonger_of_le {a b : CInt} (le : (CInt.toULong a).toNat ≤ (CInt.toULong b).toNat) :
    KeptNoLonger a b :=
  fun _ _ _ early _ _ => ⟨isCacheExpired_mono early le, isCacheNeedingUpdate_mono early le⟩

/-- A negative value keeps the cache past the age at which a non-negative one expires it. -/
theorem not_keptNoLonger {a b : CInt} (neg : a.toInt < 0) (nonneg : 0 ≤ b.toInt) :
    ¬ KeptNoLonger a b := by
  intro kept
  have short := CInt.toULong_toNat a
  have long := CInt.toULong_toNat b
  rw [if_neg (by omega)] at short
  rw [if_pos nonneg] at long
  have least := BitVec.le_toInt a
  have most : b.toInt < 2 ^ 31 := BitVec.toInt_lt
  -- the clock reads the minute at which the longer life ends, for a stamp of zero
  have now : (BitVec.ofNat 64 ((CInt.toULong b).toNat / 60)).toInt =
      ((CInt.toULong b).toNat / 60 : Nat) := by
    rw [BitVec.toInt_eq_toNat_of_lt] <;> rw [BitVec.toNat_ofNat] <;> omega
  have zero : (0 : CULong).toNat < maxMinutes := by decide
  have expired : isCacheExpired 0 (CInt.toULong b)
      (BitVec.ofNat 64 ((CInt.toULong b).toNat / 60)) 0 = true := by
    rw [← Bool.not_eq_false, isCacheExpired_eq_false zero, now]
    simp
  have kept_long : isCacheExpired 0 (CInt.toULong a)
      (BitVec.ofNat 64 ((CInt.toULong b).toNat / 60)) 0 = false := by
    rw [isCacheExpired_eq_false zero, now]
    refine ⟨le_refl _, ?_⟩
    have origin : (0 : CULong).toNat = 0 := rfl
    omega
  have shorter := (kept 0 0 _ zero (by omega) (by rw [now]; unfold maxMinutes; omega)).1 expired
  rw [kept_long] at shorter
  cases shorter

theorem intervalsOrdered_iff {a b : CInt} (le : a.toInt ≤ b.toInt) :
    IntervalsOrdered a b ↔ 0 ≤ a.toInt := by
  have short := CInt.toULong_toNat a
  have long := CInt.toULong_toNat b
  have least := BitVec.le_toInt a
  have most : b.toInt < 2 ^ 31 := BitVec.toInt_lt
  constructor
  · intro ordered
    obtain ⟨shorter, longer, interval, -⟩ := ordered
    by_contra neg
    rw [if_neg neg] at short
    rw [cacheTimerInterval_eq_none (by omega)] at interval
    cases interval
  · intro nonneg
    rw [if_pos nonneg] at short
    rw [if_pos (nonneg.trans le)] at long
    obtain ⟨shorter, interval, shorter_eq⟩ :=
      cacheTimerInterval_eq (by omega : (CInt.toULong a).toNat * 5 < 2 ^ 64)
    obtain ⟨longer, interval', longer_eq⟩ :=
      cacheTimerInterval_eq (by omega : (CInt.toULong b).toNat * 5 < 2 ^ 64)
    refine ⟨shorter, longer, interval, interval', ?_⟩
    rw [BitVec.le_def, shorter_eq, longer_eq]
    omega

/-- For two values in order, the shorter life keeps the cache no longer and both intervals
    are representable and in order exactly when the smaller value is not negative.  The
    intervals fail for every negative value, the expiry for one that is compared with a
    value that is not negative. -/
theorem shorter_life_iff {a b : CInt} (le : a.toInt ≤ b.toInt) :
    (KeptNoLonger a b ∧ IntervalsOrdered a b ↔ 0 ≤ a.toInt) ∧
      (KeptNoLonger a b ↔ 0 ≤ a.toInt ∨ b.toInt < 0) := by
  have short := CInt.toULong_toNat a
  have long := CInt.toULong_toNat b
  have kept : 0 ≤ a.toInt ∨ b.toInt < 0 → KeptNoLonger a b := by
    intro same_sign
    apply keptNoLonger_of_le
    split at short <;> split at long <;> omega
  constructor
  · rw [intervalsOrdered_iff le]
    exact ⟨And.right, fun nonneg => ⟨kept (.inl nonneg), nonneg⟩⟩
  · refine ⟨?_, kept⟩
    intro no_longer
    by_contra mixed
    rw [not_or, not_le, not_lt] at mixed
    exact not_keptNoLonger mixed.1 mixed.2 no_longer

theorem shorter_life_iff_hour :
    (KeptNoLonger 60 3600 ∧ IntervalsOrdered 60 3600 ↔ 0 ≤ (60 : CInt).toInt) ∧
      (KeptNoLonger 60 3600 ↔ 0 ≤ (60 : CInt).toInt ∨ (3600 : CInt).toInt < 0) :=
  shorter_life_iff (by decide)

/-- With minus one second in effect the cache outlives the minute that expires it with
    sixty, and the interval of the timer is not representable. -/
theorem negative_life_outlives :
    (-1 : CInt).toInt ≤ (60 : CInt).toInt ∧ ¬ KeptNoLonger (-1) 60 ∧ ¬ IntervalsOrdered (-1) 60 := by
  refine ⟨by decide, not_keptNoLonger (by decide) (by decide), ?_⟩
  intro ordered
  exact absurd ((intervalsOrdered_iff (by decide)).mp ordered) (by decide)

end RpiFanServe.Cache
