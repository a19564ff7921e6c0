import RpiFanServe.Config.Permanent
import RpiFanServe.Foundation.StepMachine

/-! # The delay of saves

`setCacheLifeExpectancy`, `saveCurrentConfig` and `setSaveConfigTimer` of TempsCtrl.cc
as atomic steps over a clock in milliseconds.  A change is saved at once when the last
save is five seconds old, and by a timer otherwise.  What the timer does to a timer
that is already pending is not part of the program, so both readings are kept.
-/

namespace RpiFanServe.Config

open CString PermanentConfig StepMachine

def MAX_DELAY_BETWEEN_SAVES_MS : Nat := 5000

/-- What arming the timer does to a pending one. -/
inductive Rearm where
  | replaces
  | accumulates
  deriving DecidableEq

/-- How long after a change a save is due: the timeout of a timer is at least a second, and
    arming it again puts a pending save off. -/
def Rearm.longest : Rearm → Nat
  | .replaces => MAX_DELAY_BETWEEN_SAVES_MS + 999
  | .accumulates => MAX_DELAY_BETWEEN_SAVES_MS

structure Change where
  seconds : CInt
  time : Nat

/-- `timers` are the deadlines of pending callbacks; `disk` is the value in the file.
    `saves` records when the file was written and `changes` the values set, both the last
    one first. -/
structure Saver where
  now : Nat
  lastConfigSave : Nat
  mCacheLifeExpectancySeconds : CULong
  mConfig : PermConfig
  disk : PermConfig
  timers : List Nat
  saves : List Nat
  changes : List Change

namespace Saver

/-- `lastConfigSave = now` and a `save_config` that succeeds. -/
def saveConfig (s : Saver) : Saver :=
  { s with lastConfigSave := s.now, disk := s.mConfig, saves := s.now :: s.saves }

/-- `setSaveConfigTimer` -/
def setSaveConfigTimer (rearm : Rearm) (s : Saver) (ms : Nat) : Saver :=
  let timeout := max ms 1000
  match rearm with
  | .replaces => { s with timers := [s.now + timeout] }
  | .accumulates => { s with timers := s.timers ++ [s.now + timeout] }

def saveCurrentConfig (rearm : Rearm) (s : Saver) (checkDelay : Bool) : Saver :=
  let durationMs := s.now - s.lastConfigSave
  if checkDelay then
    if durationMs < MAX_DELAY_BETWEEN_SAVES_MS then
      s.setSaveConfigTimer rearm (MAX_DELAY_BETWEEN_SAVES_MS - durationMs)
    else s.saveConfig
  else s.saveConfig

/-- The two assignments of `setCacheLifeExpectancy`. -/
def assign (s : Saver) (seconds : CInt) : Saver :=
  let mCacheLifeExpectancySeconds := CInt.toULong seconds
  { s with
    mCacheLifeExpectancySeconds
    mConfig := ⟨CULong.toCInt mCacheLifeExpectancySeconds⟩
    changes := ⟨seconds, s.now⟩ :: s.changes }

def setCacheLifeExpectancy (rearm : Rearm) (s : Saver) (seconds : CInt) : Saver :=
  (s.assign seconds).saveCurrentConfig rearm true

inductive Action where
  | set (seconds : CInt)
  /-- The callback of the timer whose deadline stands at this place. -/
  | fire (i : Nat)
  /-- Time passes, but not past a deadline. -/
  | advance (ms : Nat)

def step (rearm : Rearm) (s : Saver) : Action → Option Saver
  | .set seconds => some (s.setCacheLifeExpectancy rearm seconds)
  | .fire i =>
      if s.timers[i]? = some s.now then
        some (({ s with timers := s.timers.eraseIdx i } : Saver).saveCurrentConfig rearm false)
      else none
  | .advance ms =>
      if ∀ deadline ∈ s.timers, s.now + ms ≤ deadline then some { s with now := s.now + ms } else none

/-- The configuration is on disk and no timer is pending. -/
structure Started (s : Saver) : Prop where
  saved : s.disk = s.mConfig
  quiet : s.timers = []
  constructed : s.lastConfigSave ≤ s.now
  unchanged : s.changes = []

def machine (rearm : Rearm) : StepMachine Saver Action where
  init := Started
  step := step rearm

/-- The value on disk is current, or a pending timer will make it so in time. -/
def InTime (s : Saver) : Prop :=
  s.disk = s.mConfig ∨
    ∃ last ∈ s.changes.head?, ∃ deadline ∈ s.timers, deadline ≤ last.time + MAX_DELAY_BETWEEN_SAVES_MS

/-- The value of the change at this place, or of one that came after it, is on disk. -/
def Stored (s : Saver) (i : Nat) : Prop := ∃ change ∈ s.changes.take (i + 1), s.disk = ⟨change.seconds⟩

instance (s : Saver) (i : Nat) : Decidable (s.Stored i) := inferInstanceAs (Decidable (∃ _ ∈ _, _))

/-- A timer is due soon enough after a change at this time. -/
def Due (rearm : Rearm) (s : Saver) (time : Nat) : Prop :=
  ∃ deadline ∈ s.timers, deadline ≤ time + rearm.longest

/-- The changes since the last save, and those before it. -/
structure Split (rearm : Rearm) (s : Saver) (unsaved saved : List Change) : Prop where
  changes : s.changes = unsaved ++ saved
  stored : ∀ change ∈ saved.head?, s.disk = ⟨change.seconds⟩
  since : ∀ change ∈ unsaved, s.lastConfigSave ≤ change.time
  due : ∀ change ∈ unsaved, s.Due rearm change.time

structure Invariant (rearm : Rearm) (s : Saver) : Prop where
  inTime : s.InTime
  /-- No deadline has been missed. -/
  pending : ∀ deadline ∈ s.timers, s.now ≤ deadline
  /-- The configuration holds the last value set. -/
  last : ∀ change ∈ s.changes.head?, s.mConfig = ⟨change.seconds⟩
  past : s.lastConfigSave ≤ s.now
  split : ∃ unsaved saved, s.Split rearm unsaved saved

theorem setSaveConfigTimer_eq (rearm : Rearm) (s : Saver) (ms : Nat) :
    ∃ timers, s.setSaveConfigTimer rearm ms = { s with timers } ∧ s.now + max ms 1000 ∈ timers ∧
      (∀ deadline ∈ timers, deadline ∈ s.timers ∨ deadline = s.now + max ms 1000) ∧
      (rearm = .accumulates → s.timers ⊆ timers) := by
  cases rearm with
  | replaces =>
      refine ⟨_, rfl, List.mem_singleton_self _, ?_, nofun⟩
      intro deadline member
      exact .inr (List.mem_singleton.mp member)
  | accumulates =>
      refine ⟨_, rfl, List.mem_append_right _ (List.mem_singleton_self _), ?_, ?_⟩
      · intro deadline member
        cases List.mem_append.mp member with
        | inl before => exact .inl before
        | inr new => exact .inr (List.mem_singleton.mp new)
      · intro _
        exact List.subset_append_left _ _

theorem invariant_save {rearm : Rearm} {s : Saver} (pending : ∀ deadline ∈ s.timers, s.now ≤ deadline)
    (last : ∀ change ∈ s.changes.head?, s.mConfig = ⟨change.seconds⟩) :
    s.saveConfig.Invariant rearm where
  inTime := .inl rfl
  pending := pending
  last := last
  past := Nat.le_refl _
  split := ⟨[], s.changes, rfl, last, by simp, by simp⟩

/-- The deadline of a timer that is armed less than five seconds after the last save serves
    every change since then: it is five seconds after that save, or within the sixth. -/
theorem due_armed {rearm : Rearm} {s : Saver} {timers : List Nat} {time : Nat}
    (early : s.now - s.lastConfigSave < MAX_DELAY_BETWEEN_SAVES_MS) (since : s.lastConfigSave ≤ time)
    (armed : s.now + max (MAX_DELAY_BETWEEN_SAVES_MS - (s.now - s.lastConfigSave)) 1000 ∈ timers)
    (before : time = s.now ∨ s.Due rearm time) (kept : rearm = .accumulates → s.timers ⊆ timers) :
    ({ s with timers } : Saver).Due rearm time := by
  cases rearm with
  | replaces =>
      refine ⟨_, armed, ?_⟩
      show _ ≤ time + (MAX_DELAY_BETWEEN_SAVES_MS + 999)
      unfold MAX_DELAY_BETWEEN_SAVES_MS at *
      omega
  | accumulates =>
      rcases before with rfl | ⟨deadline, member, soon⟩
      · refine ⟨_, armed, ?_⟩
        show _ ≤ s.now + MAX_DELAY_BETWEEN_SAVES_MS
        unfold MAX_DELAY_BETWEEN_SAVES_MS
        omega
      · exact ⟨deadline, kept rfl member, soon⟩

theorem invariant_set {rearm : Rearm} {s : Saver} (inv : s.Invariant rearm) (seconds : CInt) :
    (s.setCacheLifeExpectancy rearm seconds).Invariant rearm := by
  have last : ∀ change ∈ (s.assign seconds).changes.head?,
      (s.assign seconds).mConfig = ⟨change.seconds⟩ := by
    intro change head
    cases head
    show PermConfig.mk (CULong.toCInt (CInt.toULong seconds)) = ⟨seconds⟩
    rw [CInt.toULong_toCInt]
  unfold setCacheLifeExpectancy saveCurrentConfig
  rw [if_pos rfl]
  split
  · rename_i early
    obtain ⟨timers, same, armed, only, kept⟩ := setSaveConfigTimer_eq rearm (s.assign seconds)
      (MAX_DELAY_BETWEEN_SAVES_MS - ((s.assign seconds).now - (s.assign seconds).lastConfigSave))
    obtain ⟨unsaved, saved, split⟩ := inv.split
    rw [same]
    refine ⟨.inr ⟨_, rfl, _, armed, ?_⟩, ?_, last, inv.past, ?_⟩
    · -- The change is made now, and the timeout is at most the delay.
      show s.now + _ ≤ s.now + _
      unfold MAX_DELAY_BETWEEN_SAVES_MS
      omega
    · intro deadline member
      cases only deadline member with
      | inl before => exact inv.pending deadline before
      | inr new =>
          show s.now ≤ deadline
          rw [new]
          exact Nat.le_add_right _ _
    · refine ⟨⟨seconds, s.now⟩ :: unsaved, saved, ?_, split.stored, ?_, ?_⟩
      · exact congrArg (List.cons _) split.changes
      · rw [List.forall_mem_cons]
        exact ⟨inv.past, split.since⟩
      · rw [List.forall_mem_cons]
        refine ⟨due_armed early inv.past armed (.inl rfl) kept, ?_⟩
        intro change member
        exact due_armed early (split.since change member) armed (.inr (split.due change member)) kept
  · exact invariant_save inv.pending last

theorem invariant_step {rearm : Rearm} {s s' : Saver} {action : Action} (inv : s.Invariant rearm)
    (stepped : step rearm s action = some s') : s'.Invariant rearm := by
  cases action with
  | set seconds =>
      cases stepped
      exact invariant_set inv seconds
  | fire i =>
      simp only [step] at stepped
      split at stepped
      · cases stepped
        refine invariant_save ?_ inv.last
        intro deadline member
        exact inv.pending deadline (List.mem_of_mem_eraseIdx member)
      · cases stepped
  | advance ms =>
      simp only [step] at stepped
      split at stepped
      · rename_i unmissed
        cases stepped
        obtain ⟨unsaved, saved, split⟩ := inv.split
        exact ⟨inv.inTime, unmissed, inv.last, Nat.le_add_right_of_le inv.past,
          unsaved, saved, split.changes, split.stored, split.since, split.due⟩
      · cases stepped

theorem invariant {rearm : Rearm} {s : Saver} (reachable : (machine rearm).Reachable s) :
    s.Invariant rearm := by
  refine reachable.invariant (Invariant rearm) ?_ (fun s action s' => invariant_step)
  intro s started
  refine ⟨.inl started.saved, ?_, ?_, started.constructed, [], [], started.unchanged, ?_, ?_, ?_⟩
  · simp [started.quiet]
  · simp [started.unchanged]
  · simp
  · simp
  · simp

/-- A change since the last save has its timer; one before it, or a later one, has been saved. -/
theorem Split.stored_or_due {rearm : Rearm} {s : Saver} {unsaved saved : List Change}
    (split : s.Split rearm unsaved saved) {i : Nat} {change : Change}
    (found : s.changes[i]? = some change) : s.Stored i ∨ s.Due rearm change.time := by
  rw [split.changes] at found
  rcases Nat.lt_or_ge i unsaved.length with new | old
  · rw [List.getElem?_append_left new] at found
    exact .inr (split.due change (List.mem_of_getElem? found))
  · cases saved with
    | nil =>
        rw [List.append_nil, List.getElem?_eq_none old] at found
        cases found
    | cons last saved =>
        refine .inl ⟨last, ?_, split.stored last rfl⟩
        rw [split.changes, List.take_append, List.take_of_length_le (by omega),
          show i + 1 - unsaved.length = i - unsaved.length + 1 by omega, List.take_succ_cons]
        simp

/-- In every reachable state the value on disk is the one in memory, or a save is due at most
    five seconds after the last change, so that five seconds after it the last value set is
    the one on disk.  And each change, whatever is set after it, is on disk itself or by a
    later value less than six seconds after it, and within five if arming the timer leaves
    pending ones alone. -/
theorem changed_setting_reaches_disk {rearm : Rearm} {s : Saver}
    (reachable : (machine rearm).Reachable s) :
    s.InTime ∧
      (∀ last ∈ s.changes.head?, last.time + MAX_DELAY_BETWEEN_SAVES_MS < s.now →
        s.disk = ⟨last.seconds⟩) ∧
      (∀ i change, s.changes[i]? = some change → s.Stored i ∨ s.Due rearm change.time) ∧
      ∀ i change, s.changes[i]? = some change → change.time + rearm.longest < s.now →
        s.Stored i := by
  have inv := invariant reachable
  obtain ⟨unsaved, saved, split⟩ := inv.split
  refine ⟨inv.inTime, ?_, fun i change => split.stored_or_due, ?_⟩
  · intro last head late
    rcases inv.inTime with same | ⟨last', head', deadline, member, soon⟩
    · rw [same, inv.last last head]
    · have unmissed := inv.pending deadline member
      rw [Option.mem_def.mp head] at head'
      cases head'
      omega
  · intro i change found late
    apply (split.stored_or_due found).resolve_right
    rintro ⟨deadline, member, soon⟩
    have unmissed := inv.pending deadline member
    omega

/-- A saver that has just been constructed. -/
def start (config : PermConfig) : Saver :=
  ⟨0, 0, CInt.toULong config.cacheLifeExpectancy, config, config, [], [], []⟩

theorem start_init (rearm : Rearm) (config : PermConfig) : (machine rearm).init (start config) :=
  ⟨rfl, rfl, Nat.le_refl 0, rfl⟩

/-- Two changes, the second one close to the limit, and the save they share. -/
def burst : List Action := [.advance 100, .set 120, .advance 4800, .set 180, .advance 1000, .fire 0]

/-- A second later. -/
def burstLater : List Action := burst ++ [.advance 1000]

theorem burstLater_enabled : ((machine .replaces).run (start DefaultConfig) burstLater).isSome := by
  decide

theorem changed_setting_reaches_disk_burst_later :
    (((machine .replaces).run (start DefaultConfig) burstLater).get burstLater_enabled).Stored 1 :=
  (changed_setting_reaches_disk
    (.get (start_init .replaces DefaultConfig) burstLater_enabled)).2.2.2 1 ⟨120, 100⟩ rfl (by decide)

/-- The second change comes just before the save of the first one, and puts it off. -/
def putOff : List Action := [.set 120, .advance 4999, .set 180, .advance 1000]

theorem putOff_enabled : ((machine .replaces).run (start DefaultConfig) putOff).isSome := by
  decide

/-- Neither value is on disk 5999 milliseconds after the first change. -/
theorem change_unsaved_past_delay :
    ∃ s, (machine .replaces).Reachable s ∧ s.changes[1]? = some ⟨120, 0⟩ ∧ s.now = 5999 ∧
      ¬ s.Stored 1 :=
  ⟨_, .get (start_init .replaces DefaultConfig) putOff_enabled, rfl, by decide, by decide⟩

end Saver

end RpiFanServe.Config
