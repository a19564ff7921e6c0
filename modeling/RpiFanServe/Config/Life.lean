import RpiFanServe.Config.SaveDelay
import RpiFanServe.Config.Startup

/-! # The life expectancy in effect

Only the D-Bus object checks the range of a life expectancy.  The server takes over
whatever the configuration file and the messages hand it, and writes it back.  The
machine is start-up with the saves: the default configuration by the constructor, and the
configuration of a message by its thread or by the timer that it arms.
-/

namespace RpiFanServe.Config

open CString Dbus PermanentConfig StepMachine

/-- The message thread has made its assignments and is about to save (`saving`), the
    constructor is about to save the default (`savingDefault`), and a timer is pending
    (`armed`).  `written` are the configurations given to `save_config`, the last one first. -/
structure Life where
  startup : Startup
  saving : Bool
  savingDefault : Bool
  armed : Bool
  written : List PermConfig

namespace Life

inductive Action where
  | startup (action : Startup.Action)
  | saveDefault
  /-- `saveCurrentConfig()`, that long after the last save. -/
  | saveCurrentConfig (durationMs : Nat)
  /-- The callback of the timer, `saveCurrentConfig(false)`. -/
  | fire

def saveConfig (s : Life) : Life := { s with written := s.startup.mConfig :: s.written }

/-- A step of start-up; the thread takes the next message when it has saved. -/
def startupStep (s : Life) (action : Startup.Action) : Option Life :=
  match action with
  | .load answers => (s.startup.loadStep answers).map fun startup => { s with startup }
  | .adopt => s.startup.adoptStep.map fun startup =>
      { s with startup, savingDefault := s.startup.constructor = .checked .NO_CONFIG }
  | .receive msg =>
      if s.saving then none else (s.startup.receiveStep msg).map fun startup => { s with startup }
  | .assign => s.startup.assignStep.map fun startup => { s with startup, saving := true }

def step (s : Life) : Action → Option Life
  | .startup action => s.startupStep action
  | .saveDefault =>
      if s.savingDefault then some { s.saveConfig with savingDefault := false } else none
  | .saveCurrentConfig durationMs =>
      if s.saving then
        if durationMs < MAX_DELAY_BETWEEN_SAVES_MS then some { s with saving := false, armed := true }
        else some { s.saveConfig with saving := false }
      else none
  | .fire => if s.armed then some s.saveConfig else none

def start (mConfig : PermConfig) : Life := ⟨Startup.start mConfig, false, false, false, []⟩

def machine : StepMachine Life Action where
  init s := ∃ mConfig, s = start mConfig
  step := step

/-! ## The range -/

/-- The range that the D-Bus object enforces. -/
def Admitted (seconds : CInt) : Prop := 60 ≤ seconds.toInt ∧ seconds.toInt ≤ 100000

instance (seconds : CInt) : Decidable (Admitted seconds) := inferInstanceAs (Decidable (_ ∧ _))

def AdmittedSeconds (seconds : CULong) : Prop := 60 ≤ seconds.toNat ∧ seconds.toNat ≤ 100000

instance (seconds : CULong) : Decidable (AdmittedSeconds seconds) := inferInstanceAs (Decidable (_ ∧ _))

/-- Converting to `unsigned long` keeps the range, and so does converting back. -/
theorem admittedSeconds_toULong {seconds : CInt} :
    AdmittedSeconds (CInt.toULong seconds) ↔ Admitted seconds := by
  have number := CInt.toULong_toNat seconds
  have least : -2 ^ 31 ≤ seconds.toInt := BitVec.le_toInt seconds
  unfold AdmittedSeconds Admitted
  split at number <;> omega

theorem admitted_toCInt {seconds : CULong} (admitted : AdmittedSeconds seconds) :
    Admitted (CULong.toCInt seconds) := by
  have number : (CULong.toCInt seconds).toNat = seconds.toNat := by
    have most := admitted.2
    rw [CULong.toCInt, BitVec.toNat_setWidth, Nat.mod_eq_of_lt (by omega)]
  have small := admitted.2
  unfold Admitted
  rw [BitVec.toInt_eq_toNat_of_lt (by omega), number]
  have large := admitted.1
  omega

theorem admitted_default : Admitted DefaultConfig.cacheLifeExpectancy := by decide

/-! ## The invariant -/

/-- What a step must bring: the file holds, and a message hands over, a value in the range. -/
def Brings (s : Life) : Action → Bool
  | .startup (.load answers) =>
      match loadConfig s.startup.mConfig answers with
      | (.LOAD_SUCCESS, mConfig) => Admitted mConfig.cacheLifeExpectancy
      | _ => true
  | .startup (.receive msg) => (receiveCallback msg).all fun seconds => Admitted seconds
  | _ => true

theorem brings_load {s : Life} {answers : Answers} :
    s.Brings (.startup (.load answers)) = true ↔
      ((loadConfig s.startup.mConfig answers).1 = .LOAD_SUCCESS →
        Admitted (loadConfig s.startup.mConfig answers).2.cacheLifeExpectancy) := by
  simp only [Brings]
  cases loadConfig s.startup.mConfig answers with
  | mk lrv mConfig => cases lrv <;> simp

theorem brings_receive {s : Life} {msg : Bytes} :
    s.Brings (.startup (.receive msg)) = true ↔
      ∀ seconds, receiveCallback msg = some seconds → Admitted seconds := by
  simp [Brings, Option.all_eq_true]

/-- The messages that the helper writes for the values that the D-Bus object admits do. -/
theorem brings_message {s : Life} {value : CLong} (valid : invalidCacheLifeExpectancy value = false) :
    s.Brings (.startup (.receive (cacheLifeExpectancyMessage value))) = true := by
  obtain ⟨narrow, handed, same⟩ := receiveCallback_message valid
  rw [brings_receive]
  intro seconds handed'
  rw [handed] at handed'
  cases handed'
  unfold Admitted
  rw [same]
  exact valid_iff.mp valid

/-- The machine that takes only these steps. -/
def admitting : StepMachine Life Action := machine.restrict fun s action => s.Brings action = true

/-- The configuration has been loaded, or set by the constructor or by a message. -/
def Assigned (s : Startup) : Prop :=
  s.handled ≠ [] ∨ s.constructor = .checked .LOAD_SUCCESS ∨ s.constructor = .done

structure Invariant (s : Life) : Prop where
  seconds : AdmittedSeconds s.startup.mCacheLifeExpectancySeconds
  config : Assigned s.startup → Admitted s.startup.mConfig.cacheLifeExpectancy
  saving : s.saving = true → s.startup.handled ≠ []
  savingDefault : s.savingDefault = true → s.startup.constructor = .done
  armed : s.armed = true → s.startup.handled ≠ []
  written : ∀ config ∈ s.written, Admitted config.cacheLifeExpectancy

theorem start_init (mConfig : PermConfig) : machine.init (start mConfig) := ⟨mConfig, rfl⟩

theorem admitting_init (mConfig : PermConfig) : admitting.init (start mConfig) := ⟨mConfig, rfl⟩

theorem invariant_start (mConfig : PermConfig) : (start mConfig).Invariant where
  seconds := admittedSeconds_toULong.mpr admitted_default
  config := by
    intro assigned
    simp [Assigned, start, Startup.start] at assigned
  saving := nofun
  savingDefault := nofun
  armed := nofun
  written := nofun

theorem invariant_save {s : Life} (inv : s.Invariant) (assigned : Assigned s.startup) :
    s.saveConfig.Invariant where
  seconds := inv.seconds
  config := inv.config
  saving := inv.saving
  savingDefault := inv.savingDefault
  armed := inv.armed
  written := by
    intro config member
    cases List.mem_cons.mp member with
    | inl now => exact now ▸ inv.config assigned
    | inr before => exact inv.written config before

theorem invariant_load {s s' : Life} {answers : Answers} (inv : s.Invariant)
    (brings : s.Brings (.startup (.load answers)) = true)
    (stepped : s.startupStep (.load answers) = some s') : s'.Invariant := by
  simp only [startupStep, Option.map_eq_some_iff] at stepped
  obtain ⟨startup, loaded, rfl⟩ := stepped
  unfold Startup.loadStep at loaded
  split at loaded
  · rename_i pc
    cases loaded
    refine ⟨inv.seconds, ?_, inv.saving, ?_, inv.armed, inv.written⟩
    · intro assigned
      by_cases success : (loadConfig s.startup.mConfig answers).1 = .LOAD_SUCCESS
      · exact brings_load.mp brings success
      · have handled : s.startup.handled ≠ [] := by
          rcases assigned with handled | loaded | done
          · exact handled
          · exact absurd (ConstructorPc.checked.inj loaded) success
          · cases done
        show Admitted (loadConfig s.startup.mConfig answers).2.cacheLifeExpectancy
        rw [loadConfig_failed success]
        exact inv.config (.inl handled)
    · intro pending
      have done := inv.savingDefault pending
      rw [pc] at done
      cases done
  · cases loaded

theorem invariant_adopt {s s' : Life} (inv : s.Invariant)
    (stepped : s.startupStep .adopt = some s') : s'.Invariant := by
  simp only [startupStep, Option.map_eq_some_iff] at stepped
  obtain ⟨startup, adopted, rfl⟩ := stepped
  cases Startup.adoptStep_cases adopted with
  | inl loaded =>
      obtain ⟨pc, rfl⟩ := loaded
      have config := inv.config (.inr (.inl pc))
      exact ⟨admittedSeconds_toULong.mpr config, fun _ => config, inv.saving, fun _ => rfl, inv.armed,
        inv.written⟩
  | inr failed =>
      obtain ⟨lrv, pc, failure, rfl⟩ := failed
      exact ⟨inv.seconds, fun _ => admitted_default, inv.saving, fun _ => rfl, inv.armed, inv.written⟩

theorem invariant_receive {s s' : Life} {msg : Bytes} (inv : s.Invariant)
    (brings : s.Brings (.startup (.receive msg)) = true)
    (stepped : s.startupStep (.receive msg) = some s') : s'.Invariant := by
  simp only [startupStep, Option.ite_none_left_eq_some, Option.map_eq_some_iff] at stepped
  obtain ⟨-, startup, received, rfl⟩ := stepped
  unfold Startup.receiveStep at received
  split at received
  · split at received
    · cases received
      exact inv
    · rename_i seconds handed
      cases received
      exact ⟨admittedSeconds_toULong.mpr (brings_receive.mp brings seconds handed), inv.config, inv.saving,
        inv.savingDefault, inv.armed, inv.written⟩
  · cases received

theorem invariant_assign {s s' : Life} (inv : s.Invariant)
    (stepped : s.startupStep .assign = some s') : s'.Invariant := by
  simp only [startupStep, Option.map_eq_some_iff] at stepped
  obtain ⟨startup, assigned, rfl⟩ := stepped
  unfold Startup.assignStep at assigned
  split at assigned
  · cases assigned
  · cases assigned
    exact ⟨inv.seconds, fun _ => admitted_toCInt inv.seconds, fun _ => List.cons_ne_nil _ _,
      inv.savingDefault, fun _ => List.cons_ne_nil _ _, inv.written⟩

theorem invariant_step {s s' : Life} {action : Action} (inv : s.Invariant) (brings : s.Brings action = true)
    (stepped : s.step action = some s') : s'.Invariant := by
  cases action with
  | startup action =>
      cases action with
      | load answers => exact invariant_load inv brings stepped
      | adopt => exact invariant_adopt inv stepped
      | receive msg => exact invariant_receive inv brings stepped
      | assign => exact invariant_assign inv stepped
  | saveDefault =>
      simp only [step, Option.ite_none_right_eq_some] at stepped
      obtain ⟨pending, same⟩ := stepped
      cases same
      have saved := invariant_save inv (.inr (.inr (inv.savingDefault pending)))
      exact { saved with savingDefault := nofun }
  | saveCurrentConfig durationMs =>
      simp only [step, Option.ite_none_right_eq_some] at stepped
      obtain ⟨pending, stepped⟩ := stepped
      have handled := inv.saving pending
      split at stepped
      · cases stepped
        exact { inv with saving := nofun, armed := fun _ => handled }
      · cases stepped
        exact { invariant_save inv (.inl handled) with saving := nofun }
  | fire =>
      simp only [step, Option.ite_none_right_eq_some] at stepped
      obtain ⟨armed, same⟩ := stepped
      cases same
      exact invariant_save inv (.inl (inv.armed armed))

/-- In every run in which the file holds, and every message hands over, a value in the range
    of the D-Bus object, the life expectancy in effect and every one written are in it. -/
theorem life_admitted {s : Life} (reachable : admitting.Reachable s) :
    AdmittedSeconds s.startup.mCacheLifeExpectancySeconds ∧
      ∀ config ∈ s.written, Admitted config.cacheLifeExpectancy := by
  have inv : s.Invariant := by
    refine reachable.invariant Invariant ?_ ?_
    · intro s initial
      obtain ⟨mConfig, rfl⟩ := initial
      exact invariant_start mConfig
    · intro s action s' inv stepped
      obtain ⟨brings, stepped⟩ := restrict_step.mp stepped
      exact invariant_step inv brings stepped
  exact ⟨inv.seconds, inv.written⟩

/-! ## The condition is exact -/

/-- A message with any other value puts it into effect. -/
theorem receive_violates {s s' : Life} {msg : Bytes} (brings : s.Brings (.startup (.receive msg)) = false)
    (stepped : s.step (.startup (.receive msg)) = some s') :
    ¬ AdmittedSeconds s'.startup.mCacheLifeExpectancySeconds := by
  rw [← Bool.not_eq_true, brings_receive] at brings
  push Not at brings
  obtain ⟨seconds, handed, outside⟩ := brings
  simp only [step, startupStep, Option.ite_none_left_eq_some, Option.map_eq_some_iff] at stepped
  obtain ⟨-, startup, received, rfl⟩ := stepped
  unfold Startup.receiveStep at received
  split at received
  · rw [handed] at received
    cases received
    exact fun admitted => outside (admittedSeconds_toULong.mp admitted)
  · cases received

/-- A file with any other value puts it into effect when the constructor goes on at once. -/
theorem load_violates {s s' : Life} {answers : Answers}
    (brings : s.Brings (.startup (.load answers)) = false)
    (stepped : s.step (.startup (.load answers)) = some s') :
    ∃ t, s'.step (.startup .adopt) = some t ∧
      ¬ AdmittedSeconds t.startup.mCacheLifeExpectancySeconds := by
  rw [← Bool.not_eq_true, brings_load] at brings
  push Not at brings
  obtain ⟨success, outside⟩ := brings
  simp only [step, startupStep, Option.map_eq_some_iff] at stepped
  obtain ⟨startup, loaded, rfl⟩ := stepped
  unfold Startup.loadStep at loaded
  cases result : loadConfig s.startup.mConfig answers with
  | mk lrv mConfig =>
      rw [result] at success outside loaded
      obtain rfl : lrv = .LOAD_SUCCESS := success
      split at loaded
      · cases loaded
        exact ⟨_, rfl, fun admitted => outside (admittedSeconds_toULong.mp admitted)⟩
      · cases loaded

/-- An hour from the file, two minutes from a message, and the save behind it. -/
def hourThenMessage : List Action :=
  [.startup (.load Startup.oneHour), .startup .adopt,
    .startup (.receive (cacheLifeExpectancyMessage 120)), .startup .assign, .saveCurrentConfig 6000]

theorem hourThenMessage_enabled : (admitting.run (start ⟨0⟩) hourThenMessage).isSome := by
  decide

theorem life_admitted_hour_then_message :
    AdmittedSeconds ((admitting.run (start ⟨0⟩) hourThenMessage).get
        hourThenMessage_enabled).startup.mCacheLifeExpectancySeconds ∧
      ∀ config ∈ ((admitting.run (start ⟨0⟩) hourThenMessage).get hourThenMessage_enabled).written,
        Admitted config.cacheLifeExpectancy :=
  life_admitted (.get (admitting_init ⟨0⟩) hourThenMessage_enabled)

/-- An hour from the file, and a negative value from a message that is saved. -/
def negativeMessage : List Action :=
  [.startup (.load Startup.oneHour), .startup .adopt, .startup (.receive (utf8 "NCLE:-5")),
    .startup .assign, .saveCurrentConfig 6000]

theorem negativeMessage_enabled : (machine.run (start ⟨0⟩) negativeMessage).isSome := by
  decide

/-- The negative value is in effect, as an `unsigned long`, and written. -/
theorem negative_life_in_effect :
    ∃ s, machine.Reachable s ∧ s.startup.mCacheLifeExpectancySeconds = BitVec.ofInt 64 (-5) ∧
      ¬ AdmittedSeconds s.startup.mCacheLifeExpectancySeconds ∧ s.written = [⟨-5⟩] ∧
      ¬ Admitted (-5) :=
  ⟨_, .get (start_init ⟨0⟩) negativeMessage_enabled, by decide, by decide,
    by decide, by decide⟩

end Life

end RpiFanServe.Config
