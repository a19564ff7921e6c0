import RpiFanServe.Config.Permanent
import RpiFanServe.Dbus.Message
import RpiFanServe.Foundation.StepMachine

/-! # Start-up

The constructor of `TempsCtrl` starts the message thread before it loads the
configuration.  The machine interleaves the assignments of the constructor with the
two assignments that every message makes.  The last write of the constructor decides:
`KeepsUpdate` says when it does not overwrite what a message has set.
-/

namespace RpiFanServe.Config

open CString Dbus PermanentConfig StepMachine

/-- The body of the constructor: before `load_config`, before the branch on its
    result, and behind it. -/
inductive ConstructorPc where
  | loading
  | checked (lrv : LoadConfigReturn)
  | done
  deriving DecidableEq

/-- The message thread: waiting, or between the two assignments of
    `setCacheLifeExpectancy(seconds)`. -/
inductive MessagePc where
  | idle
  | assigned (seconds : CInt)
  deriving DecidableEq

/-- `handled` records the messages, the last one first; `base` the value that the
    constructor ends up with by itself. -/
structure Startup where
  mCacheLifeExpectancySeconds : CULong
  mConfig : PermConfig
  constructor : ConstructorPc
  message : MessagePc
  handled : List CInt
  base : CInt

namespace Startup

inductive Action where
  | load (answers : Answers)
  | adopt
  /-- The message thread receives bytes; a message that is none of the format is
      dropped, the others make their first assignment. -/
  | receive (msg : Bytes)
  | assign

/-- `load_config(m_config)` and what the constructor will be left with. -/
def loadStep (s : Startup) (answers : Answers) : Option Startup :=
  match s.constructor with
  | .loading =>
      let (lrv, mConfig) := loadConfig s.mConfig answers
      some { s with
        mConfig
        constructor := .checked lrv
        base := if lrv = .LOAD_SUCCESS then mConfig.cacheLifeExpectancy
          else DefaultConfig.cacheLifeExpectancy }
  | _ => none

/-- The branch behind the load. -/
def adoptStep (s : Startup) : Option Startup :=
  match s.constructor with
  | .checked lrv =>
      if lrv ≠ .LOAD_SUCCESS then some { s with mConfig := DefaultConfig, constructor := .done }
      else some { s with
        mCacheLifeExpectancySeconds := CInt.toULong s.mConfig.cacheLifeExpectancy
        constructor := .done }
  | _ => none

/-- `m_cacheLifeExpectancySeconds = seconds` -/
def receiveStep (s : Startup) (msg : Bytes) : Option Startup :=
  match s.message with
  | .idle =>
      match receiveCallback msg with
      | none => some s
      | some seconds => some { s with
          mCacheLifeExpectancySeconds := CInt.toULong seconds
          message := .assigned seconds }
  | .assigned _ => none

/-- `m_config.cache_life_expectancy = m_cacheLifeExpectancySeconds` -/
def assignStep (s : Startup) : Option Startup :=
  match s.message with
  | .idle => none
  | .assigned seconds => some { s with
      mConfig := ⟨CULong.toCInt s.mCacheLifeExpectancySeconds⟩
      message := .idle
      handled := seconds :: s.handled }

def step (s : Startup) : Action → Option Startup
  | .load answers => s.loadStep answers
  | .adopt => s.adoptStep
  | .receive msg => s.receiveStep msg
  | .assign => s.assignStep

/-- The members before the body of the constructor; `m_config` holds anything. -/
def start (mConfig : PermConfig) : Startup where
  mCacheLifeExpectancySeconds := CInt.toULong DefaultConfig.cacheLifeExpectancy
  mConfig := mConfig
  constructor := .loading
  message := .idle
  handled := []
  base := DefaultConfig.cacheLifeExpectancy

def machine : StepMachine Startup Action where
  init s := ∃ mConfig, s = start mConfig
  step := step

/-- What the last write of the constructor must find: when it copies the loaded
    configuration, the configuration holds the value of the newest message, if there
    is one; when it assigns the default, no message has been handled, or a message is
    between its assignments, or the last one set the default. -/
def KeepsUpdate (s : Startup) : Action → Bool
  | .adopt =>
      match s.constructor, s.message with
      | .checked .LOAD_SUCCESS, .assigned seconds => seconds = s.mConfig.cacheLifeExpectancy
      | .checked .LOAD_SUCCESS, .idle =>
          s.handled.head?.all (· = s.mConfig.cacheLifeExpectancy)
      | _, .assigned _ => true
      | _, .idle => s.handled.head?.all (· = DefaultConfig.cacheLifeExpectancy)
  | _ => true

/-- The machine that takes only these steps. -/
def keeping : StepMachine Startup Action := machine.restrict fun s action => s.KeepsUpdate action = true

/-- The two fields agree, on the last message or else on what was loaded. -/
def Agrees (s : Startup) : Prop :=
  s.mCacheLifeExpectancySeconds = CInt.toULong s.mConfig.cacheLifeExpectancy ∧
    s.mConfig.cacheLifeExpectancy = s.handled.head?.getD s.base

/-- Between its assignments a message has set the seconds; otherwise they are those of
    the last message, or the initial ones until the constructor is done. -/
structure Invariant (s : Startup) : Prop where
  assigned : ∀ seconds, s.message = .assigned seconds →
    s.mCacheLifeExpectancySeconds = CInt.toULong seconds
  idle : s.message = .idle → s.constructor ≠ .done →
    s.mCacheLifeExpectancySeconds =
      CInt.toULong (s.handled.head?.getD DefaultConfig.cacheLifeExpectancy)
  loaded : s.constructor = .checked .LOAD_SUCCESS → s.handled = [] →
    s.mConfig.cacheLifeExpectancy = s.base
  failed : ∀ lrv, s.constructor = .checked lrv → lrv ≠ .LOAD_SUCCESS →
    s.base = DefaultConfig.cacheLifeExpectancy
  done : s.constructor = .done → s.message = .idle → s.Agrees

theorem invariant_start (mConfig : PermConfig) : (start mConfig).Invariant where
  assigned := by
    intro seconds impossible
    cases impossible
  idle _ _ := rfl
  loaded impossible := by cases impossible
  failed := by
    intro lrv impossible
    cases impossible
  done impossible := by cases impossible

theorem invariant_load {s s' : Startup} {answers : Answers} (inv : s.Invariant)
    (stepped : s.loadStep answers = some s') : s'.Invariant := by
  unfold loadStep at stepped
  cases pc : s.constructor with
  | checked lrv => simp [pc] at stepped
  | done => simp [pc] at stepped
  | loading =>
      rw [pc] at stepped
      cases stepped
      refine ⟨inv.assigned, ?_, ?_, ?_, ?_⟩
      · intro idle _
        exact inv.idle idle (by rw [pc]; decide)
      · intro success _
        have success := ConstructorPc.checked.inj success
        show _ = if _ then _ else _
        rw [if_pos success]
      · intro lrv checked failure
        cases checked
        show (if _ then _ else _) = _
        rw [if_neg failure]
      · intro impossible
        cases impossible

theorem adoptStep_cases {s s' : Startup} (stepped : s.adoptStep = some s') :
    (s.constructor = .checked .LOAD_SUCCESS ∧ s' = { s with
      mCacheLifeExpectancySeconds := CInt.toULong s.mConfig.cacheLifeExpectancy
      constructor := .done }) ∨
    ∃ lrv, s.constructor = .checked lrv ∧ lrv ≠ .LOAD_SUCCESS ∧
      s' = { s with mConfig := DefaultConfig, constructor := .done } := by
  unfold adoptStep at stepped
  split at stepped
  · rename_i lrv pc
    split_ifs at stepped with failure
    · exact .inr ⟨lrv, pc, failure, (Option.some.inj stepped).symm⟩
    · rw [not_not] at failure
      exact .inl ⟨failure ▸ pc, (Option.some.inj stepped).symm⟩
  · cases stepped

theorem invariant_adopt_loaded {s : Startup} (inv : s.Invariant)
    (keeps : s.KeepsUpdate .adopt = true) (pc : s.constructor = .checked .LOAD_SUCCESS) :
    ({ s with
      mCacheLifeExpectancySeconds := CInt.toULong s.mConfig.cacheLifeExpectancy
      constructor := .done } : Startup).Invariant := by
  unfold KeepsUpdate at keeps
  rw [pc] at keeps
  refine ⟨?_, fun _ impossible => absurd rfl impossible, ?_, ?_, ?_⟩
  · intro seconds assigned
    have assigned : s.message = .assigned seconds := assigned
    rw [assigned] at keeps
    rw [of_decide_eq_true keeps]
  · intro impossible
    cases impossible
  · intro lrv impossible
    cases impossible
  · intro _ idle
    have idle : s.message = .idle := idle
    rw [idle] at keeps
    refine ⟨rfl, ?_⟩
    show s.mConfig.cacheLifeExpectancy = s.handled.head?.getD s.base
    cases handled : s.handled with
    | nil => exact inv.loaded pc handled
    | cons last earlier =>
        rw [handled] at keeps
        exact (of_decide_eq_true keeps).symm

theorem invariant_adopt_default {s : Startup} {lrv : LoadConfigReturn} (inv : s.Invariant)
    (keeps : s.KeepsUpdate .adopt = true) (pc : s.constructor = .checked lrv)
    (failure : lrv ≠ .LOAD_SUCCESS) :
    ({ s with mConfig := DefaultConfig, constructor := .done } : Startup).Invariant := by
  refine ⟨inv.assigned, fun _ impossible => absurd rfl impossible, ?_, ?_, ?_⟩
  · intro impossible
    cases impossible
  · intro lrv impossible
    cases impossible
  · intro _ idle
    have idle : s.message = .idle := idle
    have last : s.handled.head?.getD DefaultConfig.cacheLifeExpectancy =
        DefaultConfig.cacheLifeExpectancy := by
      unfold KeepsUpdate at keeps
      rw [pc, idle] at keeps
      cases handled : s.handled with
      | nil => rfl
      | cons last earlier =>
          rw [handled] at keeps
          cases lrv with
          | LOAD_SUCCESS => exact absurd rfl failure
          | _ => exact of_decide_eq_true keeps
    refine ⟨?_, ?_⟩
    · show s.mCacheLifeExpectancySeconds = CInt.toULong DefaultConfig.cacheLifeExpectancy
      rw [inv.idle idle (by rw [pc]; simp), last]
    · show DefaultConfig.cacheLifeExpectancy = s.handled.head?.getD s.base
      rw [inv.failed lrv pc failure, last]

theorem invariant_adopt {s s' : Startup} (inv : s.Invariant) (keeps : s.KeepsUpdate .adopt = true)
    (stepped : s.adoptStep = some s') : s'.Invariant := by
  cases adoptStep_cases stepped with
  | inl loaded =>
      obtain ⟨pc, rfl⟩ := loaded
      exact invariant_adopt_loaded inv keeps pc
  | inr failed =>
      obtain ⟨lrv, pc, failure, rfl⟩ := failed
      exact invariant_adopt_default inv keeps pc failure

theorem invariant_receive {s s' : Startup} {msg : Bytes} (inv : s.Invariant)
    (stepped : s.receiveStep msg = some s') : s'.Invariant := by
  unfold receiveStep at stepped
  cases message : s.message with
  | assigned seconds => simp [message] at stepped
  | idle =>
      rw [message] at stepped
      cases received : receiveCallback msg with
      | none =>
          rw [received] at stepped
          cases stepped
          exact inv
      | some seconds =>
          rw [received] at stepped
          cases stepped
          refine ⟨?_, ?_, inv.loaded, inv.failed, ?_⟩
          · intro seconds' same
            cases same
            rfl
          · intro impossible
            cases impossible
          · intro _ impossible
            cases impossible

theorem invariant_assign {s s' : Startup} (inv : s.Invariant) (stepped : s.assignStep = some s') :
    s'.Invariant := by
  unfold assignStep at stepped
  cases message : s.message with
  | idle => simp [message] at stepped
  | assigned seconds =>
      rw [message] at stepped
      cases stepped
      have set := inv.assigned seconds message
      refine ⟨?_, ?_, ?_, inv.failed, ?_⟩
      · intro seconds' impossible
        cases impossible
      · intro _ _
        exact set
      · intro _ impossible
        cases impossible
      · intro _ _
        refine ⟨?_, ?_⟩
        · show s.mCacheLifeExpectancySeconds = CInt.toULong (CULong.toCInt s.mCacheLifeExpectancySeconds)
          rw [set, CInt.toULong_toCInt]
        · show CULong.toCInt s.mCacheLifeExpectancySeconds = seconds
          rw [set, CInt.toULong_toCInt]

/-- In every run in which the last write of the constructor overwrites no message, the
    fields agree once the constructor is done and no message is half-way. -/
theorem startup_keeps_update {s : Startup}
    (reachable : keeping.Reachable s)
    (done : s.constructor = .done) (idle : s.message = .idle) : s.Agrees := by
  refine (reachable.invariant Invariant ?_ ?_).done done idle
  · intro s initial
    obtain ⟨mConfig, rfl⟩ := initial
    exact invariant_start mConfig
  · intro s action s' inv step
    obtain ⟨keeps, stepped⟩ := restrict_step.mp step
    cases action with
    | load answers => exact invariant_load inv stepped
    | adopt => exact invariant_adopt inv keeps stepped
    | receive msg => exact invariant_receive inv stepped
    | assign => exact invariant_assign inv stepped

theorem disagrees {s : Startup} {value : CInt} (holds : s.mConfig.cacheLifeExpectancy = value)
    (other : s.handled.head?.all (· = value) = false) : ¬ s.Agrees := by
  intro agrees
  have last : value = s.handled.head?.getD s.base := holds.symm.trans agrees.2
  cases head : s.handled.head? with
  | none => simp [head] at other
  | some seconds => simp [head, last] at other

/-- The condition is exact: any other last write of the constructor loses a message, at
    the latest when that message makes its second assignment. -/
theorem adopt_loses_update {s s' : Startup} (loses : s.KeepsUpdate .adopt = false)
    (stepped : s.adoptStep = some s') :
    ∃ actions t, machine.run s' actions = some t ∧ t.constructor = .done ∧ t.message = .idle ∧
      ¬ t.Agrees := by
  unfold KeepsUpdate at loses
  cases adoptStep_cases stepped with
  | inl loaded =>
      obtain ⟨pc, rfl⟩ := loaded
      rw [pc] at loses
      cases message : s.message with
      | idle =>
          rw [message] at loses
          exact ⟨[], _, rfl, rfl, rfl, disagrees rfl loses⟩
      | assigned seconds =>
          rw [message] at loses
          refine ⟨[.assign], _, rfl, rfl, rfl, disagrees (CInt.toULong_toCInt _) ?_⟩
          simpa using loses
  | inr failed =>
      obtain ⟨lrv, pc, failure, rfl⟩ := failed
      rw [pc] at loses
      cases message : s.message with
      | idle =>
          rw [message] at loses
          refine ⟨[], _, rfl, rfl, rfl, disagrees rfl ?_⟩
          cases lrv with
          | LOAD_SUCCESS => exact absurd rfl failure
          | _ => exact loses
      | assigned seconds =>
          rw [message] at loses
          cases lrv with
          | LOAD_SUCCESS => exact absurd rfl failure
          | _ => cases loses

theorem start_init (mConfig : PermConfig) : machine.init (start mConfig) := ⟨mConfig, rfl⟩

theorem keeping_init (mConfig : PermConfig) : keeping.init (start mConfig) := ⟨mConfig, rfl⟩

/-- A file that holds one hour. -/
def oneHour : Answers where
  srvExists := .yes
  srvIsDirectory := .yes
  dirExists := .yes
  dirIsDirectory := .yes
  createDirectory := .no
  configExists := .yes
  configIsRegularFile := .yes
  readFile := .settings [(CacheLifeExpectancyConfigKey, .int 3600)]

/-- The load, a message, and the copy behind it. -/
def messageAfterLoad : List Action :=
  [.load oneHour, .receive (cacheLifeExpectancyMessage 120), .assign, .adopt]

theorem messageAfterLoad_enabled :
    (keeping.run (start ⟨0⟩) messageAfterLoad).isSome := by
  decide

theorem startup_keeps_update_message_after_load :
    ((keeping.run (start ⟨0⟩) messageAfterLoad).get messageAfterLoad_enabled).Agrees :=
  startup_keeps_update (.get (keeping_init ⟨0⟩) messageAfterLoad_enabled) (by decide)
    (by decide)

/-- A message that is handled before the load. -/
def messageBeforeLoad : List Action :=
  [.receive (cacheLifeExpectancyMessage 120), .assign, .load oneHour, .adopt]

theorem messageBeforeLoad_enabled : (machine.run (start ⟨0⟩) messageBeforeLoad).isSome := by
  decide

/-- The value of a message handled before the load is lost. -/
theorem startup_loses_update :
    ∃ s, machine.Reachable s ∧ s.constructor = .done ∧ s.message = .idle ∧ s.handled = [120] ∧
      s.mConfig.cacheLifeExpectancy = 3600 ∧ ¬ s.Agrees :=
  ⟨_, .get (start_init ⟨0⟩) messageBeforeLoad_enabled, by decide, by decide,
    by decide, by decide, by unfold Agrees; decide⟩

end Startup

end RpiFanServe.Config
