import RpiFanServe.Config.Save
import RpiFanServe.Config.SaveDelay

/-! # Saves that overlap

`saveCurrentConfig` takes `saveConfigMutex` only when it checks the delay, so the callback
of the timer may be inside `save_config` together with the message thread or with the
constructor.  Here an execution takes one step at a time: the clock, the lock, the check of
the file, `readFile`, the assignment from `m_config`, `writeFile`.  An old value is written
last only if an execution outlives the delay of the saves behind it.
-/

namespace RpiFanServe.Config

open CString PermanentConfig StepMachine

/-- Where an execution is inside `save_config`. -/
inductive Stage where
  | checkFile
  | readFile
  | assign (root : Root)
  | writeFile (root : Root)

inductive Place where
  /-- `saveCurrentConfig()` has read the clock and waits for `saveConfigMutex`. -/
  | deciding (durationMs : Nat)
  /-- `saveCurrentConfig(false)` has read the clock. -/
  | storing
  | inside (stage : Stage)

inductive Caller where
  | constructor
  | setCacheLifeExpectancy
  | saveConfigTimer
  deriving DecidableEq

/-- `start` is the `now` of the execution; for the constructor it is the one of
    `lastConfigSave`. -/
structure Execution where
  caller : Caller
  start : Nat
  place : Place

/-- `setting` is set when the message thread has made its assignments and is about to call
    `saveCurrentConfig`.  `changes` are the values set, the last one first. -/
structure Savers where
  now : Nat
  lastConfigSave : Nat
  mConfig : PermConfig
  configFile : ConfigFile
  timers : List Nat
  executions : List Execution
  setting : Bool
  changes : List CInt
  terminated : Bool

/-! ## One execution of `save_config` -/

/-- The root that `save_config` hands to `writeFile`; an error leaves the function. -/
def assignRoot (config : PermConfig) (root : Root) : Except SettingException Root :=
  match assignInt CacheLifeExpectancyConfigKey config.cacheLifeExpectancy root with
  | .ok root => .ok root
  | .error .settingNotFoundException =>
      match addInt CacheLifeExpectancyConfigKey config.cacheLifeExpectancy root with
      | .ok root => .ok root
      | .error .settingNameException => .ok root
      | .error exception => .error exception
  | .error exception => .error exception

inductive Next where
  | goes (stage : Stage)
  | ends (result : SaveReturn)

def saveStep (mConfig : PermConfig) (io : FileIo) (configFile : ConfigFile) :
    Stage → ConfigFile × Next
  | .checkFile =>
      match ensureFile io configFile with
      | none => (configFile, .ends (.returns false))
      | some configFile => (configFile, .goes .readFile)
  | .readFile =>
      match io.readFile configFile with
      | .fileIOException => (configFile, .ends (.returns false))
      | .parseException => (configFile, .ends (.returns false))
      | .settings root => (configFile, .goes (.assign root))
  | .assign root =>
      match assignRoot mConfig root with
      | .ok root => (configFile, .goes (.writeFile root))
      | .error _ => (configFile, .ends .terminates)
  | .writeFile root =>
      match writeFile io root with
      | (result, configFile) => (configFile, .ends result)

/-- An execution that nothing comes between, for that many steps. -/
def uninterrupted (mConfig : PermConfig) (io : FileIo) :
    Nat → ConfigFile → Stage → Option (SaveReturn × ConfigFile)
  | 0, _, _ => none
  | steps + 1, configFile, stage =>
      match saveStep mConfig io configFile stage with
      | (configFile, .goes stage) => uninterrupted mConfig io steps configFile stage
      | (configFile, .ends result) => some (result, configFile)

theorem saveRoot_assignRoot (config : PermConfig) (io : FileIo) (configFile : ConfigFile) (root : Root) :
    saveRoot config io configFile root =
      match assignRoot config root with
      | .ok root => writeFile io root
      | .error _ => (.terminates, configFile) := by
  unfold saveRoot assignRoot
  cases assignInt CacheLifeExpectancyConfigKey config.cacheLifeExpectancy root with
  | ok assigned => rfl
  | error exception =>
      cases exception with
      | settingNotFoundException =>
          cases addInt CacheLifeExpectancyConfigKey config.cacheLifeExpectancy root with
          | ok added => rfl
          | error exception => cases exception <;> rfl
      | _ => rfl

/-- On its own, an execution is `save_config`. -/
theorem uninterrupted_saveConfig (config : PermConfig) (io : FileIo) (configFile : ConfigFile) :
    uninterrupted config io 4 configFile .checkFile = some (saveConfig config io configFile) := by
  unfold saveConfig
  cases created : ensureFile io configFile with
  | none => simp [uninterrupted, saveStep, created]
  | some made =>
      cases read : io.readFile made with
      | settings root =>
          simp only [uninterrupted, saveStep, created, read, saveRoot_assignRoot]
          cases assignRoot config root <;> rfl
      | _ => simp [uninterrupted, saveStep, created, read]

/-! ## The machine -/

namespace Savers

/-- The execution at this place of the list goes on as these. -/
def replace (s : Savers) (i : Nat) (next : List Execution) : Savers :=
  { s with executions := s.executions.take i ++ next ++ s.executions.drop (i + 1) }

/-- Somebody holds `saveConfigMutex`. -/
def locked (s : Savers) : Bool :=
  s.executions.any fun e =>
    match e.place with
    | .inside _ => e.caller ≠ .saveConfigTimer
    | _ => false

def setSaveConfigTimer (rearm : Rearm) (s : Savers) (ms : Nat) : Savers :=
  let timeout := max ms 1000
  match rearm with
  | .replaces => { s with timers := [s.now + timeout] }
  | .accumulates => { s with timers := s.timers ++ [s.now + timeout] }

/-- The two assignments of `setCacheLifeExpectancy`. -/
def assign (s : Savers) (seconds : CInt) : Savers :=
  let mCacheLifeExpectancySeconds := CInt.toULong seconds
  { s with
    mConfig := ⟨CULong.toCInt mCacheLifeExpectancySeconds⟩
    setting := true
    changes := seconds :: s.changes }

/-- `saveCurrentConfig` reads the clock. -/
def call (s : Savers) (caller : Caller) (place : Place) : Savers :=
  { s with executions := s.executions ++ [⟨caller, s.now, place⟩] }

/-- `lastConfigSave = now`, and `save_config` begins. -/
def enter (s : Savers) (i : Nat) (e : Execution) : Savers :=
  ({ s with lastConfigSave := e.start } : Savers).replace i [{ e with place := .inside .checkFile }]

def go (rearm : Rearm) (s : Savers) (i : Nat) (e : Execution) (io : FileIo) : Option Savers :=
  match e.place with
  | .deciding durationMs =>
      if s.locked then none
      else if durationMs < MAX_DELAY_BETWEEN_SAVES_MS then
        some ((s.setSaveConfigTimer rearm (MAX_DELAY_BETWEEN_SAVES_MS - durationMs)).replace i [])
      else some (s.enter i e)
  | .storing => some (s.enter i e)
  | .inside stage =>
      match saveStep s.mConfig io s.configFile stage with
      | (configFile, .goes stage) =>
          some (({ s with configFile } : Savers).replace i [{ e with place := .inside stage }])
      | (configFile, .ends (.returns _)) => some (({ s with configFile } : Savers).replace i [])
      | (configFile, .ends .terminates) => some { s with configFile, terminated := true }

inductive Action where
  /-- The message thread makes the assignments of `setCacheLifeExpectancy`. -/
  | set (seconds : CInt)
  /-- It calls `saveCurrentConfig()`. -/
  | clock
  /-- The callback of the timer whose deadline stands at this place, or later. -/
  | fire (i : Nat)
  | go (i : Nat) (io : FileIo)
  | advance (ms : Nat)

def act (rearm : Rearm) (s : Savers) : Action → Option Savers
  | .set seconds =>
      if s.setting || s.executions.any fun e => e.caller = .setCacheLifeExpectancy then none
      else some (s.assign seconds)
  | .clock =>
      if s.setting then
        some (({ s with setting := false } : Savers).call .setCacheLifeExpectancy
          (.deciding (s.now - s.lastConfigSave)))
      else none
  | .fire i =>
      match s.timers[i]? with
      | none => none
      | some deadline =>
          if deadline ≤ s.now then
            some (({ s with timers := s.timers.eraseIdx i } : Savers).call .saveConfigTimer .storing)
          else none
  | .go i io =>
      match s.executions[i]? with
      | none => none
      | some e => s.go rearm i e io
  | .advance ms => some { s with now := s.now + ms }

def step (rearm : Rearm) (s : Savers) (action : Action) : Option Savers :=
  if s.terminated then none else s.act rearm action

/-- The configuration has been taken over; the constructor may be about to save it. -/
structure Started (s : Savers) : Prop where
  constructed : s.lastConfigSave ≤ s.now
  untimed : s.timers = []
  idle : s.setting = false
  unchanged : s.changes = []
  alive : s.terminated = false
  saving : s.executions = [] ∨
    s.executions = [⟨.constructor, s.lastConfigSave, .inside .checkFile⟩]

/-- No execution has taken longer than that. -/
def InTime (limit : Nat) (s : Savers) : Prop := ∀ e ∈ s.executions, s.now ≤ e.start + limit

/-- A call on the file that does what it is asked for. -/
def works (io : FileIo) : Bool :=
  io.existsError.isNone && io.creates && io.reads && io.writeFailure.isNone

/-- Time passes only within the limit of every execution, and the calls on the file work. -/
def Allowed (limit : Nat) (s : Savers) : Action → Bool
  | .advance ms => s.executions.all fun e => s.now + ms ≤ e.start + limit
  | .go _ io => works io
  | _ => true

/-- The machine over a first file that can be read and whose key can be assigned. -/
def furnished (rearm : Rearm) (limit : Nat) : StepMachine Savers Action where
  init s := s.Started ∧ s.InTime limit ∧ s.configFile ≠ .unparseable ∧ KeyFits s.configFile.root
  step := step rearm

/-- Executions that each take no longer than that. -/
def quick (rearm : Rearm) (limit : Nat) : StepMachine Savers Action :=
  (furnished rearm limit).restrict fun s action => s.Allowed limit action = true

/-- Nothing is saving or about to save. -/
structure Quiet (s : Savers) : Prop where
  untimed : s.timers = []
  idle : s.setting = false
  done : s.executions = []

/-- The settings hold the configuration. -/
def Holds (config : PermConfig) (root : Root) : Prop :=
  root.lookup CacheLifeExpectancyConfigKey = some (.int config.cacheLifeExpectancy)

/-- The program runs on, the configuration is the last value set, and so is the one in the
    file when nothing is going on; the other settings are the ones of the first file. -/
structure KeptUp (first s : Savers) : Prop where
  alive : s.terminated = false
  last : ∀ seconds ∈ s.changes.head?, s.mConfig = ⟨seconds⟩
  same : others CacheLifeExpectancyConfigKey s.configFile.root =
    others CacheLifeExpectancyConfigKey first.configFile.root
  saved : s.Quiet → s.changes ≠ [] ∨ first.executions ≠ [] → Holds s.mConfig s.configFile.root

/-! ## What one step of an execution does -/

/-- A root whose key can be assigned and whose other settings are these. -/
structure Kept (kept root : Root) : Prop where
  fits : KeyFits root
  same : others CacheLifeExpectancyConfigKey root = kept

def FileKept (kept : Root) (configFile : ConfigFile) : Prop :=
  configFile ≠ .unparseable ∧ Kept kept configFile.root

/-- What an execution has found is in order. -/
def StageKept (kept : Root) (configFile : ConfigFile) : Stage → Prop
  | .checkFile => True
  | .readFile => configFile ≠ .missing
  | .assign root | .writeFile root => Kept kept root

/-- A file that is there stays. -/
def Stays (configFile left : ConfigFile) : Prop := configFile ≠ .missing → left ≠ .missing

theorem stageKept_stays {kept : Root} {configFile left : ConfigFile} {stage : Stage}
    (held : StageKept kept configFile stage) (stays : Stays configFile left) :
    StageKept kept left stage := by
  cases stage with
  | readFile => exact stays held
  | _ => exact held

theorem holds_kept {kept root root' : Root} {config : PermConfig} (before : Kept kept root)
    (found : Holds config root')
    (same : others CacheLifeExpectancyConfigKey root' = others CacheLifeExpectancyConfigKey root) :
    Kept kept root' where
  fits := by
    intro setting bound
    rw [found] at bound
    cases bound
    exact ⟨_, rfl⟩
  same := same.trans before.same

theorem assignRoot_kept {kept root : Root} (config : PermConfig) (before : Kept kept root) :
    ∃ root', assignRoot config root = .ok root' ∧ Holds config root' ∧ Kept kept root' := by
  unfold assignRoot
  cases bound : root.lookup CacheLifeExpectancyConfigKey with
  | none =>
      obtain ⟨root', added, found, same⟩ := addInt_absent config.cacheLifeExpectancy bound
      rw [assignInt_absent _ bound, added]
      exact ⟨root', rfl, found, holds_kept before found same⟩
  | some setting =>
      obtain ⟨old, rfl⟩ := before.fits setting bound
      obtain ⟨root', assigned, found, same⟩ := assignInt_int config.cacheLifeExpectancy bound
      rw [assigned]
      exact ⟨root', rfl, found, holds_kept before found same⟩

theorem works_iff {io : FileIo} : works io = true ↔ io.Readable ∧ io.writeFailure = none := by
  unfold works
  constructor
  · intro works
    simp only [Bool.and_eq_true, Option.isNone_iff_eq_none] at works
    obtain ⟨⟨⟨existence, creates⟩, reads⟩, written⟩ := works
    exact ⟨⟨existence, creates, reads⟩, written⟩
  · rintro ⟨⟨existence, creates, reads⟩, written⟩
    simp [existence, creates, reads, written]

/-- The execution goes on, and when it has assigned, with the value of the configuration;
    or it has written what it had in its hands. -/
theorem saveStep_cases {kept : Root} (config : PermConfig) {io : FileIo} {configFile : ConfigFile}
    {stage : Stage} (working : works io = true) (file : FileKept kept configFile)
    (held : StageKept kept configFile stage) :
    (∃ left next, saveStep config io configFile stage = (left, .goes next) ∧
      Stays configFile left ∧ FileKept kept left ∧ StageKept kept left next ∧
      ∀ root, next = .writeFile root → Holds config root) ∨
    ∃ root, stage = .writeFile root ∧ Kept kept root ∧
      saveStep config io configFile stage = (.settings root, .ends (.returns true)) := by
  obtain ⟨readable, written⟩ := works_iff.mp working
  cases stage with
  | checkFile =>
      left
      cases configFile with
      | missing =>
          refine ⟨.settings [], .readFile, ?_, ?_, ⟨by simp, file.2⟩, by simp [StageKept], by simp⟩
          · simp [saveStep, ensureFile, readable.existence, readable.creates]
          · exact fun there => absurd rfl there
      | unparseable => exact absurd rfl file.1
      | settings root =>
          refine ⟨.settings root, .readFile, ?_, id, file, by simp [StageKept], by simp⟩
          simp [saveStep, ensureFile, readable.existence]
  | readFile =>
      left
      cases configFile with
      | missing => exact absurd rfl held
      | unparseable => exact absurd rfl file.1
      | settings root =>
          refine ⟨.settings root, .assign root, ?_, id, file, file.2, by simp⟩
          simp [saveStep, FileIo.readFile, readable.reads]
  | assign root =>
      obtain ⟨root', assigned, found, same⟩ := assignRoot_kept config held
      refine .inl ⟨configFile, .writeFile root', ?_, id, file, same, ?_⟩
      · rw [saveStep, assigned]
      · intro root'' next
        cases next
        exact found
  | writeFile root =>
      refine .inr ⟨root, rfl, held, ?_⟩
      rw [saveStep, writeFile, written]

/-! ## The invariant -/

/-- An execution that is about to write another value than the one of the configuration. -/
def Stale (config : PermConfig) (e : Execution) : Prop :=
  ∃ root, e.place = .inside (.writeFile root) ∧ ¬ Holds config root

/-- The message thread has yet to decide between a save and the timer. -/
def Undecided (s : Savers) : Prop :=
  s.setting = true ∨ ∃ e ∈ s.executions, ∃ durationMs, e.place = .deciding durationMs

/-- A save is still to come that does not write an old value. -/
def Pending (s : Savers) : Prop :=
  s.setting = true ∨ s.timers ≠ [] ∨ ∃ e ∈ s.executions, ¬ Stale s.mConfig e

structure Behaves (limit : Nat) (s first : Savers) (e : Execution) : Prop where
  begun : e.start ≤ s.now
  inTime : s.now ≤ e.start + limit
  caller : ∀ durationMs, e.place = .deciding durationMs → e.caller = .setCacheLifeExpectancy
  kept : ∀ stage, e.place = .inside stage →
    StageKept (others CacheLifeExpectancyConfigKey first.configFile.root) s.configFile stage
  /-- The last save began at most that long before an execution that is inside. -/
  stored : ∀ stage, e.place = .inside stage → e.start ≤ s.lastConfigSave + limit

structure Invariant (limit : Nat) (s first : Savers) : Prop where
  alive : s.terminated = false
  last : ∀ seconds ∈ s.changes.head?, s.mConfig = ⟨seconds⟩
  file : FileKept (others CacheLifeExpectancyConfigKey first.configFile.root) s.configFile
  clock : s.lastConfigSave ≤ s.now
  behaves : ∀ e ∈ s.executions, s.Behaves limit first e
  /-- What the message thread has measured rules out that it overtakes an old value. -/
  measured : ∀ e ∈ s.executions, ∀ durationMs, e.place = .deciding durationMs →
    ∀ f ∈ s.executions, Stale s.mConfig f →
      f.start + limit + durationMs < e.start + MAX_DELAY_BETWEEN_SAVES_MS
  /-- Behind every old value comes another save. -/
  covered : ∀ f ∈ s.executions, Stale s.mConfig f →
    s.Undecided ∨ ∃ deadline ∈ s.timers, f.start + limit < deadline
  owed : s.changes ≠ [] ∨ first.executions ≠ [] → Holds s.mConfig s.configFile.root ∨ s.Pending

section Replace

variable {s : Savers} {i : Nat} {e : Execution} {next : List Execution}

theorem mem_replace {f : Execution} (member : f ∈ (s.replace i next).executions) :
    f ∈ s.executions ∨ f ∈ next := by
  unfold replace at member
  simp only [List.mem_append] at member
  rcases member with (front | new) | back
  · exact .inl (List.mem_of_mem_take front)
  · exact .inr new
  · exact .inl (List.mem_of_mem_drop back)

theorem mem_replace_other (here : s.executions[i]? = some e) {f : Execution}
    (member : f ∈ s.executions) (other : f ≠ e) : f ∈ (s.replace i next).executions := by
  obtain ⟨j, there⟩ := List.mem_iff_getElem?.mp member
  have apart : j ≠ i := by
    rintro rfl
    rw [here] at there
    cases there
    exact other rfl
  unfold replace
  simp only [List.mem_append]
  rcases Nat.lt_or_gt_of_ne apart with before | behind
  · left; left
    exact List.mem_iff_getElem?.mpr ⟨j, by rw [List.getElem?_take_of_lt before, there]⟩
  · right
    refine List.mem_iff_getElem?.mpr ⟨j - (i + 1), ?_⟩
    rw [List.getElem?_drop, show i + 1 + (j - (i + 1)) = j by omega, there]

theorem mem_replace_next {f : Execution} (member : f ∈ next) :
    f ∈ (s.replace i next).executions := by
  unfold replace
  simp [member]

end Replace

theorem stale_inside {config : PermConfig} {e : Execution} (stale : Stale config e) :
    ∃ stage, e.place = .inside stage := by
  obtain ⟨root, place, -⟩ := stale
  exact ⟨_, place⟩

/-- Only what an execution is about to write can be old. -/
theorem not_stale {config : PermConfig} {e : Execution}
    (fresh : ∀ root, e.place = .inside (.writeFile root) → Holds config root) : ¬ Stale config e := by
  rintro ⟨root, place, old⟩
  exact old (fresh root place)

theorem setSaveConfigTimer_eq (rearm : Rearm) (s : Savers) (ms : Nat) :
    ∃ timers, s.setSaveConfigTimer rearm ms = { s with timers } ∧ s.now + max ms 1000 ∈ timers := by
  cases rearm with
  | replaces => exact ⟨_, rfl, List.mem_singleton_self _⟩
  | accumulates => exact ⟨_, rfl, List.mem_append_right _ (List.mem_singleton_self _)⟩

/-! ## One lemma for each step -/

section Steps

variable {limit : Nat} {first s : Savers}

theorem invariant_set (inv : s.Invariant limit first) (seconds : CInt)
    (free : ∀ e ∈ s.executions, e.caller ≠ .setCacheLifeExpectancy) :
    (s.assign seconds).Invariant limit first where
  alive := inv.alive
  last := by
    intro v head
    cases head
    show PermConfig.mk (CULong.toCInt (CInt.toULong seconds)) = ⟨seconds⟩
    rw [CInt.toULong_toCInt]
  file := inv.file
  clock := inv.clock
  behaves e member :=
    have old := inv.behaves e member
    ⟨old.begun, old.inTime, old.caller, old.kept, old.stored⟩
  measured e member durationMs place :=
    absurd ((inv.behaves e member).caller durationMs place) (free e member)
  covered f member stale := .inl (.inl rfl)
  owed set := .inr (.inl rfl)

/-- The message thread reads the clock: the last save began less than the limit before
    every old value, so the delay behind it outlasts that execution. -/
theorem invariant_clock (short : 2 * limit < MAX_DELAY_BETWEEN_SAVES_MS)
    (inv : s.Invariant limit first) :
    (({ s with setting := false } : Savers).call .setCacheLifeExpectancy
      (.deciding (s.now - s.lastConfigSave))).Invariant limit first where
  alive := inv.alive
  last := inv.last
  file := inv.file
  clock := inv.clock
  behaves e member := by
    rcases List.mem_append.mp member with old | new
    · have old := inv.behaves e old
      exact ⟨old.begun, old.inTime, old.caller, old.kept, old.stored⟩
    · cases List.mem_singleton.mp new
      exact ⟨Nat.le_refl _, Nat.le_add_right _ _, fun _ _ => rfl, nofun, nofun⟩
  measured e member durationMs place f inside stale := by
    rcases List.mem_append.mp inside with old | new
    · rcases List.mem_append.mp member with older | newer
      · exact inv.measured e older durationMs place f old stale
      · cases List.mem_singleton.mp newer
        cases place
        obtain ⟨stage, entered⟩ := stale_inside stale
        have stored := (inv.behaves f old).stored stage entered
        have clock := inv.clock
        show f.start + limit + (s.now - s.lastConfigSave) < s.now + MAX_DELAY_BETWEEN_SAVES_MS
        omega
    · cases List.mem_singleton.mp new
      exact absurd stale (not_stale nofun)
  covered f inside stale :=
    .inl (.inr ⟨_, List.mem_append_right _ (List.mem_singleton_self _), _, rfl⟩)
  owed set :=
    .inr (.inr (.inr ⟨_, List.mem_append_right _ (List.mem_singleton_self _), not_stale nofun⟩))

theorem mem_eraseIdx_other {l : List Nat} {i a b : Nat} (here : l[i]? = some b) (member : a ∈ l)
    (other : a ≠ b) : a ∈ l.eraseIdx i := by
  obtain ⟨j, there⟩ := List.mem_iff_getElem?.mp member
  refine List.mem_eraseIdx_iff_getElem?.mpr ⟨j, ?_, there⟩
  rintro rfl
  rw [here] at there
  cases there
  exact other rfl

/-- The deadline of a timer that comes behind an old value is past the limit of that
    execution, so the callback does not run beside it. -/
theorem invariant_fire (inv : s.Invariant limit first) {i deadline : Nat}
    (armed : s.timers[i]? = some deadline) (due : deadline ≤ s.now) :
    (({ s with timers := s.timers.eraseIdx i } : Savers).call .saveConfigTimer .storing).Invariant
      limit first where
  alive := inv.alive
  last := inv.last
  file := inv.file
  clock := inv.clock
  behaves e member := by
    rcases List.mem_append.mp member with old | new
    · have old := inv.behaves e old
      exact ⟨old.begun, old.inTime, old.caller, old.kept, old.stored⟩
    · cases List.mem_singleton.mp new
      exact ⟨Nat.le_refl _, Nat.le_add_right _ _, nofun, nofun, nofun⟩
  measured e member durationMs place f inside stale := by
    rcases List.mem_append.mp inside with old | new
    · rcases List.mem_append.mp member with older | newer
      · exact inv.measured e older durationMs place f old stale
      · cases List.mem_singleton.mp newer
        cases place
    · cases List.mem_singleton.mp new
      exact absurd stale (not_stale nofun)
  covered f inside stale := by
    rcases List.mem_append.mp inside with old | new
    · rcases inv.covered f old stale with (setting | ⟨e, member, deciding⟩) | ⟨T, pending, behind⟩
      · exact .inl (.inl setting)
      · exact .inl (.inr ⟨e, List.mem_append_left _ member, deciding⟩)
      · refine .inr ⟨T, mem_eraseIdx_other armed pending ?_, behind⟩
        rintro rfl
        have inTime := (inv.behaves f old).inTime
        omega
    · cases List.mem_singleton.mp new
      exact absurd stale (not_stale nofun)
  owed set :=
    .inr (.inr (.inr ⟨_, List.mem_append_right _ (List.mem_singleton_self _), not_stale nofun⟩))

theorem invariant_advance (inv : s.Invariant limit first) {ms : Nat}
    (within : ∀ e ∈ s.executions, s.now + ms ≤ e.start + limit) :
    ({ s with now := s.now + ms } : Savers).Invariant limit first where
  alive := inv.alive
  last := inv.last
  file := inv.file
  clock := Nat.le_add_right_of_le inv.clock
  behaves e member :=
    have old := inv.behaves e member
    ⟨Nat.le_add_right_of_le old.begun, within e member, old.caller, old.kept, old.stored⟩
  measured := inv.measured
  covered := inv.covered
  owed := inv.owed

section One

variable {i : Nat} {e : Execution}

/-- The others that come behind an old value still do when the execution at this place goes
    on, as long as it is not one of them. -/
theorem covered_replace (here : s.executions[i]? = some e)
    (entered : ∀ durationMs, e.place ≠ .deciding durationMs) (next : List Execution) {f : Execution}
    (covered : s.Undecided ∨ ∃ deadline ∈ s.timers, f.start + limit < deadline) :
    (s.replace i next).Undecided ∨ ∃ deadline ∈ s.timers, f.start + limit < deadline := by
  rcases covered with (setting | ⟨e', member, durationMs, place⟩) | timer
  · exact .inl (.inl setting)
  · refine .inl (.inr ⟨e', mem_replace_other here member ?_, durationMs, place⟩)
    rintro rfl
    exact entered durationMs place
  · exact .inr timer

theorem invariant_enter (inv : s.Invariant limit first) (here : s.executions[i]? = some e)
    (covered : ∀ f ∈ s.executions, Stale s.mConfig f →
      (s.enter i e).Undecided ∨ ∃ deadline ∈ s.timers, f.start + limit < deadline) :
    (s.enter i e).Invariant limit first := by
  have member : e ∈ s.executions := List.mem_of_getElem? here
  have late := (inv.behaves e member).inTime
  exact {
    alive := inv.alive
    last := inv.last
    file := inv.file
    clock := (inv.behaves e member).begun
    behaves := by
      intro f inside
      rcases mem_replace inside with old | new
      · have old := inv.behaves f old
        exact ⟨old.begun, old.inTime, old.caller, old.kept, fun _ _ => old.begun.trans late⟩
      · cases List.mem_singleton.mp new
        refine ⟨(inv.behaves e member).begun, late, nofun, ?_, fun _ _ => Nat.le_add_right _ _⟩
        intro stage place
        cases place
        trivial
    measured := by
      intro f inside durationMs place g beside stale
      rcases mem_replace beside with old | new
      · rcases mem_replace inside with older | newer
        · exact inv.measured f older durationMs place g old stale
        · cases List.mem_singleton.mp newer
          cases place
      · cases List.mem_singleton.mp new
        exact absurd stale (not_stale nofun)
    covered := by
      intro f inside stale
      rcases mem_replace inside with old | new
      · exact covered f old stale
      · cases List.mem_singleton.mp new
        exact absurd stale (not_stale nofun)
    owed := fun _ =>
      .inr (.inr (.inr ⟨_, mem_replace_next (List.mem_singleton_self _), not_stale nofun⟩)) }

theorem invariant_arm (rearm : Rearm) (inv : s.Invariant limit first)
    (here : s.executions[i]? = some e) {durationMs : Nat} (place : e.place = .deciding durationMs)
    (early : durationMs < MAX_DELAY_BETWEEN_SAVES_MS) :
    ((s.setSaveConfigTimer rearm (MAX_DELAY_BETWEEN_SAVES_MS - durationMs)).replace i []).Invariant
      limit first := by
  have member : e ∈ s.executions := List.mem_of_getElem? here
  obtain ⟨timers, armed, pending⟩ :=
    setSaveConfigTimer_eq rearm s (MAX_DELAY_BETWEEN_SAVES_MS - durationMs)
  rw [armed]
  have others {f : Execution} (inside : f ∈ (({ s with timers } : Savers).replace i []).executions) :
      f ∈ s.executions := (mem_replace inside).resolve_right List.not_mem_nil
  exact {
    alive := inv.alive
    last := inv.last
    file := inv.file
    clock := inv.clock
    behaves := by
      intro f inside
      have old := inv.behaves f (others inside)
      exact ⟨old.begun, old.inTime, old.caller, old.kept, old.stored⟩
    measured := by
      intro f inside durationMs place g beside stale
      exact inv.measured f (others inside) durationMs place g (others beside) stale
    covered := by
      intro f inside stale
      refine .inr ⟨_, pending, ?_⟩
      have measured := inv.measured e member durationMs place f (others inside) stale
      have begun := (inv.behaves e member).begun
      omega
    owed := fun _ => .inr (.inr (.inl (List.ne_nil_of_mem pending))) }

/-- There is no old value on its way when the message thread saves at once. -/
theorem no_stale (inv : s.Invariant limit first) (member : e ∈ s.executions) {durationMs : Nat}
    (place : e.place = .deciding durationMs) (late : MAX_DELAY_BETWEEN_SAVES_MS ≤ durationMs) :
    ∀ f ∈ s.executions, ¬ Stale s.mConfig f := by
  intro f inside stale
  have measured := inv.measured e member durationMs place f inside stale
  have begun := (inv.behaves e member).begun
  have inTime := (inv.behaves f inside).inTime
  omega

theorem invariant_goes (inv : s.Invariant limit first) (here : s.executions[i]? = some e)
    {stage next : Stage} (place : e.place = .inside stage) {left : ConfigFile}
    (stays : Stays s.configFile left)
    (file : FileKept (others CacheLifeExpectancyConfigKey first.configFile.root) left)
    (held : StageKept (others CacheLifeExpectancyConfigKey first.configFile.root) left next)
    (fresh : ∀ root, next = .writeFile root → Holds s.mConfig root) :
    (({ s with configFile := left } : Savers).replace i
      [{ e with place := .inside next }]).Invariant limit first := by
  have member : e ∈ s.executions := List.mem_of_getElem? here
  have behaved := inv.behaves e member
  have renewed : ¬ Stale s.mConfig { e with place := .inside next } := by
    apply not_stale
    intro root going
    cases going
    exact fresh root rfl
  exact {
    alive := inv.alive
    last := inv.last
    file := file
    clock := inv.clock
    behaves := by
      intro f inside
      rcases mem_replace inside with old | new
      · have old := inv.behaves f old
        exact ⟨old.begun, old.inTime, old.caller,
          fun stage place => stageKept_stays (old.kept stage place) stays, old.stored⟩
      · cases List.mem_singleton.mp new
        refine ⟨behaved.begun, behaved.inTime, nofun, ?_, fun _ _ => behaved.stored stage place⟩
        intro stage going
        cases going
        exact held
    measured := by
      intro f inside durationMs place g beside stale
      rcases mem_replace beside with old | new
      · rcases mem_replace inside with older | newer
        · exact inv.measured f older durationMs place g old stale
        · cases List.mem_singleton.mp newer
          cases place
      · cases List.mem_singleton.mp new
        exact absurd stale renewed
    covered := by
      intro f inside stale
      rcases mem_replace inside with old | new
      · refine covered_replace here ?_ _ (inv.covered f old stale)
        intro durationMs deciding
        rw [place] at deciding
        cases deciding
      · cases List.mem_singleton.mp new
        exact absurd stale renewed
    owed := fun _ => .inr (.inr (.inr ⟨_, mem_replace_next (List.mem_singleton_self _), renewed⟩)) }

theorem invariant_write (inv : s.Invariant limit first) (here : s.executions[i]? = some e)
    {root : Root} (place : e.place = .inside (.writeFile root))
    (kept : Kept (others CacheLifeExpectancyConfigKey first.configFile.root) root) :
    (({ s with configFile := .settings root } : Savers).replace i []).Invariant limit first := by
  have member : e ∈ s.executions := List.mem_of_getElem? here
  have others {f : Execution} (inside : f ∈ (s.replace i []).executions) : f ∈ s.executions :=
    (mem_replace inside).resolve_right List.not_mem_nil
  have entered (durationMs : Nat) : e.place ≠ .deciding durationMs := by
    rw [place]
    exact nofun
  exact {
    alive := inv.alive
    last := inv.last
    file := ⟨nofun, kept⟩
    clock := inv.clock
    behaves := by
      intro f inside
      have old := inv.behaves f (others inside)
      exact ⟨old.begun, old.inTime, old.caller,
        fun stage place => stageKept_stays (old.kept stage place) (fun _ => nofun), old.stored⟩
    measured := by
      intro f inside durationMs place g beside stale
      exact inv.measured f (others inside) durationMs place g (others beside) stale
    covered := by
      intro f inside stale
      exact covered_replace here entered [] (inv.covered f (others inside) stale)
    owed := by
      intro _
      by_cases current : Holds s.mConfig root
      · exact .inl current
      · -- An old value is written, and the save behind it is pending.
        have covered := covered_replace here entered []
          (inv.covered e member ⟨root, place, current⟩)
        rcases covered with (setting | ⟨f, inside, durationMs, deciding⟩) | ⟨deadline, pending, -⟩
        · exact .inr (.inl setting)
        · refine .inr (.inr (.inr ⟨f, inside, not_stale ?_⟩))
          intro root going
          rw [deciding] at going
          cases going
        · exact .inr (.inr (.inl (List.ne_nil_of_mem pending))) }

theorem invariant_go {rearm : Rearm} {io : FileIo} {s' : Savers} (inv : s.Invariant limit first)
    (here : s.executions[i]? = some e) (working : works io = true)
    (stepped : s.go rearm i e io = some s') : s'.Invariant limit first := by
  have member : e ∈ s.executions := List.mem_of_getElem? here
  unfold go at stepped
  cases place : e.place with
  | deciding durationMs =>
      simp only [place, Option.ite_none_left_eq_some] at stepped
      obtain ⟨-, stepped⟩ := stepped
      split at stepped
      · rename_i early
        cases stepped
        exact invariant_arm rearm inv here place early
      · rename_i late
        cases stepped
        apply invariant_enter inv here
        intro f inside stale
        exact absurd stale (no_stale inv member place (Nat.le_of_not_lt late) f inside)
  | storing =>
      simp only [place] at stepped
      cases stepped
      apply invariant_enter inv here
      intro f inside stale
      refine covered_replace here ?_ _ (inv.covered f inside stale)
      intro durationMs deciding
      rw [place] at deciding
      cases deciding
  | inside stage =>
      simp only [place] at stepped
      rcases saveStep_cases s.mConfig working inv.file
          ((inv.behaves e member).kept stage place) with
        ⟨left, next, saved, stays, file, held, fresh⟩ | ⟨root, rfl, kept, saved⟩
      · rw [saved] at stepped
        cases stepped
        exact invariant_goes inv here place stays file held fresh
      · rw [saved] at stepped
        cases stepped
        exact invariant_write inv here place kept

end One

end Steps

theorem invariant_step {rearm : Rearm} {limit : Nat} (short : 2 * limit < MAX_DELAY_BETWEEN_SAVES_MS)
    {first s s' : Savers} {action : Action} (inv : s.Invariant limit first)
    (allowed : s.Allowed limit action = true) (stepped : step rearm s action = some s') :
    s'.Invariant limit first := by
  rw [step, if_neg (Bool.eq_false_iff.mp inv.alive)] at stepped
  cases action with
  | set seconds =>
      simp only [act, Option.ite_none_left_eq_some, Bool.or_eq_true, not_or,
        Bool.not_eq_true] at stepped
      obtain ⟨⟨-, free⟩, stepped⟩ := stepped
      cases stepped
      apply invariant_set inv
      intro e member busy
      have free := List.any_eq_false.mp free e member
      simp [busy] at free
  | clock =>
      simp only [act, Option.ite_none_right_eq_some] at stepped
      obtain ⟨-, stepped⟩ := stepped
      cases stepped
      exact invariant_clock short inv
  | fire i =>
      cases armed : s.timers[i]? with
      | none =>
          simp only [act, armed] at stepped
          cases stepped
      | some deadline =>
          simp only [act, armed, Option.ite_none_right_eq_some] at stepped
          obtain ⟨due, stepped⟩ := stepped
          cases stepped
          exact invariant_fire inv armed due
  | go i io =>
      cases here : s.executions[i]? with
      | none =>
          simp only [act, here] at stepped
          cases stepped
      | some e =>
          simp only [act, here] at stepped
          exact invariant_go inv here allowed stepped
  | advance ms =>
      cases stepped
      apply invariant_advance inv
      intro e member
      simpa using List.all_eq_true.mp allowed e member

theorem invariant_init {rearm : Rearm} {limit : Nat} {s : Savers}
    (init : (quick rearm limit).init s) : s.Invariant limit s := by
  obtain ⟨started, inTime, parseable, fits⟩ := init
  have place {e : Execution} (member : e ∈ s.executions) : e.place = .inside .checkFile ∧
      e.start = s.lastConfigSave := by
    rcases started.saving with none | saving
    · rw [none] at member
      cases member
    · rw [saving] at member
      cases List.mem_singleton.mp member
      exact ⟨rfl, rfl⟩
  have fresh {e : Execution} (member : e ∈ s.executions) : ¬ Stale s.mConfig e := by
    apply not_stale
    intro root going
    rw [(place member).1] at going
    cases going
  exact {
    alive := started.alive
    last := by
      intro seconds head
      rw [started.unchanged] at head
      cases head
    file := ⟨parseable, fits, rfl⟩
    clock := started.constructed
    behaves := by
      intro e member
      obtain ⟨inside, start⟩ := place member
      refine ⟨start ▸ started.constructed, inTime e member, ?_, ?_, ?_⟩
      · intro durationMs deciding
        rw [inside] at deciding
        cases deciding
      · intro stage going
        rw [inside] at going
        cases going
        trivial
      · intro stage _
        rw [start]
        exact Nat.le_add_right _ _
    measured := fun e _ durationMs _ f member stale => absurd stale (fresh member)
    covered := fun f member stale => absurd stale (fresh member)
    owed := by
      rintro (changed | saving)
      · exact absurd started.unchanged changed
      · obtain ⟨e, member⟩ := List.exists_mem_of_ne_nil _ saving
        exact .inr (.inr (.inr ⟨e, member, fresh member⟩)) }

theorem invariant_keptUp {limit : Nat} {first s : Savers} (inv : s.Invariant limit first) :
    KeptUp first s where
  alive := inv.alive
  last := inv.last
  same := inv.file.2.same
  saved := by
    intro quiet set
    rcases inv.owed set with saved | setting | timers | ⟨e, member, -⟩
    · exact saved
    · rw [quiet.idle] at setting
      cases setting
    · exact absurd quiet.untimed timers
    · rw [quiet.done] at member
      cases member

/-! ## The limit -/

theorem allowed_mono {limit limit' : Nat} (longer : limit ≤ limit') (s : Savers) (action : Action)
    (allowed : s.Allowed limit action = true) : s.Allowed limit' action = true := by
  cases action with
  | advance ms =>
      refine List.all_eq_true.mpr fun e member => decide_eq_true ?_
      have within := of_decide_eq_true (List.all_eq_true.mp allowed e member)
      omega
  | _ => exact allowed

/-- A constructed server over a file with the key. -/
def thousand : Savers :=
  ⟨0, 0, ⟨1000⟩, .settings [(CacheLifeExpectancyConfigKey, .int 1000)], [], [], false, [], false⟩

/-- One call of `saveCurrentConfig()` is held up for half the delay before it arms the timer,
    and so is one behind `lastConfigSave = now`: the callback of that timer takes over 80,
    and is itself held up for half the delay while the message thread saves 120. -/
def overtaken : List Action :=
  let go i := Action.go i reliableIo
  [.set 70, .clock, .advance 2500, go 0, .advance 2500, .set 80, .clock, .advance 2500, .fire 0,
    go 1, go 0, go 0, go 0, go 0, go 0, go 0, go 0, go 0, .advance 2500,
    .set 120, .clock, go 1, go 1, go 1, go 1, go 1, go 0]

/-- All is done, and the file has the value before the last one. -/
def outrun : Savers :=
  ⟨10000, 10000, ⟨120⟩, .settings [(CacheLifeExpectancyConfigKey, .int 80)], [], [], false,
    [120, 80, 70], false⟩

theorem overtaken_run (rearm : Rearm) : (quick rearm 2500).run thousand overtaken = some outrun := by
  cases rearm with
  | replaces => rfl
  | accumulates => rfl

theorem outrun_old : ¬ Holds outrun.mConfig outrun.configFile.root := by
  intro holds
  have found : outrun.configFile.root.lookup CacheLifeExpectancyConfigKey = some (.int 80) :=
    List.lookup_cons_self
  rw [Holds, found] at holds
  exact absurd (Setting.int.inj (Option.some.inj holds)) (by decide)

theorem thousand_init (rearm : Rearm) (limit : Nat) : (quick rearm limit).init thousand := by
  refine ⟨⟨Nat.le_refl 0, rfl, rfl, rfl, rfl, .inl rfl⟩, nofun, nofun, ?_⟩
  intro setting bound
  rw [show thousand.configFile.root = [(CacheLifeExpectancyConfigKey, .int 1000)] from rfl,
    List.lookup_cons_self] at bound
  cases bound
  exact ⟨_, rfl⟩

/-- Whatever is set at whatever times, in every order of the steps, the last value ends in
    the file exactly when every execution takes less than half the delay between saves. -/
theorem overlapping_saves_iff (rearm : Rearm) (limit : Nat) :
    (∀ first actions s, (quick rearm limit).init first →
      (quick rearm limit).run first actions = some s → KeptUp first s) ↔
    2 * limit < MAX_DELAY_BETWEEN_SAVES_MS := by
  constructor
  · intro keptUp
    by_contra long
    have longer : 2500 ≤ limit := by
      unfold MAX_DELAY_BETWEEN_SAVES_MS at long
      omega
    have run := restrict_run_mono (allowed_mono longer) (overtaken_run rearm)
    have kept := keptUp thousand overtaken outrun (thousand_init rearm limit) run
    exact outrun_old (kept.saved ⟨rfl, rfl, rfl⟩ (.inl (List.cons_ne_nil _ _)))
  · intro short first actions s init run
    have inv : s.Invariant limit first := by
      refine run_invariant (fun s => s.Invariant limit first) ?_ (invariant_init init) run
      intro s action s' inv stepped
      obtain ⟨allowed, stepped⟩ := restrict_step.mp stepped
      exact invariant_step short inv allowed stepped
    exact invariant_keptUp inv

end Savers

end RpiFanServe.Config
