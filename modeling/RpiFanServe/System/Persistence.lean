import RpiFanServe.Config.Savers
import RpiFanServe.System.Restart

/-! # A number outlives the programs

Once a number, such as rpi-fan-serve-ctrl sets one, is in effect and saved, both parties may
be stopped and started again at any moment: as long as nobody sets another one, the file is
there to be loaded and no write fails half-way, the server runs with that number whenever
its constructor is done.
-/

namespace RpiFanServe.System

open CString Dbus Config StepMachine PermanentConfig

open Savers (Holds)

/-- The file holds what the server would save, and no exception has ended it. -/
structure Saved (s : System) : Prop where
  alive : s.terminated = false
  file : Holds s.life.startup.mConfig s.configFile.root

/-- Nobody writes another number, a load finds the file, and no write fails half-way. -/
def Lasting (s : System) : Action → Bool
  | .control isConnected argv => (writes (.control isConnected argv)).all invalidCacheLifeExpectancy
  | .write value => invalidCacheLifeExpectancy value
  | .server (.startup (.load answers)) io =>
      (loadConfig s.life.startup.mConfig
        { answers with readFile := io.readFile s.configFile }).1 = .LOAD_SUCCESS
  | .server _ io => io.writeFailure.isNone
  | _ => true

/-- The machine that takes only these steps. -/
def lasting : StepMachine System Action := machine.restrict fun s action => s.Lasting action = true

/-! ## The file -/

section File

variable {config : PermConfig} {configFile : ConfigFile}

theorem holds_settings (held : Holds config configFile.root) :
    ∃ root, configFile = .settings root ∧ Holds config root := by
  cases configFile with
  | settings root => exact ⟨root, rfl, held⟩
  | _ => cases held

theorem saveConfig_holds {io : FileIo} (held : Holds config configFile.root)
    (written : io.writeFailure = none) :
    ∃ success left, saveConfig config io configFile = (.returns success, left) ∧
      Holds config left.root := by
  obtain ⟨root, rfl, found⟩ := holds_settings held
  obtain ⟨root', assigned, found', -⟩ := assignInt_int config.cacheLifeExpectancy found
  unfold saveConfig ensureFile
  cases io.existsError with
  | some error => exact ⟨false, _, rfl, held⟩
  | none =>
      simp only [FileIo.readFile]
      cases io.reads with
      | false => exact ⟨false, _, rfl, held⟩
      | true =>
          simp only [if_true, saveRoot, assigned, writeFile, written]
          exact ⟨true, _, rfl, found'⟩

theorem loadConfig_holds {mConfig : PermConfig} {answers : Answers} {io : FileIo}
    (held : Holds config configFile.root) (read : answers.readFile = io.readFile configFile)
    (success : (loadConfig mConfig answers).1 = .LOAD_SUCCESS) :
    (loadConfig mConfig answers).2 = config := by
  obtain ⟨root, rfl, found⟩ := holds_settings held
  have parsed := loadConfig_success success
  rw [read, FileIo.readFile] at parsed
  cases reads : io.reads with
  | false =>
      rw [reads] at parsed
      cases parsed
  | true =>
      rw [reads, if_pos rfl, parseConfigFile, lookupInt, found] at parsed
      exact (congrArg Prod.snd parsed).symm

end File

/-! ## The invariant -/

/-- The constructor has not loaded the file yet and nothing is to be saved, or it has the
    configuration from it. -/
def Loaded (config : PermConfig) (life : Life) : Prop :=
  match life.startup.constructor with
  | .loading => life.saving = false ∧ life.savingDefault = false ∧ life.armed = false
  | .checked lrv => lrv = .LOAD_SUCCESS ∧ life.startup.mConfig = config
  | .done => life.startup.mConfig = config ∧
      life.startup.mCacheLifeExpectancySeconds = CInt.toULong config.cacheLifeExpectancy

structure Lasts (config : PermConfig) (s : System) : Prop where
  alive : s.terminated = false
  file : Holds config s.configFile.root
  framed : Link.Framed s.link
  silent : ∀ payload ∈ s.link.payloads, Link.payloadValue payload = none
  idle : s.life.startup.message = .idle
  loaded : Loaded config s.life

section Steps

variable {config : PermConfig} {s s' : System}

theorem Lasts.arriving (lasts : s.Lasts config) {msg : Bytes} (arrived : arriving s.link = some msg) :
    receiveCallback msg = none :=
  Option.map_eq_none_iff.mp (lasts.silent msg (arriving_mem arrived))

theorem Lasts.write (lasts : s.Lasts config) {value : CLong}
    (refused : invalidCacheLifeExpectancy value = true) : (s.write value).Lasts config := by
  obtain ⟨framed, -, queued⟩ := Link.write_payloads lasts.framed value
  rw [refused, if_pos rfl] at queued
  refine ⟨lasts.alive, lasts.file, framed, ?_, lasts.idle, lasts.loaded⟩
  rw [show (s.write value).link.payloads = _ from queued.1]
  exact lasts.silent

theorem Lasts.client {link : Link} (lasts : s.Lasts config) (stepped : s.link.clientStep = some link) :
    ({ s with link } : System).Lasts config := by
  obtain ⟨framed, same, -, -⟩ := Link.clientStep_payloads lasts.framed stepped
  rw [List.filterMap_eq_nil_iff.mpr lasts.silent, List.filterMap_eq_nil_iff] at same
  exact { lasts with framed, silent := same }

theorem Lasts.fewer {link : Link} (lasts : s.Lasts config) (framed : Link.Framed link)
    (fewer : link.payloads ⊆ s.link.payloads) : ({ s with link } : System).Lasts config :=
  { lasts with framed, silent := fun payload member => lasts.silent payload (fewer member) }

theorem Lasts.receive (lasts : s.Lasts config) (stepped : s.receiveStep = some s') :
    s'.Lasts config := by
  obtain ⟨received, file, alive, -, taken⟩ := receiveStep_parts stepped
  obtain ⟨payload, framed, payloads, -, -⟩ := Link.receiveStep_payloads lasts.framed received
  have same : s'.life = s.life := by
    cases arrived : System.arriving s.link with
    | none =>
        rw [arrived] at taken
        exact taken
    | some msg =>
        rw [arrived] at taken
        simp only [Life.step, Life.startupStep, Option.ite_none_left_eq_some, Startup.receiveStep,
          lasts.idle, lasts.arriving arrived, Option.map_some] at taken
        exact (Option.some.inj taken.2).symm
  refine ⟨alive.trans lasts.alive, file ▸ lasts.file, framed, ?_, same ▸ lasts.idle,
    same ▸ lasts.loaded⟩
  intro payload' member
  exact lasts.silent payload' (payloads ▸ List.mem_cons_of_mem _ member)

theorem Loaded.begun {life life' : Life} {action : Life.Action} (loaded : Loaded config life)
    (other : ∀ a, action ≠ .startup a) (stepped : life.step action = some life') :
    life.startup.constructor ≠ .loading := by
  intro pc
  rw [Loaded, pc] at loaded
  obtain ⟨idle, noDefault, unarmed⟩ := loaded
  cases action with
  | startup a => exact other a rfl
  | saveDefault => simp [Life.step, noDefault] at stepped
  | saveCurrentConfig durationMs => simp [Life.step, idle] at stepped
  | fire => simp [Life.step, unarmed] at stepped

theorem Loaded.config_eq {life : Life} (loaded : Loaded config life)
    (begun : life.startup.constructor ≠ .loading) : life.startup.mConfig = config := by
  unfold Loaded at loaded
  cases pc : life.startup.constructor with
  | loading => exact absurd pc begun
  | checked lrv =>
      rw [pc] at loaded
      exact loaded.2
  | done =>
      rw [pc] at loaded
      exact loaded.1

theorem Loaded.of_startup {life life' : Life} (loaded : Loaded config life)
    (begun : life.startup.constructor ≠ .loading) (same : life'.startup = life.startup) :
    Loaded config life' := by
  unfold Loaded at loaded ⊢
  rw [same]
  cases pc : life.startup.constructor with
  | loading => exact absurd pc begun
  | checked lrv =>
      rw [pc] at loaded
      exact loaded
  | done =>
      rw [pc] at loaded
      exact loaded

theorem Loaded.load {life life' : Life} {answers : Answers} {io : FileIo} {configFile : ConfigFile}
    (held : Holds config configFile.root) (read : answers.readFile = io.readFile configFile)
    (success : (loadConfig life.startup.mConfig answers).1 = .LOAD_SUCCESS)
    (stepped : life.step (.startup (.load answers)) = some life') :
    Loaded config life' ∧ life'.startup.message = life.startup.message := by
  have found := loadConfig_holds held read success
  simp only [Life.step, Life.startupStep, Startup.loadStep, Option.map_eq_some_iff] at stepped
  obtain ⟨startup, stepped, rfl⟩ := stepped
  cases result : loadConfig life.startup.mConfig answers with
  | mk lrv mConfig =>
      rw [result] at success found stepped
      split at stepped
      · cases stepped
        exact ⟨⟨success, found⟩, rfl⟩
      · cases stepped

theorem Loaded.adopt {life life' : Life} (loaded : Loaded config life)
    (stepped : life.step (.startup .adopt) = some life') :
    Loaded config life' ∧ life'.startup.message = life.startup.message := by
  simp only [Life.step, Life.startupStep, Option.map_eq_some_iff] at stepped
  obtain ⟨startup, stepped, rfl⟩ := stepped
  rcases Startup.adoptStep_cases stepped with ⟨pc, rfl⟩ | ⟨lrv, pc, failed, -⟩
  · rw [Loaded, pc] at loaded
    refine ⟨⟨loaded.2, ?_⟩, rfl⟩
    rw [loaded.2]
  · rw [Loaded, pc] at loaded
    exact absurd loaded.1 failed

theorem Lasts.save (lasts : s.Lasts config) {io : FileIo}
    (same : s.life.startup.mConfig = config) (written : io.writeFailure = none) :
    Holds config (s.save io).configFile.root ∧ (s.save io).terminated = false := by
  obtain ⟨success, left, saved, held⟩ := saveConfig_holds lasts.file written
  unfold System.save
  rw [same, saved]
  exact ⟨held, lasts.alive⟩

theorem Lasts.starting {a : Startup.Action} {io : FileIo} (lasts : s.Lasts config)
    (allowed : s.Lasting (.server (.startup a) io) = true)
    (stepped : s.serverStep (.startup a) io = some s') : s'.Lasts config := by
  obtain ⟨sent, ⟨link, -⟩, taken, file⟩ := serverStep_parts stepped
  rw [show saves (.startup a) = false from rfl, if_neg Bool.false_ne_true, Prod.mk.injEq] at file
  have loaded : Loaded config s'.life ∧ s'.life.startup.message = s.life.startup.message := by
    cases a with
    | load answers => exact Loaded.load lasts.file rfl (of_decide_eq_true allowed) taken
    | adopt => exact lasts.loaded.adopt taken
    | receive msg => exact absurd rfl (sent msg)
    | assign => simp [reads, Life.step, Life.startupStep, Startup.assignStep, lasts.idle] at taken
  exact ⟨file.2.trans lasts.alive, file.1 ▸ lasts.file, link ▸ lasts.framed, link ▸ lasts.silent,
    loaded.2.trans lasts.idle, loaded.1⟩

/-- What is saved is what the file holds already. -/
theorem Lasts.other {action : Life.Action} {io : FileIo} (lasts : s.Lasts config)
    (other : ∀ a, action ≠ .startup a) (written : io.writeFailure = none)
    (stepped : s.serverStep action io = some s') : s'.Lasts config := by
  obtain ⟨-, ⟨link, -⟩, taken, file⟩ := serverStep_parts stepped
  have asked : s.reads io action = action := by
    cases action with
    | startup a => exact absurd rfl (other a)
    | _ => rfl
  rw [asked] at taken
  have begun := lasts.loaded.begun other taken
  have same : s'.life.startup = s.life.startup := by
    rcases Life.step_startup taken with ⟨a, starts, -⟩ | ⟨-, same⟩
    · exact absurd starts (other a)
    · exact same
  have kept : Holds config s'.configFile.root ∧ s'.terminated = false := by
    split at file
    · obtain ⟨held, alive⟩ := lasts.save (lasts.loaded.config_eq begun) written
      rw [Prod.mk.injEq] at file
      rw [file.1, file.2]
      exact ⟨held, alive⟩
    · rw [Prod.mk.injEq] at file
      rw [file.1, file.2]
      exact ⟨lasts.file, lasts.alive⟩
  exact ⟨kept.2, kept.1, link ▸ lasts.framed, link ▸ lasts.silent, same ▸ lasts.idle,
    lasts.loaded.of_startup begun same⟩

theorem Lasts.server {action : Life.Action} {io : FileIo} (lasts : s.Lasts config)
    (allowed : s.Lasting (.server action io) = true) (stepped : s.serverStep action io = some s') :
    s'.Lasts config := by
  cases action with
  | startup a => exact lasts.starting allowed stepped
  | saveDefault | saveCurrentConfig durationMs | fire =>
      refine lasts.other ?_ (Option.isNone_iff_eq_none.mp allowed) stepped
      intro a same
      cases same

theorem lasts_step {action : Action} (lasts : s.Lasts config) (allowed : s.Lasting action = true)
    (stepped : s.step action = some s') : s'.Lasts config := by
  cases action with
  | control isConnected argv =>
      simp only [Lasting, writes] at allowed
      simp only [step] at stepped
      cases set : Cli.Control.main isConnected argv with
      | set cle =>
          rw [set] at stepped allowed
          cases stepped
          apply lasts.write
          simpa using allowed
      | _ =>
          rw [set] at stepped
          cases stepped
          exact lasts
  | write value =>
      cases stepped
      exact lasts.write allowed
  | join =>
      simp only [step, Option.ite_none_left_eq_some] at stepped
      cases stepped.2
      exact { lasts with }
  | client =>
      obtain ⟨link, sent, rfl⟩ := Option.map_eq_some_iff.mp stepped
      exact lasts.client sent
  | drop =>
      simp only [step, Option.ite_none_left_eq_some] at stepped
      obtain ⟨link, dropped, rfl⟩ := Option.map_eq_some_iff.mp stepped.2
      obtain ⟨framed, fewer, -⟩ := dropStep_payloads lasts.framed dropped
      exact lasts.fewer framed fewer
  | receive =>
      simp only [step, Option.ite_none_left_eq_some] at stepped
      exact lasts.receive stepped.2
  | server action io =>
      simp only [step, Option.ite_none_left_eq_some] at stepped
      exact lasts.server allowed stepped.2
  | restart mConfig lost =>
      cases stepped
      obtain ⟨framed, fewer⟩ := payloads_drop lasts.framed lost
      exact ⟨rfl, lasts.file, framed, fun payload member => lasts.silent payload (fewer member), rfl,
        ⟨rfl, rfl, rfl⟩⟩
  | helper property =>
      cases stepped
      obtain ⟨framed, fewer⟩ := payloads_helper lasts.framed property
      exact { lasts.fewer framed fewer with }

end Steps

theorem framed_step {s s' : System} {action : Action} (framed : Link.Framed s.link)
    (stepped : s.step action = some s') : Link.Framed s'.link := by
  cases action with
  | control isConnected argv =>
      simp only [step] at stepped
      split at stepped
      · cases stepped
        exact (Link.write_payloads framed _).1
      · cases stepped
        exact framed
  | write value =>
      cases stepped
      exact (Link.write_payloads framed value).1
  | join =>
      simp only [step, Option.ite_none_left_eq_some] at stepped
      cases stepped.2
      exact framed
  | client =>
      obtain ⟨link, sent, rfl⟩ := Option.map_eq_some_iff.mp stepped
      exact (Link.clientStep_payloads framed sent).1
  | drop =>
      simp only [step, Option.ite_none_left_eq_some] at stepped
      obtain ⟨link, dropped, rfl⟩ := Option.map_eq_some_iff.mp stepped.2
      exact (dropStep_payloads framed dropped).1
  | receive =>
      simp only [step, Option.ite_none_left_eq_some] at stepped
      obtain ⟨payload, framed, -⟩ :=
        Link.receiveStep_payloads framed (receiveStep_parts stepped.2).1
      exact framed
  | server action io =>
      simp only [step, Option.ite_none_left_eq_some] at stepped
      exact (serverStep_parts stepped.2).2.1.1 ▸ framed
  | restart mConfig lost =>
      cases stepped
      exact (payloads_drop framed lost).1
  | helper property =>
      cases stepped
      exact (payloads_helper framed property).1

theorem framed {s : System} (reachable : machine.Reachable s) : Link.Framed s.link := by
  refine reachable.invariant (fun s => Link.Framed s.link) ?_ fun s action s' => framed_step
  rintro s ⟨property, mConfig, configFile, rfl⟩
  exact (Sound.start property).framed

/-- Once a number is in effect and saved, whatever has happened before, it stays: over every
    later run in which nobody sets another one, with messages lost and either party started
    again as often as may be, the file holds it, and the server uses it whenever its
    constructor is done. -/
theorem control_survives_restarts {t u : System} {v : CLong} {later : List Action}
    (reachable : machine.Reachable t) (settled : t.Settled) (inEffect : t.InEffect v.toNat)
    (saved : t.Saved) (lasted : lasting.run t later = some u) :
    u.terminated = false ∧
      (∃ seconds, u.configFile.root.lookup CacheLifeExpectancyConfigKey = some (.int seconds) ∧
        seconds.toInt = v.toNat) ∧
      (u.life.startup.constructor = .done → u.life.startup.mCacheLifeExpectancySeconds = v) := by
  have lasts : u.Lasts t.life.startup.mConfig := by
    refine run_invariant (fun s => s.Lasts t.life.startup.mConfig) ?_ ?_ lasted
    · intro s action s' lasts stepped
      obtain ⟨allowed, stepped⟩ := restrict_step.mp stepped
      exact lasts_step lasts allowed stepped
    · obtain ⟨queue, client, wire⟩ := settled.drained
      refine ⟨saved.alive, saved.file, framed reachable, ?_, settled.idle, ?_⟩
      · intro payload member
        simp [Link.payloads, queue, client, wire] at member
      · rw [Loaded, settled.done]
        exact ⟨rfl, inEffect.used⟩
  refine ⟨lasts.alive, ⟨_, lasts.file, inEffect.config⟩, ?_⟩
  intro done
  have loaded := lasts.loaded
  rw [Loaded, done] at loaded
  rw [loaded.2, ← inEffect.used, inEffect.seconds]

/-- The server has been started twice when two minutes are set, received and saved. -/
def twoMinutesSaved : List Action :=
  .restart ⟨0⟩ 0 :: hourLoaded ++
    [.control true twoMinutes, .client, .client, .client, .receive,
      .server (.startup .assign) reliableIo, .server (.saveCurrentConfig 6000) reliableIo]

/-- Either party is started again, and the server finds the file. -/
def startedAgain : List Action :=
  [.restart ⟨0⟩ 0, .server (.startup (.load Startup.oneHour)) reliableIo, .helper 0, .drop,
    .server (.startup .adopt) reliableIo]

theorem twoMinutesSaved_enabled :
    (machine.run (start 0 ⟨0⟩ hourFile) twoMinutesSaved).isSome := by
  decide

theorem startedAgain_enabled :
    (lasting.run ((machine.run (start 0 ⟨0⟩ hourFile) twoMinutesSaved).get twoMinutesSaved_enabled)
      startedAgain).isSome := by
  decide

theorem control_survives_restarts_started_again :
    ((lasting.run ((machine.run (start 0 ⟨0⟩ hourFile) twoMinutesSaved).get twoMinutesSaved_enabled)
      startedAgain).get startedAgain_enabled).life.startup.mCacheLifeExpectancySeconds = 120 :=
  (control_survives_restarts (.get (m := machine) ⟨0, ⟨0⟩, hourFile, rfl⟩ twoMinutesSaved_enabled)
    ⟨⟨by decide, by decide, by decide⟩, by decide, by decide⟩ ⟨by decide, by decide⟩ ⟨by decide, rfl⟩
    (Option.some_get startedAgain_enabled).symm).2.2 (by decide)

end RpiFanServe.System
