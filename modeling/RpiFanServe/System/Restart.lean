import RpiFanServe.System.Property

/-! # The range over restarts

Only the D-Bus object checks the range of a life expectancy, and yet no other value ever
comes into effect: what the helper puts on its way is in the range, so what the server
saves is, and what it loads when it is started again is what was saved.  All that is asked
of the outside is that the first file is in order and that a write that fails does not
leave another value in it.
-/

namespace RpiFanServe.System

open CString Dbus Config StepMachine PermanentConfig

open Life (Admitted AdmittedSeconds)

/-- The file holds no value outside the range, and its key can be assigned. -/
def Fits (configFile : ConfigFile) : Bool :=
  match configFile with
  | .settings root =>
      match root.lookup CacheLifeExpectancyConfigKey with
      | none => true
      | some (.int value) => Admitted value
      | some _ => false
  | .missing | .unparseable => true

/-- What a write that fails leaves is in order as well. -/
def LeavesFitting : Action → Bool
  | .server _ io => io.writeFailure.all Fits
  | _ => true

/-- The machine over a first file that is in order. -/
def furnished : StepMachine System Action where
  init s := machine.init s ∧ Fits s.configFile = true
  step := step

def fitting : StepMachine System Action :=
  furnished.restrict fun _ action => LeavesFitting action = true

theorem fitting_init (property : CLong) (mConfig : PermConfig) {configFile : ConfigFile}
    (fits : Fits configFile = true) : fitting.init (start property mConfig configFile) :=
  ⟨⟨property, mConfig, configFile, rfl⟩, fits⟩

/-! ## Saves and loads -/

section File

variable {config : PermConfig} {io : FileIo} {configFile : ConfigFile}

/-- `save_config` returns and leaves a file that is in order. -/
def SavesFitting (saved : SaveReturn × ConfigFile) : Prop :=
  ∃ success left, saved = (.returns success, left) ∧ Fits left = true

theorem fits_found {root : Root} {value : CInt} (admitted : Admitted value)
    (found : root.lookup CacheLifeExpectancyConfigKey = some (.int value)) :
    Fits (.settings root) = true := by
  rw [Fits, found]
  exact decide_eq_true admitted

theorem writeFile_fits {root : Root} (fits : Fits (.settings root) = true)
    (leaves : io.writeFailure.all Fits = true) : SavesFitting (writeFile io root) := by
  unfold writeFile
  cases failure : io.writeFailure with
  | none => exact ⟨true, _, rfl, fits⟩
  | some left =>
      rw [failure] at leaves
      exact ⟨false, left, rfl, leaves⟩

/-- The key is absent or bound to an `int`, so the new value can be assigned or added. -/
theorem saveRoot_fits {root : Root} (fits : Fits (.settings root) = true)
    (admitted : Admitted config.cacheLifeExpectancy)
    (leaves : io.writeFailure.all Fits = true) :
    SavesFitting (saveRoot config io configFile root) := by
  unfold saveRoot
  cases bound : root.lookup CacheLifeExpectancyConfigKey with
  | none =>
      obtain ⟨root', added, found, -⟩ := addInt_absent config.cacheLifeExpectancy bound
      rw [assignInt_absent _ bound, added]
      exact writeFile_fits (fits_found admitted found) leaves
  | some setting =>
      cases setting with
      | int old =>
          obtain ⟨root', assigned, found, -⟩ := assignInt_int config.cacheLifeExpectancy bound
          rw [assigned]
          exact writeFile_fits (fits_found admitted found) leaves
      | _ =>
          rw [Fits, bound] at fits
          cases fits

theorem saveConfig_fits (fits : Fits configFile = true)
    (admitted : Admitted config.cacheLifeExpectancy)
    (leaves : io.writeFailure.all Fits = true) :
    SavesFitting (saveConfig config io configFile) := by
  unfold saveConfig
  cases created : ensureFile io configFile with
  | none => exact ⟨false, configFile, rfl, fits⟩
  | some made =>
      have fits_made : Fits made = true := by
        unfold ensureFile at created
        split at created
        · cases created
        · split at created
          · cases created
            rfl
          · cases created
        · cases created
          exact fits
      cases made with
      | missing => exact ⟨false, .missing, rfl, rfl⟩
      | unparseable =>
          simp only [FileIo.readFile]
          cases io.reads
          · exact ⟨false, .unparseable, rfl, rfl⟩
          · exact ⟨false, .unparseable, rfl, rfl⟩
      | settings root =>
          simp only [FileIo.readFile]
          cases io.reads
          · exact ⟨false, .settings root, rfl, fits_made⟩
          · exact saveRoot_fits fits_made admitted leaves

theorem loadConfig_success {answers : Answers}
    (success : (loadConfig config answers).1 = .LOAD_SUCCESS) :
    parseConfigFile config answers.readFile = (true, (loadConfig config answers).2) := by
  unfold loadConfig at success ⊢
  cases checked : checkConfigFileSystem answers with
  | SUCCESS =>
      rw [checked] at success
      cases parsed : parseConfigFile config answers.readFile with
      | mk ok loaded =>
          cases ok with
          | false =>
              rw [parsed] at success
              cases success
          | true => rfl
  | _ =>
      rw [checked] at success
      cases success

theorem load_fits (answers : Answers) (io : FileIo) (fits : Fits configFile = true) (s : Life) :
    s.Brings (.startup (.load { answers with readFile := io.readFile configFile })) = true := by
  rw [Life.brings_load]
  intro success
  have parsed := loadConfig_success success
  revert parsed
  generalize (loadConfig s.startup.mConfig _).2 = loaded
  intro parsed
  unfold parseConfigFile at parsed
  split at parsed
  · cases parsed
  · cases parsed
  · rename_i root read
    cases configFile with
    | missing => cases read
    | unparseable =>
        simp only [FileIo.readFile] at read
        split at read <;> cases read
    | settings root' =>
        simp only [FileIo.readFile] at read
        split at read
        · cases read
          split at parsed
          · cases parsed
          · rename_i value found
            cases parsed
            have bound : root.lookup CacheLifeExpectancyConfigKey = some (.int value) := by
              unfold lookupInt at found
              split at found
              · rename_i bound
                cases found
                exact bound
              · cases found
            rw [Fits, bound] at fits
            exact of_decide_eq_true fits
        · cases read

end File

/-! ## The invariant -/

/-- What is on its way to the server is in the range. -/
structure Sound (link : Link) : Prop where
  framed : Link.Framed link
  values : ∀ n ∈ link.payloads.filterMap Link.payloadValue, 60 ≤ n ∧ n ≤ 100000

theorem Sound.start (property : CLong) : Sound (.start property) := by
  refine ⟨⟨?_, rfl⟩, ?_⟩
  · intro message member
    cases member
  · intro n member
    cases member

theorem Sound.write {link : Link} (sound : Sound link) (value : CLong) :
    Sound (({ link with written := link.written ++ [value] } : Link).setCacheLifeExpectancy
      value) := by
  obtain ⟨framed, -, queued⟩ := Link.write_payloads sound.framed value
  refine ⟨framed, ?_⟩
  intro n member
  cases valid : invalidCacheLifeExpectancy value with
  | true =>
      rw [valid, if_pos rfl] at queued
      rw [queued.1] at member
      exact sound.values n member
  | false =>
      rw [valid, if_neg (by decide)] at queued
      rw [queued.1, List.mem_append, List.mem_singleton] at member
      rcases member with before | rfl
      · exact sound.values n before
      · exact valid_iff.mp valid

theorem Sound.client {link link' : Link} (sound : Sound link)
    (stepped : link.clientStep = some link') : Sound link' := by
  obtain ⟨framed, same, -, -⟩ := Link.clientStep_payloads sound.framed stepped
  exact ⟨framed, same ▸ sound.values⟩

theorem Sound.receive {link link' : Link} (sound : Sound link)
    (stepped : link.receiveStep = some link') : Sound link' := by
  obtain ⟨payload, framed, payloads, -, -⟩ := Link.receiveStep_payloads sound.framed stepped
  refine ⟨framed, ?_⟩
  intro n member
  apply sound.values n
  rw [payloads]
  exact (List.sublist_cons_self _ _).filterMap _ |>.subset member

/-- Losing the front of the wire, or the helper with its queue, leaves some of the payloads. -/
theorem Sound.fewer {link link' : Link} (sound : Sound link) (framed : Link.Framed link')
    (fewer : link'.payloads ⊆ link.payloads) : Sound link' := by
  refine ⟨framed, ?_⟩
  intro n member
  obtain ⟨payload, inside, number⟩ := List.mem_filterMap.mp member
  exact sound.values n (List.mem_filterMap.mpr ⟨payload, fewer inside, number⟩)

theorem arriving_mem {link : Link} {msg : Bytes} (arrived : arriving link = some msg) :
    msg ∈ link.payloads := by
  unfold System.arriving at arrived
  split at arrived
  · cases arrived
  · rename_i message wire located
    split at arrived
    · simp [Link.payloads, located, arrived]
    · cases arrived

theorem Sound.arriving {link : Link} {msg : Bytes} {seconds : CInt} (sound : Sound link)
    (arrived : arriving link = some msg) (handed : receiveCallback msg = some seconds) :
    Admitted seconds := by
  apply sound.values
  exact List.mem_filterMap.mpr ⟨msg, arriving_mem arrived, by rw [Link.payloadValue, handed]; rfl⟩

theorem payloads_drop {link : Link} (framed : Link.Framed link) (lost : Nat) :
    Link.Framed { link with wire := link.wire.drop lost } ∧
      ({ link with wire := link.wire.drop lost } : Link).payloads ⊆ link.payloads := by
  refine ⟨⟨?_, framed.frames⟩, ?_⟩
  · intro message member
    exact framed.wire message (List.mem_of_mem_drop member)
  · intro payload member
    simp only [Link.payloads, List.mem_append] at member ⊢
    apply member.imp_left
    apply Or.imp_left
    exact fun arriving => ((List.drop_sublist lost _).filterMap _).subset arriving

theorem payloads_helper {link : Link} (framed : Link.Framed link) (property : CLong) :
    let link' : Link := { link with
      mCacheLifeExpectancy := property, mMessages := [], client := .connected, frames := [] }
    Link.Framed link' ∧ link'.payloads ⊆ link.payloads := by
  refine ⟨⟨framed.wire, rfl⟩, ?_⟩
  intro payload member
  simp only [Link.payloads, Link.unsent, Option.toList_none, List.append_nil] at member ⊢
  exact List.mem_append_left _ (List.mem_append_left _ member)

structure InRange (s : System) : Prop where
  link : Sound s.link
  life : s.life.Invariant
  file : Fits s.configFile = true
  alive : s.terminated = false

theorem InRange.write {s : System} (inRange : s.InRange) (value : CLong) :
    (s.write value).InRange where
  link := inRange.link.write value
  life := inRange.life
  file := inRange.file
  alive := inRange.alive

theorem InRange.receive {s s' : System} (inRange : s.InRange)
    (stepped : s.receiveStep = some s') : s'.InRange := by
  obtain ⟨received, file, alive, -, taken⟩ := receiveStep_parts stepped
  refine ⟨inRange.link.receive received, ?_, file ▸ inRange.file, alive.trans inRange.alive⟩
  cases arrived : arriving s.link with
  | none =>
      rw [arrived] at taken
      exact taken ▸ inRange.life
  | some msg =>
      rw [arrived] at taken
      apply Life.invariant_step inRange.life ?_ taken
      rw [Life.brings_receive]
      intro seconds handed
      exact inRange.link.arriving arrived handed

theorem InRange.save {s : System} {io : FileIo} (inRange : s.InRange)
    (admitted : Admitted s.life.startup.mConfig.cacheLifeExpectancy)
    (leaves : io.writeFailure.all Fits = true) :
    Fits (s.save io).configFile = true ∧ (s.save io).terminated = false := by
  obtain ⟨success, left, saved, fits⟩ := saveConfig_fits inRange.file admitted leaves
  unfold System.save
  rw [saved]
  exact ⟨fits, inRange.alive⟩

/-- Only a configuration that has been assigned is saved. -/
theorem saves_assigned {s s' : Life} {action : Life.Action} (inv : s.Invariant)
    (saving : saves action = true) (stepped : s.step action = some s') : Life.Assigned s.startup := by
  cases action with
  | startup action => cases saving
  | saveDefault =>
      simp only [Life.step, Option.ite_none_right_eq_some] at stepped
      exact .inr (.inr (inv.savingDefault stepped.1))
  | saveCurrentConfig durationMs =>
      simp only [Life.step, Option.ite_none_right_eq_some] at stepped
      exact .inl (inv.saving stepped.1)
  | fire =>
      simp only [Life.step, Option.ite_none_right_eq_some] at stepped
      exact .inl (inv.armed stepped.1)

theorem reads_of_saves {s : System} {action : Life.Action} {io : FileIo}
    (saving : saves action = true) : s.reads io action = action := by
  cases action with
  | startup action => cases saving
  | _ => rfl

theorem InRange.server {s s' : System} {action : Life.Action} {io : FileIo} (inRange : s.InRange)
    (leaves : io.writeFailure.all Fits = true) (stepped : s.serverStep action io = some s') :
    s'.InRange := by
  obtain ⟨sent, ⟨link, -⟩, taken, file⟩ := serverStep_parts stepped
  have brings : s.life.Brings (s.reads io action) = true := by
    cases action with
    | startup a =>
        cases a with
        | load answers => exact load_fits answers io inRange.file s.life
        | receive msg => exact absurd rfl (sent msg)
        | _ => rfl
    | _ => rfl
  have kept : Fits s'.configFile = true ∧ s'.terminated = false := by
    cases saving : saves action with
    | false =>
        rw [saving, if_neg (by decide), Prod.mk.injEq] at file
        rw [file.1, file.2]
        exact ⟨inRange.file, inRange.alive⟩
    | true =>
        rw [saving, if_pos rfl, Prod.mk.injEq] at file
        rw [reads_of_saves saving] at taken
        rw [file.1, file.2]
        exact inRange.save (inRange.life.config (saves_assigned inRange.life saving taken)) leaves
  exact ⟨link ▸ inRange.link, Life.invariant_step inRange.life brings taken, kept.1, kept.2⟩

theorem inRange_step {s s' : System} {action : Action} (inRange : s.InRange)
    (leaves : LeavesFitting action = true) (stepped : s.step action = some s') : s'.InRange := by
  cases action with
  | control isConnected argv =>
      simp only [step] at stepped
      split at stepped
      · cases stepped
        exact inRange.write _
      · cases stepped
        exact inRange
  | write value =>
      cases stepped
      exact inRange.write value
  | join =>
      simp only [step, Option.ite_none_left_eq_some] at stepped
      cases stepped.2
      exact { inRange with }
  | client =>
      obtain ⟨link, sent, rfl⟩ := Option.map_eq_some_iff.mp stepped
      exact { inRange with link := inRange.link.client sent }
  | drop =>
      simp only [step, Option.ite_none_left_eq_some] at stepped
      obtain ⟨link, dropped, rfl⟩ := Option.map_eq_some_iff.mp stepped.2
      obtain ⟨framed, fewer, -⟩ := dropStep_payloads inRange.link.framed dropped
      exact { inRange with link := inRange.link.fewer framed fewer }
  | receive =>
      simp only [step, Option.ite_none_left_eq_some] at stepped
      exact inRange.receive stepped.2
  | server action io =>
      simp only [step, Option.ite_none_left_eq_some] at stepped
      exact inRange.server leaves stepped.2
  | restart mConfig lost =>
      cases stepped
      obtain ⟨framed, fewer⟩ := payloads_drop inRange.link.framed lost
      exact ⟨inRange.link.fewer framed fewer, Life.invariant_start mConfig, inRange.file, rfl⟩
  | helper property =>
      cases stepped
      obtain ⟨framed, fewer⟩ := payloads_helper inRange.link.framed property
      exact { inRange with link := inRange.link.fewer framed fewer }

/-- Over a file that is in order, whatever is written to the property by whomever, whichever
    messages find no subscriber, and however often either party is stopped and started again:
    the server is never ended by a save, it runs with a life expectancy in the range, and the
    file stays in order. -/
theorem range_survives_restarts {s : System} (reachable : fitting.Reachable s) :
    s.terminated = false ∧ AdmittedSeconds s.life.startup.mCacheLifeExpectancySeconds ∧
      Fits s.configFile = true := by
  have inRange : s.InRange := by
    refine reachable.invariant InRange ?_ ?_
    · rintro s ⟨⟨property, mConfig, configFile, rfl⟩, fits⟩
      exact ⟨.start property, Life.invariant_start mConfig, fits, rfl⟩
    · intro s action s' inRange stepped
      obtain ⟨leaves, stepped⟩ := restrict_step.mp stepped
      exact inRange_step inRange leaves stepped
  exact ⟨inRange.alive, inRange.life.seconds, inRange.file⟩

/-- A value of two minutes reaches the file, and the server is stopped and loads it again. -/
def savedAndLoaded : List Action :=
  hourLoaded ++
    [.control true twoMinutes, .client, .client, .client, .receive,
      .server (.startup .assign) reliableIo, .server (.saveCurrentConfig 6000) reliableIo,
      .restart ⟨0⟩ 0, .server (.startup (.load Startup.oneHour)) reliableIo,
      .server (.startup .adopt) reliableIo]

theorem savedAndLoaded_enabled : (fitting.run (start 0 ⟨0⟩ hourFile) savedAndLoaded).isSome := by
  decide

theorem range_survives_restarts_saved_and_loaded :
    AdmittedSeconds ((fitting.run (start 0 ⟨0⟩ hourFile) savedAndLoaded).get
      savedAndLoaded_enabled).life.startup.mCacheLifeExpectancySeconds :=
  (range_survives_restarts
    (.get (fitting_init 0 ⟨0⟩ (by decide)) savedAndLoaded_enabled)).2.1

end RpiFanServe.System
