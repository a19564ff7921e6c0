import RpiFanServe.Config.Permanent

/-! # Saving the configuration

`save_config` of configuration.hpp over the settings at the root of the file.  An absent
key is added and an `int` is replaced in its place.  Assigning an `int` to a setting of
another type raises an exception that no handler takes, so the program terminates.
-/

namespace RpiFanServe.PermanentConfig

open CString

/-- The settings at the root of a file. -/
abbrev Root := List (Bytes × Setting)

inductive SettingException where
  | settingNotFoundException
  | settingTypeException
  | settingNameException
  deriving DecidableEq

/-- `root.lookup(key) = value`, without automatic conversion. -/
def assignInt (key : Bytes) (value : CInt) : Root → Except SettingException Root
  | [] => .error .settingNotFoundException
  | (name, setting) :: rest =>
      if key = name then
        match setting with
        | .int _ => .ok ((name, .int value) :: rest)
        | _ => .error .settingTypeException
      else
        match assignInt key value rest with
        | .error exception => .error exception
        | .ok rest => .ok ((name, setting) :: rest)

/-- `root.add(key, Setting::TypeInt) = value` -/
def addInt (key : Bytes) (value : CInt) (root : Root) : Except SettingException Root :=
  match root.lookup key with
  | some _ => .error .settingNameException
  | none => .ok (root ++ [(key, .int value)])

inductive ConfigFile where
  | missing
  /-- `readFile` raises `ParseException`. -/
  | unparseable
  | settings (root : Root)

/-- How the calls on the file end.  A call of `exists` may fail, and a call of `writeFile`
    that fails leaves the file in any state. -/
structure FileIo where
  existsError : Option Nat
  creates : Bool
  reads : Bool
  writeFailure : Option ConfigFile

def FileIo.readFile (io : FileIo) : ConfigFile → ReadFile
  | .missing => .fileIOException
  | .unparseable => if io.reads then .parseException else .fileIOException
  | .settings root => if io.reads then .settings root else .fileIOException

inductive SaveReturn where
  | returns (success : Bool)
  /-- An exception leaves the function, which is `noexcept`. -/
  | terminates
  deriving DecidableEq

/-- The file that the first block of `save_config` leaves to be read: a missing one is
    created empty.  `none` is `return false`. -/
def ensureFile (io : FileIo) (configFile : ConfigFile) : Option ConfigFile :=
  match io.existsError, configFile with
  | some _, _ => none
  | none, .missing => if io.creates then some (.settings []) else none
  | none, _ => some configFile

def writeFile (io : FileIo) (root : Root) : SaveReturn × ConfigFile :=
  match io.writeFailure with
  | none => (.returns true, .settings root)
  | some left => (.returns false, left)

/-- The part of `save_config` behind the reading. -/
def saveRoot (config : PermConfig) (io : FileIo) (configFile : ConfigFile) (root : Root) :
    SaveReturn × ConfigFile :=
  match assignInt CacheLifeExpectancyConfigKey config.cacheLifeExpectancy root with
  | .ok root => writeFile io root
  | .error .settingNotFoundException =>
      match addInt CacheLifeExpectancyConfigKey config.cacheLifeExpectancy root with
      | .ok root => writeFile io root
      | .error .settingNameException => writeFile io root
      | .error _ => (.terminates, configFile)
  | .error _ => (.terminates, configFile)

def saveConfig (config : PermConfig) (io : FileIo) (configFile : ConfigFile) :
    SaveReturn × ConfigFile :=
  match ensureFile io configFile with
  | none => (.returns false, configFile)
  | some configFile =>
      match io.readFile configFile with
      | .fileIOException => (.returns false, configFile)
      | .parseException => (.returns false, configFile)
      | .settings root => saveRoot config io configFile root

/-! ## The key and the other settings -/

/-- The settings under other keys, in their order. -/
def others (key : Bytes) (root : Root) : Root := root.filter fun setting => setting.1 ≠ key

/-- The settings of a file; a missing one has none. -/
def ConfigFile.root : ConfigFile → Root
  | .settings root => root
  | _ => []

section Assign

variable {key : Bytes} {root : Root} (value : CInt)

theorem lookup_cons_ne {name : Bytes} {setting : Setting} (other : key ≠ name) :
    ((name, setting) :: root).lookup key = root.lookup key := by
  rw [List.lookup_cons, beq_false_of_ne other]

theorem assignInt_absent (absent : root.lookup key = none) :
    assignInt key value root = .error .settingNotFoundException := by
  induction root with
  | nil => rfl
  | cons setting rest ih =>
      obtain ⟨name, setting⟩ := setting
      by_cases here : key = name
      · subst here
        rw [List.lookup_cons_self] at absent
        cases absent
      · rw [lookup_cons_ne here] at absent
        unfold assignInt
        rw [if_neg here, ih absent]

theorem assignInt_int {old : CInt} (bound : root.lookup key = some (.int old)) :
    ∃ root', assignInt key value root = .ok root' ∧ root'.lookup key = some (.int value) ∧
      others key root' = others key root := by
  induction root with
  | nil => cases bound
  | cons setting rest ih =>
      obtain ⟨name, setting⟩ := setting
      by_cases here : key = name
      · subst here
        rw [List.lookup_cons_self] at bound
        cases bound
        refine ⟨(key, .int value) :: rest, ?_, List.lookup_cons_self, ?_⟩
        · rw [assignInt, if_pos rfl]
        · simp [others]
      · rw [lookup_cons_ne here] at bound
        obtain ⟨rest', assigned, found, same⟩ := ih bound
        refine ⟨(name, setting) :: rest', ?_, ?_, ?_⟩
        · unfold assignInt
          rw [if_neg here, assigned]
        · rw [lookup_cons_ne here, found]
        · unfold others at same ⊢
          rw [List.filter_cons, List.filter_cons, same]

theorem assignInt_other {setting : Setting} (bound : root.lookup key = some setting)
    (other : ∀ old, setting ≠ .int old) :
    assignInt key value root = .error .settingTypeException := by
  induction root with
  | nil => cases bound
  | cons head rest ih =>
      obtain ⟨name, head⟩ := head
      by_cases here : key = name
      · subst here
        rw [List.lookup_cons_self] at bound
        cases bound
        unfold assignInt
        rw [if_pos rfl]
        cases setting with
        | int old => exact absurd rfl (other old)
        | _ => rfl
      · rw [lookup_cons_ne here] at bound
        unfold assignInt
        rw [if_neg here, ih bound]

theorem lookup_append_absent (absent : root.lookup key = none) (setting : Setting) :
    (root ++ [(key, setting)]).lookup key = some setting := by
  rw [List.lookup_append, absent]
  simp

theorem addInt_absent (absent : root.lookup key = none) :
    ∃ root', addInt key value root = .ok root' ∧ root'.lookup key = some (.int value) ∧
      others key root' = others key root := by
  refine ⟨root ++ [(key, .int value)], ?_, lookup_append_absent absent _, ?_⟩
  · rw [addInt, absent]
  · simp [others]

end Assign

/-! ## Saving and loading -/

/-- The file is there or can be created, and it can be read. -/
structure FileIo.Readable (io : FileIo) : Prop where
  existence : io.existsError = none
  creates : io.creates = true
  reads : io.reads = true

/-- The key is absent or bound to an `int`. -/
def KeyFits (root : Root) : Prop :=
  ∀ setting, root.lookup CacheLifeExpectancyConfigKey = some setting → ∃ value, setting = .int value

/-- `save_config` returns, and when it returns true, loading gives the configuration back
    and every other setting is as before. -/
def SavesAndLoads (config : PermConfig) (io : FileIo) (configFile : ConfigFile) : Prop :=
  ∃ success left, saveConfig config io configFile = (.returns success, left) ∧
    (success = true →
      (∀ before, parseConfigFile before (io.readFile left) = (true, config)) ∧
      others CacheLifeExpectancyConfigKey left.root =
        others CacheLifeExpectancyConfigKey configFile.root)

section Save

variable (config : PermConfig) {io : FileIo} {configFile : ConfigFile}

theorem saveConfig_readable (readable : io.Readable) (parseable : configFile ≠ .unparseable) :
    ∃ created, saveConfig config io configFile = saveRoot config io created configFile.root := by
  cases configFile with
  | unparseable => exact absurd rfl parseable
  | missing =>
      refine ⟨.settings [], ?_⟩
      simp [saveConfig, ensureFile, readable.existence, readable.creates, FileIo.readFile,
        readable.reads, ConfigFile.root]
  | settings root =>
      refine ⟨.settings root, ?_⟩
      simp [saveConfig, ensureFile, readable.existence, FileIo.readFile, readable.reads,
        ConfigFile.root]

/-- Whatever becomes of the write, a root with the new value and the other settings will do. -/
theorem savesAndLoads_write (readable : io.Readable) {root : Root}
    (saved : saveConfig config io configFile = writeFile io root)
    (found : root.lookup CacheLifeExpectancyConfigKey = some (.int config.cacheLifeExpectancy))
    (same : others CacheLifeExpectancyConfigKey root =
      others CacheLifeExpectancyConfigKey configFile.root) :
    SavesAndLoads config io configFile := by
  unfold writeFile at saved
  cases failure : io.writeFailure with
  | some left =>
      rw [failure] at saved
      exact ⟨false, left, saved, nofun⟩
  | none =>
      rw [failure] at saved
      refine ⟨true, .settings root, saved, fun _ => ⟨?_, same⟩⟩
      intro before
      simp [FileIo.readFile, readable.reads, parseConfigFile, lookupInt, found]

theorem saveConfig_terminates (readable : io.Readable) (parseable : configFile ≠ .unparseable)
    {setting : Setting} (bound : configFile.root.lookup CacheLifeExpectancyConfigKey = some setting)
    (other : ∀ value, setting ≠ .int value) :
    (saveConfig config io configFile).1 = .terminates := by
  obtain ⟨created, saved⟩ := saveConfig_readable config readable parseable
  rw [saved, saveRoot, assignInt_other _ bound other]

/-- Saving then loading is the identity and touches nothing else exactly when the key is
    absent or bound to an `int`. -/
theorem savesAndLoads_iff (readable : io.Readable) (parseable : configFile ≠ .unparseable) :
    SavesAndLoads config io configFile ↔ KeyFits configFile.root := by
  obtain ⟨created, saved⟩ := saveConfig_readable config readable parseable
  constructor
  · intro saves setting bound
    by_contra other
    push Not at other
    obtain ⟨success, left, returned, -⟩ := saves
    have terminated := saveConfig_terminates config readable parseable bound other
    rw [returned] at terminated
    cases terminated
  · intro fits
    cases bound : configFile.root.lookup CacheLifeExpectancyConfigKey with
    | none =>
        obtain ⟨root, added, found, same⟩ := addInt_absent config.cacheLifeExpectancy bound
        rw [saveRoot, assignInt_absent _ bound, added] at saved
        exact savesAndLoads_write config readable saved found same
    | some setting =>
        obtain ⟨old, rfl⟩ := fits setting bound
        obtain ⟨root, assigned, found, same⟩ := assignInt_int config.cacheLifeExpectancy bound
        rw [saveRoot, assigned] at saved
        exact savesAndLoads_write config readable saved found same

end Save

/-- Every call succeeds. -/
def reliableIo : FileIo := ⟨none, true, true, none⟩

theorem reliableIo_readable : reliableIo.Readable := ⟨rfl, rfl, rfl⟩

/-- A file with a setting of its own and the key in hours. -/
def hourFile : ConfigFile :=
  .settings [(utf8 "fan", .list [.bool true]), (CacheLifeExpectancyConfigKey, .int 3600)]

theorem savesAndLoads_iff_hour :
    SavesAndLoads ⟨120⟩ reliableIo hourFile ↔ KeyFits hourFile.root :=
  savesAndLoads_iff ⟨120⟩ reliableIo_readable nofun

/-- A key that is bound to a 64-bit value. -/
def longFile : ConfigFile := .settings [(CacheLifeExpectancyConfigKey, .int64 1000)]

/-- The program terminates instead of saving to such a file, which the loader only refuses. -/
theorem int64_key_terminates :
    (saveConfig ⟨120⟩ reliableIo longFile).1 = .terminates ∧
      ¬ SavesAndLoads ⟨120⟩ reliableIo longFile ∧
      ∀ before, parseConfigFile before (reliableIo.readFile longFile) = (false, before) := by
  have terminates : (saveConfig ⟨120⟩ reliableIo longFile).1 = .terminates := by decide
  refine ⟨terminates, ?_, fun before => rfl⟩
  intro saves
  obtain ⟨success, left, returned, -⟩ := saves
  rw [returned] at terminates
  cases terminates

end RpiFanServe.PermanentConfig
