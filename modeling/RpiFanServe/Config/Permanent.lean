import RpiFanServe.Foundation.CString
import RpiFanServe.Foundation.FileSystem

/-! # The permanent configuration

`load_config` of configuration.hpp with the checks that it makes first.  A call into
the file system answers yes, no, or fails with an error code; what reading the file
yields is an exception of libconfig or the settings at its root.
-/

namespace RpiFanServe.PermanentConfig

open CString

structure PermConfig where
  cacheLifeExpectancy : CInt
  deriving DecidableEq

def DefaultConfig : PermConfig := ⟨1000⟩

def CacheLifeExpectancyConfigKey : Bytes := utf8 "cacheLifeExpectancySeconds"

inductive CheckReturn where
  | FS_ERROR
  | DONT_EXIST
  | WRONG_FHS
  | SUCCESS
  deriving DecidableEq

inductive LoadConfigReturn where
  | NO_CONFIG
  | ERROR
  | INVALID_CONFIG
  | LOAD_SUCCESS
  deriving DecidableEq

/-- A value of a settings file. -/
inductive Setting where
  | int (value : CInt)
  | int64 (value : CLong)
  | float (literal : Bytes)
  | bool (value : Bool)
  | string (value : Bytes)
  | group (members : List (Bytes × Setting))
  | array (items : List Setting)
  | list (items : List Setting)

/-- What `Config::readFile` ends with. -/
inductive ReadFile where
  | fileIOException
  | parseException
  | settings (root : List (Bytes × Setting))

/-- The answers that `load_config` gets. -/
structure Answers where
  srvExists : FsAnswer
  srvIsDirectory : FsAnswer
  dirExists : FsAnswer
  dirIsDirectory : FsAnswer
  createDirectory : FsAnswer
  configExists : FsAnswer
  configIsRegularFile : FsAnswer
  readFile : ReadFile

def checkDir (exists_ isDirectory : FsAnswer) : CheckReturn :=
  match exists_ with
  | .failed _ => .FS_ERROR
  | .no => .DONT_EXIST
  | .yes =>
      match isDirectory with
      | .failed _ => .FS_ERROR
      | .no => .DONT_EXIST
      | .yes => .SUCCESS

/-- The part of `check_config_file_system` behind the directories. -/
def checkConfigFile (a : Answers) : CheckReturn :=
  match a.configExists with
  | .failed _ => .FS_ERROR
  | .no => .DONT_EXIST
  | .yes =>
      match a.configIsRegularFile with
      | .failed _ => .FS_ERROR
      | .no => .DONT_EXIST
      | .yes => .SUCCESS

def checkConfigFileSystem (a : Answers) : CheckReturn :=
  match checkDir a.srvExists a.srvIsDirectory with
  | .DONT_EXIST => .WRONG_FHS
  | .FS_ERROR | .WRONG_FHS => .FS_ERROR
  | .SUCCESS =>
      match checkDir a.dirExists a.dirIsDirectory with
      | .DONT_EXIST =>
          match a.createDirectory with
          | .yes => checkConfigFile a
          | .no | .failed _ => .FS_ERROR
      | .FS_ERROR | .WRONG_FHS => .FS_ERROR
      | .SUCCESS => checkConfigFile a

/-- `Config::lookupValue` into an `int`: an absent key and a setting of another type
    both fail. -/
def lookupInt (root : List (Bytes × Setting)) (key : Bytes) : Option CInt :=
  match root.lookup key with
  | some (.int value) => some value
  | _ => none

/-- `parse_config_file`; the configuration is assigned only on success. -/
def parseConfigFile (config : PermConfig) (readFile : ReadFile) : Bool × PermConfig :=
  match readFile with
  | .fileIOException => (false, config)
  | .parseException => (false, config)
  | .settings root =>
      match lookupInt root CacheLifeExpectancyConfigKey with
      | none => (false, config)
      | some cacheLifeExpectancy => (true, { config with cacheLifeExpectancy })

def loadConfig (config : PermConfig) (a : Answers) : LoadConfigReturn × PermConfig :=
  match checkConfigFileSystem a with
  | .DONT_EXIST => (.NO_CONFIG, config)
  | .FS_ERROR | .WRONG_FHS => (.ERROR, config)
  | .SUCCESS =>
      match parseConfigFile config a.readFile with
      | (false, config) => (.INVALID_CONFIG, config)
      | (true, config) => (.LOAD_SUCCESS, config)

theorem parseConfigFile_failed (config : PermConfig) (readFile : ReadFile)
    (failed : (parseConfigFile config readFile).1 = false) :
    (parseConfigFile config readFile).2 = config := by
  unfold parseConfigFile at failed ⊢
  split
  · rfl
  · rfl
  · split
    · rfl
    · rename_i root found
      simp [found] at failed

theorem loadConfig_failed {config : PermConfig} {a : Answers}
    (failed : (loadConfig config a).1 ≠ .LOAD_SUCCESS) : (loadConfig config a).2 = config := by
  unfold loadConfig at failed ⊢
  split
  · rfl
  · rfl
  · rfl
  · cases parsed : parseConfigFile config a.readFile with
    | mk success loaded =>
        cases success with
        | false =>
            have same := parseConfigFile_failed config a.readFile
            rw [parsed] at same
            exact same rfl
        | true =>
            rename_i checked
            rw [checked, parsed] at failed
            exact absurd rfl failed

end RpiFanServe.PermanentConfig
