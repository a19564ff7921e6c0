import RpiFanServe.Foundation.FileSystem
import RpiFanServe.Foundation.Threads

/-! # The socket locker

`SocketLocker` of socket_locker.hpp: the lock on one of the two lock files and the
checks of the socket that follow it, one file-system call an action.  Any number of
processes run it over one file system; a process can end at any moment.
-/

namespace RpiFanServe.Locker

open Prog

/-- `LOCK_FILE` and `DBUS_LOCK_FILE`. -/
inductive LockFile where
  | server
  | dbus
  deriving DecidableEq

/-- The paths of the program; `SOCKET_FILE` lies in `SOCKET_DIR`, and the directories of
    the others are always there. -/
inductive Path where
  | lock (file : LockFile)
  | socketDir
  | socketFile
  deriving DecidableEq

instance : PathTree Path where
  parent
    | .socketFile => some .socketDir
    | _ => none
  inside dir path := dir = path || (dir = .socketDir && path = .socketFile)

def LOCK_FILE_MODE : Perms := 0o644

inductive FsCall where
  | fileExists (path : Path)
  | hasType (kind : FileType) (path : Path)
  | permissions (path : Path)
  | removeAll (path : Path)
  | createDirectory (path : Path)
  | openCreate (path : Path)
  | flock (fd : Nat)
  | close (fd : Nat)

/-- What a call answers; the last four are false or `none` on the result -1. -/
@[reducible] def Answer : FsCall → Type
  | .fileExists _ | .hasType _ _ | .createDirectory _ => FsAnswer
  | .permissions _ => Perms
  | .openCreate _ => Option Nat
  | .removeAll _ | .flock _ | .close _ => Bool

abbrev Locking := Prog FsCall Answer

/-- The calls that change nothing. -/
def FsCall.looks : FsCall → Bool
  | .fileExists _ | .hasType _ _ | .permissions _ => true
  | _ => false

def tryDelete (path : Path) : Locking Bool := perform (FsCall.removeAll path)

def tryCreateSocket (socket : Path) : Locking Bool := do
  let socketFd : Option Nat ← perform (FsCall.openCreate socket)
  match socketFd with
  | none => return false
  | some socketFd => perform (FsCall.close socketFd)

def isGoodChmod (p : Perms) : Bool :=
  p &&& Perms.ownerRead ≠ 0 && p &&& Perms.ownerWrite ≠ 0 &&
    p &&& Perms.groupWrite = 0 && p &&& Perms.othersWrite = 0

/-- An error code only changes what is logged. -/
def cleanLock (lock : Path) : Locking Unit := do
  let found : FsAnswer ← perform (FsCall.fileExists lock)
  match found with
  | .no | .failed _ => return ()
  | .yes =>
      let regular : FsAnswer ← perform (FsCall.hasType .regular lock)
      match regular with
      | .no | .failed _ =>
          let _ ← tryDelete lock
          return ()
      | .yes =>
          let perms : Perms ← perform (FsCall.permissions lock)
          if isGoodChmod perms then return ()
          else
            let _ ← tryDelete lock
            return ()

/-- Where looks change nothing, `clean_lock` changes nothing or deletes the lock. -/
theorem cleanLock_wp {σ : Type} {handle : σ → (call : FsCall) → Option (Answer call × σ)}
    {Q : Unit → σ → Prop} {s : σ} {lock : Path}
    (looks : ∀ call : FsCall, call.looks = true → ∃ answer, handle s call = some (answer, s))
    (kept : Q () s) (deleted : (tryDelete lock >>= fun _ => pure ()).Wp handle Q s) :
    (cleanLock lock).Wp handle Q s := by
  obtain ⟨found, looked⟩ := looks (.fileExists lock) rfl
  refine ⟨found, s, looked, ?_⟩
  cases found with
  | no => exact kept
  | failed code => exact kept
  | yes =>
      obtain ⟨regular, looked⟩ := looks (.hasType .regular lock) rfl
      refine ⟨regular, s, looked, ?_⟩
      cases regular with
      | no => exact deleted
      | failed code => exact deleted
      | yes =>
          obtain ⟨perms, looked⟩ := looks (.permissions lock) rfl
          refine ⟨perms, s, looked, ?_⟩
          simp only [Prog.bind]
          split
          · exact kept
          · exact deleted

/-- The result is -1 or what `flock` returned, which is never the descriptor. -/
def tryLock (lock : Path) : Locking Int := do
  cleanLock lock
  let lockFd : Option Nat ← perform (FsCall.openCreate lock)
  match lockFd with
  | none => return -1
  | some lockFd =>
      let locked : Bool ← perform (FsCall.flock lockFd)
      if locked then return 0 else return -1

/-- `check_clean_socket` for a path. -/
def checkCleanSocketAt (socket : Path) : Locking Bool := do
  let found : FsAnswer ← perform (FsCall.fileExists socket)
  match found with
  | .failed _ => return false
  | .no => tryCreateSocket socket
  | .yes =>
      let isSocket : FsAnswer ← perform (FsCall.hasType .socket socket)
      match isSocket with
      | .no | .failed _ =>
          let _ ← tryDelete socket
          tryCreateSocket socket
      | .yes =>
          let perms : Perms ← perform (FsCall.permissions socket)
          if isGoodChmod perms then return true
          else
            let _ ← tryDelete socket
            tryCreateSocket socket

def tryCreateDirectory (path : Path) : Locking Bool := do
  let created : FsAnswer ← perform (FsCall.createDirectory path)
  match created with
  | .no | .failed _ => return false
  | .yes => return true

def checkCleanDir (path : Path) : Locking Bool := do
  let found : FsAnswer ← perform (FsCall.fileExists path)
  match found with
  | .failed _ => return true
  | .no => tryCreateDirectory path
  | .yes =>
      let isDirectory : FsAnswer ← perform (FsCall.hasType .directory path)
      match isDirectory with
      | .yes => return true
      | .no | .failed _ =>
          let deleted ← tryDelete path
          if deleted then tryCreateDirectory path else return false

def checkCleanSocket : Locking Bool := do
  let clean ← checkCleanDir .socketDir
  if clean then checkCleanSocketAt .socketFile else return false

/-- The answer of the call and the new `m_lockFd`. -/
def checkAndTryLock (lockFile : Path) (mLockFd : Int) : Locking (Bool × Int) := do
  if mLockFd ≠ -1 then return (true, mLockFd)
  else
    let mLockFd ← tryLock lockFile
    if mLockFd = -1 then return (false, mLockFd)
    else
      let ready ← checkCleanSocket
      return (ready, mLockFd)

/-- A process that calls `checkAndTryLock` so many times on one locker. -/
def locker (lockFile : Path) : Nat → Int → Locking Unit
  | 0, _ => return ()
  | calls + 1, mLockFd => do
      let (_, mLockFd) ← checkAndTryLock lockFile mLockFd
      locker lockFile calls mLockFd

/-! ## Processes -/

/-- The file system, and which processes have passed the `flock` of `try_lock`. -/
structure World where
  kernel : Kernel Path
  passed : Nat → Bool

/-- What a call of process `p` answers and does. -/
def World.answer (p : Nat) (w : World) : (call : FsCall) → Answer call × World
  | .fileExists path => (w.kernel.fileExists path, w)
  | .hasType kind path => (w.kernel.hasType kind path, w)
  | .permissions path => (w.kernel.permissions path, w)
  | .removeAll path => (true, { w with kernel := w.kernel.removeAll path })
  | .createDirectory path =>
      let (created, kernel) := w.kernel.createDirectory p path
      (created, { w with kernel })
  | .openCreate path =>
      let (fd, kernel) := w.kernel.openCreate p path LOCK_FILE_MODE
      (fd, { w with kernel })
  | .flock fd =>
      let (locked, kernel) := w.kernel.flock p fd
      (locked, ⟨kernel, if locked then Function.update w.passed p true else w.passed⟩)
  | .close fd =>
      let (closed, kernel) := w.kernel.close p fd
      (closed, { w with kernel })

/-- A process that has ended makes no call. -/
def World.perform (p : Nat) (w : World) (call : FsCall) : Option (Answer call × World) :=
  if w.kernel.alive p then some (w.answer p call) else none

theorem perform_cases {p : Nat} {w w' : World} {call : FsCall} {r : Answer call}
    (done : w.perform p call = some (r, w')) :
    w.kernel.alive p = true ∧ w.answer p call = (r, w') := by
  unfold World.perform at done
  split at done
  · rename_i alive
    exact ⟨alive, Option.some.inj done⟩
  · cases done

/-- The environment ends processes. -/
def handler : Handler FsCall Answer World Nat where
  handle := World.perform
  environment w p :=
    if w.kernel.alive p then some { w with kernel := w.kernel.exit p } else none

/-- No process has started: no lock is held, every inode in use is older than the
    next one, and new files are readable and writeable by their owner. -/
structure Booted (w : World) : Prop where
  unlocked : ∀ i, w.kernel.holder i = none
  fresh : ∀ path i, w.kernel.lookup path = some i → i < w.kernel.nextInode
  umask : ∀ p, w.kernel.umask p &&& (Perms.ownerRead ||| Perms.ownerWrite) = 0
  alive : ∀ p, w.kernel.alive p = true
  passed : ∀ p, w.passed p = false

/-- Processes that lock the same file, started in the world `w`. -/
def processes (lockFile : LockFile) (w : World) :
    StepMachine (Pool FsCall Answer World Unit) (Move Nat) :=
  Pool.machine handler fun s =>
    s.shared = w ∧ ∀ p, ∃ calls, s.threads p = locker (.lock lockFile) calls (-1)

/-- At most one process that is alive has passed `flock`. -/
def Exclusive (w : World) : Prop :=
  ∀ p q, w.kernel.alive p = true → w.kernel.alive q = true →
    w.passed p = true → w.passed q = true → p = q

end RpiFanServe.Locker
