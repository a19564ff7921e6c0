import RpiFanServe.Locker.SocketLocker

/-! # The live socket

A start of the server, which binds its socket when `checkAndTryLock` has succeeded, beside
a start of the D-Bus helper, which makes the same checks of the same path under a lock of
its own.  The helper removes the path when its last check of it failed.  So the socket stays
when at the moment of `bind` no such removal is due, and when the helper does not find the
socket itself to have wrong permissions.
-/

namespace RpiFanServe.Locker

open Prog

/-- The two starts, and the inode of the socket that the server has bound. -/
structure Starts where
  pool : Pool FsCall Answer World Bool
  bound : Option Nat

inductive StartMove where
  | pool (move : Move Nat)
  /-- `sock.bind` of the server. -/
  | bind

/-- What `main` does with the locker, for the server and the helper. -/
def start (lockFile : LockFile) : Locking Bool := do
  let (ready, _) ← checkAndTryLock (.lock lockFile) (-1)
  return ready

namespace Starts

def bindStep (s : Starts) : Option Starts :=
  match s.bound, s.pool.threads 0 with
  | none, .ret true =>
      if s.pool.shared.kernel.alive 0 then
        match s.pool.shared.kernel.bindSocket 0 .socketFile with
        | (some i, kernel) =>
            some ⟨{ s.pool with shared := { s.pool.shared with kernel } }, some i⟩
        | (none, _) => none
      else none
  | _, _ => none

def step (s : Starts) : StartMove → Option Starts
  | .pool move => (s.pool.step handler move).map fun pool => { s with pool }
  | .bind => s.bindStep

/-- The server is process 0 and the helper process 1. -/
def machine (w : World) : StepMachine Starts StartMove where
  init s := s.bound = none ∧ s.pool.shared = w ∧ s.pool.threads 0 = start .server ∧
    s.pool.threads 1 = start .dbus ∧ ∀ p, 2 ≤ p → s.pool.threads p = .ret false
  step := step

/-- The helper is about to remove the socket or its directory. -/
def AboutToRemove (s : Starts) : Bool :=
  match s.pool.threads 1 with
  | .act (.removeAll path) _ =>
      s.pool.shared.kernel.alive 1 && (path = .socketFile || path = .socketDir)
  | _ => false

/-- A look at the permissions of the socket that is bound finds them good. -/
def FindsGood (bound : Option Nat) (w : World) : FsCall → Bool
  | .permissions .socketFile => bound.isNone || isGoodChmod (w.kernel.permissions .socketFile)
  | _ => true

/-- The steps that spare the socket: it is bound when the helper is not about to remove the
    path, and once it is bound, its permissions are looked at only if they are good. -/
def Spares (s : Starts) : StartMove → Bool
  | .bind => !s.AboutToRemove
  | .pool (.thread p) =>
      match s.pool.threads p with
      | .act call _ => FindsGood s.bound s.pool.shared call
      | .ret _ => true
  | .pool (.environment _) => true

/-- The machine that takes only these steps. -/
def sparing (w : World) : StepMachine Starts StartMove :=
  (machine w).restrict fun s move => s.Spares move = true

end Starts

/-! ## Removals are called for by the last answer -/

/-- The calls of a process whose last answer called for the removal of a path, which is
    then the next call, or for none. -/
inductive Justified : Option Path → FsCall → Prop
  | fileExists {path} : Justified none (.fileExists path)
  | isRegular {lockFile} : Justified none (.hasType .regular (.lock lockFile))
  | isSocket : Justified none (.hasType .socket .socketFile)
  | isDirectory : Justified none (.hasType .directory .socketDir)
  | lockPermissions {lockFile} : Justified none (.permissions (.lock lockFile))
  | socketPermissions : Justified none (.permissions .socketFile)
  | removeAll {path} : Justified (some path) (.removeAll path)
  | createDirectory {path} : Justified none (.createDirectory path)
  | openCreate {path} : Justified none (.openCreate path)
  | flock {fd} : Justified none (.flock fd)
  | close {fd} : Justified none (.close fd)

/-- The path whose removal an answer calls for. -/
def doom : (call : FsCall) → Answer call → Option Path
  | .hasType _ path, answer => if answer = .yes then none else some path
  | .permissions path, perms => if isGoodChmod perms then none else some path
  | _, _ => none

def removalProtocol : Protocol FsCall Answer (Option Path) where
  allowed := Justified
  next _ call answer doomed := doomed = doom call answer

/-- A program that makes every removal that is called for, and no other. -/
def Removes {α : Type} (doomed : Option Path) (program : Locking α) : Prop :=
  program.Conforms removalProtocol (fun doomed _ => doomed = none) doomed

section Programs

theorem Removes.bind {α β : Type} {doomed : Option Path} {program : Locking α}
    {f : α → Locking β} (first : Removes doomed program) (rest : ∀ a, Removes none (f a)) :
    Removes doomed (program >>= f) := by
  apply Conforms.bind
  apply first.mono
  intro _ a settled
  cases settled
  exact rest a

theorem Removes.perform {β : Type} {doomed : Option Path} {call : FsCall}
    {f : Answer call → Locking β} (justified : Justified doomed call)
    (rest : ∀ answer, Removes (doom call answer) (f answer)) :
    Removes doomed (perform call >>= f) := by
  apply Conforms.perform justified
  intro answer _ same
  cases same
  exact rest answer

theorem Removes.ret {α : Type} (a : α) : Removes none (.ret a) := rfl

theorem tryDelete_removes (path : Path) : Removes (some path) (tryDelete path) :=
  ⟨.removeAll, fun _ _ same => same⟩

theorem cleanLock_removes (lockFile : LockFile) : Removes none (cleanLock (.lock lockFile)) := by
  have deletes := (tryDelete_removes (.lock lockFile)).bind fun _ => .ret ()
  apply Removes.perform Justified.fileExists
  intro found
  cases found with
  | no | failed => exact .ret ()
  | yes =>
      apply Removes.perform Justified.isRegular
      intro regular
      cases regular with
      | no | failed => exact deletes
      | yes =>
          apply Removes.perform Justified.lockPermissions
          intro perms
          simp only [doom]
          split
          · exact .ret ()
          · exact deletes

theorem tryLock_removes (lockFile : LockFile) : Removes none (tryLock (.lock lockFile)) := by
  apply (cleanLock_removes lockFile).bind
  intro _
  apply Removes.perform Justified.openCreate
  intro lockFd
  cases lockFd with
  | none => exact .ret _
  | some fd =>
      apply Removes.perform Justified.flock
      intro locked
      cases locked <;> exact .ret _

theorem tryCreateSocket_removes : Removes none (tryCreateSocket .socketFile) := by
  apply Removes.perform Justified.openCreate
  intro socketFd
  cases socketFd with
  | none => exact .ret _
  | some fd => exact Removes.perform Justified.close fun _ => .ret _

theorem checkCleanSocketAt_removes : Removes none (checkCleanSocketAt .socketFile) := by
  have recreates := (tryDelete_removes .socketFile).bind fun _ => tryCreateSocket_removes
  apply Removes.perform Justified.fileExists
  intro found
  cases found with
  | failed => exact .ret _
  | no => exact tryCreateSocket_removes
  | yes =>
      apply Removes.perform Justified.isSocket
      intro isSocket
      cases isSocket with
      | no | failed => exact recreates
      | yes =>
          apply Removes.perform Justified.socketPermissions
          intro perms
          simp only [doom]
          split
          · exact .ret _
          · exact recreates

theorem tryCreateDirectory_removes : Removes none (tryCreateDirectory .socketDir) := by
  apply Removes.perform Justified.createDirectory
  intro created
  cases created <;> exact .ret _

theorem checkCleanDir_removes : Removes none (checkCleanDir .socketDir) := by
  apply Removes.perform Justified.fileExists
  intro found
  cases found with
  | failed => exact .ret _
  | no => exact tryCreateDirectory_removes
  | yes =>
      apply Removes.perform Justified.isDirectory
      intro isDirectory
      cases isDirectory with
      | yes => exact .ret _
      | no | failed =>
          apply (tryDelete_removes .socketDir).bind
          intro deleted
          cases deleted with
          | true => exact tryCreateDirectory_removes
          | false => exact .ret _

theorem checkCleanSocket_removes : Removes none checkCleanSocket := by
  apply checkCleanDir_removes.bind
  intro clean
  cases clean with
  | true => exact checkCleanSocketAt_removes
  | false => exact .ret _

theorem checkAndTryLock_removes (lockFile : LockFile) :
    Removes none (checkAndTryLock (.lock lockFile) (-1)) := by
  unfold checkAndTryLock
  rw [if_neg (by decide)]
  apply (tryLock_removes lockFile).bind
  intro mLockFd
  split
  · exact .ret _
  · exact checkCleanSocket_removes.bind fun _ => .ret _

/-- Both starts remove a path exactly when a check of it has just failed. -/
theorem start_removes (lockFile : LockFile) : Removes none (start lockFile) :=
  (checkAndTryLock_removes lockFile).bind fun _ => .ret _

theorem Removes.next {α : Type} {path : Path} {program : Locking α}
    (removes : Removes (some path) program) : ∃ next, program = .act (.removeAll path) next := by
  cases program with
  | ret => cases removes
  | act call next =>
      cases removes.1
      exact ⟨next, rfl⟩

end Programs

/-! ## The socket that is bound -/

/-- Every inode in use is older than the next one, and the path refers to the socket that is
    bound, in a directory. -/
structure Serving (bound : Option Nat) (k : Kernel Path) : Prop where
  fresh : ∀ path i, k.lookup path = some i → i < k.nextInode
  found : ∀ i, bound = some i → k.lookup .socketFile = some i ∧ (k.inode i).kind = .socket
  directory : bound.isSome → ∃ d, k.lookup .socketDir = some d ∧ (k.inode d).kind = .directory

section Serving

variable {bound : Option Nat} {k : Kernel Path}

theorem Serving.frame {k' : Kernel Path} (serving : Serving bound k) (lookup : k'.lookup = k.lookup)
    (inode : k'.inode = k.inode) (nextInode : k'.nextInode = k.nextInode) : Serving bound k' where
  fresh := by
    rw [lookup, nextInode]
    exact serving.fresh
  found := by
    rw [lookup, inode]
    exact serving.found
  directory := by
    rw [lookup, inode]
    exact serving.directory

theorem Serving.create (serving : Serving bound k) {path : Path} (node : Inode)
    (absent : k.lookup path = none) : Serving bound (k.create path node) where
  fresh := Kernel.fresh_create serving.fresh path node
  found i up := by
    obtain ⟨found, socket⟩ := serving.found i up
    obtain ⟨kept, same⟩ := Kernel.create_other serving.fresh node absent found
    exact ⟨kept, same ▸ socket⟩
  directory up := by
    obtain ⟨d, found, directory⟩ := serving.directory up
    obtain ⟨kept, same⟩ := Kernel.create_other serving.fresh node absent found
    exact ⟨d, kept, same ▸ directory⟩

theorem Serving.openCreate (serving : Serving bound k) (p : Nat) (path : Path) (mode : Perms) :
    Serving bound (k.openCreate p path mode).2 := by
  obtain done | ⟨i, -, -, done⟩ | ⟨absent, -, done⟩ := k.openCreate_cases p path mode <;> rw [done]
  · exact serving
  · exact serving.frame rfl rfl rfl
  · exact (serving.create _ absent).frame rfl rfl rfl

theorem Serving.createDirectory (serving : Serving bound k) (p : Nat) (path : Path) :
    Serving bound (k.createDirectory p path).2 := by
  obtain ⟨_, -, done⟩ | ⟨absent, -, done⟩ := k.createDirectory_cases p path <;> rw [done]
  · exact serving
  · exact serving.create _ absent

theorem Serving.flock (serving : Serving bound k) (p fd : Nat) : Serving bound (k.flock p fd).2 := by
  obtain ⟨_, _, _, done⟩ | ⟨_, _, _, done⟩ | done := k.flock_cases p fd <;>
  · rw [done]
    exact serving.frame rfl rfl rfl

theorem Serving.close (serving : Serving bound k) (p fd : Nat) : Serving bound (k.close p fd).2 := by
  unfold Kernel.close
  split
  · exact serving
  · exact serving.frame rfl rfl rfl

theorem Serving.removeAll (serving : Serving bound k) {path : Path}
    (spares : bound.isSome → ∃ lockFile, path = .lock lockFile) : Serving bound (k.removeAll path) where
  fresh path' i found := by
    simp only [Kernel.removeAll] at found
    split at found
    · cases found
    · exact serving.fresh path' i found
  found i up := by
    obtain ⟨lockFile, rfl⟩ := spares (by rw [up]; rfl)
    simpa [Kernel.removeAll, PathTree.inside] using serving.found i up
  directory up := by
    obtain ⟨lockFile, rfl⟩ := spares up
    simpa [Kernel.removeAll, PathTree.inside] using serving.directory up

theorem Serving.bind {i p : Nat} {k' : Kernel Path} (serving : Serving none k)
    (bound : k.bindSocket p .socketFile = (some i, k')) : Serving (some i) k' := by
  have removed : Serving none (k.removeAll .socketFile) := serving.removeAll nofun
  have absent : (k.removeAll .socketFile).lookup .socketFile = none := by
    simp [Kernel.removeAll, PathTree.inside]
  simp only [Kernel.bindSocket] at bound
  split at bound
  · rename_i inside
    cases bound
    have created := removed.create ⟨.socket, 0o777 &&& ~~~(k.umask p)⟩ absent
    obtain ⟨node, there, directory⟩ := Option.any_eq_true _ _ |>.mp inside
    obtain ⟨d, found, rfl⟩ := Option.map_eq_some_iff.mp there
    have directory := of_decide_eq_true directory
    refine ⟨created.fresh, ?_, ?_⟩
    · intro i same
      cases same
      simp [Kernel.create, Kernel.removeAll]
    · intro _
      obtain ⟨kept, same⟩ := Kernel.create_other removed.fresh _ absent found
      exact ⟨d, kept, same ▸ directory⟩
  · cases bound

end Serving

/-! ## Runs -/

/-- Once the socket is bound, no process that is alive is about to remove it or its
    directory. -/
def Spared (bound : Option Nat) (p : Nat) (doomed : Option Path) (w : World) : Prop :=
  bound.isSome → w.kernel.alive p = true → doomed ≠ some .socketFile ∧ doomed ≠ some .socketDir

theorem bindSocket_alive {k k' : Kernel Path} {p i : Nat} {path : Path}
    (bound : k.bindSocket p path = (some i, k')) : k'.alive = k.alive := by
  simp only [Kernel.bindSocket] at bound
  split at bound <;> cases bound
  rfl

theorem answer_alive {p : Nat} {w w' : World} {call : FsCall} {r : Answer call}
    (answered : w.answer p call = (r, w')) : w'.kernel.alive = w.kernel.alive := by
  cases call with
  | fileExists | hasType | permissions | removeAll =>
      cases answered
      rfl
  | createDirectory path =>
      cases answered
      show (w.kernel.createDirectory p path).2.alive = _
      obtain ⟨_, -, done⟩ | ⟨-, -, done⟩ := w.kernel.createDirectory_cases p path <;> rw [done]
      rfl
  | openCreate path =>
      cases answered
      show (w.kernel.openCreate p path LOCK_FILE_MODE).2.alive = _
      obtain done | ⟨_, -, -, done⟩ | ⟨-, -, done⟩ :=
        w.kernel.openCreate_cases p path LOCK_FILE_MODE <;> rw [done] <;> rfl
  | flock fd =>
      cases answered
      show (w.kernel.flock p fd).2.alive = _
      obtain ⟨_, _, _, done⟩ | ⟨_, _, _, done⟩ | done := w.kernel.flock_cases p fd <;> rw [done]
  | close fd =>
      cases answered
      show (w.kernel.close p fd).2.alive = _
      unfold Kernel.close
      split <;> rfl

section Runs

variable {bound : Option Nat}

theorem answer_serving {p : Nat} {w w' : World} {doomed : Option Path} {call : FsCall}
    {r : Answer call} (serving : Serving bound w.kernel) (spared : Spared bound p doomed w)
    (alive : w.kernel.alive p = true) (justified : Justified doomed call)
    (answered : w.answer p call = (r, w')) : Serving bound w'.kernel := by
  cases call with
  | fileExists | hasType | permissions =>
      cases answered
      exact serving
  | removeAll path =>
      cases answered
      apply serving.removeAll
      intro up
      cases justified
      obtain ⟨socketFile, socketDir⟩ := spared up alive
      cases path with
      | lock lockFile => exact ⟨lockFile, rfl⟩
      | socketDir => exact absurd rfl socketDir
      | socketFile => exact absurd rfl socketFile
  | createDirectory path =>
      cases answered
      exact serving.createDirectory p path
  | openCreate path =>
      cases answered
      exact serving.openCreate p path LOCK_FILE_MODE
  | flock fd =>
      cases answered
      exact serving.flock p fd
  | close fd =>
      cases answered
      exact serving.close p fd

/-- No check of the socket that is bound, or of its directory, calls for a removal. -/
theorem answer_spared {p q : Nat} {w w' : World} {doomed : Option Path} {call : FsCall}
    {r : Answer call} (serving : Serving bound w.kernel) (good : Starts.FindsGood bound w call = true)
    (justified : Justified doomed call) (answered : w.answer p call = (r, w')) :
    Spared bound q (doom call r) w' := by
  intro up _
  obtain ⟨i, rfl⟩ := Option.isSome_iff_exists.mp up
  obtain ⟨found, socket⟩ := serving.found i rfl
  obtain ⟨d, foundDir, directory⟩ := serving.directory rfl
  cases justified with
  | isSocket =>
      cases answered
      simp [doom, Kernel.hasType, Kernel.inodeAt, found, socket]
  | isDirectory =>
      cases answered
      simp [doom, Kernel.hasType, Kernel.inodeAt, foundDir, directory]
  | socketPermissions =>
      cases answered
      have good : isGoodChmod (w.kernel.permissions .socketFile) = true := good
      simp [doom, good]
  | _ => simp [doom]

theorem removal_obligations (bound : Option Nat) :
    Pool.Obligations (handler.restrict (Starts.FindsGood bound)) removalProtocol
      (fun w => Serving bound w.kernel) (Spared bound) where
  own := by
    intro p w doomed call r w' serving spared justified done
    obtain ⟨good, done⟩ := Pool.restrict_handle done
    obtain ⟨alive, answered⟩ := perform_cases done
    exact ⟨answer_serving serving spared alive justified answered, _, rfl,
      answer_spared serving good justified answered⟩
  others := by
    intro p q w doomed doomed' call r w' _ _ _ spared _ done up alive
    obtain ⟨-, done⟩ := Pool.restrict_handle done
    rw [answer_alive (perform_cases done).2] at alive
    exact spared up alive
  environment := by
    intro w p w' serving ended
    simp only [Handler.restrict, handler] at ended
    split at ended
    · cases ended
      refine ⟨serving.frame rfl rfl rfl, ?_⟩
      intro q doomed spared up alive
      apply spared up
      by_cases same : q = p
      · subst same
        simp [Kernel.exit] at alive
      · simpa only [Kernel.exit, Function.update_of_ne same] using alive
    · cases ended

/-- A program that is not about to remove the path or its directory has no such removal
    called for. -/
theorem conforms_waiting {program : Locking Bool} {doomed : Option Path}
    (conforms : program.Conforms removalProtocol (fun _ _ => True) doomed)
    (waits : ∀ path next, program = .act (.removeAll path) next →
      path ≠ .socketFile ∧ path ≠ .socketDir) :
    ∃ doomed : Option Path, (doomed ≠ some .socketFile ∧ doomed ≠ some .socketDir) ∧
      program.Conforms removalProtocol (fun _ _ => True) doomed := by
  cases doomed with
  | none => exact ⟨none, ⟨nofun, nofun⟩, conforms⟩
  | some path =>
      cases program with
      | ret => exact ⟨none, ⟨nofun, nofun⟩, trivial⟩
      | act call next =>
          cases conforms.1
          obtain ⟨socketFile, socketDir⟩ := waits path next rfl
          exact ⟨some path, ⟨mt Option.some.inj socketFile, mt Option.some.inj socketDir⟩, conforms⟩

end Runs

namespace Starts

structure Invariant (s : Starts) : Prop where
  conforming : Pool.Conforming removalProtocol (fun w => Serving s.bound w.kernel) (Spared s.bound)
    s.pool
  /-- There are two processes. -/
  others : ∀ p, 2 ≤ p → ∃ ready, s.pool.threads p = .ret ready

theorem invariant_pool {s : Starts} {pool : Pool FsCall Answer World Bool} {move : Move Nat}
    (inv : s.Invariant) (spares : s.Spares (.pool move) = true)
    (stepped : s.pool.step handler move = some pool) : ({ s with pool } : Starts).Invariant := by
  have restricted : s.pool.step (handler.restrict (FindsGood s.bound)) move = some pool := by
    apply Pool.step_restrict stepped
    intro p call next same located
    subst same
    simpa [Spares, located] using spares
  refine ⟨Pool.conforming_step (removal_obligations s.bound) inv.conforming restricted, ?_⟩
  intro p later
  obtain ⟨ready, ended⟩ := inv.others p later
  exact ⟨ready, Pool.step_ret stepped ended⟩

theorem invariant_bind {s s' : Starts} (inv : s.Invariant) (spares : s.Spares .bind = true)
    (stepped : s.bindStep = some s') : s'.Invariant := by
  unfold bindStep at stepped
  split at stepped
  · rename_i unbound returned
    split at stepped
    · split at stepped
      · rename_i i kernel bound
        cases stepped
        have serving := inv.conforming.1
        rw [unbound] at serving
        refine ⟨⟨serving.bind bound, ?_⟩, inv.others⟩
        intro p
        obtain ⟨doomed, -, conforms⟩ := inv.conforming.2 p
        by_cases alive : kernel.alive p = true
        · have waits : ∀ path next, s.pool.threads p = .act (.removeAll path) next →
              path ≠ .socketFile ∧ path ≠ .socketDir := by
            intro path next located
            match p with
            | 0 =>
                rw [returned] at located
                cases located
            | 1 =>
                have alive : s.pool.shared.kernel.alive 1 = true := bindSocket_alive bound ▸ alive
                simpa [Spares, AboutToRemove, located, alive] using spares
            | p + 2 =>
                obtain ⟨ready, ended⟩ := inv.others (p + 2) (by omega)
                rw [ended] at located
                cases located
          obtain ⟨doomed, spared, conforms⟩ := conforms_waiting conforms waits
          exact ⟨doomed, fun _ _ => spared, conforms⟩
        · exact ⟨doomed, fun _ up => absurd up alive, conforms⟩
      · cases stepped
    · cases stepped
  · cases stepped

theorem init_removes {w : World} {s : Starts} (initial : (machine w).init s) (p : Nat) :
    Removes none (s.pool.threads p) := by
  obtain ⟨-, -, server, helper, others⟩ := initial
  match p with
  | 0 =>
      rw [server]
      exact start_removes .server
  | 1 =>
      rw [helper]
      exact start_removes .dbus
  | p + 2 =>
      rw [others (p + 2) (by omega)]
      exact .ret false

theorem invariant_init {w : World} (booted : Booted w) {s : Starts} (initial : (machine w).init s) :
    s.Invariant := by
  have removes := init_removes initial
  obtain ⟨unbound, rfl, -, -, others⟩ := initial
  refine ⟨⟨⟨booted.fresh, ?_, ?_⟩, ?_⟩, fun p later => ⟨false, others p later⟩⟩
  · intro i up
    rw [unbound] at up
    cases up
  · intro up
    rw [unbound] at up
    cases up
  · intro p
    exact ⟨none, fun _ _ => ⟨nofun, nofun⟩, (removes p).mono fun _ _ _ => trivial⟩

theorem invariant_step {s s' : Starts} {move : StartMove} (inv : s.Invariant)
    (spares : s.Spares move = true) (stepped : s.step move = some s') : s'.Invariant := by
  cases move with
  | pool move =>
      obtain ⟨pool, moved, same⟩ := Option.map_eq_some_iff.mp stepped
      cases same
      exact invariant_pool inv spares moved
  | bind => exact invariant_bind inv spares stepped

theorem sparing_kept {w : World} (booted : Booted w) {s : Starts} (reachable : (sparing w).Reachable s) :
    ∀ i, s.bound = some i → s.pool.shared.kernel.lookup .socketFile = some i := by
  have inv : s.Invariant := by
    refine reachable.invariant Invariant ?_ ?_
    · intro s initial
      exact invariant_init booted initial
    · intro s move s' inv stepped
      obtain ⟨spares, stepped⟩ := StepMachine.restrict_step.mp stepped
      exact invariant_step inv spares stepped
  intro i up
  exact (inv.conforming.1.found i up).1

/-! ## The condition is exact -/

/-- In every run, sparing or not: the threads make the removals that are called for, there
    are two of them, and the server has returned when its socket is bound. -/
structure Course (s : Starts) : Prop where
  removes : ∀ p, ∃ doomed, Removes doomed (s.pool.threads p)
  others : ∀ p, 2 ≤ p → ∃ ready, s.pool.threads p = .ret ready
  server : s.bound.isSome → ∃ ready, s.pool.threads 0 = .ret ready

theorem Course.helper {s : Starts} (course : s.Course) (up : s.bound.isSome) {p : Nat} {call : FsCall}
    {next : Answer call → Locking Bool} (located : s.pool.threads p = .act call next) : p = 1 := by
  match p with
  | 0 =>
      obtain ⟨ready, ended⟩ := course.server up
      rw [ended] at located
      cases located
  | 1 => rfl
  | p + 2 =>
      obtain ⟨ready, ended⟩ := course.others (p + 2) (by omega)
      rw [ended] at located
      cases located

theorem course_init {w : World} {s : Starts} (initial : (machine w).init s) : s.Course := by
  have removes := init_removes initial
  obtain ⟨unbound, -, -, -, others⟩ := initial
  refine ⟨fun p => ⟨none, removes p⟩, fun p later => ⟨false, others p later⟩, ?_⟩
  intro up
  rw [unbound] at up
  cases up

theorem course_pool {s : Starts} {pool : Pool FsCall Answer World Bool} {move : Move Nat}
    (course : s.Course) (stepped : s.pool.step handler move = some pool) :
    ({ s with pool } : Starts).Course where
  removes := by
    obtain ⟨q, call, next, r, shared, -, located, -, rfl⟩ | ⟨q, shared, -, -, rfl⟩ :=
      Pool.step_cases stepped
    · intro p
      obtain ⟨doomed, removes⟩ := course.removes p
      by_cases own : p = q
      · subst own
        rw [located] at removes
        refine ⟨doom call r, ?_⟩
        simp only [Function.update_self]
        exact removes.2 r _ rfl
      · refine ⟨doomed, ?_⟩
        simp only [Function.update_of_ne own]
        exact removes
    · exact course.removes
  others p later := by
    obtain ⟨ready, ended⟩ := course.others p later
    exact ⟨ready, Pool.step_ret stepped ended⟩
  server up := by
    obtain ⟨ready, ended⟩ := course.server up
    exact ⟨ready, Pool.step_ret stepped ended⟩

theorem bindStep_cases {s s' : Starts} (stepped : s.bindStep = some s') :
    s.pool.threads 0 = .ret true ∧ s'.pool.threads = s.pool.threads ∧ s'.bound.isSome ∧
      s'.pool.shared.kernel.alive = s.pool.shared.kernel.alive := by
  unfold bindStep at stepped
  split at stepped
  · rename_i unbound returned
    split at stepped
    · split at stepped
      · rename_i i kernel bound
        cases stepped
        exact ⟨returned, rfl, rfl, bindSocket_alive bound⟩
      · cases stepped
    · cases stepped
  · cases stepped

theorem course_of_reachable {w : World} {s : Starts} (reachable : (machine w).Reachable s) :
    s.Course := by
  refine reachable.invariant Course ?_ ?_
  · intro s initial
    exact course_init initial
  · intro s move s' course stepped
    cases move with
    | pool move =>
        obtain ⟨pool, moved, same⟩ := Option.map_eq_some_iff.mp stepped
        cases same
        exact course_pool course moved
    | bind =>
        obtain ⟨returned, threads, -, -⟩ := bindStep_cases stepped
        refine ⟨?_, ?_, fun _ => ⟨true, ?_⟩⟩
        · rw [threads]
          exact course.removes
        · rw [threads]
          exact course.others
        · rw [threads]
          exact returned

theorem findsGood_eq_false {bound : Option Nat} {w : World} {call : FsCall} :
    FindsGood bound w call = false ↔ call = .permissions .socketFile ∧ (∃ i, bound = some i) ∧
      isGoodChmod (w.kernel.permissions .socketFile) = false := by
  unfold FindsGood
  split
  · cases bound <;> simp
  · rename_i other
    exact iff_of_false nofun fun found => other found.1

theorem step_alive {s pool : Pool FsCall Answer World Bool} {p : Nat}
    (stepped : s.step handler (.thread p) = some pool) : s.shared.kernel.alive p = true := by
  obtain ⟨q, call, next, r, shared, same, -, done, -⟩ | ⟨q, shared, same, -, -⟩ :=
    Pool.step_cases stepped
  · cases same
    exact (perform_cases done).1
  · cases same

theorem step_thread (w : World) {s : Starts} {p : Nat} {call : FsCall}
    {next : Answer call → Locking Bool} (located : s.pool.threads p = .act call next)
    (alive : s.pool.shared.kernel.alive p = true) :
    (machine w).step s (.pool (.thread p)) = some { s with
      pool := ⟨(s.pool.shared.answer p call).2,
        Function.update s.pool.threads p (next (s.pool.shared.answer p call).1)⟩ } := by
  have stepped : s.pool.step handler (.thread p) =
      some ⟨(s.pool.shared.answer p call).2,
        Function.update s.pool.threads p (next (s.pool.shared.answer p call).1)⟩ := by
    simp only [Pool.step, located, handler, World.perform, alive, if_true]
  simp only [machine, step, stepped, Option.map_some]

theorem about_to_remove_lost (w : World) {s : Starts} (about : s.AboutToRemove = true) :
    ∃ t, (machine w).step s (.pool (.thread 1)) = some t ∧ t.bound = s.bound ∧
      t.pool.shared.kernel.lookup .socketFile = none := by
  unfold AboutToRemove at about
  split at about
  · rename_i path next located
    simp only [Bool.and_eq_true, Bool.or_eq_true, decide_eq_true_eq] at about
    obtain ⟨alive, doomed⟩ := about
    refine ⟨_, step_thread w located alive, rfl, ?_⟩
    obtain rfl | rfl := doomed <;> rfl
  · cases about

/-- When a look of the helper does not find the permissions good, it is about to remove the
    path after it. -/
theorem bad_look_removes {w : World} {s s' : Starts} {next : Perms → Locking Bool}
    (course : s.Course) (located : s.pool.threads 1 = .act (.permissions .socketFile) next)
    (alive : s.pool.shared.kernel.alive 1 = true)
    (stepped : (machine w).step s (.pool (.thread 1)) = some s')
    (bad : isGoodChmod (s.pool.shared.kernel.permissions .socketFile) = false) :
    s'.AboutToRemove = true ∧ s'.bound = s.bound := by
  obtain ⟨doomed, removes⟩ := course.removes 1
  rw [located] at removes
  have called : Removes (doom (.permissions .socketFile)
      (s.pool.shared.kernel.permissions .socketFile))
      (next (s.pool.shared.kernel.permissions .socketFile)) := removes.2 _ _ rfl
  have removal : doom (.permissions .socketFile) (s.pool.shared.kernel.permissions .socketFile) =
      some .socketFile := by
    simp [doom, bad]
  rw [removal] at called
  obtain ⟨rest, removal⟩ := called.next
  rw [step_thread w located alive] at stepped
  cases stepped
  exact ⟨by simp [AboutToRemove, World.answer, removal, alive], rfl⟩

/-- After a step that does not spare the socket a run goes on that loses it. -/
theorem unsparing_lost {w : World} {s s' : Starts} {move : StartMove}
    (reachable : (machine w).Reachable s) (stepped : (machine w).step s move = some s')
    (spares : s.Spares move = false) :
    ∃ moves t i, (machine w).run s' moves = some t ∧ t.bound = some i ∧
      t.pool.shared.kernel.lookup .socketFile = none := by
  have course := course_of_reachable reachable
  have removed {i : Nat} (about : s'.AboutToRemove = true) (bound : s'.bound = some i) :
      ∃ moves t i, (machine w).run s' moves = some t ∧ t.bound = some i ∧
        t.pool.shared.kernel.lookup .socketFile = none := by
    obtain ⟨t, lost, same, gone⟩ := about_to_remove_lost w about
    exact ⟨[.pool (.thread 1)], t, i, StepMachine.run_cons _ lost [], same.trans bound, gone⟩
  cases move with
  | bind =>
      obtain ⟨-, threads, bound, alive⟩ := bindStep_cases stepped
      obtain ⟨i, bound⟩ := Option.isSome_iff_exists.mp bound
      have about : s'.AboutToRemove = true := by
        simpa only [Spares, Bool.not_eq_false', AboutToRemove, threads, alive] using spares
      exact removed about bound
  | pool move =>
      obtain ⟨pool, moved, same⟩ := Option.map_eq_some_iff.mp stepped
      cases move with
      | environment p => cases spares
      | thread p =>
          simp only [Spares] at spares
          split at spares
          · rename_i call next located
            obtain ⟨rfl, ⟨i, bound⟩, bad⟩ := findsGood_eq_false.mp spares
            obtain rfl : p = 1 := course.helper (by rw [bound]; rfl) located
            obtain ⟨about, kept⟩ := bad_look_removes course located (step_alive moved) stepped bad
            exact removed about (kept.trans bound)
          · cases spares

/-- In every run that spares it, the path refers to the socket that the server has bound,
    whatever the path was at first; and after every other step some way of going on loses the
    socket. -/
theorem bound_path_kept {w : World} (booted : Booted w) :
    (∀ s, (sparing w).Reachable s → ∀ i, s.bound = some i →
      s.pool.shared.kernel.lookup .socketFile = some i) ∧
    ∀ s move s', (machine w).Reachable s → (machine w).step s move = some s' →
      s.Spares move = false →
      ∃ moves t i, (machine w).run s' moves = some t ∧ t.bound = some i ∧
        t.pool.shared.kernel.lookup .socketFile = none := by
  constructor
  · intro s reachable
    exact sparing_kept booted reachable
  · intro s move s' reachable stepped spares
    exact unsparing_lost reachable stepped spares

/-- A world in which the directory of the socket is all there is. -/
def socketDirOnly : World where
  kernel :=
    { lookup := fun path => if path = .socketDir then some 0 else none
      inode := fun _ => ⟨.directory, 0o755⟩
      nextInode := 1
      descriptors := fun _ => []
      holder := fun _ => none
      umask := fun _ => 0o022
      alive := fun _ => true }
  passed _ := false

theorem socketDirOnly_booted : Booted socketDirOnly where
  unlocked _ := rfl
  fresh path i found := by
    simp only [socketDirOnly] at found
    split at found
    · cases found
      exact Nat.zero_lt_one
    · cases found
  umask _ := by
    simp only [socketDirOnly]
    decide
  alive _ := rfl
  passed _ := rfl

def starts : Starts where
  pool :=
    { shared := socketDirOnly
      threads := fun
        | 0 => start .server
        | 1 => start .dbus
        | _ => .ret false }
  bound := none

theorem starts_init : (machine socketDirOnly).init starts := by
  refine ⟨rfl, rfl, rfl, rfl, ?_⟩
  intro p later
  match p with
  | p + 2 => rfl

/-- The server starts and binds, then the helper starts. -/
def serverFirst : List StartMove :=
  List.replicate 8 (.pool (.thread 0)) ++ [.bind] ++ List.replicate 8 (.pool (.thread 1))

theorem serverFirst_enabled : ((sparing socketDirOnly).run starts serverFirst).isSome := by
  decide

theorem bound_path_kept_server_first :
    ∃ t, (sparing socketDirOnly).Reachable t ∧ t.bound = some 3 ∧
      (∀ i, t.bound = some i → t.pool.shared.kernel.lookup .socketFile = some i) :=
  have init : (sparing socketDirOnly).init starts := starts_init
  ⟨_, .get init serverFirst_enabled, by decide,
    (bound_path_kept socketDirOnly_booted).1 _ (.get init serverFirst_enabled)⟩

/-- The helper sees the file that `try_create_socket` of the server has made, which is no
    socket, and is stopped before the removal; the server binds. -/
def helperBetween : List StartMove :=
  List.replicate 8 (.pool (.thread 0)) ++ List.replicate 7 (.pool (.thread 1)) ++ [.bind]

theorem helperBetween_enabled : ((machine socketDirOnly).run starts helperBetween).isSome := by
  decide

theorem live_socket_removed :
    Booted socketDirOnly ∧ ∃ s, (machine socketDirOnly).Reachable s ∧ s.bound = some 4 ∧
      s.pool.shared.kernel.lookup .socketFile = none := by
  have reached := StepMachine.Reachable.get starts_init helperBetween_enabled
  have about : (((machine socketDirOnly).run starts helperBetween).get
      helperBetween_enabled).AboutToRemove = true := by decide
  obtain ⟨t, removed, bound, lost⟩ := about_to_remove_lost socketDirOnly about
  refine ⟨socketDirOnly_booted, t, reached.step removed, ?_, lost⟩
  rw [bound]
  decide

end Starts

end RpiFanServe.Locker
