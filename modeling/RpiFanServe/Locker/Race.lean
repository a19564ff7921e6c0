import RpiFanServe.Locker.Exclusion

/-! # The race of two lockers

When the lock file fails a check of `clean_lock`, one process can be stopped between its
checks and the removal while another one removes the file, creates it again and locks it.
The first process then removes the new file and locks an inode of its own.
-/

namespace RpiFanServe.Locker

open Prog

/-! ## Cutting the program in two -/

/-- The checks of `clean_lock`: whether it will delete the lock. -/
def lockChecks (lock : Path) : Locking Bool := do
  let found : FsAnswer ← perform (FsCall.fileExists lock)
  match found with
  | .no | .failed _ => return false
  | .yes =>
      let regular : FsAnswer ← perform (FsCall.hasType .regular lock)
      match regular with
      | .no | .failed _ => return true
      | .yes =>
          let perms : Perms ← perform (FsCall.permissions lock)
          return !isGoodChmod perms

/-- The part of `try_lock` after `clean_lock`. -/
def openAndFlock (lock : Path) : Locking Int := do
  let lockFd : Option Nat ← perform (FsCall.openCreate lock)
  match lockFd with
  | none => return -1
  | some lockFd =>
      let locked : Bool ← perform (FsCall.flock lockFd)
      if locked then return 0 else return -1

/-- What follows the checks when they fail. -/
def retake (lock : Path) : Locking Int := do
  let _ ← tryDelete lock
  openAndFlock lock

theorem cleanLock_eq (lock : Path) :
    cleanLock lock = lockChecks lock >>= fun bad =>
      if bad then tryDelete lock >>= fun _ => pure () else pure () := by
  apply congrArg (Prog.act _)
  funext found
  cases found with
  | no | failed => rfl
  | yes =>
      apply congrArg (Prog.act _)
      funext regular
      cases regular with
      | no | failed => rfl
      | yes =>
          apply congrArg (Prog.act _)
          funext perms
          show (if isGoodChmod perms then _ else _) = if (!isGoodChmod perms) then _ else _
          cases isGoodChmod perms <;> rfl

theorem tryLock_eq (lock : Path) :
    tryLock lock = lockChecks lock >>= fun bad =>
      if bad then retake lock else openAndFlock lock := by
  show (cleanLock lock >>= fun _ => openAndFlock lock) = _
  rw [cleanLock_eq, bind_assoc]
  congr
  funext bad
  cases bad <;> rfl

/-- What a locker does after `try_lock`. -/
def afterLock (lockFile : Path) (calls : Nat) (mLockFd : Int) : Locking Unit := do
  let (_, mLockFd) ← (do
    if mLockFd = -1 then return (false, mLockFd)
    else
      let ready ← checkCleanSocket
      return (ready, mLockFd) : Locking (Bool × Int))
  locker lockFile calls mLockFd

theorem locker_eq (lockFile : Path) (calls : Nat) :
    locker lockFile (calls + 1) (-1) = lockChecks lockFile >>= fun bad =>
      (if bad then retake lockFile else openAndFlock lockFile) >>=
        afterLock lockFile calls := by
  show ((tryLock lockFile >>= _) >>= _) = _
  rw [tryLock_eq, bind_assoc, bind_assoc]
  rfl

/-! ## Running the two parts alone -/

section Race

variable (lockFile : LockFile) {p : Nat} {w : World}

variable {lockFile} in
theorem lockChecks_exec (alive : w.kernel.alive p = true) (bad : ¬ SafeLock lockFile w) :
    (lockChecks (.lock lockFile)).exec (handler.handle p) w = some (true, w) := by
  unfold SafeLock at bad
  push Not at bad
  obtain ⟨i, found, fails⟩ := bad
  have there : w.kernel.fileExists (.lock lockFile) = .yes := by
    simp only [Kernel.fileExists, found, Option.isSome_some, if_true]
  have inode := Kernel.inodeAt_of_lookup found
  by_cases regular : (w.kernel.inode i).kind = .regular
  · have perms : isGoodChmod (w.kernel.inode i).perms = false := by simpa using fails regular
    simp [lockChecks, Prog.exec, handler, World.perform, World.answer, alive, there, Kernel.hasType, inode,
      regular, Kernel.permissions, perms]
  · simp [lockChecks, Prog.exec, handler, World.perform, World.answer, alive, there, Kernel.hasType, inode,
      regular]

/-- The lock file removed and created again by the process `p`, with its new slot. -/
def recreated (p : Nat) (k : Kernel Path) : Kernel Path :=
  ((k.removeAll (.lock lockFile)).create (.lock lockFile)
    ⟨.regular, LOCK_FILE_MODE &&& ~~~(k.umask p)⟩).install p k.nextInode

theorem openCreate_removed (p : Nat) (k : Kernel Path) :
    (k.removeAll (.lock lockFile)).openCreate p (.lock lockFile) LOCK_FILE_MODE =
      (some (Kernel.freeSlot (k.descriptors p)), recreated lockFile p k) := by
  have removed : (k.removeAll (.lock lockFile)).lookup (.lock lockFile) = none := by
    simp [Kernel.removeAll, PathTree.inside]
  unfold Kernel.openCreate
  rw [removed]
  exact if_pos rfl

theorem flock_recreated (p : Nat) {k : Kernel Path} (unlocked : k.holder k.nextInode = none) :
    (recreated lockFile p k).flock p (Kernel.freeSlot (k.descriptors p)) =
      (true, { recreated lockFile p k with
        holder := Function.update k.holder k.nextInode
          (some (p, Kernel.freeSlot (k.descriptors p))) }) := by
  have file : (recreated lockFile p k).file p (Kernel.freeSlot (k.descriptors p)) =
      some k.nextInode := by
    have slot := Kernel.fillSlot_self (k.descriptors p) k.nextInode
    simpa [Kernel.file, recreated, Kernel.install, Kernel.create, Kernel.removeAll] using
      congrArg Option.join slot
  have holder : (recreated lockFile p k).holder k.nextInode = none := unlocked
  simp only [Kernel.flock, file, holder]
  rfl

/-- No inode that is still to be created is locked. -/
def FreshUnlocked (w : World) : Prop :=
  ∀ i, w.kernel.nextInode ≤ i → w.kernel.holder i = none

/-- After removing the lock, a process creates an inode and locks it, whoever holds the old
    one. -/
theorem retake_exec (alive : w.kernel.alive p = true) (fresh : FreshUnlocked w) :
    ∃ w', (retake (.lock lockFile)).exec (handler.handle p) w = some (0, w') ∧
      w'.kernel.alive = w.kernel.alive ∧ w'.passed = Function.update w.passed p true ∧
      FreshUnlocked w' := by
  have aliveRemoved : (w.kernel.removeAll (.lock lockFile)).alive p = true := alive
  have aliveCreated : (recreated lockFile p w.kernel).alive p = true := alive
  have locked := flock_recreated lockFile p (fresh _ (Nat.le_refl _))
  refine ⟨⟨((recreated lockFile p w.kernel).flock p (Kernel.freeSlot (w.kernel.descriptors p))).2,
    Function.update w.passed p true⟩, ?_, ?_, rfl, ?_⟩
  · simp [retake, openAndFlock, tryDelete, Prog.perform, Prog.exec, handler, World.perform,
      World.answer, alive, aliveRemoved, aliveCreated, openCreate_removed, locked]
  · rw [locked]
    rfl
  · intro i later
    rw [locked] at later ⊢
    have after : w.kernel.nextInode < i := later
    simp only [Function.update_of_ne (Nat.ne_of_gt after)]
    exact fresh i (Nat.le_of_lt after)

/-! ## The race -/

/-- Every process locks once. -/
def lockers (w : World) : Pool FsCall Answer World Unit :=
  ⟨w, fun _ => locker (.lock lockFile) 1 (-1)⟩

/-- The rest of a locker that is about to remove the lock file. -/
def removing : Locking Unit := retake (.lock lockFile) >>= afterLock (.lock lockFile) 0

variable {lockFile}

theorem reach_removing {s : Pool FsCall Answer World Unit}
    (reached : (processes lockFile w).Reachable s)
    (located : s.threads p = locker (.lock lockFile) 1 (-1))
    (alive : s.shared.kernel.alive p = true) (bad : ¬ SafeLock lockFile s.shared) :
    (processes lockFile w).Reachable
      ⟨s.shared, Function.update s.threads p (removing lockFile)⟩ := by
  have checked := Pool.reachable_exec reached (located.trans (locker_eq _ 0))
    (lockChecks_exec alive bad)
  exact checked

theorem reach_retaken {s : Pool FsCall Answer World Unit}
    (reached : (processes lockFile w).Reachable s) (located : s.threads p = removing lockFile)
    (alive : s.shared.kernel.alive p = true) (fresh : FreshUnlocked s.shared) :
    ∃ w', (processes lockFile w).Reachable
        ⟨w', Function.update s.threads p (afterLock (.lock lockFile) 0 0)⟩ ∧
      w'.kernel.alive = s.shared.kernel.alive ∧
      w'.passed = Function.update s.shared.passed p true ∧ FreshUnlocked w' := by
  obtain ⟨w', run, facts⟩ := retake_exec lockFile alive fresh
  exact ⟨w', Pool.reachable_exec reached located run, facts⟩

/-- Process 1 makes its checks, process 0 takes the lock, process 1 takes it too. -/
theorem unsafe_race (booted : Booted w) (bad : ¬ SafeLock lockFile w) :
    ∃ s, (processes lockFile w).Reachable s ∧ ¬ Exclusive s.shared := by
  have started : (processes lockFile w).Reachable (lockers lockFile w) :=
    .of_init ⟨rfl, fun _ => ⟨1, rfl⟩⟩
  have checked₁ := reach_removing started rfl (booted.alive 1) bad
  have checked₀ := reach_removing checked₁ rfl (booted.alive 0) bad
  obtain ⟨w₀, taken₀, alive₀, passed₀, fresh₀⟩ :=
    reach_retaken checked₀ (Function.update_self _ _ _) (booted.alive 0)
      fun i _ => booted.unlocked i
  have alive₁ : w₀.kernel.alive 1 = true := alive₀ ▸ booted.alive 1
  obtain ⟨w₁, taken₁, aliveBoth, passed₁, -⟩ := reach_retaken taken₀ rfl alive₁ fresh₀
  refine ⟨_, taken₁, ?_⟩
  intro exclusive
  have alive : ∀ p, w₁.kernel.alive p = true := by
    intro p
    rw [aliveBoth, alive₀]
    exact booted.alive p
  have same := exclusive 0 1 (alive 0) (alive 1) (by simp [passed₁, passed₀]) (by simp [passed₁])
  cases same

/-- At most one process is past `flock` in every interleaving if and only if the lock path
    is at first absent or passes the checks of `clean_lock`. -/
theorem lock_exclusive_iff (booted : Booted w) :
    (∀ s, (processes lockFile w).Reachable s → Exclusive s.shared) ↔ SafeLock lockFile w := by
  constructor
  · intro exclusive
    by_contra bad
    obtain ⟨s, reached, shared⟩ := unsafe_race booted bad
    exact shared (exclusive s reached)
  · intro safe s reached
    exact safe_exclusive booted safe reached

end Race

/-- A world in which the lock of the server is absent or the given inode. -/
def worldWith (lock : Option Inode) : World where
  kernel :=
    { lookup := fun path => if path = .lock .server then lock.map fun _ => 0 else none
      inode := fun _ => lock.getD ⟨.other, 0⟩
      nextInode := 1
      descriptors := fun _ => []
      holder := fun _ => none
      umask := fun _ => 0o022
      alive := fun _ => true }
  passed _ := false

theorem worldWith_booted (lock : Option Inode) : Booted (worldWith lock) where
  unlocked _ := rfl
  fresh path i found := by
    simp only [worldWith] at found
    split at found
    · obtain ⟨_, -, rfl⟩ := Option.map_eq_some_iff.mp found
      exact Nat.zero_lt_one
    · cases found
  umask _ := by
    simp only [worldWith]
    decide
  alive _ := rfl
  passed _ := rfl

theorem lock_exclusive_iff_absent :
    SafeLock .server (worldWith none) ∧
      ∀ s, (processes .server (worldWith none)).Reachable s → Exclusive s.shared := by
  have safe : SafeLock .server (worldWith none) := fun _ found => nomatch found
  exact ⟨safe, (lock_exclusive_iff (worldWith_booted none)).mpr safe⟩

/-- A stale lock file that its group and others may write. -/
theorem stale_lock_shared :
    Booted (worldWith (some ⟨.regular, 0o666⟩)) ∧
      ∃ s, (processes .server (worldWith (some ⟨.regular, 0o666⟩))).Reachable s ∧
        ¬ Exclusive s.shared := by
  refine ⟨worldWith_booted _, unsafe_race (worldWith_booted _) ?_⟩
  intro safe
  have good := (safe 0 rfl).2
  revert good
  decide

end RpiFanServe.Locker
