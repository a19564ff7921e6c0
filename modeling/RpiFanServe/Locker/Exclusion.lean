import RpiFanServe.Locker.SocketLocker

/-! # Exclusion

The lock keeps to one process exactly when its path is at first absent or a regular
file with good permissions.  Then no process ever removes it, so all of them open the
same inode.  Otherwise `clean_lock` removes it between the checks and the `flock` of
two processes, and the second one locks an inode of its own.
-/

namespace RpiFanServe.Locker

open Prog

/-- The path is absent or passes the checks of `clean_lock`. -/
def SafeLock (lockFile : LockFile) (w : World) : Prop :=
  ∀ i, w.kernel.lookup (.lock lockFile) = some i →
    (w.kernel.inode i).kind = .regular ∧ isGoodChmod (w.kernel.inode i).perms = true

/-! ## Permissions of new files -/

theorem masked_and {umask mask mode : Perms} (clear : umask &&& mask = 0) :
    (mode &&& ~~~umask) &&& mask = mode &&& mask := by
  apply BitVec.eq_of_getLsbD_eq
  intro i _
  have bit := congrArg (fun p => BitVec.getLsbD p i) clear
  simp only [BitVec.getLsbD_and, BitVec.getLsbD_not, BitVec.ofNat_eq_ofNat, BitVec.getLsbD_zero]
    at bit ⊢
  grind

theorem masked_zero {mode mask : Perms} (umask : Perms) (clear : mode &&& mask = 0) :
    (mode &&& ~~~umask) &&& mask = 0 := by
  rw [BitVec.and_assoc, BitVec.and_comm (~~~umask), ← BitVec.and_assoc, clear]
  exact BitVec.zero_and

theorem part_zero {umask a b : Perms} (clear : umask &&& (a ||| b) = 0) :
    umask &&& a = 0 ∧ umask &&& b = 0 := by
  constructor <;>
  · apply BitVec.eq_of_getLsbD_eq
    intro i _
    have bit := congrArg (fun p => BitVec.getLsbD p i) clear
    simp only [BitVec.getLsbD_and, BitVec.getLsbD_or, BitVec.ofNat_eq_ofNat, BitVec.getLsbD_zero]
      at bit ⊢
    grind

theorem new_lock_good {umask : Perms}
    (clear : umask &&& (Perms.ownerRead ||| Perms.ownerWrite) = 0) :
    isGoodChmod (LOCK_FILE_MODE &&& ~~~umask) = true := by
  obtain ⟨read, write⟩ := part_zero clear
  unfold isGoodChmod
  rw [masked_and read, masked_and write, masked_zero umask (by decide),
    masked_zero umask (by decide)]
  decide

/-! ## Views -/

/-- What a process knows: that it has seen the lock file, the slots that it opened on
    the lock file and on the socket, and whether it has passed `flock`. -/
structure View where
  seen : Bool
  lockFd : Option Nat
  socketFd : Option Nat
  passed : Bool

section Exclusion

variable (lockFile : LockFile)

/-- Nobody removes the lock file, and only slots on the socket are closed. -/
def lockProtocol : Protocol FsCall Answer View where
  allowed
    | _, .removeAll path => path ≠ .lock lockFile
    | _, .createDirectory path => path ≠ .lock lockFile
    | v, .openCreate path => path = .lock lockFile → v.passed = false
    | v, .flock fd => v.lockFd = some fd
    | v, .close fd => v.socketFd = some fd
    | _, _ => True
  next
    | v, .fileExists path, found, v' =>
        v' = if path = .lock lockFile then { v with seen := found = .yes } else v
    | v, .hasType kind path, found, v' =>
        v' = v ∧ (path = .lock lockFile → kind = .regular → v.seen = true → found = .yes)
    | v, .permissions path, perms, v' =>
        v' = v ∧ (path = .lock lockFile → v.seen = true → isGoodChmod perms = true)
    | v, .openCreate path, fd, v' =>
        v' = if path = .lock lockFile then { v with lockFd := fd } else { v with socketFd := fd }
    | v, .flock _, locked, v' => v' = { v with passed := v.passed || locked }
    | v, .close _, _, v' => v' = { v with socketFd := none }
    | v, _, _, v' => v' = v

structure Guarded (w : World) : Prop where
  fresh : ∀ path i, w.kernel.lookup path = some i → i < w.kernel.nextInode
  umask : ∀ p, w.kernel.umask p &&& (Perms.ownerRead ||| Perms.ownerWrite) = 0
  safe : SafeLock lockFile w

structure Knows (p : Nat) (v : View) (w : World) : Prop where
  seen : v.seen = true → ∃ i, w.kernel.lookup (.lock lockFile) = some i
  lockFd : ∀ fd, v.lockFd = some fd → ∃ i, w.kernel.lookup (.lock lockFile) = some i ∧
    (w.kernel.descriptors p)[fd]? = some (some i)
  socketFd : ∀ fd, v.socketFd = some fd → v.lockFd ≠ some fd ∧
    ∃ i, (w.kernel.descriptors p)[fd]? = some (some i)
  passed : w.passed p = v.passed
  holds : v.passed = true → ∃ fd i, v.lockFd = some fd ∧
    w.kernel.lookup (.lock lockFile) = some i ∧ w.kernel.holder i = some (p, fd)

/-- What the process `p` relies on is as before. -/
structure Kept (p : Nat) (w w' : World) : Prop where
  lookup : ∀ i, w.kernel.lookup (.lock lockFile) = some i →
    w'.kernel.lookup (.lock lockFile) = some i
  descriptors : ∀ fd i : Nat, (w.kernel.descriptors p)[fd]? = some (some i) →
    (w'.kernel.descriptors p)[fd]? = some (some i)
  holder : ∀ i fd, w.kernel.holder i = some (p, fd) → w'.kernel.holder i = some (p, fd)
  passed : w'.passed p = w.passed p
  alive : w'.kernel.alive p = w.kernel.alive p

/-- What a process knows, as long as it is alive. -/
def Tied (p : Nat) (v : View) (w : World) : Prop :=
  w.kernel.alive p = true → Knows lockFile p v w

variable {lockFile} {p : Nat} {v : View} {w w' : World}

theorem Kept.knows (kept : Kept lockFile p w w') (knows : Knows lockFile p v w) :
    Knows lockFile p v w' where
  seen seen := by
    obtain ⟨i, found⟩ := knows.seen seen
    exact ⟨i, kept.lookup i found⟩
  lockFd fd opened := by
    obtain ⟨i, found, slot⟩ := knows.lockFd fd opened
    exact ⟨i, kept.lookup i found, kept.descriptors fd i slot⟩
  socketFd fd opened := by
    obtain ⟨apart, i, slot⟩ := knows.socketFd fd opened
    exact ⟨apart, i, kept.descriptors fd i slot⟩
  passed := kept.passed.trans knows.passed
  holds passed := by
    obtain ⟨fd, i, opened, found, holder⟩ := knows.holds passed
    exact ⟨fd, i, opened, kept.lookup i found, kept.holder i fd holder⟩

/-! ## What the calls keep -/

theorem lock_outside {path : Path} (other : path ≠ .lock lockFile) :
    PathTree.inside path (.lock lockFile) = false := by
  cases path <;> simp_all [PathTree.inside]

theorem Kept.refl (p : Nat) (w : World) : Kept lockFile p w w where
  lookup _ found := found
  descriptors _ _ slot := slot
  holder _ _ held := held
  passed := rfl
  alive := rfl

theorem Kept.trans {w'' : World} (first : Kept lockFile p w w') (second : Kept lockFile p w' w'') :
    Kept lockFile p w w'' where
  lookup i found := second.lookup i (first.lookup i found)
  descriptors fd i slot := second.descriptors fd i (first.descriptors fd i slot)
  holder i fd held := second.holder i fd (first.holder i fd held)
  passed := second.passed.trans first.passed
  alive := second.alive.trans first.alive

theorem Kept.create (path : Path) (node : Inode) (absent : w.kernel.lookup path = none) :
    Kept lockFile p w { w with kernel := w.kernel.create path node } where
  lookup i found := by
    have other : (Path.lock lockFile) ≠ path := by
      rintro rfl
      rw [absent] at found
      cases found
    simpa only [Kernel.create, Function.update_of_ne other] using found
  descriptors _ _ slot := slot
  holder _ _ held := held
  passed := rfl
  alive := rfl

theorem Kept.install (q i : Nat) :
    Kept lockFile p w { w with kernel := w.kernel.install q i } where
  lookup _ found := found
  descriptors fd j slot := by
    by_cases same : p = q
    · subst same
      simpa only [Kernel.install, Function.update_self] using Kernel.fillSlot_other i slot
    · simpa only [Kernel.install, Function.update_of_ne same] using slot
  holder _ _ held := held
  passed := rfl
  alive := rfl

theorem Kept.openCreate (q : Nat) (path : Path) (mode : Perms) :
    Kept lockFile p w { w with kernel := (w.kernel.openCreate q path mode).2 } := by
  obtain done | ⟨i, -, -, done⟩ | ⟨absent, -, done⟩ := w.kernel.openCreate_cases q path mode <;>
    rw [done]
  · exact .refl p w
  · exact .install q i
  · exact (Kept.create path _ absent).trans (.install q _)

theorem Kept.createDirectory (q : Nat) (path : Path) :
    Kept lockFile p w { w with kernel := (w.kernel.createDirectory q path).2 } := by
  obtain ⟨_, -, done⟩ | ⟨absent, -, done⟩ := w.kernel.createDirectory_cases q path <;> rw [done]
  · exact .refl p w
  · exact .create path _ absent

theorem Kept.removeAll {path : Path} (other : path ≠ .lock lockFile) :
    Kept lockFile p w { w with kernel := w.kernel.removeAll path } where
  lookup i found := by
    simpa only [Kernel.removeAll, lock_outside other, Bool.false_eq_true, if_false] using found
  descriptors _ _ slot := slot
  holder _ _ held := held
  passed := rfl
  alive := rfl

theorem Kept.flock {q : Nat} (fd : Nat) (apart : p ≠ q) :
    Kept lockFile p w ⟨(w.kernel.flock q fd).2,
      if (w.kernel.flock q fd).1 then Function.update w.passed q true else w.passed⟩ := by
  obtain ⟨i, -, unlocked, done⟩ | ⟨i, -, -, done⟩ | done := w.kernel.flock_cases q fd
  · rw [done]
    refine ⟨fun _ found => found, fun _ _ slot => slot, ?_, Function.update_of_ne apart _ _, rfl⟩
    intro j fd' held
    have other : j ≠ i := by
      rintro rfl
      rw [unlocked] at held
      cases held
    simpa only [Function.update_of_ne other] using held
  · rw [done]
    exact ⟨fun _ found => found, fun _ _ slot => slot, fun _ _ held => held,
      Function.update_of_ne apart _ _, rfl⟩
  · rw [done]
    exact .refl p w

theorem Kept.close {q : Nat} (fd : Nat) (apart : p ≠ q) :
    Kept lockFile p w { w with kernel := (w.kernel.close q fd).2 } := by
  unfold Kernel.close
  split
  · exact .refl p w
  · rename_i i _
    refine ⟨fun _ found => found, ?_, ?_, rfl, rfl⟩
    · intro fd' j slot
      simpa only [Function.update_of_ne apart] using slot
    · intro j fd' held
      show (if _ then _ else _ : Nat → Option (Nat × Nat)) j = _
      split
      · rename_i owner
        have other : j ≠ i := by
          rintro rfl
          rw [held] at owner
          cases owner
          exact apart rfl
        simpa only [Function.update_of_ne other] using held
      · exact held

theorem Kept.exit {q : Nat} (apart : p ≠ q) :
    Kept lockFile p w { w with kernel := w.kernel.exit q } where
  lookup _ found := found
  descriptors fd i slot := by
    simpa only [Kernel.exit, Function.update_of_ne apart] using slot
  holder i fd held := by
    simp [Kernel.exit, held, apart]
  passed := rfl
  alive := by simp only [Kernel.exit, Function.update_of_ne apart]

/-! ## The invariant -/

theorem Guarded.create (guarded : Guarded lockFile w) (path : Path) (node : Inode)
    (good : path = .lock lockFile → node.kind = .regular ∧ isGoodChmod node.perms = true) :
    Guarded lockFile { w with kernel := w.kernel.create path node } where
  fresh := Kernel.fresh_create guarded.fresh path node
  umask := guarded.umask
  safe i found := by
    by_cases same : Path.lock lockFile = path
    · subst same
      simp only [Kernel.create, Function.update_self] at found
      cases found
      simpa only [Kernel.create, Function.update_self] using good rfl
    · simp only [Kernel.create, Function.update_of_ne same] at found
      have old : i ≠ w.kernel.nextInode := Nat.ne_of_lt (guarded.fresh _ i found)
      simpa only [Kernel.create, Function.update_of_ne old] using guarded.safe i found

theorem Guarded.install (guarded : Guarded lockFile w) (q i : Nat) :
    Guarded lockFile { w with kernel := w.kernel.install q i } :=
  ⟨guarded.fresh, guarded.umask, guarded.safe⟩

theorem Guarded.openCreate (guarded : Guarded lockFile w) (q : Nat) (path : Path) :
    Guarded lockFile { w with kernel := (w.kernel.openCreate q path LOCK_FILE_MODE).2 } := by
  obtain done | ⟨i, -, -, done⟩ | ⟨-, -, done⟩ :=
    w.kernel.openCreate_cases q path LOCK_FILE_MODE <;> rw [done]
  · exact guarded
  · exact guarded.install q i
  · have created := guarded.create path ⟨.regular, LOCK_FILE_MODE &&& ~~~(w.kernel.umask q)⟩
      fun _ => ⟨rfl, new_lock_good (guarded.umask q)⟩
    exact created.install q _

theorem Guarded.createDirectory (guarded : Guarded lockFile w) (q : Nat) {path : Path}
    (other : path ≠ .lock lockFile) :
    Guarded lockFile { w with kernel := (w.kernel.createDirectory q path).2 } := by
  obtain ⟨_, -, done⟩ | ⟨-, -, done⟩ := w.kernel.createDirectory_cases q path <;> rw [done]
  · exact guarded
  · exact guarded.create path _ fun same => absurd same other

theorem Guarded.removeAll (guarded : Guarded lockFile w) (path : Path) :
    Guarded lockFile { w with kernel := w.kernel.removeAll path } where
  fresh path' i found := by
    simp only [Kernel.removeAll] at found
    split at found
    · cases found
    · exact guarded.fresh path' i found
  umask := guarded.umask
  safe i found := by
    simp only [Kernel.removeAll] at found
    split at found
    · cases found
    · exact guarded.safe i found

theorem Guarded.flock (guarded : Guarded lockFile w) (q fd : Nat) (passed : Nat → Bool) :
    Guarded lockFile ⟨(w.kernel.flock q fd).2, passed⟩ := by
  obtain ⟨_, _, _, done⟩ | ⟨_, _, _, done⟩ | done := w.kernel.flock_cases q fd <;>
  · rw [done]
    exact ⟨guarded.fresh, guarded.umask, guarded.safe⟩

theorem Guarded.close (guarded : Guarded lockFile w) (q fd : Nat) :
    Guarded lockFile { w with kernel := (w.kernel.close q fd).2 } := by
  unfold Kernel.close
  split <;> exact ⟨guarded.fresh, guarded.umask, guarded.safe⟩

/-! ## Views move with the calls -/

theorem Knows.openCreate (knows : Knows lockFile p v w) (path : Path)
    (allowed : path = .lock lockFile → v.passed = false) {mode : Perms} {fd : Option Nat}
    (result : (w.kernel.openCreate p path mode).1 = fd) :
    Knows lockFile p
      (if path = .lock lockFile then { v with lockFd := fd } else { v with socketFd := fd })
      { w with kernel := (w.kernel.openCreate p path mode).2 } := by
  have before := (Kept.openCreate p path mode).knows knows
  -- a slot that the view knows was in use, so the new one is another
  have apart : ∀ new used : Nat, fd = some new →
      (∃ i, (w.kernel.descriptors p)[used]? = some (some i)) → new ≠ used := by
    rintro new used rfl ⟨i, slot⟩
    rw [(Kernel.openCreate_slot result).1]
    exact Kernel.freeSlot_ne slot
  split
  · rename_i same
    subst same
    refine ⟨before.seen, ?_, ?_, before.passed, ?_⟩
    · rintro new rfl
      exact (Kernel.openCreate_slot result).2
    · intro used opened
      refine ⟨?_, (before.socketFd used opened).2⟩
      intro new
      exact apart used used new (knows.socketFd used opened).2 rfl
    · intro passed
      exact absurd passed (by simp [allowed rfl])
  · refine ⟨before.seen, before.lockFd, ?_, before.passed, before.holds⟩
    rintro new rfl
    obtain ⟨-, i, -, slot⟩ := Kernel.openCreate_slot result
    refine ⟨?_, i, slot⟩
    intro used
    obtain ⟨j, -, inUse⟩ := knows.lockFd new used
    exact apart new new rfl ⟨j, inUse⟩ rfl

theorem Knows.flock (knows : Knows lockFile p v w) {fd : Nat} (opened : v.lockFd = some fd) :
    Knows lockFile p { v with passed := v.passed || (w.kernel.flock p fd).1 }
      ⟨(w.kernel.flock p fd).2,
        if (w.kernel.flock p fd).1 then Function.update w.passed p true else w.passed⟩ := by
  obtain ⟨i, found, slot⟩ := knows.lockFd fd opened
  have file := Kernel.file_of_slot slot
  obtain ⟨j, same, -, done⟩ | ⟨j, same, held, done⟩ | done := w.kernel.flock_cases p fd
  · rw [file] at same
    cases same
    rw [done]
    refine ⟨knows.seen, knows.lockFd, knows.socketFd, ?_, ?_⟩
    · simp only [if_true, Function.update_self, Bool.or_true]
    · intro _
      exact ⟨fd, i, opened, found, by simp only [Function.update_self]⟩
  · rw [file] at same
    cases same
    rw [done]
    refine ⟨knows.seen, knows.lockFd, knows.socketFd, ?_, ?_⟩
    · simp only [if_true, Function.update_self, Bool.or_true]
    · intro _
      exact ⟨fd, i, opened, found, held⟩
  · rw [done]
    simpa only [Bool.or_false, Bool.false_eq_true, if_false] using knows

theorem Knows.close (knows : Knows lockFile p v w) {fd : Nat} (opened : v.socketFd = some fd) :
    Knows lockFile p { v with socketFd := none }
      { w with kernel := (w.kernel.close p fd).2 } := by
  obtain ⟨apart, -⟩ := knows.socketFd fd opened
  have other : ∀ used, v.lockFd = some used → fd ≠ used := by
    rintro used lock rfl
    exact apart lock
  have lookup : (w.kernel.close p fd).2.lookup = w.kernel.lookup := Kernel.close_lookup _ p fd
  refine ⟨?_, ?_, ?_, knows.passed, ?_⟩
  · rw [lookup]
    exact knows.seen
  · intro used lock
    obtain ⟨j, found, inUse⟩ := knows.lockFd used lock
    rw [(w.kernel.close_other (other used lock)).1, lookup]
    exact ⟨j, found, inUse⟩
  · intro _ closed
    cases closed
  · intro passed
    obtain ⟨used, j, lock, found, held⟩ := knows.holds passed
    rw [lookup]
    exact ⟨used, j, lock, found, (w.kernel.close_other (other used lock)).2 j held⟩

/-! ## Obligations -/

theorem answer_kept {q : Nat} {call : FsCall} {r : Answer call} (apart : p ≠ q)
    (allowed : (lockProtocol lockFile).allowed v call) (answered : w.answer q call = (r, w')) :
    Kept lockFile p w w' := by
  cases call with
  | fileExists | hasType | permissions =>
      cases answered
      exact .refl p w
  | removeAll path =>
      cases answered
      exact .removeAll allowed
  | createDirectory path =>
      cases answered
      exact .createDirectory q path
  | openCreate path =>
      cases answered
      exact .openCreate q path LOCK_FILE_MODE
  | flock fd =>
      cases answered
      exact .flock fd apart
  | close fd =>
      cases answered
      exact .close fd apart

theorem answer_guarded {call : FsCall} {r : Answer call} (guarded : Guarded lockFile w)
    (allowed : (lockProtocol lockFile).allowed v call) (answered : w.answer p call = (r, w')) :
    Guarded lockFile w' := by
  cases call with
  | fileExists | hasType | permissions =>
      cases answered
      exact guarded
  | removeAll path =>
      cases answered
      exact guarded.removeAll path
  | createDirectory path =>
      cases answered
      exact guarded.createDirectory p allowed
  | openCreate path =>
      cases answered
      exact guarded.openCreate p path
  | flock fd =>
      cases answered
      exact guarded.flock p fd _
  | close fd =>
      cases answered
      exact guarded.close p fd

theorem answer_knows {call : FsCall} {r : Answer call} (guarded : Guarded lockFile w)
    (knows : Knows lockFile p v w) (allowed : (lockProtocol lockFile).allowed v call)
    (answered : w.answer p call = (r, w')) :
    ∃ v', (lockProtocol lockFile).next v call r v' ∧ Knows lockFile p v' w' := by
  cases call with
  | fileExists path =>
      cases answered
      refine ⟨_, rfl, ?_⟩
      split
      · rename_i same
        subst same
        refine ⟨?_, knows.lockFd, knows.socketFd, knows.passed, knows.holds⟩
        intro found
        rw [decide_eq_true_eq, Kernel.fileExists] at found
        split at found
        · rename_i there
          exact Option.isSome_iff_exists.mp there
        · cases found
      · exact knows
  | hasType kind path =>
      cases answered
      refine ⟨v, ⟨rfl, ?_⟩, knows⟩
      rintro rfl rfl seen
      obtain ⟨i, found⟩ := knows.seen seen
      simp only [Kernel.hasType, Kernel.inodeAt_of_lookup found, (guarded.safe i found).1, if_true]
  | permissions path =>
      cases answered
      refine ⟨v, ⟨rfl, ?_⟩, knows⟩
      rintro rfl seen
      obtain ⟨i, found⟩ := knows.seen seen
      simp only [Kernel.permissions, Kernel.inodeAt_of_lookup found, (guarded.safe i found).2]
  | removeAll path =>
      cases answered
      exact ⟨v, rfl, (Kept.removeAll allowed).knows knows⟩
  | createDirectory path =>
      cases answered
      exact ⟨v, rfl, (Kept.createDirectory p path).knows knows⟩
  | openCreate path =>
      cases answered
      exact ⟨_, rfl, knows.openCreate path allowed rfl⟩
  | flock fd =>
      cases answered
      exact ⟨_, rfl, knows.flock allowed⟩
  | close fd =>
      cases answered
      exact ⟨_, rfl, knows.close allowed⟩

theorem lock_obligations :
    Pool.Obligations handler (lockProtocol lockFile) (Guarded lockFile) (Tied lockFile) where
  own p w v call r w' guarded knows allowed done := by
    obtain ⟨alive, answered⟩ := perform_cases done
    obtain ⟨v', moved, knows'⟩ := answer_knows guarded (knows alive) allowed answered
    exact ⟨answer_guarded guarded allowed answered, v', moved, fun _ => knows'⟩
  others q p w v u call r w' apart _ _ knows allowed done := by
    have kept : Kept lockFile p w w' := answer_kept apart allowed (perform_cases done).2
    intro alive
    exact kept.knows (knows (kept.alive ▸ alive))
  environment w q w' guarded ended := by
    simp only [handler] at ended
    split at ended
    · cases ended
      refine ⟨⟨guarded.fresh, guarded.umask, guarded.safe⟩, ?_⟩
      intro p v knows alive
      by_cases same : p = q
      · subst same
        simp only [Kernel.exit, Function.update_self] at alive
        cases alive
      · have kept : Kept lockFile p w _ := Kept.exit same
        exact kept.knows (knows (kept.alive ▸ alive))
    · cases ended

/-! ## The locker keeps to the protocol -/

/-- On a good lock file neither check fails, so nothing is deleted. -/
theorem cleanLock_conforms (unlocked : v.passed = false) :
    (cleanLock (.lock lockFile)).Conforms (lockProtocol lockFile) (fun v _ => v.passed = false)
      v := by
  apply Conforms.perform trivial
  rintro found v₁ rfl
  rw [if_pos rfl]
  cases found with
  | no | failed => exact unlocked
  | yes =>
      apply Conforms.perform trivial
      rintro regular v₂ ⟨rfl, regularIf⟩
      have isRegular : regular = .yes := regularIf rfl rfl rfl
      subst isRegular
      apply Conforms.perform trivial
      rintro perms v₃ ⟨rfl, goodIf⟩
      rw [if_pos (goodIf rfl rfl)]
      exact unlocked

theorem tryLock_conforms (unlocked : v.passed = false) :
    (tryLock (.lock lockFile)).Conforms (lockProtocol lockFile)
      (fun v rc => rc = -1 → v.passed = false) v := by
  apply Conforms.bind
  apply (cleanLock_conforms unlocked).mono
  intro v₁ _ unlocked
  apply Conforms.perform fun _ => unlocked
  rintro fd v₂ rfl
  rw [if_pos rfl]
  cases fd with
  | none => exact fun _ => unlocked
  | some fd =>
      apply Conforms.perform rfl
      rintro locked v₃ rfl
      cases locked with
      | true => exact fun minus => absurd minus (by decide)
      | false =>
          intro _
          simpa only [Bool.or_false] using unlocked

theorem tryDelete_conforms {path : Path} (other : path ≠ .lock lockFile) :
    (tryDelete path).Conforms (lockProtocol lockFile) (fun _ _ => True) v :=
  ⟨other, fun _ _ _ => trivial⟩

theorem tryCreateSocket_conforms :
    (tryCreateSocket .socketFile).Conforms (lockProtocol lockFile) (fun _ _ => True) v := by
  apply Conforms.perform fun same => nomatch same
  rintro fd v₁ rfl
  rw [if_neg (by simp)]
  cases fd with
  | none => trivial
  | some fd => exact ⟨rfl, fun _ _ _ => trivial⟩

theorem checkCleanSocketAt_conforms :
    (checkCleanSocketAt .socketFile).Conforms (lockProtocol lockFile) (fun _ _ => True) v := by
  have recreate : ∀ v : View, (do
      let _ ← tryDelete .socketFile
      tryCreateSocket .socketFile : Locking Bool).Conforms (lockProtocol lockFile)
        (fun _ _ => True) v := by
    intro v
    apply Conforms.bind
    apply (tryDelete_conforms (by simp)).mono
    intro v₁ _ _
    exact tryCreateSocket_conforms
  apply Conforms.perform trivial
  intro found v₁ _
  cases found with
  | failed => trivial
  | no => exact tryCreateSocket_conforms
  | yes =>
      apply Conforms.perform trivial
      intro isSocket v₂ _
      cases isSocket with
      | no | failed => exact recreate v₂
      | yes =>
          apply Conforms.perform trivial
          intro perms v₃ _
          split
          · trivial
          · exact recreate v₃

theorem tryCreateDirectory_conforms :
    (tryCreateDirectory .socketDir).Conforms (lockProtocol lockFile) (fun _ _ => True) v := by
  apply Conforms.perform fun same => nomatch same
  intro created v₁ _
  cases created <;> trivial

theorem checkCleanDir_conforms :
    (checkCleanDir .socketDir).Conforms (lockProtocol lockFile) (fun _ _ => True) v := by
  apply Conforms.perform trivial
  intro found v₁ _
  cases found with
  | failed => trivial
  | no => exact tryCreateDirectory_conforms
  | yes =>
      apply Conforms.perform trivial
      intro isDirectory v₂ _
      cases isDirectory with
      | yes => trivial
      | no | failed =>
          apply Conforms.bind
          apply (tryDelete_conforms (by simp)).mono
          intro v₃ deleted _
          cases deleted with
          | true => exact tryCreateDirectory_conforms
          | false => trivial

theorem checkCleanSocket_conforms :
    checkCleanSocket.Conforms (lockProtocol lockFile) (fun _ _ => True) v := by
  apply Conforms.bind
  apply checkCleanDir_conforms.mono
  intro v₁ clean _
  cases clean with
  | true => exact checkCleanSocketAt_conforms
  | false => trivial

theorem checkAndTryLock_conforms {mLockFd : Int} (unlocked : mLockFd = -1 → v.passed = false) :
    (checkAndTryLock (.lock lockFile) mLockFd).Conforms (lockProtocol lockFile)
      (fun v result => result.2 = -1 → v.passed = false) v := by
  unfold checkAndTryLock
  split
  · rename_i held
    exact fun minus => absurd minus held
  · rename_i open'
    apply Conforms.bind
    apply (tryLock_conforms (unlocked (not_not.mp open'))).mono
    intro v₁ rc unlocked
    split
    · exact unlocked
    · rename_i held
      apply Conforms.bind
      apply checkCleanSocket_conforms.mono
      intro _ _ _
      exact fun minus => absurd minus held

theorem locker_conforms (calls : Nat) {mLockFd : Int}
    (unlocked : mLockFd = -1 → v.passed = false) :
    (locker (.lock lockFile) calls mLockFd).Conforms (lockProtocol lockFile)
      (fun _ _ => True) v := by
  induction calls generalizing mLockFd v with
  | zero => trivial
  | succ calls ih =>
      apply Conforms.bind
      apply (checkAndTryLock_conforms unlocked).mono
      intro v₁ result unlocked
      exact ih unlocked

/-- Two holders of one inode are one process. -/
theorem exclusive_of_knows
    (knows : ∀ p, w.kernel.alive p = true → ∃ v, Knows lockFile p v w) : Exclusive w := by
  intro p q aliveP aliveQ passedP passedQ
  obtain ⟨u, knowsP⟩ := knows p aliveP
  obtain ⟨v, knowsQ⟩ := knows q aliveQ
  obtain ⟨_, i, _, foundP, heldP⟩ := knowsP.holds (knowsP.passed ▸ passedP)
  obtain ⟨_, j, _, foundQ, heldQ⟩ := knowsQ.holds (knowsQ.passed ▸ passedQ)
  have same : i = j := Option.some.inj (foundP.symm.trans foundQ)
  subst same
  exact congrArg Prod.fst (Option.some.inj (heldP.symm.trans heldQ))

theorem safe_exclusive (booted : Booted w) (safe : SafeLock lockFile w)
    {s : Pool FsCall Answer World Unit} (reached : (processes lockFile w).Reachable s) :
    Exclusive s.shared := by
  have conforming : Pool.Conforming (lockProtocol lockFile) (Guarded lockFile) (Tied lockFile) s := by
    apply Pool.conforms_invariant lock_obligations _ reached
    rintro s ⟨rfl, threads⟩
    refine ⟨⟨booted.fresh, booted.umask, safe⟩, fun p => ?_⟩
    obtain ⟨calls, program⟩ := threads p
    refine ⟨⟨false, none, none, false⟩, fun _ => ?_, program ▸ locker_conforms calls fun _ => rfl⟩
    exact ⟨nofun, nofun, nofun, booted.passed p, nofun⟩
  apply exclusive_of_knows
  intro p alive
  obtain ⟨v, tied, -⟩ := conforming.2 p
  exact ⟨v, tied alive⟩

end Exclusion

end RpiFanServe.Locker
