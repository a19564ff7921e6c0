import RpiFanServe.Locker.Exclusion

/-! # Ready to use

The calls of `checkAndTryLock` on one locker, whatever fails in the file system.  A call
on a locker that has the lock answers true without a look at the socket, and the check
of the socket goes on after a removal that failed; the other true answers are right.
-/

namespace RpiFanServe.Locker

open Prog StepMachine

/-- What fails in the calls of one `checkAndTryLock`, each of which it makes at most once
    for a path.  A number is the error code; a removal that fails may have removed the
    contents of a directory. -/
structure Failures where
  fileExists : Path → Option Nat
  hasType : FileType → Path → Option Nat
  permissions : Path → Bool
  removeAll : Path → Option Bool
  createDirectory : Path → Option Nat
  openCreate : Path → Bool
  flock : Bool
  close : Bool

namespace Failures

/-- A call that does not fail answers from the file system and changes it. -/
def answer (f : Failures) (p : Nat) (w : World) : (call : FsCall) → Answer call × World
  | .fileExists path => ((f.fileExists path).elim (w.kernel.fileExists path) .failed, w)
  | .hasType kind path => ((f.hasType kind path).elim (w.kernel.hasType kind path) .failed, w)
  | .permissions path =>
      (if f.permissions path then Perms.unknown else w.kernel.permissions path, w)
  | .removeAll path =>
      match f.removeAll path with
      | some true => (false, { w with kernel := w.kernel.empty path })
      | some false => (false, w)
      | none => w.answer p (.removeAll path)
  | .createDirectory path =>
      match f.createDirectory path with
      | some code => (.failed code, w)
      | none => w.answer p (.createDirectory path)
  | .openCreate path => if f.openCreate path then (none, w) else w.answer p (.openCreate path)
  | .flock fd => if f.flock then (false, w) else w.answer p (.flock fd)
  -- A `close` that fails has closed the descriptor.
  | .close fd => (!f.close && (w.answer p (.close fd)).1, (w.answer p (.close fd)).2)

def handle (f : Failures) (p : Nat) (w : World) (call : FsCall) : Option (Answer call × World) :=
  some (f.answer p w call)

end Failures

/-- The directory is one, and the socket is there with good permissions. -/
def Prepared (k : Kernel Path) : Bool :=
  (k.inodeAt .socketDir).any (·.kind = .directory) &&
    (k.inodeAt .socketFile).any (isGoodChmod ·.perms)

/-- Process `p` holds the lock of the file that the path names. -/
def Held (lock : LockFile) (p : Nat) (w : World) : Prop :=
  ∃ fd i : Nat, (w.kernel.descriptors p)[fd]? = some (some i) ∧
    w.kernel.lookup (.lock lock) = some i ∧ w.kernel.holder i = some (p, fd)

/-- A file system in which the socket lies in a directory; every inode in use is older than
    the next one, and new files are readable and writeable by their owner. -/
structure Sited (k : Kernel Path) : Prop where
  fresh : ∀ path i, k.lookup path = some i → i < k.nextInode
  umask : ∀ p, k.umask p &&& (Perms.ownerRead ||| Perms.ownerWrite) = 0
  inside : (k.lookup .socketFile).isSome → k.hasParent .socketFile = true

/-- The path of the socket names a file that `open` takes, with bad permissions. -/
def Foul (k : Kernel Path) : Bool :=
  (k.inodeAt .socketFile).any fun node =>
    (node.kind = .regular || node.kind = .other) && !isGoodChmod node.perms

namespace Failures

/-- A foul file is found and not removed, and then opened and closed as if it were new. -/
def Stuck (f : Failures) (k : Kernel Path) : Bool :=
  Foul k && (f.fileExists .socketFile).isNone && (f.removeAll .socketFile).isSome &&
    !f.openCreate .socketFile && !f.close

/-- The directory is taken for something else, so that it is removed with its contents. -/
def Mistaken (f : Failures) : Bool :=
  (f.fileExists .socketDir).isNone && (f.hasType .directory .socketDir).isSome

/-- The check of the socket meets the foul file. -/
def Meets (f : Failures) (k : Kernel Path) : Bool := f.Stuck k && !f.Mistaken

end Failures

/-! ## What the calls keep -/

section Calls

variable {lock : LockFile} {p : Nat} {k : Kernel Path} {w : World} {f : Failures}

theorem Sited.remove {k' : Kernel Path} (sited : Sited k)
    (left : ∀ path i, k'.lookup path = some i → k.lookup path = some i)
    (directory : (k'.lookup .socketFile).isSome → k'.lookup .socketDir = k.lookup .socketDir)
    (inode : k'.inode = k.inode) (nextInode : k'.nextInode = k.nextInode)
    (umask : k'.umask = k.umask) : Sited k' where
  fresh := by
    intro path i found
    rw [nextInode]
    exact sited.fresh path i (left path i found)
  umask := by
    rw [umask]
    exact sited.umask
  inside := by
    intro there
    obtain ⟨i, found⟩ := Option.isSome_iff_exists.mp there
    have parent := sited.inside (by rw [left _ i found]; rfl)
    simpa only [Kernel.hasParent, Kernel.inodeAt, PathTree.parent, directory there, inode]
      using parent

theorem Sited.frame {k' : Kernel Path} (sited : Sited k) (lookup : k'.lookup = k.lookup)
    (inode : k'.inode = k.inode) (nextInode : k'.nextInode = k.nextInode)
    (umask : k'.umask = k.umask) : Sited k' := by
  refine sited.remove ?_ ?_ inode nextInode umask
  · intro path i found
    rw [← lookup]
    exact found
  · intro _
    rw [lookup]

theorem Sited.directory {i : Nat} (sited : Sited k) (found : k.lookup .socketFile = some i) :
    (k.inodeAt .socketDir).any (·.kind = .directory) = true :=
  sited.inside (by rw [found]; rfl)

theorem hasParent_create (sited : Sited k) {path : Path} (node : Inode)
    (absent : k.lookup path = none) (there : k.hasParent .socketFile = true) :
    (k.create path node).hasParent .socketFile = true := by
  obtain ⟨_, found, directory⟩ := (Option.any_eq_true _ _).mp there
  obtain ⟨d, named, rfl⟩ := Option.map_eq_some_iff.mp found
  obtain ⟨named, same⟩ := Kernel.create_other sited.fresh node absent named
  refine (Option.any_eq_true _ _).mpr ⟨_, ?_, directory⟩
  rw [Kernel.inodeAt, named, Option.map_some, same]

theorem Sited.create (sited : Sited k) {path : Path} (node : Inode)
    (absent : k.lookup path = none) (parent : k.hasParent path = true) :
    Sited (k.create path node) where
  fresh := Kernel.fresh_create sited.fresh path node
  umask := sited.umask
  inside := by
    intro there
    apply hasParent_create sited node absent
    by_cases same : path = .socketFile
    · subst same
      exact parent
    · simp only [Kernel.create, Function.update_of_ne (Ne.symm same)] at there
      exact sited.inside there

theorem Sited.openCreate (sited : Sited k) (p : Nat) (path : Path) (mode : Perms) :
    Sited (k.openCreate p path mode).2 := by
  obtain done | ⟨i, -, -, done⟩ | ⟨absent, parent, done⟩ := k.openCreate_cases p path mode <;>
    rw [done]
  · exact sited
  · exact sited.frame rfl rfl rfl rfl
  · exact (sited.create _ absent parent).frame rfl rfl rfl rfl

theorem Sited.createDirectory (sited : Sited k) (p : Nat) (path : Path) :
    Sited (k.createDirectory p path).2 := by
  obtain ⟨_, -, done⟩ | ⟨absent, parent, done⟩ := k.createDirectory_cases p path <;> rw [done]
  · exact sited
  · exact sited.create _ absent parent

theorem Sited.removeAll (sited : Sited k) (path : Path) : Sited (k.removeAll path) := by
  refine sited.remove ?_ ?_ rfl rfl rfl
  · intro other i found
    simp only [Kernel.removeAll] at found
    split at found
    · cases found
    · exact found
  · intro there
    cases path <;> simp_all [Kernel.removeAll, PathTree.inside]

theorem empty_lookup (k : Kernel Path) (path other : Path) :
    (k.empty path).lookup other =
      if path = .socketDir ∧ other = .socketFile then none else k.lookup other := by
  apply if_congr _ rfl rfl
  cases path <;> cases other <;> simp [PathTree.inside]
  exact fun differ same => differ same.symm

theorem empty_socketFile (k : Kernel Path) : k.empty .socketFile = k := by
  have same : (k.empty .socketFile).lookup = k.lookup := by
    funext other
    rw [empty_lookup, if_neg (by simp)]
  exact congrArg (fun lookup => { k with lookup }) same

theorem Sited.empty (sited : Sited k) (path : Path) : Sited (k.empty path) := by
  refine sited.remove ?_ ?_ rfl rfl rfl
  · intro other i found
    rw [empty_lookup] at found
    split at found
    · cases found
    · exact found
  · intro _
    rw [empty_lookup, if_neg (by simp)]

theorem Sited.flock (sited : Sited k) (p fd : Nat) : Sited (k.flock p fd).2 := by
  obtain ⟨_, _, _, done⟩ | ⟨_, _, _, done⟩ | done := k.flock_cases p fd <;>
  · rw [done]
    exact sited.frame rfl rfl rfl rfl

theorem Sited.close (sited : Sited k) (p fd : Nat) : Sited (k.close p fd).2 := by
  unfold Kernel.close
  split
  · exact sited
  · exact sited.frame rfl rfl rfl rfl

theorem sited_handle {w w' : World} {call : FsCall} {r : Answer call} (sited : Sited w.kernel)
    (handled : f.handle p w call = some (r, w')) : Sited w'.kernel := by
  have same : (f.answer p w call).2 = w' := congrArg Prod.snd (Option.some.inj handled)
  subst same
  cases call with
  | fileExists | hasType | permissions => exact sited
  | removeAll path =>
      simp only [Failures.answer]
      split
      · exact sited.empty path
      · exact sited
      · exact sited.removeAll path
  | createDirectory path =>
      simp only [Failures.answer]
      split
      · exact sited
      · exact sited.createDirectory p path
  | openCreate path =>
      simp only [Failures.answer]
      split
      · exact sited
      · exact sited.openCreate p path LOCK_FILE_MODE
  | flock fd =>
      simp only [Failures.answer]
      split
      · exact sited
      · exact sited.flock p fd
  | close fd => exact sited.close p fd

theorem Kept.held {w' : World} (kept : Kept lock p w w') (held : Held lock p w) :
    Held lock p w' := by
  obtain ⟨fd, i, slot, found, holder⟩ := held
  exact ⟨fd, i, kept.descriptors fd i slot, kept.lookup i found, kept.holder i fd holder⟩

theorem held_reclose (held : Held lock p w) (path : Path) (mode : Perms) :
    Held lock p { w with kernel :=
      ((w.kernel.openCreate p path mode).2.close p (Kernel.freeSlot (w.kernel.descriptors p))).2 } := by
  obtain ⟨fd, i, slot, found, holder⟩ := held
  have opened : Kept lock p w _ := .openCreate p path mode
  obtain ⟨sameSlot, sameHolder⟩ :=
    (w.kernel.openCreate p path mode).2.close_other (Kernel.freeSlot_ne slot) (p := p)
  refine ⟨fd, i, ?_, ?_, sameHolder i (opened.holder i fd holder)⟩
  · rw [sameSlot]
    exact opened.descriptors fd i slot
  · rw [Kernel.close_lookup]
    exact opened.lookup i found

/-! ## The check of the socket -/

theorem prepared_frame {k' : Kernel Path} (lookup : k'.lookup = k.lookup)
    (inode : k'.inode = k.inode) : Prepared k' = Prepared k := by
  simp only [Prepared, Kernel.inodeAt, lookup, inode]

theorem prepared_file {i : Nat} (sited : Sited k) (found : k.lookup .socketFile = some i)
    (file : (k.inode i).kind = .regular ∨ (k.inode i).kind = .other) :
    Prepared k = !Foul k := by
  unfold Prepared Foul
  rw [sited.directory found, Kernel.inodeAt_of_lookup found]
  rcases file with kind | kind <;> simp [kind]

theorem foul_absent (absent : k.lookup .socketFile = none) : Foul k = false := by
  simp [Foul, Kernel.inodeAt, absent]

theorem prepared_created (sited : Sited k) (absent : k.lookup .socketFile = none)
    (parent : k.hasParent .socketFile = true) (p : Nat) :
    Prepared (k.create .socketFile ⟨.regular, LOCK_FILE_MODE &&& ~~~(k.umask p)⟩) = true := by
  have directory := hasParent_create sited ⟨.regular, LOCK_FILE_MODE &&& ~~~(k.umask p)⟩ absent parent
  have good := new_lock_good (sited.umask p)
  unfold Prepared
  rw [Bool.and_eq_true]
  refine ⟨directory, ?_⟩
  simp [Kernel.inodeAt, Kernel.create, good]

theorem wp_tryCreateSocket (sited : Sited w.kernel) (held : Held lock p w) :
    (tryCreateSocket .socketFile).Wp (f.handle p)
      (fun ready w' => Held lock p w' ∧ (ready = true →
        (f.openCreate .socketFile = false ∧ f.close = false) ∧
          Prepared w'.kernel = !Foul w.kernel)) w := by
  cases fails : f.openCreate .socketFile with
  | true =>
      refine ⟨none, w, ?_, held, nofun⟩
      simp [Failures.handle, Failures.answer, fails]
  | false =>
      have called : f.handle p w (.openCreate .socketFile) =
          some (w.answer p (.openCreate .socketFile)) := by
        simp [Failures.handle, Failures.answer, fails]
      have kept := held_reclose held .socketFile LOCK_FILE_MODE
      obtain done | ⟨i, found, file, done⟩ | ⟨absent, parent, done⟩ :=
        w.kernel.openCreate_cases p .socketFile LOCK_FILE_MODE
      · refine ⟨none, w, ?_, held, nofun⟩
        simp only [called, World.answer, done]
      · rw [done] at kept
        refine ⟨some _, { w with kernel := w.kernel.install p i }, ?_, _, _, rfl, kept, ?_⟩
        · simp only [called, World.answer, done]
        · intro closed
          refine ⟨⟨rfl, by simpa using (Bool.and_eq_true_iff.mp closed).1⟩, ?_⟩
          rw [← prepared_file sited found file]
          exact prepared_frame (Kernel.close_lookup _ _ _) (Kernel.close_inode _ _ _)
      · rw [done] at kept
        refine ⟨some _, { w with kernel := (w.kernel.create .socketFile
          ⟨.regular, LOCK_FILE_MODE &&& ~~~(w.kernel.umask p)⟩).install p w.kernel.nextInode }, ?_,
          _, _, rfl, kept, ?_⟩
        · simp only [called, World.answer, done]
        · intro closed
          refine ⟨⟨rfl, by simpa using (Bool.and_eq_true_iff.mp closed).1⟩, ?_⟩
          rw [foul_absent absent, Bool.not_false, ← prepared_created sited absent parent p]
          exact prepared_frame (Kernel.close_lookup _ _ _) (Kernel.close_inode _ _ _)

/-- The removal leaves nothing, or it fails and leaves everything, and then a foul file
    is opened as it is. -/
theorem wp_replace (sited : Sited w.kernel) (held : Held lock p w)
    (found : f.fileExists .socketFile = none) :
    (tryDelete .socketFile >>= fun _ => tryCreateSocket .socketFile).Wp (f.handle p)
      (fun ready w' => Held lock p w' ∧ (ready = true → Prepared w'.kernel = !f.Stuck w.kernel)) w := by
  cases fails : f.removeAll .socketFile with
  | some emptied =>
      have called : f.handle p w (.removeAll .socketFile) = some (false, w) := by
        cases emptied <;> simp [Failures.handle, Failures.answer, fails, empty_socketFile]
      refine ⟨false, w, called, ?_⟩
      apply (wp_tryCreateSocket sited held).mono
      intro ready w' created
      refine ⟨created.1, ?_⟩
      intro done
      obtain ⟨⟨opens, closes⟩, prepared⟩ := created.2 done
      simp [prepared, Failures.Stuck, found, fails, opens, closes]
  | none =>
      refine ⟨true, { w with kernel := w.kernel.removeAll .socketFile }, ?_, ?_⟩
      · simp [Failures.handle, Failures.answer, fails, World.answer]
      have absent : (w.kernel.removeAll .socketFile).lookup .socketFile = none := by
        simp [Kernel.removeAll, PathTree.inside]
      have kept : Kept lock p w { w with kernel := w.kernel.removeAll .socketFile } :=
        .removeAll nofun
      apply (wp_tryCreateSocket (sited.removeAll .socketFile) (kept.held held)).mono
      intro ready w' created
      refine ⟨created.1, ?_⟩
      intro done
      rw [(created.2 done).2, foul_absent absent]
      simp [Failures.Stuck, fails]

theorem good_permissions {path : Path} {node : Inode} (p : Nat)
    (there : w.kernel.inodeAt path = some node)
    (good : isGoodChmod (f.answer p w (.permissions path)).1 = true) :
    isGoodChmod node.perms = true := by
  simp only [Failures.answer, Kernel.permissions, there] at good
  split at good
  · exact absurd good (by decide)
  · exact good

theorem wp_checkCleanSocketAt (sited : Sited w.kernel) (held : Held lock p w) :
    (checkCleanSocketAt .socketFile).Wp (f.handle p)
      (fun ready w' => Held lock p w' ∧ (ready = true → Prepared w'.kernel = !f.Stuck w.kernel)) w := by
  cases fails : f.fileExists .socketFile with
  | some code =>
      refine ⟨.failed code, w, ?_, held, nofun⟩
      simp [Failures.handle, Failures.answer, fails]
  | none =>
      have replaces := wp_replace sited held fails
      cases there : w.kernel.lookup .socketFile with
      | none =>
          refine ⟨.no, w, ?_, ?_⟩
          · simp [Failures.handle, Failures.answer, fails, Kernel.fileExists, there]
          apply (wp_tryCreateSocket sited held).mono
          intro ready w' created
          refine ⟨created.1, ?_⟩
          intro done
          rw [(created.2 done).2, Failures.Stuck, foul_absent there]
          rfl
      | some i =>
          refine ⟨.yes, w, ?_, ?_⟩
          · simp [Failures.handle, Failures.answer, fails, Kernel.fileExists, there]
          have node := Kernel.inodeAt_of_lookup there
          refine ⟨_, w, rfl, ?_⟩
          cases typed : f.hasType .socket .socketFile with
          | some code => exact replaces
          | none =>
              simp only [Option.elim, Kernel.hasType, node]
              by_cases socket : (w.kernel.inode i).kind = .socket
              · simp only [socket, if_true]
                have seen := good_permissions (f := f) p node
                refine ⟨(f.answer p w (.permissions .socketFile)).1, w, rfl, ?_⟩
                simp only [Prog.bind]
                split
                · rename_i good
                  refine ⟨held, ?_⟩
                  intro _
                  simp [Prepared, sited.directory there, Failures.Stuck, Foul, node, seen good, socket]
                · exact replaces
              · simp only [socket, if_false]
                exact replaces

theorem wp_tryCreateDirectory (held : Held lock p w)
    (absent : w.kernel.lookup .socketFile = none) :
    (tryCreateDirectory .socketDir).Wp (f.handle p)
      (fun _ w' => Held lock p w' ∧ w'.kernel.lookup .socketFile = none) w := by
  cases fails : f.createDirectory .socketDir with
  | some code =>
      refine ⟨.failed code, w, ?_, held, absent⟩
      simp [Failures.handle, Failures.answer, fails]
  | none =>
      have kept : Kept lock p w _ := .createDirectory p .socketDir
      have made : (w.kernel.createDirectory p .socketDir).2.lookup .socketFile = none := by
        obtain ⟨_, -, done⟩ | ⟨-, -, done⟩ := w.kernel.createDirectory_cases p .socketDir <;>
          rw [done]
        · exact absent
        · simpa [Kernel.create] using absent
      refine ⟨(w.kernel.createDirectory p .socketDir).1,
        { w with kernel := (w.kernel.createDirectory p .socketDir).2 }, ?_, ?_⟩
      · simp [Failures.handle, Failures.answer, fails, World.answer]
      cases (w.kernel.createDirectory p .socketDir).1 <;> exact ⟨kept.held held, made⟩

theorem wp_recreate (held : Held lock p w) :
    (tryDelete .socketDir >>= fun deleted =>
      if deleted then tryCreateDirectory .socketDir else return false).Wp (f.handle p)
      (fun clean w' => Held lock p w' ∧ (clean = true → w'.kernel.lookup .socketFile = none)) w := by
  cases fails : f.removeAll .socketDir with
  | some emptied =>
      cases emptied with
      | false =>
          refine ⟨false, w, ?_, held, fun done => absurd done Bool.false_ne_true⟩
          simp [Failures.handle, Failures.answer, fails]
      | true =>
          refine ⟨false, { w with kernel := w.kernel.empty .socketDir }, ?_, ?_,
            fun done => absurd done Bool.false_ne_true⟩
          · simp [Failures.handle, Failures.answer, fails]
          · obtain ⟨fd, i, slot, found, holder⟩ := held
            exact ⟨fd, i, slot, by rw [empty_lookup, if_neg (by simp), found], holder⟩
  | none =>
      refine ⟨true, { w with kernel := w.kernel.removeAll .socketDir }, ?_, ?_⟩
      · simp [Failures.handle, Failures.answer, fails, World.answer]
      have kept : Kept lock p w { w with kernel := w.kernel.removeAll .socketDir } :=
        .removeAll (by simp)
      apply (wp_tryCreateDirectory (kept.held held) _).mono
      · intro _ _ made
        exact ⟨made.1, fun _ => made.2⟩
      · simp [Kernel.removeAll, PathTree.inside]

theorem absent_outside (sited : Sited k) (outside : k.hasParent .socketFile = false) :
    k.lookup .socketFile = none := by
  cases there : k.lookup .socketFile with
  | none => rfl
  | some i => simp [sited.inside (by rw [there]; rfl)] at outside

theorem meets_absent (absent : k.lookup .socketFile = none) : f.Meets k = false := by
  simp [Failures.Meets, Failures.Stuck, foul_absent absent]

theorem wp_settle {program : Locking Bool} (harmless : f.Meets w.kernel = false)
    (made : program.Wp (f.handle p) (fun clean w' => Held lock p w' ∧
      (clean = true → w'.kernel.lookup .socketFile = none)) w) :
    program.Wp (f.handle p) (fun clean w' => Held lock p w' ∧
      (clean = true → f.Stuck w'.kernel = f.Meets w.kernel)) w := by
  apply made.mono
  intro clean w' made
  refine ⟨made.1, ?_⟩
  intro done
  rw [harmless, Failures.Stuck, foul_absent (made.2 done)]
  rfl

theorem wp_checkCleanDir (sited : Sited w.kernel) (held : Held lock p w) :
    (checkCleanDir .socketDir).Wp (f.handle p)
      (fun clean w' => Held lock p w' ∧ (clean = true → f.Stuck w'.kernel = f.Meets w.kernel)) w := by
  cases fails : f.fileExists .socketDir with
  | some code =>
      refine ⟨.failed code, w, ?_, held, ?_⟩
      · simp [Failures.handle, Failures.answer, fails]
      · simp [Failures.Meets, Failures.Mistaken, fails]
  | none =>
      cases there : w.kernel.lookup .socketDir with
      | none =>
          have absent : w.kernel.lookup .socketFile = none := by
            apply absent_outside sited
            simp [Kernel.hasParent, PathTree.parent, Kernel.inodeAt, there]
          refine ⟨.no, w, ?_, ?_⟩
          · simp [Failures.handle, Failures.answer, fails, Kernel.fileExists, there]
          apply wp_settle (meets_absent absent)
          apply (wp_tryCreateDirectory held absent).mono
          intro _ _ made
          exact ⟨made.1, fun _ => made.2⟩
      | some d =>
          refine ⟨.yes, w, ?_, ?_⟩
          · simp [Failures.handle, Failures.answer, fails, Kernel.fileExists, there]
          have node := Kernel.inodeAt_of_lookup there
          cases typed : f.hasType .directory .socketDir with
          | some code =>
              refine ⟨.failed code, w, ?_, ?_⟩
              · simp [Failures.handle, Failures.answer, typed]
              apply wp_settle _ (wp_recreate held)
              simp [Failures.Meets, Failures.Mistaken, fails, typed]
          | none =>
              by_cases directory : (w.kernel.inode d).kind = .directory
              · refine ⟨.yes, w, ?_, held, ?_⟩
                · simp [Failures.handle, Failures.answer, typed, Kernel.hasType, node, directory]
                · simp [Failures.Meets, Failures.Mistaken, typed]
              · have absent : w.kernel.lookup .socketFile = none := by
                  apply absent_outside sited
                  simp [Kernel.hasParent, PathTree.parent, node, directory]
                refine ⟨.no, w, ?_, wp_settle (meets_absent absent) (wp_recreate held)⟩
                simp [Failures.handle, Failures.answer, typed, Kernel.hasType, node, directory]

theorem wp_checkCleanSocket (sited : Sited w.kernel) (held : Held lock p w) :
    checkCleanSocket.Wp (f.handle p)
      (fun ready w' => Held lock p w' ∧ (ready = true → Prepared w'.kernel = !f.Meets w.kernel)) w := by
  apply Wp.bind
  apply (Wp.keep (wp_checkCleanDir sited held) sited fun _ _ _ _ => sited_handle).mono
  intro clean w' checked
  obtain ⟨sited', held', same⟩ := checked
  cases clean with
  | false => exact ⟨held', nofun⟩
  | true =>
      rw [← same rfl]
      exact wp_checkCleanSocketAt sited' held'

/-! ## The lock -/

theorem inodeAt_openCreate (sited : Sited k) (lock : LockFile) (p : Nat) (mode : Perms) :
    (k.openCreate p (.lock lock) mode).2.inodeAt .socketFile = k.inodeAt .socketFile := by
  obtain done | ⟨i, -, -, done⟩ | ⟨absent, -, done⟩ := k.openCreate_cases p (.lock lock) mode <;>
    rw [done]
  · rfl
  · cases there : k.lookup .socketFile with
    | none => simp [Kernel.inodeAt, Kernel.install, Kernel.create, there]
    | some i =>
        obtain ⟨found, same⟩ := Kernel.create_other sited.fresh
          ⟨.regular, mode &&& ~~~(k.umask p)⟩ absent there
        simp only [Kernel.inodeAt, Kernel.install, found, there, Option.map_some, same]

theorem Failures.handle_looks {call : FsCall} (looks : call.looks = true) :
    ∃ answer, f.handle p w call = some (answer, w) := by
  cases call with
  | fileExists | hasType | permissions => exact ⟨_, rfl⟩
  | removeAll | createDirectory | openCreate | flock | close => cases looks

theorem wp_cleanLock :
    (cleanLock (.lock lock)).Wp (f.handle p)
      (fun _ w' => w'.kernel.inodeAt .socketFile = w.kernel.inodeAt .socketFile) w := by
  apply cleanLock_wp (fun _ => Failures.handle_looks) rfl
  refine ⟨(f.answer p w (.removeAll (.lock lock))).1, (f.answer p w (.removeAll (.lock lock))).2,
    rfl, ?_⟩
  show (f.answer p w (.removeAll (.lock lock))).2.kernel.inodeAt .socketFile = _
  simp only [Failures.answer]
  split
  · simp [Kernel.inodeAt, Kernel.empty, PathTree.inside]
  · rfl
  · simp [World.answer, Kernel.inodeAt, Kernel.removeAll, PathTree.inside]

theorem inodeAt_flock (k : Kernel Path) (p fd : Nat) (path : Path) :
    (k.flock p fd).2.inodeAt path = k.inodeAt path := by
  obtain ⟨_, _, _, done⟩ | ⟨_, _, _, done⟩ | done := k.flock_cases p fd <;> rw [done]
  rfl

theorem wp_flock {fd i : Nat} (slot : (w.kernel.descriptors p)[fd]? = some (some i))
    (found : w.kernel.lookup (.lock lock) = some i) :
    (perform (FsCall.flock fd) >>= fun locked =>
      if locked then return 0 else return -1 : Locking Int).Wp (f.handle p) (fun rc w' =>
      w'.kernel.inodeAt .socketFile = w.kernel.inodeAt .socketFile ∧ (rc ≠ -1 → Held lock p w')) w := by
  cases fails : f.flock with
  | true =>
      refine ⟨false, w, ?_, rfl, fun taken => absurd rfl taken⟩
      simp [Failures.handle, Failures.answer, fails]
  | false =>
      have file := Kernel.file_of_slot slot
      have kept := inodeAt_flock w.kernel p fd .socketFile
      refine ⟨(w.answer p (.flock fd)).1, (w.answer p (.flock fd)).2, ?_, ?_⟩
      · simp [Failures.handle, Failures.answer, fails]
      simp only [World.answer]
      obtain ⟨j, same, -, done⟩ | ⟨j, same, holds, done⟩ | done := w.kernel.flock_cases p fd <;>
        rw [done] at kept ⊢
      · cases file.symm.trans same
        exact ⟨kept, fun _ => ⟨fd, i, slot, found, Function.update_self _ _ _⟩⟩
      · cases file.symm.trans same
        exact ⟨kept, fun _ => ⟨fd, i, slot, found, holds⟩⟩
      · exact ⟨kept, fun taken => absurd rfl taken⟩

theorem wp_tryLock (sited : Sited w.kernel) :
    (tryLock (.lock lock)).Wp (f.handle p) (fun rc w' =>
      w'.kernel.inodeAt .socketFile = w.kernel.inodeAt .socketFile ∧ (rc ≠ -1 → Held lock p w')) w := by
  apply Wp.bind
  apply (Wp.keep wp_cleanLock sited fun _ _ _ _ => sited_handle).mono
  intro _ clean same
  obtain ⟨sited, same⟩ := same
  rw [← same]
  cases fails : f.openCreate (.lock lock) with
  | true =>
      refine ⟨none, clean, ?_, rfl, fun taken => absurd rfl taken⟩
      simp [Failures.handle, Failures.answer, fails]
  | false =>
      have kept := inodeAt_openCreate sited lock p LOCK_FILE_MODE
      refine ⟨(clean.kernel.openCreate p (.lock lock) LOCK_FILE_MODE).1,
        { clean with kernel := (clean.kernel.openCreate p (.lock lock) LOCK_FILE_MODE).2 }, ?_, ?_⟩
      · simp [Failures.handle, Failures.answer, fails, World.answer]
      cases opened : (clean.kernel.openCreate p (.lock lock) LOCK_FILE_MODE).1 with
      | none => exact ⟨kept, fun taken => absurd rfl taken⟩
      | some fd =>
          obtain ⟨-, i, found, slot⟩ := Kernel.openCreate_slot opened
          apply (wp_flock slot found).mono
          intro rc w' flocked
          exact ⟨flocked.1.trans kept, flocked.2⟩

/-- On a locker without the lock: a true answer is right if the check of the socket did
    not meet a foul file. -/
theorem wp_checkAndTryLock (sited : Sited w.kernel) :
    (checkAndTryLock (.lock lock) (-1)).Wp (f.handle p) (fun ended w' =>
      (ended.2 ≠ -1 → Held lock p w') ∧
        (ended.1 = true → Held lock p w' ∧ Prepared w'.kernel = !f.Meets w.kernel)) w := by
  apply Wp.bind
  apply (Wp.keep (wp_tryLock sited) sited fun _ _ _ _ => sited_handle).mono
  intro rc locked result
  obtain ⟨sited', same, held⟩ := result
  by_cases free : rc = -1
  · simp only [free, if_true]
    exact ⟨fun taken => absurd rfl taken, nofun⟩
  · simp only [free, if_false]
    have meets : f.Meets locked.kernel = f.Meets w.kernel := by
      simp only [Failures.Meets, Failures.Stuck, Foul, same]
    apply Wp.bind
    apply (wp_checkCleanSocket sited' (held free)).mono
    intro ready w' checked
    rw [← meets]
    exact ⟨fun _ => checked.1, fun done => ⟨checked.1, checked.2 done⟩⟩

end Calls

/-! ## Runs -/

/-- A `SocketLocker` in process `p`, and what its last call answered. -/
structure Caller where
  world : World
  mLockFd : Int
  answer : Option Bool

namespace Caller

def step (lock : LockFile) (p : Nat) (s : Caller) (f : Failures) : Option Caller :=
  ((checkAndTryLock (.lock lock) s.mLockFd).exec (f.handle p) s.world).map fun ended =>
    ⟨ended.2, ended.1.2, some ended.1.1⟩

def machine (lock : LockFile) (p : Nat) : StepMachine Caller Failures where
  init s := Sited s.world.kernel ∧ s.mLockFd = -1 ∧ s.answer = none
  step := step lock p

def Ready (lock : LockFile) (p : Nat) (s : Caller) : Prop :=
  Held lock p s.world ∧ Prepared s.world.kernel = true

/-- A locker that has the lock has a prepared socket; one without it does not meet a foul
    file that it cannot remove. -/
def Sound (s : Caller) (f : Failures) : Bool :=
  if s.mLockFd = -1 then !f.Meets s.world.kernel else Prepared s.world.kernel

def sound (lock : LockFile) (p : Nat) : StepMachine Caller Failures :=
  (machine lock p).restrict fun s f => s.Sound f = true

/-- What holds between the calls. -/
structure Settled (lock : LockFile) (p : Nat) (s : Caller) : Prop where
  sited : Sited s.world.kernel
  held : s.mLockFd ≠ -1 → Held lock p s.world

section Steps

variable {lock : LockFile} {p : Nat} {s s' : Caller} {f : Failures}

theorem settled_step (settled : Settled lock p s) (stepped : step lock p s f = some s') :
    Settled lock p s' ∧ (s'.answer = some true → (Ready lock p s' ↔ s.Sound f = true)) := by
  obtain ⟨⟨⟨ready, mLockFd⟩, w'⟩, ran, rfl⟩ := Option.map_eq_some_iff.mp stepped
  have sited' : Sited w'.kernel :=
    exec_invariant (fun w => Sited w.kernel) (fun _ _ _ _ => sited_handle) settled.sited ran
  by_cases free : s.mLockFd = -1
  · rw [free] at ran
    have result := (wp_checkAndTryLock settled.sited).of_exec ran
    refine ⟨⟨sited', result.1⟩, ?_⟩
    intro answered
    obtain ⟨held, prepared⟩ := result.2 (Option.some.inj answered)
    simp [Ready, held, prepared, Sound, free]
  · -- The call answers at once.
    have ended : (checkAndTryLock (.lock lock) s.mLockFd).exec (f.handle p) s.world =
        some ((true, s.mLockFd), s.world) := by
      simp [checkAndTryLock, free, exec]
    rw [ended] at ran
    cases ran
    refine ⟨⟨sited', settled.held⟩, ?_⟩
    intro _
    simp [Ready, settled.held free, Sound, free]

theorem settled_init (init : (machine lock p).init s) : Settled lock p s :=
  ⟨init.1, fun taken => absurd init.2.1 taken⟩

end Steps

/-- In every run whose calls are sound, a true answer means that the lock is held and the
    socket is prepared; and in any run, a call that is not sound and answers true is wrong. -/
theorem true_answer_ready (lock : LockFile) (p : Nat) :
    (∀ s, (sound lock p).Reachable s → s.answer = some true → Ready lock p s) ∧
      ∀ s f s', (machine lock p).Reachable s → step lock p s f = some s' →
        s'.answer = some true → (Ready lock p s' ↔ s.Sound f = true) := by
  constructor
  · intro s reached
    refine (reached.invariant (fun s => Settled lock p s ∧ (s.answer = some true → Ready lock p s))
      ?_ ?_).2
    · intro s init
      exact ⟨settled_init init, fun answered => by simp [init.2.2] at answered⟩
    · intro s f s' before stepped
      obtain ⟨allowed, stepped⟩ := restrict_step.mp stepped
      obtain ⟨settled, ready⟩ := settled_step before.1 stepped
      exact ⟨settled, fun answered => (ready answered).mpr allowed⟩
  · intro s f s' reached stepped
    have settled := reached.invariant (Settled lock p) (fun _ => settled_init)
      (fun _ _ _ before stepped => (settled_step before stepped).1)
    exact (settled_step settled stepped).2

/-- Nothing fails, and only the directory cannot be made. -/
def nothingFails : Failures :=
  ⟨fun _ => none, fun _ _ => none, fun _ => false, fun _ => none, fun _ => none, fun _ => false,
    false, false⟩
def noDirectory : Failures := { nothingFails with createDirectory := fun _ => some 13 }

/-- A new locker in a file system where none of the paths is there. -/
def constructed : Caller where
  world :=
    { kernel :=
        { lookup := fun _ => none
          inode := fun _ => ⟨.other, 0⟩
          nextInode := 0
          descriptors := fun _ => []
          holder := fun _ => none
          umask := fun _ => 0o022
          alive := fun _ => true }
      passed := fun _ => false }
  mLockFd := -1
  answer := none

theorem constructed_init : (machine .server 0).init constructed := by
  refine ⟨⟨nofun, ?_, nofun⟩, rfl, rfl⟩
  intro _
  simp only [constructed]
  decide

theorem twice_enabled : ((sound .server 0).run constructed [nothingFails, nothingFails]).isSome := by
  decide

theorem first_enabled : (step .server 0 constructed nothingFails).isSome := by
  decide

theorem true_answer_ready_twice :
    Ready .server 0 (((sound .server 0).run constructed [nothingFails, nothingFails]).get twice_enabled) ∧
      (Ready .server 0 ((step .server 0 constructed nothingFails).get first_enabled) ↔
        constructed.Sound nothingFails = true) := by
  have init : (sound .server 0).init constructed := constructed_init
  obtain ⟨runs, steps⟩ := true_answer_ready .server 0
  exact ⟨runs _ (.get init twice_enabled) (by decide),
    steps constructed nothingFails _ (.of_init constructed_init) (Option.some_get first_enabled).symm
      (by decide)⟩

theorem retried_enabled : ((machine .server 0).run constructed [noDirectory, nothingFails]).isSome := by
  decide

/-- The socket is a file that all may write, which cannot be removed. -/
def foulSocket : Caller :=
  { constructed with
    world := { constructed.world with
      kernel := { constructed.world.kernel with
        lookup := fun | .socketDir => some 0 | .socketFile => some 1 | .lock _ => none
        inode := fun i => if i = 0 then ⟨.directory, 0o755⟩ else ⟨.regular, 0o666⟩
        nextInode := 2 } } }

/-- The first answer of a new locker is wrong too where it takes the file for the socket. -/
example : ((step .server 0 foulSocket { nothingFails with removeAll := fun _ => some false }).map
    fun s => (s.answer, Prepared s.world.kernel)) = some (some true, false) := by
  decide

/-- The first call gets the lock but no directory and answers false; the second one answers
    true at once. -/
theorem not_ready_retried :
    (step .server 0 constructed noDirectory).bind Caller.answer = some false ∧
      ∃ s, (machine .server 0).Reachable s ∧ s.answer = some true ∧ ¬ Ready .server 0 s := by
  refine ⟨by decide, _, .get constructed_init retried_enabled, by decide, ?_⟩
  intro ready
  exact absurd ready.2 (by decide)

end Caller

end RpiFanServe.Locker
