import RpiFanServe.Locker.SocketLocker

/-! # The descriptors of the locker

`checkAndTryLock` and the destructor of `SocketLocker` over the table of open
descriptors, whatever the calls answer.  `try_lock` returns the status of `flock`
in the place of the descriptor: the object believes that it holds descriptor 0,
and the destructor closes that one.
-/

namespace RpiFanServe.Locker

open Prog StepMachine Kernel

/-- `table` maps descriptors to open files, which are numbered as they are opened. -/
structure Descriptors where
  table : List (Option Nat)
  path : Nat → Path
  locked : Nat → Bool
  nextFile : Nat

/-- What the calls of one member function answer, which the file system decides. -/
structure Outcomes where
  fileExists : Path → FsAnswer
  hasType : FileType → Path → FsAnswer
  permissions : Path → Perms
  removeAll : Path → Bool
  createDirectory : Path → FsAnswer
  opens : Path → Bool
  locks : Bool
  closes : Bool

namespace Descriptors

/-- The open file that a descriptor refers to. -/
def file (d : Descriptors) (fd : Nat) : Option Nat := d.table[fd]?.join

/-- `open` -/
def opened (d : Descriptors) (path : Path) : Descriptors :=
  { d with
    table := fillSlot d.table d.nextFile
    path := Function.update d.path d.nextFile path
    nextFile := d.nextFile + 1 }

/-- `flock` -/
def lockFile (d : Descriptors) (i : Nat) : Descriptors :=
  { d with locked := Function.update d.locked i true }

/-- `close`, which releases the lock, whatever it returns. -/
def closed (d : Descriptors) (fd i : Nat) : Descriptors :=
  { d with table := d.table.set fd none, locked := Function.update d.locked i false }

def answer (outcomes : Outcomes) (d : Descriptors) : (call : FsCall) → Answer call × Descriptors
  | .fileExists path => (outcomes.fileExists path, d)
  | .hasType kind path => (outcomes.hasType kind path, d)
  | .permissions path => (outcomes.permissions path, d)
  | .removeAll path => (outcomes.removeAll path, d)
  | .createDirectory path => (outcomes.createDirectory path, d)
  | .openCreate path =>
      if outcomes.opens path then (some (freeSlot d.table), d.opened path) else (none, d)
  | .flock fd =>
      match d.file fd with
      | none => (false, d)
      | some i => if outcomes.locks then (true, d.lockFile i) else (false, d)
  | .close fd =>
      match d.file fd with
      | none => (false, d)
      | some i => (outcomes.closes, d.closed fd i)

def handle (outcomes : Outcomes) (d : Descriptors) (call : FsCall) :
    Option (Answer call × Descriptors) :=
  some (d.answer outcomes call)

end Descriptors

/-- The destructor; the result of `close` only changes what is logged. -/
def destructor (mLockFd : Int) : Locking Unit := do
  if mLockFd ≠ -1 then
    let _ : Bool ← perform (FsCall.close mLockFd.toNat)
    return ()
  else return ()

/-- A `SocketLocker` in its process. -/
structure Holder where
  descriptors : Descriptors
  mLockFd : Int
  destroyed : Bool

namespace Holder

inductive Action where
  | checkAndTryLock (outcomes : Outcomes)
  | destroy (outcomes : Outcomes)

def step (lock : LockFile) (s : Holder) : Action → Option Holder
  | .checkAndTryLock outcomes =>
      if s.destroyed then none
      else ((Locker.checkAndTryLock (.lock lock) s.mLockFd).exec (Descriptors.handle outcomes)
          s.descriptors).map fun ended =>
        { s with descriptors := ended.2, mLockFd := ended.1.2 }
  | .destroy outcomes =>
      if s.destroyed then none
      else ((destructor s.mLockFd).exec (Descriptors.handle outcomes) s.descriptors).map fun ended =>
        { s with descriptors := ended.2, destroyed := true }

end Holder

/-! ## What the calls do to the descriptors -/

namespace Descriptors

/-- Open files are numbered below the next one, and a file that is not open yet is not
    locked. -/
structure WellFormed (d : Descriptors) : Prop where
  numbered : ∀ fd i, d.file fd = some i → i < d.nextFile
  unlocked : ∀ i, d.nextFile ≤ i → d.locked i = false

/-- The descriptors and the locks are as before. -/
structure Frame (d d' : Descriptors) : Prop where
  file : ∀ fd, d'.file fd = d.file fd
  locked : ∀ i, d'.locked i = d.locked i
  path : ∀ i < d.nextFile, d'.path i = d.path i
  next : d.nextFile ≤ d'.nextFile

section Calls

variable {d d' : Descriptors} {outcomes : Outcomes}

theorem Frame.refl (d : Descriptors) : Frame d d :=
  ⟨fun _ => rfl, fun _ => rfl, fun _ _ => rfl, Nat.le_refl _⟩

theorem Frame.trans {d'' : Descriptors} (first : Frame d d') (second : Frame d' d'') :
    Frame d d'' where
  file fd := (second.file fd).trans (first.file fd)
  locked i := (second.locked i).trans (first.locked i)
  path i old := (second.path i (Nat.lt_of_lt_of_le old first.next)).trans (first.path i old)
  next := Nat.le_trans first.next second.next

theorem WellFormed.frame (wellFormed : d.WellFormed) (frame : Frame d d') : d'.WellFormed where
  numbered := by
    intro fd i refers
    rw [frame.file] at refers
    exact Nat.lt_of_lt_of_le (wellFormed.numbered fd i refers) frame.next
  unlocked := by
    intro i new
    rw [frame.locked]
    exact wellFormed.unlocked i (Nat.le_trans frame.next new)

theorem file_freeSlot (d : Descriptors) : d.file (freeSlot d.table) = none := freeSlot_free d.table

theorem file_opened_self (d : Descriptors) (path : Path) :
    (d.opened path).file (freeSlot d.table) = some d.nextFile := by
  unfold file opened
  rw [fillSlot_self]
  rfl

theorem file_opened_ne (path : Path) {fd : Nat} (other : fd ≠ freeSlot d.table) :
    (d.opened path).file fd = d.file fd :=
  fillSlot_ne d.nextFile other

theorem frame_reclosed (wellFormed : d.WellFormed) (path : Path) :
    Frame d ((d.opened path).closed (freeSlot d.table) d.nextFile) where
  file := by
    intro fd
    by_cases slot : fd = freeSlot d.table
    · subst slot
      rw [file_freeSlot]
      exact clearSlot_self _ _
    · rw [← file_opened_ne path slot]
      exact clearSlot_ne slot
  locked := by
    intro i
    by_cases new : i = d.nextFile
    · subst new
      rw [wellFormed.unlocked d.nextFile (Nat.le_refl _)]
      exact Function.update_self _ _ _
    · exact Function.update_of_ne new _ _
  path := by
    intro i old
    exact Function.update_of_ne (Nat.ne_of_lt old) _ _
  next := Nat.le_succ _

theorem wp_tryCreateSocket (wellFormed : d.WellFormed) (socket : Path) :
    (tryCreateSocket socket).Wp (handle outcomes) (fun _ d' => Frame d d') d := by
  cases opens : outcomes.opens socket with
  | false =>
      refine ⟨none, d, ?_, Frame.refl d⟩
      simp [handle, answer, opens]
  | true =>
      refine ⟨some (freeSlot d.table), d.opened socket, ?_, outcomes.closes,
        (d.opened socket).closed (freeSlot d.table) d.nextFile, ?_, frame_reclosed wellFormed socket⟩
      · simp [handle, answer, opens]
      · simp only [handle, answer, file_opened_self]

/-- A call that only looks, creates or removes is answered without a descriptor. -/
theorem wp_checkCleanSocketAt (wellFormed : d.WellFormed) (socket : Path) :
    (checkCleanSocketAt socket).Wp (handle outcomes) (fun _ d' => Frame d d') d := by
  have creates : (tryCreateSocket socket).Wp (handle outcomes) (fun _ d' => Frame d d') d :=
    wp_tryCreateSocket wellFormed socket
  have recreates : (tryDelete socket >>= fun _ => tryCreateSocket socket).Wp (handle outcomes)
      (fun _ d' => Frame d d') d := ⟨_, d, rfl, creates⟩
  refine ⟨_, d, rfl, ?_⟩
  cases outcomes.fileExists socket with
  | failed code => exact Frame.refl d
  | no => exact creates
  | yes =>
      refine ⟨_, d, rfl, ?_⟩
      cases outcomes.hasType .socket socket with
      | no => exact recreates
      | failed code => exact recreates
      | yes =>
          refine ⟨_, d, rfl, ?_⟩
          simp only [Prog.bind]
          split
          · exact Frame.refl d
          · exact recreates

theorem wp_checkCleanDir (d : Descriptors) (path : Path) :
    (checkCleanDir path).Wp (handle outcomes) (fun _ d' => d' = d) d := by
  have creates : (tryCreateDirectory path).Wp (handle outcomes) (fun _ d' => d' = d) d := by
    refine ⟨_, d, rfl, ?_⟩
    cases outcomes.createDirectory path <;> rfl
  refine ⟨_, d, rfl, ?_⟩
  cases outcomes.fileExists path with
  | failed code => rfl
  | no => exact creates
  | yes =>
      refine ⟨_, d, rfl, ?_⟩
      have recreates : (tryDelete path >>= fun deleted =>
          if deleted then tryCreateDirectory path else return false).Wp (handle outcomes)
            (fun _ d' => d' = d) d := by
        refine ⟨_, d, rfl, ?_⟩
        simp only [Prog.bind]
        split
        · exact creates
        · rfl
      cases outcomes.hasType .directory path with
      | yes => rfl
      | no => exact recreates
      | failed code => exact recreates

theorem wp_checkCleanSocket (wellFormed : d.WellFormed) :
    checkCleanSocket.Wp (handle outcomes) (fun _ d' => Frame d d') d := by
  apply Wp.bind
  apply (wp_checkCleanDir d .socketDir).mono
  intro clean d' same
  subst same
  split
  · exact wp_checkCleanSocketAt wellFormed .socketFile
  · exact Frame.refl d'

theorem handle_looks (d : Descriptors) {call : FsCall} (looks : call.looks = true) :
    ∃ answer, handle outcomes d call = some (answer, d) := by
  cases call with
  | fileExists | hasType | permissions => exact ⟨_, rfl⟩
  | removeAll | createDirectory | openCreate | flock | close => cases looks

theorem wp_cleanLock (d : Descriptors) (lock : Path) :
    (cleanLock lock).Wp (handle outcomes) (fun _ d' => d' = d) d :=
  cleanLock_wp (fun _ => handle_looks d) rfl ⟨_, d, rfl, rfl⟩

/-- What `try_lock` returns and leaves open. -/
inductive Locked (outcomes : Outcomes) (lock : Path) (d : Descriptors) : Int → Descriptors → Prop
  | unopened (opens : outcomes.opens lock = false) : Locked outcomes lock d (-1) d
  | refused (opens : outcomes.opens lock = true) (locks : outcomes.locks = false) :
      Locked outcomes lock d (-1) (d.opened lock)
  | taken (opens : outcomes.opens lock = true) (locks : outcomes.locks = true) :
      Locked outcomes lock d 0 ((d.opened lock).lockFile d.nextFile)

theorem wp_tryLock (d : Descriptors) (lock : Path) :
    (tryLock lock).Wp (handle outcomes) (Locked outcomes lock d) d := by
  apply Wp.bind
  apply (wp_cleanLock d lock).mono
  intro _ d' same
  subst same
  cases opens : outcomes.opens lock with
  | false =>
      refine ⟨none, d', ?_, .unopened opens⟩
      simp [handle, answer, opens]
  | true =>
      refine ⟨some (freeSlot d'.table), d'.opened lock, ?_, ?_⟩
      · simp [handle, answer, opens]
      cases locks : outcomes.locks with
      | false =>
          refine ⟨false, d'.opened lock, ?_, .refused opens locks⟩
          simp [handle, answer, file_opened_self, locks]
      | true =>
          refine ⟨true, (d'.opened lock).lockFile d'.nextFile, ?_, .taken opens locks⟩
          simp [handle, answer, file_opened_self, locks]

theorem wellFormed_taken (wellFormed : d.WellFormed) (lock : Path) :
    ((d.opened lock).lockFile d.nextFile).WellFormed where
  numbered := by
    intro fd i refers
    show i < d.nextFile + 1
    by_cases slot : fd = freeSlot d.table
    · subst slot
      have new := file_opened_self d lock
      cases refers.symm.trans new
      exact Nat.lt_succ_self _
    · have old : d.file fd = some i := (file_opened_ne lock slot).symm.trans refers
      exact Nat.lt_succ_of_lt (wellFormed.numbered fd i old)
  unlocked := by
    intro i new
    have differs : i ≠ d.nextFile := Nat.ne_of_gt new
    exact (Function.update_of_ne differs _ _).trans (wellFormed.unlocked i (Nat.le_of_lt new))

theorem wp_checkAndTryLock (wellFormed : d.WellFormed) (lock : Path) :
    (checkAndTryLock lock (-1)).Wp (handle outcomes)
      (fun ended d' => ∃ middle, Locked outcomes lock d ended.2 middle ∧ Frame middle d') d := by
  apply Wp.bind
  apply (wp_tryLock d lock).mono
  intro rc middle locked
  cases locked with
  | unopened opens => exact ⟨d, .unopened opens, Frame.refl d⟩
  | refused opens locks => exact ⟨_, .refused opens locks, Frame.refl _⟩
  | taken opens locks =>
      apply Wp.bind
      apply (wp_checkCleanSocket (wellFormed_taken wellFormed lock)).mono
      intro ready d' frame
      exact ⟨_, .taken opens locks, frame⟩

end Calls

end Descriptors

/-! ## The discipline -/

namespace Holder

open Descriptors

/-- Descriptor `fd` is the only new one: it is opened on the lock file and holds the only
    new lock. -/
structure Owns (lock : LockFile) (start d : Descriptors) (fd i : Nat) : Prop where
  file : d.file fd = some i
  path : d.path i = .lock lock
  locked : d.locked i = true
  new : start.file fd = none ∧ start.locked i = false
  others : ∀ other, other ≠ fd → d.file other = start.file other
  locks : ∀ j, j ≠ i → d.locked j = start.locked j
  paths : ∀ j < start.nextFile, d.path j = start.path j
  next : start.nextFile ≤ d.nextFile

/-- What holds between the member functions; `start` is the process before construction. -/
structure Disciplined (lock : LockFile) (start : Descriptors) (s : Holder) : Prop where
  held : s.destroyed = false → s.mLockFd ≠ -1 →
    ∃ fd i : Nat, s.mLockFd = fd ∧ Owns lock start s.descriptors fd i
  /-- A `try_lock` that returned -1 left no descriptor open. -/
  bare : s.destroyed = false → s.mLockFd = -1 → Frame start s.descriptors
  /-- The table is as before and the lock is released. -/
  gone : s.destroyed = true → Frame start s.descriptors

/-- When the lock file is opened, it gets descriptor 0, and its lock is free. -/
def lucky (s : Holder) (lock : LockFile) : Action → Bool
  | .checkAndTryLock outcomes =>
      s.mLockFd ≠ -1 || !outcomes.opens (.lock lock) ||
        (freeSlot s.descriptors.table = 0 && outcomes.locks)
  | .destroy _ => true

def machine (lock : LockFile) : StepMachine Holder Action where
  init s := s.descriptors.WellFormed ∧ s.mLockFd = -1 ∧ s.destroyed = false
  step := step lock

def careful (lock : LockFile) : StepMachine Holder Action :=
  (machine lock).restrict fun s action => s.lucky lock action = true

section Steps

variable {lock : LockFile} {start : Descriptors} {s s' : Holder} {outcomes : Outcomes}

/-- What a call does, by what `m_lockFd` is before it. -/
theorem step_checkAndTryLock (wellFormed : s.descriptors.WellFormed)
    (stepped : step lock s (.checkAndTryLock outcomes) = some s') :
    s.destroyed = false ∧ s'.destroyed = false ∧
      (s.mLockFd ≠ -1 ∧ s' = s ∨
        s.mLockFd = -1 ∧ ∃ middle, Locked outcomes (.lock lock) s.descriptors s'.mLockFd middle ∧
          Frame middle s'.descriptors) := by
  simp only [step] at stepped
  split at stepped
  · cases stepped
  · rename_i alive
    have alive : s.destroyed = false := by simpa using alive
    by_cases free : s.mLockFd = -1
    · have called : (Locker.checkAndTryLock (.lock lock) (-1)).Wp (Descriptors.handle outcomes) _
          s.descriptors := wp_checkAndTryLock wellFormed (.lock lock)
      obtain ⟨ended, d', ran, middle, locked, frame⟩ := wp_iff.mp called
      rw [free, ran] at stepped
      cases stepped
      exact ⟨alive, alive, .inr ⟨free, middle, locked, frame⟩⟩
    · have ran : (Locker.checkAndTryLock (.lock lock) s.mLockFd).exec (Descriptors.handle outcomes)
          s.descriptors = some ((true, s.mLockFd), s.descriptors) := by
        simp [Locker.checkAndTryLock, free, exec]
      rw [ran] at stepped
      cases stepped
      exact ⟨alive, alive, .inl ⟨free, rfl⟩⟩

theorem owns_taken {d d' : Descriptors} (wellFormed : d.WellFormed) (before : Frame start d)
    (zero : freeSlot d.table = 0)
    (frame : Frame ((d.opened (.lock lock)).lockFile d.nextFile) d') :
    Owns lock start d' 0 d.nextFile where
  file := by
    rw [frame.file, ← zero]
    exact file_opened_self d (.lock lock)
  path := by
    rw [frame.path _ (Nat.lt_succ_self _)]
    exact Function.update_self _ _ _
  locked := by
    rw [frame.locked]
    exact Function.update_self _ _ _
  new := by
    rw [← before.file, ← before.locked, ← zero]
    exact ⟨file_freeSlot d, wellFormed.unlocked _ (Nat.le_refl _)⟩
  others := by
    intro other differs
    rw [← before.file, frame.file]
    exact file_opened_ne (.lock lock) (by rw [zero]; exact differs)
  locks := by
    intro j differs
    rw [← before.locked, frame.locked]
    exact Function.update_of_ne differs _ _
  paths := by
    intro j old
    have below : j < d.nextFile := Nat.lt_of_lt_of_le old before.next
    rw [← before.path j old, frame.path j (Nat.lt_succ_of_lt below)]
    exact Function.update_of_ne (Nat.ne_of_lt below) _ _
  next := Nat.le_trans before.next (Nat.le_trans (Nat.le_succ _) frame.next)

theorem Owns.closed {d : Descriptors} {fd i : Nat} (owns : Owns lock start d fd i) :
    Frame start (d.closed fd i) where
  file := by
    intro other
    by_cases own : other = fd
    · subst own
      rw [owns.new.1]
      exact clearSlot_self _ _
    · rw [← owns.others other own]
      exact clearSlot_ne own
  locked := by
    intro j
    by_cases own : j = i
    · subst own
      rw [owns.new.2]
      exact Function.update_self _ _ _
    · rw [← owns.locks j own]
      exact Function.update_of_ne own _ _
  path := owns.paths
  next := owns.next

theorem Disciplined.of_destroyed (gone : s.destroyed = true) (frame : Frame start s.descriptors) :
    Disciplined lock start s where
  held := by
    intro alive
    rw [gone] at alive
    cases alive
  bare := by
    intro alive
    rw [gone] at alive
    cases alive
  gone _ := frame

theorem step_destroy (disciplined : Disciplined lock start s)
    (stepped : step lock s (.destroy outcomes) = some s') : Disciplined lock start s' := by
  simp only [step] at stepped
  split at stepped
  · cases stepped
  · rename_i alive
    have alive : s.destroyed = false := by simpa using alive
    by_cases free : s.mLockFd = -1
    · have ran : (destructor s.mLockFd).exec (Descriptors.handle outcomes) s.descriptors =
          some ((), s.descriptors) := by
        simp [destructor, free, exec]
      rw [ran] at stepped
      cases stepped
      exact .of_destroyed rfl (disciplined.bare alive free)
    · obtain ⟨fd, i, number, owns⟩ := disciplined.held alive free
      have ran : (destructor s.mLockFd).exec (Descriptors.handle outcomes) s.descriptors =
          some ((), s.descriptors.closed fd i) := by
        simp [destructor, number, exec, perform, Descriptors.handle, Descriptors.answer, owns.file]
      rw [ran] at stepped
      cases stepped
      exact .of_destroyed rfl owns.closed

/-- A lucky call leaves open files numbered and fresh files unlocked. -/
theorem wellFormed_step (wellFormed : s.descriptors.WellFormed)
    (stepped : step lock s (.checkAndTryLock outcomes) = some s')
    (lucky : s.lucky lock (.checkAndTryLock outcomes) = true) : s'.descriptors.WellFormed := by
  obtain ⟨-, -, ⟨-, rfl⟩ | ⟨free, middle, locked, frame⟩⟩ := step_checkAndTryLock wellFormed stepped
  · exact wellFormed
  · generalize s'.mLockFd = returned at locked
    cases locked with
    | unopened opens => exact wellFormed.frame frame
    | refused opens locks => simp [Holder.lucky, opens, locks, free] at lucky
    | taken opens locks => exact (wellFormed_taken wellFormed _).frame frame

/-- A call keeps the discipline exactly when it does not open the lock file, or gets
    descriptor 0 for it and the lock. -/
theorem disciplined_step (wellFormed : s.descriptors.WellFormed)
    (disciplined : Disciplined lock start s) {action : Action}
    (stepped : step lock s action = some s') :
    Disciplined lock start s' ↔ s.lucky lock action = true := by
  cases action with
  | destroy outcomes => exact iff_of_true (step_destroy disciplined stepped) rfl
  | checkAndTryLock outcomes =>
      obtain ⟨alive, alive', ⟨held, rfl⟩ | ⟨free, middle, locked, frame⟩⟩ :=
        step_checkAndTryLock wellFormed stepped
      · exact iff_of_true disciplined (by simp [lucky, held])
      have before := disciplined.bare alive free
      generalize rc : s'.mLockFd = returned at locked
      cases locked with
      | unopened opens =>
          apply iff_of_true
          · exact ⟨fun _ taken => absurd rc taken, fun _ _ => before.trans frame,
              fun left => by simp [alive'] at left⟩
          · simp [lucky, opens]
      | refused opens locks =>
          apply iff_of_false
          · intro kept
            -- The new descriptor is left open, though the call returned -1.
            have bare := (kept.bare alive' rc).file (freeSlot s.descriptors.table)
            rw [frame.file, file_opened_self, ← before.file, file_freeSlot] at bare
            cases bare
          · simp [lucky, opens, locks, free]
      | taken opens locks =>
          by_cases zero : freeSlot s.descriptors.table = 0
          · apply iff_of_true
            · exact ⟨fun _ _ => ⟨0, _, rc, owns_taken wellFormed before zero frame⟩,
                fun _ free' => by simp [rc] at free', fun left => by simp [alive'] at left⟩
            · simp [lucky, zero, locks]
          · apply iff_of_false
            · intro kept
              -- Descriptor 0 is what it was before the construction.
              obtain ⟨fd, i, number, owns⟩ := kept.held alive' (by simp [rc])
              obtain rfl : fd = 0 := by omega
              have file := owns.file
              have other : (0 : Nat) ≠ freeSlot s.descriptors.table := fun same => zero same.symm
              rw [frame.file] at file
              have old : s.descriptors.file 0 = some i :=
                (file_opened_ne (.lock lock) other).symm.trans file
              rw [before.file, owns.new.1] at old
              cases old
            · simp [lucky, opens, zero, free]

end Steps

/-- Before the destructor has run, the descriptors are well formed too. -/
structure Kept (lock : LockFile) (start : Descriptors) (s : Holder) : Prop where
  disciplined : Disciplined lock start s
  wellFormed : s.destroyed = false → s.descriptors.WellFormed

theorem not_destroyed_of_step {lock : LockFile} {s s' : Holder} {action : Action}
    (stepped : step lock s action = some s') : s.destroyed = false := by
  by_contra left
  cases action <;> simp [step, left] at stepped

theorem kept_step {lock : LockFile} {start : Descriptors} {s s' : Holder} {action : Action}
    (kept : Kept lock start s) (stepped : (careful lock).step s action = some s') :
    Kept lock start s' := by
  obtain ⟨lucky, stepped⟩ := restrict_step.mp stepped
  have wellFormed := kept.wellFormed (not_destroyed_of_step stepped)
  refine ⟨(disciplined_step wellFormed kept.disciplined stepped).mpr lucky, ?_⟩
  intro alive
  cases action with
  | checkAndTryLock outcomes => exact wellFormed_step wellFormed stepped lucky
  | destroy outcomes =>
      simp only [machine, step, Option.ite_none_left_eq_some, Option.map_eq_some_iff] at stepped
      obtain ⟨-, ended, -, rfl⟩ := stepped
      cases alive

/-- A locker in a process that has these descriptors. -/
def constructed (start : Descriptors) : Holder := ⟨start, -1, false⟩

/-- In every run whose calls, where they open the lock file, get descriptor 0 for it and
    the lock, the descriptors are disciplined at every point, the destruction included;
    and the first call that does not ends the discipline. -/
theorem descriptors_disciplined {lock : LockFile} {start : Descriptors} {actions : List Action}
    {s : Holder} (wellFormed : start.WellFormed)
    (run : (careful lock).run (constructed start) actions = some s) :
    Disciplined lock start s ∧
      ∀ action s', step lock s action = some s' → s.lucky lock action = false →
        ¬ Disciplined lock start s' := by
  have base : Kept lock start (constructed start) :=
    ⟨⟨fun _ held => absurd rfl held, fun _ _ => Frame.refl start, (nomatch ·)⟩, fun _ => wellFormed⟩
  have kept := run_invariant (Kept lock start) (fun _ _ _ => kept_step) base run
  refine ⟨kept.disciplined, ?_⟩
  intro action s' stepped unlucky
  rw [disciplined_step (kept.wellFormed (not_destroyed_of_step stepped)) kept.disciplined stepped,
    unlucky]
  exact Bool.false_ne_true

/-- Every call succeeds on a file system where only the socket is missing. -/
def allGood : Outcomes where
  fileExists path := if path = .socketFile then .no else .yes
  hasType _ _ := .yes
  permissions _ := 0o644
  removeAll _ := true
  createDirectory _ := .yes
  opens _ := true
  locks := true
  closes := true

/-- A process with no descriptor open, and one with the three standard ones. -/
def noneOpen : Descriptors := ⟨[], fun _ => .socketDir, fun _ => false, 0⟩
def standardOpen : Descriptors := ⟨[some 0, some 1, some 2], fun _ => .socketDir, fun _ => false, 3⟩

theorem noneOpen_wellFormed : noneOpen.WellFormed :=
  ⟨fun fd i refers => by simp [noneOpen, Descriptors.file] at refers, fun _ _ => rfl⟩

/-- Two calls and the destructor. -/
def lifetime : List Action := [.checkAndTryLock allGood, .checkAndTryLock allGood, .destroy allGood]

theorem lifetime_careful : ((careful .server).run (constructed noneOpen) lifetime).isSome := by
  decide

theorem descriptors_disciplined_lifetime :
    Disciplined .server noneOpen
      (((careful .server).run (constructed noneOpen) lifetime).get lifetime_careful) :=
  (descriptors_disciplined noneOpen_wellFormed (Option.some_get lifetime_careful).symm).1

theorem lifetime_enabled : ((machine .server).run (constructed standardOpen) lifetime).isSome := by
  decide

/-- Where the standard descriptors are open, the destructor closes descriptor 0, and the
    lock stays. -/
theorem not_disciplined_standardOpen :
    ¬ Disciplined .server standardOpen
      (((machine .server).run (constructed standardOpen) lifetime).get lifetime_enabled) := by
  intro disciplined
  have same := (disciplined.gone (by decide)).file 0
  exact absurd same (by decide)

end Holder

end RpiFanServe.Locker
