import Mathlib.Logic.Function.Basic

/-! # A file system with advisory locks

Paths name inodes; a process refers to an inode through the slots of its descriptor
table; `flock` holds an inode for one slot of one process.  A path that is removed
and created again names a new inode, so locks on the old one say nothing about it.
The type of paths is a parameter, with the directory each path lies in.
-/

/-- An answer of `std::filesystem` with its error code. -/
inductive FsAnswer where
  | yes
  | no
  | failed (code : Nat)
  deriving DecidableEq

/-- `std::filesystem::perms` -/
abbrev Perms := BitVec 16

namespace Perms

def ownerRead : Perms := 0o400
def ownerWrite : Perms := 0o200
def groupWrite : Perms := 0o020
def othersWrite : Perms := 0o002
/-- What the status of a missing file holds. -/
def unknown : Perms := 0xFFFF

end Perms

inductive FileType where
  | regular
  | directory
  | socket
  | other
  deriving DecidableEq

structure Inode where
  kind : FileType
  perms : Perms
  deriving DecidableEq

/-- `inside dir path` says that removing `dir` with all its contents removes `path`. -/
class PathTree (Path : Type) where
  parent : Path → Option Path
  inside : Path → Path → Bool

/-- `descriptors p` is the table of process `p`; `holder` maps an inode to the
    process and slot that hold its lock. -/
structure Kernel (Path : Type) where
  lookup : Path → Option Nat
  inode : Nat → Inode
  nextInode : Nat
  descriptors : Nat → List (Option Nat)
  holder : Nat → Option (Nat × Nat)
  umask : Nat → Perms
  alive : Nat → Bool

namespace Kernel

/-- The lowest free slot of a table. -/
def freeSlot (table : List (Option Nat)) : Nat := table.findIdx Option.isNone

def fillSlot (table : List (Option Nat)) (i : Nat) : List (Option Nat) :=
  if freeSlot table < table.length then table.set (freeSlot table) (some i) else table ++ [some i]

theorem fillSlot_self (table : List (Option Nat)) (i : Nat) :
    (fillSlot table i)[freeSlot table]? = some (some i) := by
  unfold fillSlot
  split
  · rename_i inside
    rw [List.getElem?_set_self inside]
  · rename_i outside
    have last : freeSlot table = table.length :=
      Nat.le_antisymm List.findIdx_le_length (Nat.le_of_not_lt outside)
    rw [last, List.getElem?_append_right (Nat.le_refl _), Nat.sub_self]
    rfl

theorem freeSlot_ne {table : List (Option Nat)} {fd i : Nat} (used : table[fd]? = some (some i)) :
    freeSlot table ≠ fd := by
  intro same
  subst same
  obtain ⟨inside, value⟩ := List.getElem?_eq_some_iff.mp used
  have free : table[freeSlot table].isNone = true := List.findIdx_getElem
  rw [value] at free
  cases free

theorem fillSlot_other {table : List (Option Nat)} {fd j : Nat} (i : Nat)
    (used : table[fd]? = some (some j)) : (fillSlot table i)[fd]? = some (some j) := by
  unfold fillSlot
  split
  · rw [List.getElem?_set_ne (freeSlot_ne used)]
    exact used
  · have inside : fd < table.length := (List.getElem?_eq_some_iff.mp used).1
    rw [List.getElem?_append_left inside]
    exact used

theorem freeSlot_free (table : List (Option Nat)) : table[freeSlot table]?.join = none := by
  cases slot : table[freeSlot table]? with
  | none => rfl
  | some value =>
      cases value with
      | none => rfl
      | some i => exact absurd rfl (freeSlot_ne slot)

theorem fillSlot_ne {table : List (Option Nat)} {fd : Nat} (i : Nat) (other : fd ≠ freeSlot table) :
    (fillSlot table i)[fd]?.join = table[fd]?.join := by
  unfold fillSlot
  split
  · rw [List.getElem?_set_ne other.symm]
  · rename_i outside
    have last : freeSlot table = table.length :=
      Nat.le_antisymm List.findIdx_le_length (Nat.le_of_not_lt outside)
    rcases Nat.lt_or_gt_of_ne other with before | after
    · rw [List.getElem?_append_left (by omega)]
    · rw [List.getElem?_eq_none (by simp; omega), List.getElem?_eq_none (by omega)]

theorem clearSlot_self (table : List (Option Nat)) (fd : Nat) :
    (table.set fd none)[fd]?.join = none := by
  rw [List.getElem?_set]
  split
  · split <;> rfl
  · rename_i differ
    exact absurd rfl differ

theorem clearSlot_ne {table : List (Option Nat)} {fd other : Nat} (differ : other ≠ fd) :
    (table.set fd none)[other]?.join = table[other]?.join := by
  rw [List.getElem?_set_ne differ.symm]

variable {Path : Type} [DecidableEq Path] [PathTree Path]

/-- The inode that a slot of a process refers to. -/
def file (k : Kernel Path) (p fd : Nat) : Option Nat := (k.descriptors p)[fd]?.join

def inodeAt (k : Kernel Path) (path : Path) : Option Inode := (k.lookup path).map k.inode

omit [DecidableEq Path] [PathTree Path] in
theorem file_of_slot {k : Kernel Path} {p fd i : Nat}
    (slot : (k.descriptors p)[fd]? = some (some i)) : k.file p fd = some i := by
  rw [file, slot, Option.join_some]

omit [DecidableEq Path] [PathTree Path] in
theorem inodeAt_of_lookup {k : Kernel Path} {path : Path} {i : Nat} (found : k.lookup path = some i) :
    k.inodeAt path = some (k.inode i) := by
  rw [inodeAt, found, Option.map_some]

/-- The directory of the path is there. -/
def hasParent (k : Kernel Path) (path : Path) : Bool :=
  match PathTree.parent path with
  | none => true
  | some dir => (k.inodeAt dir).any (·.kind = .directory)

/-! ## Calls -/

def fileExists (k : Kernel Path) (path : Path) : FsAnswer :=
  if (k.lookup path).isSome then .yes else .no

/-- `is_regular_file` and its siblings; a missing file is `ENOENT`. -/
def hasType (k : Kernel Path) (kind : FileType) (path : Path) : FsAnswer :=
  match k.inodeAt path with
  | none => .failed 2
  | some node => if node.kind = kind then .yes else .no

/-- `status(path).permissions()` -/
def permissions (k : Kernel Path) (path : Path) : Perms :=
  match k.inodeAt path with
  | none => Perms.unknown
  | some node => node.perms

/-- A new inode under the path. -/
def create (k : Kernel Path) (path : Path) (node : Inode) : Kernel Path :=
  { k with
    lookup := Function.update k.lookup path (some k.nextInode)
    inode := Function.update k.inode k.nextInode node
    nextInode := k.nextInode + 1 }

omit [PathTree Path] in
theorem fresh_create {k : Kernel Path}
    (fresh : ∀ path i, k.lookup path = some i → i < k.nextInode) (path : Path) (node : Inode) :
    ∀ other i, (k.create path node).lookup other = some i → i < (k.create path node).nextInode := by
  intro other i found
  show i < k.nextInode + 1
  by_cases same : other = path
  · subst same
    simp only [create, Function.update_self] at found
    cases found
    exact Nat.lt_succ_self _
  · simp only [create, Function.update_of_ne same] at found
    exact Nat.lt_succ_of_lt (fresh other i found)

omit [PathTree Path] in
theorem create_other {k : Kernel Path}
    (fresh : ∀ path i, k.lookup path = some i → i < k.nextInode) {path other : Path} {i : Nat}
    (node : Inode) (absent : k.lookup path = none) (found : k.lookup other = some i) :
    (k.create path node).lookup other = some i ∧ (k.create path node).inode i = k.inode i := by
  have apart : other ≠ path := by
    rintro rfl
    rw [absent] at found
    cases found
  have old : i ≠ k.nextInode := Nat.ne_of_lt (fresh other i found)
  simp only [create, Function.update_of_ne apart, Function.update_of_ne old]
  exact ⟨found, trivial⟩

/-- A new slot of the process. -/
def install (k : Kernel Path) (p i : Nat) : Kernel Path :=
  { k with descriptors := Function.update k.descriptors p (fillSlot (k.descriptors p) i) }

/-- `open(path, O_CREAT | O_RDWR, mode)`; `none` is the result -1, which directories
    and sockets give. -/
def openCreate (k : Kernel Path) (p : Nat) (path : Path) (mode : Perms) : Option Nat × Kernel Path :=
  match k.lookup path with
  | some i =>
      match (k.inode i).kind with
      | .directory | .socket => (none, k)
      | .regular | .other => (some (freeSlot (k.descriptors p)), k.install p i)
  | none =>
      if k.hasParent path then
        (some (freeSlot (k.descriptors p)),
          (k.create path ⟨.regular, mode &&& ~~~(k.umask p)⟩).install p k.nextInode)
      else (none, k)

/-- Nothing happens, or a file that is there gets a slot, or a new file does. -/
theorem openCreate_cases (k : Kernel Path) (p : Nat) (path : Path) (mode : Perms) :
    k.openCreate p path mode = (none, k) ∨
    (∃ i, k.lookup path = some i ∧ ((k.inode i).kind = .regular ∨ (k.inode i).kind = .other) ∧
      k.openCreate p path mode = (some (freeSlot (k.descriptors p)), k.install p i)) ∨
    (k.lookup path = none ∧ k.hasParent path = true ∧
      k.openCreate p path mode = (some (freeSlot (k.descriptors p)),
        (k.create path ⟨.regular, mode &&& ~~~(k.umask p)⟩).install p k.nextInode)) := by
  cases found : k.lookup path with
  | some i =>
      cases kind : (k.inode i).kind with
      | directory | socket => exact .inl (by simp only [openCreate, found, kind])
      | regular | other => exact .inr (.inl ⟨i, rfl, by simp [kind], by simp only [openCreate, found, kind]⟩)
  | none =>
      cases inside : k.hasParent path with
      | true => exact .inr (.inr ⟨rfl, rfl, by simp only [openCreate, found, inside, if_true]⟩)
      | false => exact .inl (by simp [openCreate, found, inside])

theorem openCreate_slot {k : Kernel Path} {p fd : Nat} {path : Path} {mode : Perms}
    (opened : (k.openCreate p path mode).1 = some fd) :
    fd = freeSlot (k.descriptors p) ∧ ∃ i, (k.openCreate p path mode).2.lookup path = some i ∧
      ((k.openCreate p path mode).2.descriptors p)[fd]? = some (some i) := by
  unfold openCreate at opened ⊢
  split at opened
  · rename_i i found
    split at opened
    · cases opened
    · cases opened
    all_goals
      cases opened
      refine ⟨rfl, i, found, ?_⟩
      simp only [install, Function.update_self, fillSlot_self]
  · split at opened
    · rename_i inside
      cases opened
      simp only [inside, if_true]
      exact ⟨trivial, k.nextInode, by simp only [create, install, Function.update_self],
        by simp only [create, install, Function.update_self, fillSlot_self]⟩
    · cases opened

/-- `flock(fd, LOCK_EX | LOCK_NB)` -/
def flock (k : Kernel Path) (p fd : Nat) : Bool × Kernel Path :=
  match k.file p fd with
  | none => (false, k)
  | some i =>
      match k.holder i with
      | none => (true, { k with holder := Function.update k.holder i (some (p, fd)) })
      | some owner => (owner = (p, fd), k)

omit [DecidableEq Path] [PathTree Path] in
/-- Either the lock was free, or the same slot held it already, or nothing happens. -/
theorem flock_cases (k : Kernel Path) (p fd : Nat) :
    (∃ i, k.file p fd = some i ∧ k.holder i = none ∧
      k.flock p fd = (true, { k with holder := Function.update k.holder i (some (p, fd)) })) ∨
    (∃ i, k.file p fd = some i ∧ k.holder i = some (p, fd) ∧ k.flock p fd = (true, k)) ∨
    k.flock p fd = (false, k) := by
  cases opened : k.file p fd with
  | none => exact .inr (.inr (by simp only [flock, opened]))
  | some i =>
      cases held : k.holder i with
      | none => exact .inl ⟨i, rfl, held, by simp only [flock, opened, held]⟩
      | some owner =>
          by_cases own : owner = (p, fd)
          · subst own
            exact .inr (.inl ⟨i, rfl, held, by simp [flock, opened, held]⟩)
          · exact .inr (.inr (by simp [flock, opened, held, own]))

/-- `close(fd)`, which releases what the slot holds. -/
def close (k : Kernel Path) (p fd : Nat) : Bool × Kernel Path :=
  match k.file p fd with
  | none => (false, k)
  | some i =>
      (true, { k with
        descriptors := Function.update k.descriptors p ((k.descriptors p).set fd none)
        holder :=
          if k.holder i = some (p, fd) then Function.update k.holder i none else k.holder })

omit [DecidableEq Path] [PathTree Path] in
theorem close_lookup (k : Kernel Path) (p fd : Nat) : (k.close p fd).2.lookup = k.lookup := by
  unfold close
  split <;> rfl

omit [DecidableEq Path] [PathTree Path] in
theorem close_inode (k : Kernel Path) (p fd : Nat) : (k.close p fd).2.inode = k.inode := by
  unfold close
  split <;> rfl

omit [DecidableEq Path] [PathTree Path] in
theorem close_other (k : Kernel Path) {p fd closed : Nat} (other : closed ≠ fd) :
    ((k.close p closed).2.descriptors p)[fd]? = (k.descriptors p)[fd]? ∧
      ∀ i, k.holder i = some (p, fd) → (k.close p closed).2.holder i = some (p, fd) := by
  unfold close
  split
  · exact ⟨rfl, fun _ held => held⟩
  · rename_i j _
    refine ⟨by simp only [Function.update_self, List.getElem?_set_ne other], ?_⟩
    intro i held
    show (if _ then _ else _ : Nat → Option (Nat × Nat)) i = _
    split
    · rename_i owner
      have distinct : i ≠ j := by
        rintro rfl
        rw [held] at owner
        cases owner
        exact other rfl
      simpa only [Function.update_of_ne distinct] using held
    · exact held

def removeAll (k : Kernel Path) (path : Path) : Kernel Path :=
  { k with lookup := fun q => if PathTree.inside path q then none else k.lookup q }

/-- A removal that removed the contents of the path and then failed. -/
def empty (k : Kernel Path) (path : Path) : Kernel Path :=
  { k with lookup := fun q => if q ≠ path ∧ PathTree.inside path q then none else k.lookup q }

def createDirectory (k : Kernel Path) (p : Nat) (path : Path) : FsAnswer × Kernel Path :=
  match k.inodeAt path with
  | some node => (if node.kind = .directory then .no else .failed 17, k)
  | none =>
      if k.hasParent path then (.yes, k.create path ⟨.directory, 0o777 &&& ~~~(k.umask p)⟩)
      else (.failed 2, k)

theorem createDirectory_cases (k : Kernel Path) (p : Nat) (path : Path) :
    (∃ answer, answer ≠ .yes ∧ k.createDirectory p path = (answer, k)) ∨
    (k.lookup path = none ∧ k.hasParent path = true ∧
      k.createDirectory p path =
        (.yes, k.create path ⟨.directory, 0o777 &&& ~~~(k.umask p)⟩)) := by
  cases found : k.lookup path with
  | some i =>
      refine .inl ⟨if (k.inode i).kind = .directory then .no else .failed 17, ?_, ?_⟩
      · split <;> exact nofun
      · simp only [createDirectory, inodeAt, found, Option.map_some]
  | none =>
      cases inside : k.hasParent path with
      | true =>
          exact .inr ⟨rfl, rfl, by simp only [createDirectory, inodeAt, found, inside,
            Option.map_none, if_true]⟩
      | false => exact .inl ⟨.failed 2, nofun, by simp [createDirectory, inodeAt, found, inside]⟩

/-- A socket bound to the path, in the place of what is there; the result is its inode, or
    `none` when the directory of the path is missing. -/
def bindSocket (k : Kernel Path) (p : Nat) (path : Path) : Option Nat × Kernel Path :=
  let removed := k.removeAll path
  if removed.hasParent path then
    (some k.nextInode, removed.create path ⟨.socket, 0o777 &&& ~~~(k.umask p)⟩)
  else (none, k)

/-- The end of a process closes all its slots. -/
def exit (k : Kernel Path) (p : Nat) : Kernel Path :=
  { k with
    alive := Function.update k.alive p false
    descriptors := Function.update k.descriptors p []
    holder := fun i => (k.holder i).filter fun owner => owner.1 ≠ p }

end Kernel
