import RpiFanServe.Cache.Server

/-! # Snapshots

The answers of `/all_temps` are snapshots.  While the lock is free, the entries in
the cache are the ones that the last completed execution of `updateCache` wrote;
while a thread fills the cache, the slots behind it are its own.  A request that
found the cache expired owes an update until one has completed that took the lock
after the request began.
-/

namespace RpiFanServe.Cache

open Prog Log

/-- Where a thread stands towards the lock and the slots. -/
inductive Stage where
  | free
  /-- It has the lock and has not touched the cache. -/
  | entered
  /-- It has looked at the log file of `offset` and has yet to store the entry. -/
  | looked (done : List (Fin 7)) (offset : Fin 7)
  | filling (done : List (Fin 7))
  | copied (data : Fin 7 → Json)
  /-- It has nothing left to do but to release the lock. -/
  | leaving
  | failed

/-- What a thread knows: its stage, that some update has completed, and that it
    found the cache expired and has not updated it yet. -/
structure View where
  stage : Stage
  updated : Bool
  owes : Bool

def Stage.done : Stage → List (Fin 7)
  | .filling done => done
  | _ => []

/-- The actions that a view allows. -/
inductive Allowed : View → Call → Prop
  | receive {u o} : Allowed ⟨.free, u, o⟩ .receive
  | isCacheExpired {u o} : Allowed ⟨.free, u, o⟩ .isCacheExpired
  | isCacheNeedingUpdate {u o} : Allowed ⟨.free, u, o⟩ .isCacheNeedingUpdate
  | lock {u o} : Allowed ⟨.free, u, o⟩ .lock
  | constructed {o} : Allowed ⟨.free, true, o⟩ .constructed
  | first {u o offset} : Allowed ⟨.entered, u, o⟩ (.offset2LogFilePath offset)
  | next {done u o offset} : Allowed ⟨.filling done, u, o⟩ (.offset2LogFilePath offset)
  | read {done offset u o} : Allowed ⟨.looked done offset, u, o⟩ (.logFile2Json offset)
  | store {done offset u o temps} : Allowed ⟨.looked done offset, u, o⟩ (.store offset temps)
  | now {done u o} : Allowed ⟨.filling done, u, o⟩ .now
  | stamp {done u o epoch} (all : ∀ offset, offset ∈ done) :
      Allowed ⟨.filling done, u, o⟩ (.stamp epoch)
  | data {u o} : Allowed ⟨.entered, u, o⟩ .data
  | callback {data} : Allowed ⟨.copied data, true, false⟩ (.callback (.array (List.ofFn data)))
  | unlock {u o} : Allowed ⟨.leaving, u, o⟩ .unlock
  | abandon {u o} : Allowed ⟨.failed, u, o⟩ .unlock

/-- The view behind an action. -/
def View.after (v : View) : (call : Call) → Answer call → View
  | .receive, _ => { v with updated := true, owes := false }
  | .isCacheExpired, expired => { v with owes := expired }
  | .lock, _ => { v with stage := .entered }
  | .offset2LogFilePath offset, _ => { v with stage := .looked v.stage.done offset }
  | .logFile2Json _, .error _ => { v with stage := .failed }
  | .store offset _, _ =>
      match v.stage with
      | .looked done _ => { v with stage := .filling (offset :: done) }
      | _ => v
  | .stamp _, _ => ⟨.leaving, true, false⟩
  | .data, data => { v with stage := .copied data }
  | .callback _, _ => { v with stage := .leaving }
  | .unlock, _ => { v with stage := .free }
  | _, _ => v

def snapshotProtocol : Protocol Call Answer View where
  allowed := Allowed
  next v call answer v' := v' = v.after call answer

/-! ## The invariant -/

/-- The cache holds what the execution wrote. -/
def Server.Holds (s : Server) (x : Nat) : Prop :=
  ∀ offset, ∃ w, s.history.written x offset = some w ∧ w.entry = s.cache.data offset

/-- The answer shows the entries that one completed execution wrote, the last one
    completed when it was assembled; all of them were read after the request began
    if it found the cache expired. -/
def Response.Snapshot (s : Server) (r : Response) : Prop :=
  ∃ x ∈ s.history.completed, r.lastCompleted = some x ∧ ∃ w : Fin 7 → Written,
    (∀ offset, s.history.written x offset = some (w offset)) ∧
    r.alltemps = .array (List.ofFn fun offset => (w offset).entry) ∧
    (r.foundExpired = true → ∀ offset, r.began < (w offset).readAt)

/-- While no read has raised: what holds between any two actions. -/
structure Consistent (s : Server) : Prop where
  clean : s.cacheMutex = none → ∀ x, s.history.completed.head? = some x → s.Holds x
  serving : s.constructed = true → s.history.completed ≠ []
  readAfter : ∀ x offset w, s.history.written x offset = some w → x < w.readAt
  past : ∀ x ∈ s.history.completed, x < s.history.turn
  began : ∀ t, s.history.began t < s.history.turn
  snapshots : ∀ r ∈ s.history.responses, r.Snapshot s

theorem Consistent.past_succ {s : Server} (consistent : Consistent s) :
    ∀ x ∈ s.history.completed, x < s.history.turn + 1 :=
  fun x member => (consistent.past x member).trans (Nat.lt_succ_self _)

theorem Consistent.began_succ {s : Server} (consistent : Consistent s) :
    ∀ t, s.history.began t < s.history.turn + 1 :=
  fun t => (consistent.began t).trans (Nat.lt_succ_self _)

/-- The lock is held, by an execution later than every completed one and than the
    beginning of its request. -/
structure Holding (t : Nat) (s : Server) : Prop where
  owner : s.cacheMutex = some t
  newest : ∀ x ∈ s.history.completed, x < s.history.lockedAt
  began : s.history.began t < s.history.lockedAt
  past : s.history.lockedAt < s.history.turn

/-- The slots in `done` are this execution's. -/
def Filled (done : List (Fin 7)) (s : Server) : Prop :=
  ∀ offset ∈ done, ∃ w, s.history.written s.history.lockedAt offset = some w ∧
    w.entry = s.cache.data offset

def Stage.Rel (t : Nat) (s : Server) : Stage → Prop
  | .free => True
  | .entered => Holding t s ∧ ∀ x, s.history.completed.head? = some x → s.Holds x
  | .looked done _ => Holding t s ∧ Filled done s ∧ s.history.lockedAt < s.history.lookedAt
  | .filling done => Holding t s ∧ Filled done s
  | .copied data => Holding t s ∧ (∀ x, s.history.completed.head? = some x → s.Holds x) ∧
      data = s.cache.data
  | .leaving => s.cacheMutex = some t ∧ ∀ x, s.history.completed.head? = some x → s.Holds x
  | .failed => False

/-- What the view of thread `t` says about the state. -/
structure Knows (t : Nat) (v : View) (s : Server) : Prop where
  stage : v.stage.Rel t s
  updated : v.updated = true → s.history.completed ≠ []
  fresh : v.owes = false → s.history.foundExpired t = true →
    ∃ x, s.history.completed.head? = some x ∧ s.history.began t < x

/-! ## Steps that leave the cache alone -/

/-- Nothing that the invariant speaks of changed but the turn. -/
structure Quiet (s s' : Server) : Prop where
  cacheMutex : s'.cacheMutex = s.cacheMutex
  data : s'.cache.data = s.cache.data
  lockedAt : s'.history.lockedAt = s.history.lockedAt
  written : s'.history.written = s.history.written
  completed : s'.history.completed = s.history.completed
  responses : s'.history.responses = s.history.responses
  turn : s.history.turn < s'.history.turn

section Quiet

variable {s s' : Server} (quiet : Quiet s s')

include quiet

theorem Quiet.holds {x : Nat} (holds : s.Holds x) : s'.Holds x := by
  unfold Server.Holds
  rw [quiet.written, quiet.data]
  exact holds

theorem Quiet.consistent (consistent : Consistent s)
    (serving : s'.constructed = true → s'.history.completed ≠ [])
    (began : ∀ t, s'.history.began t < s'.history.turn) : Consistent s' where
  clean free x last := by
    rw [quiet.cacheMutex] at free
    rw [quiet.completed] at last
    exact quiet.holds (consistent.clean free x last)
  serving := serving
  readAfter := by
    rw [quiet.written]
    exact consistent.readAfter
  past := by
    intro x member
    rw [quiet.completed] at member
    exact (consistent.past x member).trans quiet.turn
  began := began
  snapshots := by
    intro r member
    rw [quiet.responses] at member
    have snapshot := consistent.snapshots r member
    unfold Response.Snapshot at snapshot ⊢
    rw [quiet.completed, quiet.written]
    exact snapshot

theorem Quiet.holding {t : Nat} (holding : Holding t s)
    (began : s'.history.began t = s.history.began t) : Holding t s' where
  owner := quiet.cacheMutex.trans holding.owner
  newest := by
    rw [quiet.completed, quiet.lockedAt]
    exact holding.newest
  began := by
    rw [began, quiet.lockedAt]
    exact holding.began
  past := by
    rw [quiet.lockedAt]
    exact holding.past.trans quiet.turn

theorem Quiet.filled {done : List (Fin 7)} (filled : Filled done s) : Filled done s' := by
  unfold Filled
  rw [quiet.written, quiet.lockedAt, quiet.data]
  exact filled

theorem Quiet.last (holds : ∀ x, s.history.completed.head? = some x → s.Holds x) :
    ∀ x, s'.history.completed.head? = some x → s'.Holds x := by
  intro x last
  rw [quiet.completed] at last
  exact quiet.holds (holds x last)

theorem Quiet.rel {t : Nat} {stage : Stage} (rel : stage.Rel t s)
    (began : s'.history.began t = s.history.began t)
    (lookedAt : s'.history.lookedAt = s.history.lookedAt) : stage.Rel t s' := by
  cases stage with
  | free => trivial
  | entered => exact ⟨quiet.holding rel.1 began, quiet.last rel.2⟩
  | looked done offset =>
      refine ⟨quiet.holding rel.1 began, quiet.filled rel.2.1, ?_⟩
      rw [quiet.lockedAt, lookedAt]
      exact rel.2.2
  | filling done => exact ⟨quiet.holding rel.1 began, quiet.filled rel.2⟩
  | copied data =>
      exact ⟨quiet.holding rel.1 began, quiet.last rel.2.1, rel.2.2.trans quiet.data.symm⟩
  | leaving => exact ⟨quiet.cacheMutex.trans rel.1, quiet.last rel.2⟩
  | failed => exact rel.elim

theorem Quiet.knows {t : Nat} {v : View} (knows : Knows t v s)
    (began : s'.history.began t = s.history.began t)
    (foundExpired : s'.history.foundExpired t = s.history.foundExpired t)
    (lookedAt : s'.history.lookedAt = s.history.lookedAt) : Knows t v s' where
  stage := quiet.rel knows.stage began lookedAt
  updated := by
    rw [quiet.completed]
    exact knows.updated
  fresh := by
    rw [quiet.completed, began, foundExpired]
    exact knows.fresh

end Quiet

theorem Stage.Rel.owner {t : Nat} {s : Server} {stage : Stage} (rel : stage.Rel t s) :
    stage = .free ∨ s.cacheMutex = some t := by
  cases stage with
  | free => exact .inl rfl
  | entered | looked _ _ | filling _ | copied _ => exact .inr rel.1.owner
  | leaving => exact .inr rel.1
  | failed => exact rel.elim

/-! ## The actions of a thread -/

/-- The actions that change the lock, the cache or the answers. -/
def Call.touches : Call → Bool
  | .lock | .unlock | .store _ _ | .stamp _ | .callback _ => true
  | _ => false

section Own

variable {setup : Setup} {t : Nat} {s s' : Server} {v : View}

theorem handle_quiet {call : Call} {answer : Answer call}
    (handled : (handler setup).handle t s call = some (answer, s')) (quiet : call.touches = false) :
    Quiet s s' := by
  cases call <;> cases quiet <;>
    simp only [handler, Server.perform, Option.map_if, Option.map_some, Option.ite_none_right_eq_some,
      Option.some.injEq, Prod.mk.injEq] at handled <;>
    constructor <;> grind [Server.tick]

theorem handle_other {call : Call} {answer : Answer call} {u : Nat} (other : u ≠ t)
    (handled : (handler setup).handle t s call = some (answer, s')) :
    s'.history.began u = s.history.began u ∧ s'.history.foundExpired u = s.history.foundExpired u := by
  cases call with
  | receive =>
      simp only [handler, Server.perform, Option.map_if, Option.ite_none_right_eq_some] at handled
      obtain ⟨-, handled⟩ := handled
      cases handled
      exact ⟨Function.update_of_ne other _ _, Function.update_of_ne other _ _⟩
  | isCacheExpired =>
      cases handled
      exact ⟨rfl, Function.update_of_ne other _ _⟩
  | lock =>
      simp only [handler, Server.perform, Option.map_if, Option.ite_none_right_eq_some] at handled
      obtain ⟨-, handled⟩ := handled
      cases handled
      exact ⟨rfl, rfl⟩
  | _ =>
      cases handled
      exact ⟨rfl, rfl⟩

theorem receive_own (consistent : Consistent s) (knows : Knows t v s) (free : v.stage = .free)
    (handled : (handler setup).handle t s .receive = some ((), s')) :
    Consistent s' ∧ Knows t { v with updated := true, owes := false } s' := by
  have quiet : Quiet s s' := handle_quiet handled rfl
  simp only [handler, Server.perform, Option.map_if, Option.ite_none_right_eq_some] at handled
  obtain ⟨constructed, handled⟩ := handled
  cases handled
  have serving := consistent.serving constructed
  refine ⟨quiet.consistent consistent (fun _ => serving) ?_, ?_, fun _ => serving, ?_⟩
  · intro u
    by_cases own : u = t
    · subst own
      simp [Server.tick]
    · simpa [Server.tick, own] using consistent.began_succ u
  · rw [free]
    trivial
  · intro _ found
    simp [Server.tick] at found

theorem lock_own (consistent : Consistent s) (knows : Knows t v s)
    (handled : (handler setup).handle t s .lock = some ((), s')) :
    Consistent s' ∧ Knows t { v with stage := .entered } s' := by
  simp only [handler, Server.perform, Option.map_if, Option.ite_none_right_eq_some] at handled
  obtain ⟨free, handled⟩ := handled
  cases handled
  refine ⟨⟨?_, consistent.serving, consistent.readAfter, consistent.past_succ, consistent.began_succ,
    consistent.snapshots⟩,
    ⟨⟨rfl, consistent.past, consistent.began t, Nat.lt_succ_self _⟩, consistent.clean free⟩,
    knows.updated, knows.fresh⟩
  · intro none_owns
    cases none_owns

theorem store_own {done : List (Fin 7)} {offset : Fin 7} {temps : Json} {u o : Bool}
    (consistent : Consistent s) (knows : Knows t ⟨.looked done offset, u, o⟩ s)
    (handled : (handler setup).handle t s (.store offset temps) = some ((), s')) :
    Consistent s' ∧ Knows t ⟨.filling (offset :: done), u, o⟩ s' := by
  obtain ⟨holding, filled, looked⟩ := knows.stage
  cases handled
  have elsewhere : ∀ x ∈ s.history.completed, x ≠ s.history.lockedAt :=
    fun x member => (holding.newest x member).ne
  refine ⟨⟨?_, consistent.serving, ?_, consistent.past_succ, consistent.began_succ, ?_⟩,
    ⟨⟨holding.owner, holding.newest, holding.began, holding.past.trans (Nat.lt_succ_self _)⟩, ?_⟩,
    knows.updated, knows.fresh⟩
  · intro none_owns
    cases holding.owner.symm.trans none_owns
  · intro x i w written
    simp only [Server.tick] at written
    by_cases own : x = s.history.lockedAt
    · subst own
      rw [Function.update_self] at written
      by_cases same : i = offset
      · subst same
        rw [Function.update_self] at written
        cases written
        exact looked
      · rw [Function.update_of_ne same] at written
        exact consistent.readAfter _ i w written
    · rw [Function.update_of_ne own] at written
      exact consistent.readAfter x i w written
  · intro r member
    obtain ⟨x, completed, last, w, written, shown, read⟩ := consistent.snapshots r member
    refine ⟨x, completed, last, w, ?_, shown, read⟩
    intro i
    simp only [Server.tick]
    rw [Function.update_of_ne (elsewhere x completed)]
    exact written i
  · intro i member
    simp only [Server.tick]
    rw [Function.update_self]
    by_cases same : i = offset
    · subst same
      rw [Function.update_self, Function.update_self]
      exact ⟨_, rfl, rfl⟩
    · rw [Function.update_of_ne same, Function.update_of_ne same]
      exact filled i ((List.mem_cons.mp member).resolve_left same)

theorem stamp_own {done : List (Fin 7)} {epoch : CLong} {u o : Bool}
    (consistent : Consistent s) (knows : Knows t ⟨.filling done, u, o⟩ s)
    (all : ∀ offset, offset ∈ done)
    (handled : (handler setup).handle t s (.stamp epoch) = some ((), s')) :
    Consistent s' ∧ Knows t ⟨.leaving, true, false⟩ s' := by
  obtain ⟨holding, filled⟩ := knows.stage
  cases handled
  refine ⟨⟨?_, ?_, consistent.readAfter, ?_, consistent.began_succ, ?_⟩, ⟨holding.owner, ?_⟩, ?_, ?_⟩
  · intro none_owns
    cases holding.owner.symm.trans none_owns
  · intro _ empty
    cases empty
  · intro x member
    cases List.mem_cons.mp member with
    | inl own =>
        subst own
        exact holding.past.trans (Nat.lt_succ_self _)
    | inr before => exact consistent.past_succ x before
  · intro r member
    obtain ⟨x, completed, rest⟩ := consistent.snapshots r member
    exact ⟨x, List.mem_cons_of_mem _ completed, rest⟩
  · intro x last
    cases last
    intro offset
    exact filled offset (all offset)
  · intro _ empty
    cases empty
  · intro _ _
    exact ⟨_, rfl, holding.began⟩

theorem callback_own {data : Fin 7 → Json} (consistent : Consistent s)
    (knows : Knows t ⟨.copied data, true, false⟩ s)
    (handled : (handler setup).handle t s (.callback (.array (List.ofFn data))) = some ((), s')) :
    Consistent s' ∧ Knows t ⟨.leaving, true, false⟩ s' := by
  obtain ⟨holding, holds, copy⟩ := knows.stage
  cases handled
  refine ⟨⟨?_, consistent.serving, consistent.readAfter, consistent.past_succ, consistent.began_succ,
    ?_⟩,
    ⟨holding.owner, holds⟩, knows.updated, knows.fresh⟩
  · intro none_owns
    cases holding.owner.symm.trans none_owns
  · intro r member
    cases List.mem_cons.mp member with
    | inr before => exact consistent.snapshots r before
    | inl new =>
        subst new
        obtain ⟨x, rest, completed⟩ := List.exists_cons_of_ne_nil (knows.updated rfl)
        have last : s.history.completed.head? = some x := by rw [completed]; rfl
        choose w written entry using holds x last
        refine ⟨x, ?_, last, w, written, ?_, ?_⟩
        · show x ∈ s.history.completed
          rw [completed]
          exact List.mem_cons_self
        · rw [copy]
          simp only [entry]
        · intro found offset
          obtain ⟨y, last', began⟩ := knows.fresh rfl found
          cases last.symm.trans last'
          exact began.trans (consistent.readAfter x offset (w offset) (written offset))

theorem unlock_own {u o : Bool} (consistent : Consistent s) (knows : Knows t ⟨.leaving, u, o⟩ s)
    (handled : (handler setup).handle t s .unlock = some ((), s')) :
    Consistent s' ∧ Knows t ⟨.free, u, o⟩ s' := by
  cases handled
  exact ⟨⟨fun _ => knows.stage.2, consistent.serving, consistent.readAfter, consistent.past_succ,
    consistent.began_succ, consistent.snapshots⟩, trivial, knows.updated, knows.fresh⟩

/-- An action that a view allows keeps the invariant and moves the view. -/
theorem allowed_own {call : Call} {answer : Answer call} (consistent : Consistent s)
    (knows : Knows t v s) (allowed : Allowed v call)
    (handled : (handler setup).handle t s call = some (answer, s'))
    (quietly : s'.history.raised = false) : Consistent s' ∧ Knows t (v.after call answer) s' := by
  have began : ∀ quiet : Quiet s s', s'.history.began = s.history.began →
      ∀ u, s'.history.began u < s'.history.turn := by
    intro quiet same u
    rw [same]
    exact (consistent.began u).trans quiet.turn
  cases allowed with
  | receive => exact receive_own consistent knows rfl handled
  | lock => exact lock_own consistent knows handled
  | store => exact store_own consistent knows handled
  | stamp all => exact stamp_own consistent knows all handled
  | callback => exact callback_own consistent knows handled
  | unlock => exact unlock_own consistent knows handled
  | abandon => exact knows.stage.elim
  | isCacheExpired =>
      have quiet : Quiet s s' := handle_quiet handled rfl
      cases handled
      refine ⟨quiet.consistent consistent consistent.serving (began quiet rfl), trivial,
        knows.updated, ?_⟩
      intro settled found
      simp [Server.tick] at found
      exact absurd (settled.symm.trans found) (by decide)
  | isCacheNeedingUpdate =>
      have quiet : Quiet s s' := handle_quiet handled rfl
      cases handled
      exact ⟨quiet.consistent consistent consistent.serving (began quiet rfl),
        quiet.knows knows rfl rfl rfl⟩
  | constructed =>
      have quiet : Quiet s s' := handle_quiet handled rfl
      cases handled
      exact ⟨quiet.consistent consistent (fun _ => knows.updated rfl) (began quiet rfl),
        quiet.knows knows rfl rfl rfl⟩
  | first =>
      have quiet : Quiet s s' := handle_quiet handled rfl
      cases handled
      have holding := knows.stage.1
      refine ⟨quiet.consistent consistent consistent.serving (began quiet rfl),
        ⟨quiet.holding holding rfl, ?_, holding.past⟩, knows.updated, knows.fresh⟩
      intro offset member
      cases member
  | next =>
      have quiet : Quiet s s' := handle_quiet handled rfl
      cases handled
      have holding := knows.stage.1
      exact ⟨quiet.consistent consistent consistent.serving (began quiet rfl),
        ⟨quiet.holding holding rfl, quiet.filled knows.stage.2, holding.past⟩, knows.updated,
        knows.fresh⟩
  | read =>
      have quiet : Quiet s s' := handle_quiet handled rfl
      simp only [handler, Server.perform, Option.map_some, Option.some.injEq, Prod.mk.injEq]
        at handled
      obtain ⟨temps, rfl⟩ := handled
      cases answer with
      | error fault =>
          rw [temps] at quietly
          simp [Server.tick, Except.isOk, Except.toBool] at quietly
      | ok content =>
          have holding := knows.stage.1
          exact ⟨quiet.consistent consistent consistent.serving (began quiet rfl),
            ⟨quiet.holding holding rfl, quiet.filled knows.stage.2.1, holding.past⟩,
            knows.updated, knows.fresh⟩
  | now =>
      have quiet : Quiet s s' := handle_quiet handled rfl
      cases handled
      exact ⟨quiet.consistent consistent consistent.serving (began quiet rfl),
        quiet.knows knows rfl rfl rfl⟩
  | data =>
      have quiet : Quiet s s' := handle_quiet handled rfl
      cases handled
      exact ⟨quiet.consistent consistent consistent.serving (began quiet rfl),
        ⟨quiet.holding knows.stage.1 rfl, quiet.last knows.stage.2, rfl⟩, knows.updated,
        knows.fresh⟩

/-- A thread outside the lock keeps what it knows while updates complete. -/
theorem knows_outside {u : Nat} {w : View} (knows : Knows u w s) (free : w.stage = .free)
    (began : s'.history.began u = s.history.began u)
    (foundExpired : s'.history.foundExpired u = s.history.foundExpired u)
    (grows : s'.history.completed = s.history.completed ∨ ∃ x,
      s'.history.completed = x :: s.history.completed ∧ ∀ y ∈ s.history.completed, y < x) :
    Knows u w s' where
  stage := by
    rw [free]
    trivial
  updated updated := by
    cases grows with
    | inl same =>
        rw [same]
        exact knows.updated updated
    | inr new =>
        obtain ⟨x, new, -⟩ := new
        rw [new]
        exact List.cons_ne_nil x _
  fresh settled found := by
    rw [foundExpired] at found
    rw [began]
    obtain ⟨y, last, fresh⟩ := knows.fresh settled found
    cases grows with
    | inl same => exact ⟨y, by rw [same]; exact last, fresh⟩
    | inr new =>
        obtain ⟨x, new, newest⟩ := new
        exact ⟨x, by rw [new]; rfl, fresh.trans (newest y (List.mem_of_mem_head? last))⟩

/-- An action of another thread leaves what a thread knows. -/
theorem allowed_other {u : Nat} {w : View} {call : Call} {answer : Answer call} (other : u ≠ t)
    (knows : Knows t v s) (knows' : Knows u w s) (allowed : Allowed v call)
    (handled : (handler setup).handle t s call = some (answer, s')) : Knows u w s' := by
  obtain ⟨began, foundExpired⟩ := handle_other other handled
  have outside : s.cacheMutex ≠ some u → w.stage = .free :=
    fun free => knows'.stage.owner.resolve_right free
  have owned : s.cacheMutex = some t → w.stage = .free := by
    intro owner
    apply outside
    rw [owner]
    intro same
    exact other (Option.some.inj same).symm
  cases allowed with
  | receive =>
      have quiet : Quiet s s' := handle_quiet handled rfl
      refine quiet.knows knows' began foundExpired ?_
      simp only [handler, Server.perform, Option.map_if, Option.ite_none_right_eq_some] at handled
      obtain ⟨-, handled⟩ := handled
      cases handled
      rfl
  | isCacheExpired | isCacheNeedingUpdate | constructed =>
      have quiet : Quiet s s' := handle_quiet handled rfl
      cases handled
      exact quiet.knows knows' began foundExpired rfl
  | lock =>
      simp only [handler, Server.perform, Option.map_if, Option.ite_none_right_eq_some] at handled
      obtain ⟨free, handled⟩ := handled
      cases handled
      apply knows_outside knows' (outside (by rw [free]; simp)) began foundExpired
      left
      rfl
  | stamp all =>
      have holding := knows.stage.1
      cases handled
      apply knows_outside knows' (owned holding.owner) began foundExpired
      right
      exact ⟨_, rfl, holding.newest⟩
  | first | next | read | store | now | data | callback =>
      have holding := knows.stage.1
      cases handled
      apply knows_outside knows' (owned holding.owner) began foundExpired
      left
      rfl
  | unlock =>
      have owner := knows.stage.1
      cases handled
      apply knows_outside knows' (owned owner) began foundExpired
      left
      rfl
  | abandon => exact knows.stage.elim

end Own

theorem environment_quiet {setup : Setup} {s s' : Server} {action : Server.Outside}
    (moved : (handler setup).environment s action = some s') :
    Quiet s s' ∧ s'.constructed = s.constructed ∧ s'.history.began = s.history.began ∧
      s'.history.foundExpired = s.history.foundExpired ∧
      s'.history.lookedAt = s.history.lookedAt ∧ s'.history.raised = s.history.raised := by
  cases action <;>
    simp only [handler, Server.outside, Option.map_if, Option.map_some, Option.ite_none_right_eq_some,
      Option.some.injEq] at moved <;>
    refine ⟨?_, ?_⟩ <;> constructor <;> grind [Server.tick]

theorem handle_raised {setup : Setup} {t : Nat} {s s' : Server} {call : Call} {answer : Answer call}
    (handled : (handler setup).handle t s call = some (answer, s'))
    (quietly : s'.history.raised = false) : s.history.raised = false := by
  cases call <;>
    simp only [handler, Server.perform, Option.map_if, Option.map_some, Option.ite_none_right_eq_some,
      Option.some.injEq, Prod.mk.injEq] at handled <;>
    grind [Server.tick]

theorem snapshot_obligations (setup : Setup) :
    Pool.Obligations (handler setup) snapshotProtocol
      (fun s => s.history.raised = false → Consistent s)
      (fun t v s => s.history.raised = false → Knows t v s) where
  own := by
    intro t s v call answer s' consistent knows allowed handled
    have before := fun quietly => handle_raised handled quietly
    refine ⟨?_, _, rfl, ?_⟩
    · intro quietly
      exact (allowed_own (consistent (before quietly)) (knows (before quietly)) allowed handled
        quietly).1
    · intro quietly
      exact (allowed_own (consistent (before quietly)) (knows (before quietly)) allowed handled
        quietly).2
  others := by
    intro t u s v w call answer s' other _ knows knows' allowed handled quietly
    have before := handle_raised handled quietly
    exact allowed_other other (knows before) (knows' before) allowed handled
  environment := by
    intro s action s' consistent moved
    obtain ⟨quiet, constructed, began, foundExpired, lookedAt, raised⟩ := environment_quiet moved
    rw [raised]
    refine ⟨?_, ?_⟩
    · intro quietly
      apply quiet.consistent (consistent quietly)
      · rw [constructed, quiet.completed]
        exact (consistent quietly).serving
      · intro t
        rw [began]
        exact ((consistent quietly).began t).trans quiet.turn
    · intro t v knows quietly
      exact quiet.knows (knows quietly) (congrFun began t) (congrFun foundExpired t) lookedAt

/-! ## The threads keep to the protocol -/

/-- How the loop ends: all its slots are this execution's, or a read raised. -/
def FillEnds (before : List (Fin 7)) (offsets : List (Fin 7)) (v : View) :
    Except Fault Unit → Prop
  | .error _ => v.stage = .failed
  | .ok _ => ∃ done, v.stage = .filling done ∧ ∀ offset, offset ∈ before ∨ offset ∈ offsets →
      offset ∈ done

theorem FillEnds.cons {before offsets : List (Fin 7)} {offset : Fin 7} {v : View}
    {outcome : Except Fault Unit} (ends : FillEnds (offset :: before) offsets v outcome) :
    FillEnds before (offset :: offsets) v outcome := by
  cases outcome with
  | error fault => exact ends
  | ok _ =>
      obtain ⟨done, stage, covers⟩ := ends
      refine ⟨done, stage, fun i member => covers i ?_⟩
      simp only [List.mem_cons] at member ⊢
      tauto

/-- One turn of the loop, from where it looks for the file on. -/
theorem fill_turn {done : List (Fin 7)} {offset : Fin 7} {offsets : List (Fin 7)} {u o : Bool}
    (rest : (fill offsets).Conforms snapshotProtocol (FillEnds (offset :: done) offsets)
      ⟨.filling (offset :: done), u, o⟩) (found : Bool) :
    ((if found then do
        let temps : Except Fault Json ← perform (Call.logFile2Json offset)
        match temps with
        | .error fault => return .error fault
        | .ok temps =>
            let _ ← perform (.store offset temps)
            fill offsets
      else do
        let _ ← perform (.store offset (.array []))
        fill offsets) : Thread).Conforms snapshotProtocol (FillEnds done (offset :: offsets))
      ⟨.looked done offset, u, o⟩ := by
  have rest := rest.mono fun _ _ ends => ends.cons
  cases found with
  | false =>
      apply Conforms.perform Allowed.store
      intro _ _ same
      cases same
      exact rest
  | true =>
      apply Conforms.perform Allowed.read
      intro temps _ same
      cases same
      cases temps with
      | error fault => rfl
      | ok temps =>
          apply Conforms.perform Allowed.store
          intro _ _ same
          cases same
          exact rest

theorem fill_snapshot (offsets done : List (Fin 7)) (u o : Bool) :
    (fill offsets).Conforms snapshotProtocol (FillEnds done offsets) ⟨.filling done, u, o⟩ := by
  induction offsets generalizing done with
  | nil => exact ⟨done, rfl, fun offset member => member.resolve_right List.not_mem_nil⟩
  | cons offset offsets ih =>
      unfold fill
      apply Conforms.perform Allowed.next
      intro found _ same
      cases same
      exact fill_turn (ih (offset :: done)) found

theorem fill_entered (offset : Fin 7) (offsets : List (Fin 7)) (u o : Bool) :
    (fill (offset :: offsets)).Conforms snapshotProtocol (FillEnds [] (offset :: offsets))
      ⟨.entered, u, o⟩ := by
  unfold fill
  apply Conforms.perform Allowed.first
  intro found _ same
  cases same
  exact fill_turn (fill_snapshot offsets [offset] u o) found

/-- `updateCache` ends outside the lock, with nothing owed unless it raised. -/
theorem updateCache_snapshot (u o : Bool) :
    updateCache.Conforms snapshotProtocol
      (fun v outcome => v.stage = .free ∧ ∀ done, outcome = .ok done → v = ⟨.free, true, false⟩)
      ⟨.free, u, o⟩ := by
  unfold updateCache
  apply Conforms.perform Allowed.lock
  intro _ _ same
  cases same
  apply Conforms.bind
  apply (fill_entered 0 [1, 2, 3, 4, 5, 6] u o).mono
  intro v outcome ends
  obtain ⟨stage, updated, owes⟩ := v
  cases outcome with
  | error fault =>
      cases ends
      apply Conforms.perform Allowed.abandon
      intro _ _ same
      cases same
      exact ⟨rfl, fun _ impossible => by cases impossible⟩
  | ok _ =>
      obtain ⟨done, stage, covers⟩ := ends
      cases stage
      apply Conforms.perform Allowed.now
      intro currentEpoch _ same
      cases same
      apply Conforms.perform
        (Allowed.stamp fun offset => covers offset (.inr (List.mem_finRange offset)))
      intro _ _ same
      cases same
      apply Conforms.perform Allowed.unlock
      intro _ _ same
      cases same
      exact ⟨rfl, fun _ _ => rfl⟩

theorem answerAllTemps_snapshot :
    answerAllTemps.Conforms snapshotProtocol (fun _ _ => True) ⟨.free, true, false⟩ := by
  unfold answerAllTemps
  apply Conforms.perform Allowed.lock
  intro _ _ same
  cases same
  apply Conforms.perform Allowed.data
  intro data _ same
  cases same
  apply Conforms.perform Allowed.callback
  intro _ _ same
  cases same
  apply Conforms.perform Allowed.unlock
  intro _ _ _
  trivial

/-- What follows an update that did not raise finds it done. -/
theorem orRaise_snapshot {next : Thread} (u o : Bool)
    (then_ : next.Conforms snapshotProtocol (fun _ _ => True) ⟨.free, true, false⟩) :
    (orRaise updateCache next).Conforms snapshotProtocol (fun _ _ => True) ⟨.free, u, o⟩ := by
  unfold orRaise
  apply Conforms.bind
  apply (updateCache_snapshot u o).mono
  intro v outcome ends
  cases outcome with
  | error fault => trivial
  | ok done =>
      rw [ends.2 done rfl]
      exact then_

theorem calls_snapshot {setup : Setup} {s : Pool Call Answer Server (Except Fault Unit)}
    (started : Started setup s) (t : Nat) :
    (s.threads t).Conforms snapshotProtocol (fun _ _ => True) ⟨.free, false, false⟩ := by
  by_cases first : t = 0
  · rw [first, started.constructor]
    unfold constructorEnd
    apply orRaise_snapshot
    apply Conforms.perform Allowed.constructed
    intro _ _ _
    trivial
  · cases started.calls t first with
    | inl request =>
        rw [request]
        unfold handleAllTempsRequest
        apply Conforms.perform Allowed.receive
        intro _ _ same
        cases same
        apply Conforms.perform Allowed.isCacheExpired
        intro expired _ same
        cases same
        cases expired with
        | false => exact answerAllTemps_snapshot
        | true => exact orRaise_snapshot true true answerAllTemps_snapshot
    | inr timer =>
        rw [timer]
        unfold cacheTimerCallback
        apply Conforms.perform Allowed.isCacheNeedingUpdate
        intro needed _ same
        cases same
        cases needed with
        | false => trivial
        | true => exact (updateCache_snapshot false false).mono fun _ _ _ => trivial

theorem consistent_of_reachable {setup : Setup} {s : Pool Call Answer Server (Except Fault Unit)}
    (reachable : (server setup).Reachable s) (quietly : s.shared.history.raised = false) :
    Consistent s.shared := by
  refine (Pool.conforms_invariant (snapshot_obligations setup) ?_ reachable).1 quietly
  intro s started
  have history := started.shared.history
  refine ⟨fun _ => ⟨?_, ?_, ?_, ?_, ?_, ?_⟩, fun t => ⟨⟨.free, false, false⟩, fun _ => ⟨trivial, ?_, ?_⟩,
    calls_snapshot started t⟩⟩
  · intro _ x last
    rw [history] at last
    cases last
  · intro constructed
    rw [started.shared.unconstructed] at constructed
    cases constructed
  · intro x offset w written
    rw [history] at written
    cases written
  · intro x member
    rw [history] at member
    cases member
  · intro t
    rw [history]
    exact Nat.zero_lt_one
  · intro r member
    rw [history] at member
    cases member
  · intro impossible
    cases impossible
  · intro _ found
    rw [history] at found
    cases found

/-- Every answer shows the entries of the last execution of `updateCache` completed
    before it was assembled, all read after the request began if it found the cache
    expired. -/
theorem responses_are_snapshots {setup : Setup} {s : Pool Call Answer Server (Except Fault Unit)}
    (reachable : (server setup).Reachable s) (quietly : s.shared.history.raised = false) :
    ∀ r ∈ s.shared.history.responses, r.Snapshot s.shared :=
  (consistent_of_reachable reachable quietly).snapshots

/-- The first update, and a request that comes in a day later. -/
def lateRequest : List (Move Server.Outside) :=
  firstUpdate ++ .environment (.advance 86400) :: List.replicate 25 (.thread 1)

theorem lateRequest_enabled : ((server sampleSetup).run sampleBoot lateRequest).isSome := by
  decide

theorem responses_are_snapshots_late_request :
    (((server sampleSetup).run sampleBoot lateRequest).get
      lateRequest_enabled).shared.history.responses.length = 1 ∧
    ∀ r ∈ (((server sampleSetup).run sampleBoot lateRequest).get
        lateRequest_enabled).shared.history.responses,
      r.Snapshot (((server sampleSetup).run sampleBoot lateRequest).get lateRequest_enabled).shared :=
  ⟨by decide,
    responses_are_snapshots (.get sampleBoot_started lateRequest_enabled) (by decide)⟩

end RpiFanServe.Cache
