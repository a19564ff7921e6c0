import RpiFanServe.Dbus.Lifetime
import Mathlib.Logic.Function.Basic

/-! # The life of the helper

`main` of dbus/main.cpp with the signals that may come at any moment, the event loop that
they end by way of a socket pair, and the thread of the client.  Qt's loop is a parameter,
and so is the number of bytes that a socket pair holds: the handlers write with blocking
calls, and one that finds no room keeps the main thread, the only one that reads, for good.
-/

universe u

namespace RpiFanServe.Dbus

open StepMachine

/-- What the helper has of `QCoreApplication` and `QSocketNotifier`: the states of an
    application object and its loop, what `exec` returns with once it is to return, and
    whether a notifier is activated when there are so many bytes to read. -/
structure EventLoop (Λ : Type u) where
  application : Λ
  exec : Λ → Λ
  quit : Λ → Λ
  running : Λ → Bool
  result : Λ → Option Int
  activates : Λ → Nat → Bool

/-- What Qt documents of them. -/
structure EventLoop.Documented {Λ : Type u} (events : EventLoop Λ) : Prop where
  application_idle : events.running events.application = false
  /-- `exec` enters the loop and waits in it until it is told to quit. -/
  exec_running : ∀ loop, events.running loop = false → events.running (events.exec loop) = true
  exec_waits : ∀ loop, events.running loop = false → events.result (events.exec loop) = none
  /-- `quit` has no effect before the loop runs, and makes it return 0 after that. -/
  quit_idle : ∀ loop, events.running loop = false → events.quit loop = loop
  quit_running : ∀ loop, events.running loop = true → events.running (events.quit loop) = true
  quit_returns : ∀ loop, events.running loop = true → events.result (events.quit loop) = some 0
  /-- A loop that waits activates the notifier of a readable socket, and of no other. -/
  activates_unread : ∀ loop bytes, events.running loop = true → events.result loop = none →
    0 < bytes → events.activates loop bytes = true
  unread_of_activates : ∀ loop bytes, events.activates loop bytes = true → 0 < bytes

inductive Signal where
  | SIGINT
  | SIGTERM
  deriving DecidableEq

/-- Where the main thread stands: before a call or a constructor, in the event loop, in the
    slot of a signal before `read` and before `quit`, in the destructors behind the loop, and
    in the handler of a signal when its `write` finds no room. -/
inductive MainPlace where
  | checkAndTryLock
  | signalHandler
  | sigaction (signal : Signal)
  | dbusServer
  | exec
  | reading (signal : Signal)
  | quitting (signal : Signal)
  | destroying (rv : Int)
  | socketLocker (rv : Int)
  | writing (signal : Signal)
  | returned (status : Int)
  | killed (signal : Signal)
  | aborted
  deriving DecidableEq

/-- `unread` counts the bytes in the socket pairs; `caught` are the signals whose handler has
    run, the last one first. -/
structure Helper (Λ : Type u) where
  place : MainPlace
  installed : Signal → Bool
  unread : Signal → Nat
  loop : Λ
  isConnected : Bool
  lockHeld : Bool
  client : OwnedThread.State ClientPlace
  caught : List Signal

inductive Phase where
  | starting
  | inExec
  | leaving
  | stuck
  | gone
  deriving DecidableEq

def MainPlace.phase : MainPlace → Phase
  | .checkAndTryLock | .signalHandler | .sigaction _ | .dbusServer => .starting
  | .exec | .reading _ | .quitting _ => .inExec
  | .destroying _ | .socketLocker _ => .leaving
  | .writing _ => .stuck
  | .returned _ | .killed _ | .aborted => .gone

/-- The places with the lock held. -/
def MainPlace.locked (place : MainPlace) : Bool :=
  place ≠ .checkAndTryLock && place.phase ≠ .gone

@[simp] theorem MainPlace.locked_iff {place : MainPlace} :
    place.locked = true ↔ place ≠ .checkAndTryLock ∧ place.phase ≠ .gone := by
  simp [MainPlace.locked]

namespace Helper

variable {Λ : Type u}

/-- The process is gone, and its descriptors with it. -/
def die (s : Helper Λ) (place : MainPlace) : Helper Λ := { s with place, lockHeld := false }

def wrote (s : Helper Λ) (signal : Signal) : Helper Λ :=
  { s with
    unread := Function.update s.unread signal (s.unread signal + 1)
    caught := signal :: s.caught }

/-- `intSignalHandler` and `termSignalHandler` write a byte, on the main thread, which takes
    the signals; without a handler the signal ends the process. -/
def deliver (capacity : Nat) (s : Helper Λ) (signal : Signal) : Helper Λ :=
  if s.installed signal then
    if s.unread signal < capacity then s.wrote signal else { s with place := .writing signal }
  else s.die (.killed signal)

/-- `setup_unix_signal_handlers` gives up at the first call that fails, and `main` goes on. -/
def setup (s : Helper Λ) (signal : Signal) (success : Bool) : Helper Λ :=
  if success then
    { s with
      installed := Function.update s.installed signal true
      place := if signal = .SIGINT then .sigaction .SIGTERM else .dbusServer }
  else { s with place := .dbusServer }

/-- The constructor of `DbusServer`, which calls `quit` when the bus is not there, and the
    entry into `exec`. -/
def constructServer (events : EventLoop Λ) (s : Helper Λ) (isConnected : Bool) : Helper Λ :=
  match isConnected with
  | true => { s with
      isConnected
      client := { s.client with thread := .located ctrlDbusClient.first }
      loop := events.exec s.loop
      place := .exec }
  | false => { s with isConnected, loop := events.exec (events.quit s.loop), place := .exec }

/-- The next step of the main thread; the outcome is that of the call it makes. -/
def mainStep (events : EventLoop Λ) (s : Helper Λ) (outcome : Bool) : Option (Helper Λ) :=
  match s.place with
  | .checkAndTryLock =>
      if outcome then some { s with place := .signalHandler, lockHeld := true }
      else some (s.die (.returned 1))
  | .signalHandler =>
      -- `qFatal` ends the program.
      if outcome then some { s with place := .sigaction .SIGINT } else some (s.die .aborted)
  | .sigaction signal => some (s.setup signal outcome)
  | .dbusServer => some (s.constructServer events outcome)
  | .exec =>
      (events.result s.loop).map fun rv => { s with
        place := .destroying rv
        client := { s.client with cleanup := some dbusServerDestructor } }
  | .reading signal =>
      some { s with
        place := .quitting signal
        unread := if outcome then Function.update s.unread signal (s.unread signal - 1) else s.unread }
  | .quitting _ => some { s with place := .exec, loop := events.quit s.loop }
  | .destroying rv =>
      if s.client.cleanup = some [] then some { s with place := .socketLocker rv }
      else
        (OwnedThread.step ctrlDbusClient dbusServerDestructor s.client .cleanup).map fun client =>
          { s with client }
  | .socketLocker rv => some (s.die (.returned rv))
  | .writing _ | .returned _ | .killed _ | .aborted => none

inductive Action where
  | signal (signal : Signal)
  | main (outcome : Bool)
  /-- The notifier of a socket is activated, and calls `handleSigInt` or `handleSigTerm`. -/
  | activated (signal : Signal)
  | client (outcome : ClientOutcome)

def step (events : EventLoop Λ) (capacity : Nat) (s : Helper Λ) : Action → Option (Helper Λ)
  | .signal signal => if s.place.phase ≠ .gone then some (s.deliver capacity signal) else none
  | .main outcome => s.mainStep events outcome
  | .activated signal =>
      if s.place = .exec ∧ events.activates s.loop (s.unread signal) = true then
        some { s with place := .reading signal }
      else none
  | .client outcome =>
      if s.place.phase ≠ .gone then
        (OwnedThread.step ctrlDbusClient dbusServerDestructor s.client (.thread outcome)).map
          fun client => { s with client }
      else none

def boot (events : EventLoop Λ) : Helper Λ where
  place := .checkAndTryLock
  installed _ := false
  unread _ := 0
  loop := events.application
  isConnected := false
  lockHeld := false
  client := OwnedThread.boot
  caught := []

def machine (events : EventLoop Λ) (capacity : Nat) : StepMachine (Helper Λ) Action where
  init s := s = boot events
  step := step events capacity

/-! ## What is known at each place -/

/-- Before the loop a signal that has been caught is in a socket pair. -/
structure Starting (events : EventLoop Λ) (s : Helper Λ) : Prop where
  idle : events.running s.loop = false
  absent : s.client.thread = .absent
  whole : s.client.cleanup = none
  owed : s.caught ≠ [] → ∃ signal, 0 < s.unread signal

structure Looping (events : EventLoop Λ) (s : Helper Λ) : Prop where
  runs : events.running s.loop = true
  whole : s.client.cleanup = none
  told : ∀ rv, events.result s.loop = some rv → rv = 0 ∧ s.caught ≠ []

def Known (events : EventLoop Λ) (capacity : Nat) (s : Helper Λ) : Prop :=
  match s.place with
  | .checkAndTryLock | .signalHandler | .sigaction _ | .dbusServer => s.Starting events
  -- A signal that has been caught is still there, or the loop has been told to end.
  | .exec => s.Looping events ∧
      (s.caught ≠ [] → events.result s.loop = none → ∃ signal, 0 < s.unread signal)
  | .reading _ | .quitting _ => s.Looping events ∧ s.caught ≠ []
  | .destroying rv => rv = 0 ∧ s.caught ≠ [] ∧ s.client.cleanup ≠ none
  | .socketLocker rv => rv = 0 ∧ s.caught ≠ [] ∧ s.client.cleanup = some []
  | .writing signal => capacity ≤ s.unread signal
  | .returned status => status = 0 → s.caught ≠ [] ∧ s.client.cleanup = some []
  | .killed signal => s.installed signal = false
  | .aborted => True

structure Invariant (events : EventLoop Λ) (capacity : Nat) (s : Helper Λ) : Prop where
  known : s.Known events capacity
  bytes : ∀ signal, 0 < s.unread signal → s.caught ≠ []
  late : ∀ signal, s.installed signal = true → s.place ≠ .checkAndTryLock
  lock : s.lockHeld = s.place.locked
  thread : (OwnedThread.machine ctrlDbusClient dbusServerDestructor).Reachable s.client
  unreached : s.isConnected = false → s.client.thread = .absent

section Steps

variable {events : EventLoop Λ} {capacity : Nat} {s s' : Helper Λ} {place : MainPlace}

theorem invariant_boot (documented : events.Documented) :
    (boot events).Invariant events capacity where
  known := {
    idle := documented.application_idle
    absent := rfl
    whole := rfl
    owed := fun caught => absurd rfl caught }
  bytes := nofun
  late := nofun
  lock := rfl
  thread := .of_init rfl
  unreached _ := rfl

theorem Known.starting (known : s.Known events capacity) (starting : s.place.phase = .starting) :
    s.Starting events := by
  unfold Known at known
  cases here : s.place with
  | checkAndTryLock | signalHandler | sigaction signal | dbusServer =>
      rw [here] at known
      exact known
  | _ =>
      rw [here] at starting
      cases starting

theorem Known.looping (known : s.Known events capacity) (inside : s.place.phase = .inExec) :
    s.Looping events := by
  unfold Known at known
  cases here : s.place with
  | exec | reading signal | quitting signal =>
      rw [here] at known
      exact known.1
  | _ =>
      rw [here] at inside
      cases inside

theorem Known.whole (known : s.Known events capacity)
    (early : s.place.phase = .starting ∨ s.place.phase = .inExec) : s.client.cleanup = none := by
  rcases early with starting | inside
  · exact (known.starting starting).whole
  · exact (known.looping inside).whole

@[simp] theorem wrote_place (signal : Signal) : (s.wrote signal).place = s.place := rfl

theorem Known.wrote (known : s.Known events capacity) (signal : Signal) :
    (s.wrote signal).Known events capacity := by
  have caught : (s.wrote signal).caught ≠ [] := List.cons_ne_nil _ _
  have owed : ∃ unread, 0 < (s.wrote signal).unread unread := ⟨signal, by simp [Helper.wrote]⟩
  unfold Known at known ⊢
  cases here : s.place with
  | checkAndTryLock | signalHandler | sigaction other | dbusServer =>
      rw [here] at known
      rw [wrote_place, here]
      exact ⟨known.idle, known.absent, known.whole, fun _ => owed⟩
  | exec =>
      rw [here] at known
      rw [wrote_place, here]
      exact ⟨⟨known.1.runs, known.1.whole, fun rv told => ⟨(known.1.told rv told).1, caught⟩⟩,
        fun _ _ => owed⟩
  | reading other | quitting other =>
      rw [here] at known
      rw [wrote_place, here]
      exact ⟨⟨known.1.runs, known.1.whole, fun rv told => ⟨(known.1.told rv told).1, caught⟩⟩,
        caught⟩
  | destroying rv | socketLocker rv =>
      rw [here] at known
      rw [wrote_place, here]
      exact ⟨known.1, caught, known.2.2⟩
  | writing other =>
      rw [here] at known
      rw [wrote_place, here]
      by_cases same : other = signal
      · subst same
        simpa [Helper.wrote] using Nat.le_succ_of_le known
      · simpa [Helper.wrote, Function.update_of_ne same] using known
  | returned status =>
      rw [here] at known
      rw [wrote_place, here]
      exact fun success => ⟨caught, (known success).2⟩
  | killed other =>
      rw [here] at known
      rw [wrote_place, here]
      exact known
  | aborted =>
      rw [wrote_place, here]
      trivial

/-- Another place with the lock still held. -/
theorem Invariant.move (inv : s.Invariant events capacity) (known : s'.Known events capacity)
    (before : s.place.locked = true) (after : s'.place.locked = true)
    (held : s'.lockHeld = s.lockHeld) (bytes : ∀ signal, 0 < s'.unread signal → s'.caught ≠ [])
    (client : s'.client = s.client) (isConnected : s'.isConnected = s.isConnected) :
    s'.Invariant events capacity where
  known := known
  bytes := bytes
  late _ _ := (MainPlace.locked_iff.mp after).1
  lock := by rw [held, inv.lock, before, after]
  thread := client ▸ inv.thread
  unreached unreached := client ▸ inv.unreached (isConnected ▸ unreached)

theorem Invariant.die (inv : s.Invariant events capacity) (gone : place.phase = .gone)
    (known : (s.die place).Known events capacity) : (s.die place).Invariant events capacity where
  known := known
  bytes := inv.bytes
  late signal installed same := by
    have same : place = .checkAndTryLock := same
    subst same
    cases gone
  lock := by simp [Helper.die, MainPlace.locked, gone]
  thread := inv.thread
  unreached := inv.unreached

theorem invariant_deliver (inv : s.Invariant events capacity) (live : s.place.phase ≠ .gone)
    (signal : Signal) : (s.deliver capacity signal).Invariant events capacity := by
  unfold deliver
  cases installed : s.installed signal with
  | true =>
      rw [if_pos rfl]
      split
      · exact { inv with
          known := inv.known.wrote signal
          bytes := fun _ _ => List.cons_ne_nil _ _ }
      · rename_i full
        exact inv.move (Nat.le_of_not_lt full)
          (MainPlace.locked_iff.mpr ⟨inv.late signal installed, live⟩) rfl rfl inv.bytes rfl rfl
  | false =>
      rw [if_neg Bool.false_ne_true]
      exact inv.die rfl installed

theorem invariant_setup (inv : s.Invariant events capacity) {signal : Signal}
    (here : s.place = .sigaction signal) (success : Bool) :
    (s.setup signal success).Invariant events capacity := by
  have starting := inv.known.starting (by rw [here]; rfl)
  have locked : s.place.locked = true := by rw [here]; rfl
  unfold setup
  split
  · cases signal with
    | SIGINT => exact inv.move { starting with } locked rfl rfl inv.bytes rfl rfl
    | SIGTERM => exact inv.move { starting with } locked rfl rfl inv.bytes rfl rfl
  · exact inv.move { starting with } locked rfl rfl inv.bytes rfl rfl

theorem invariant_constructServer (documented : events.Documented)
    (inv : s.Invariant events capacity) (here : s.place = .dbusServer) (isConnected : Bool) :
    (s.constructServer events isConnected).Invariant events capacity := by
  have starting := inv.known.starting (by rw [here]; rfl)
  have held : s.lockHeld = true := by rw [inv.lock, here]; rfl
  have told : ∀ rv, events.result (events.exec s.loop) = some rv → rv = 0 ∧ s.caught ≠ [] := by
    intro rv told
    rw [documented.exec_waits s.loop starting.idle] at told
    cases told
  unfold constructServer
  cases isConnected with
  | true =>
      exact {
        known := ⟨⟨documented.exec_running s.loop starting.idle, starting.whole, told⟩,
          fun caught _ => starting.owed caught⟩
        bytes := inv.bytes
        late := by simp
        lock := held
        thread := inv.thread.step (a := .start) (by
          simp only [OwnedThread.machine, OwnedThread.step, starting.absent, starting.whole])
        unreached := by simp }
  | false =>
      rw [documented.quit_idle s.loop starting.idle]
      exact {
        known := ⟨⟨documented.exec_running s.loop starting.idle, starting.whole, told⟩,
          fun caught _ => starting.owed caught⟩
        bytes := inv.bytes
        late := by simp
        lock := held
        thread := inv.thread
        unreached := fun _ => starting.absent }

/-- The client thread, or the destructor, takes a step; an absent thread stays away. -/
theorem invariant_client (inv : s.Invariant events capacity)
    {action : OwnedThread.Action ClientOutcome} {client : OwnedThread.State ClientPlace}
    (stepped : OwnedThread.step ctrlDbusClient dbusServerDestructor s.client action = some client)
    (others : action ≠ .start ∧ action ≠ .destruct) :
    ({ s with client } : Helper Λ).Invariant events capacity := by
  have kept : (s.client.thread = .absent → client.thread = .absent) ∧
      (s.client.cleanup = none ↔ client.cleanup = none) ∧
      (s.client.cleanup = some [] → client.cleanup = some []) := by
    rcases OwnedThread.step_cases stepped with ⟨same, -⟩ | ⟨same, -⟩ |
      ⟨operation, rest, middle, -, left, performed, rfl⟩ | ⟨outcome, place, -, located, -, rfl⟩
    · exact absurd same others.1
    · exact absurd same others.2
    · refine ⟨fun away => ?_, by simp [left], by simp [left]⟩
      cases operation with
      | join =>
          simp only [OwnedThread.State.perform, Option.ite_none_right_eq_some] at performed
          cases performed.2
          rfl
      | _ =>
          cases performed
          exact away
    · refine ⟨fun away => ?_, .rfl, id⟩
      rw [located] at away
      cases away
  obtain ⟨absent, begun, finished⟩ := kept
  refine { inv with
    known := ?_
    thread := inv.thread.step stepped
    unreached := fun unreached => absent (inv.unreached unreached) }
  have known := inv.known
  unfold Known at known ⊢
  cases here : s.place with
  | checkAndTryLock | signalHandler | sigaction other | dbusServer =>
      rw [here] at known
      exact { known with absent := absent known.absent, whole := begun.mp known.whole }
  | exec | reading other | quitting other =>
      rw [here] at known
      exact ⟨{ known.1 with whole := begun.mp known.1.whole }, known.2⟩
  | destroying rv =>
      rw [here] at known
      exact ⟨known.1, known.2.1, fun none => known.2.2 (begun.mpr none)⟩
  | socketLocker rv =>
      rw [here] at known
      exact ⟨known.1, known.2.1, finished known.2.2⟩
  | returned status =>
      rw [here] at known
      exact fun success => ⟨(known success).1, finished (known success).2⟩
  | _ =>
      rw [here] at known
      exact known

theorem invariant_main (documented : events.Documented) (inv : s.Invariant events capacity)
    {outcome : Bool} (stepped : s.mainStep events outcome = some s') :
    s'.Invariant events capacity := by
  have known := inv.known
  unfold mainStep at stepped
  unfold Known at known
  cases here : s.place with
  | checkAndTryLock =>
      rw [here] at stepped known
      cases outcome with
      | true =>
          cases stepped
          exact {
            known := { known with }
            bytes := inv.bytes
            late := by simp
            lock := rfl
            thread := inv.thread
            unreached := inv.unreached }
      | false =>
          cases stepped
          exact inv.die rfl (by simp [Known, Helper.die])
  | signalHandler =>
      have locked : s.place.locked = true := by rw [here]; rfl
      rw [here] at stepped known
      cases outcome with
      | true =>
          cases stepped
          exact inv.move { known with } locked rfl rfl inv.bytes rfl rfl
      | false =>
          cases stepped
          exact inv.die rfl trivial
  | sigaction signal =>
      rw [here] at stepped
      cases stepped
      exact invariant_setup inv here outcome
  | dbusServer =>
      rw [here] at stepped
      cases stepped
      exact invariant_constructServer documented inv here outcome
  | exec =>
      have held : s.lockHeld = true := by rw [inv.lock, here]; rfl
      rw [here] at stepped known
      obtain ⟨rv, result, rfl⟩ := Option.map_eq_some_iff.mp stepped
      obtain ⟨success, caught⟩ := known.1.told rv result
      exact {
        known := ⟨success, caught, by simp⟩
        bytes := inv.bytes
        late := by simp
        lock := held
        thread := inv.thread.step (a := .destruct) (by
          simp only [OwnedThread.machine, OwnedThread.step, known.1.whole])
        unreached := inv.unreached }
  | reading signal =>
      have locked : s.place.locked = true := by rw [here]; rfl
      rw [here] at stepped known
      cases stepped
      exact inv.move ⟨{ known.1 with }, known.2⟩ locked rfl rfl (fun _ _ => known.2) rfl rfl
  | quitting signal =>
      have locked : s.place.locked = true := by rw [here]; rfl
      rw [here] at stepped known
      cases stepped
      have returns := documented.quit_returns s.loop known.1.runs
      refine inv.move ⟨⟨documented.quit_running s.loop known.1.runs, known.1.whole, ?_⟩, ?_⟩ locked
        rfl rfl inv.bytes rfl rfl
      · intro rv told
        rw [returns] at told
        cases told
        exact ⟨rfl, known.2⟩
      · intro _ waits
        rw [returns] at waits
        cases waits
  | destroying rv =>
      have locked : s.place.locked = true := by rw [here]; rfl
      rw [here] at stepped known
      simp only at stepped
      split at stepped
      · rename_i finished
        cases stepped
        exact inv.move ⟨known.1, known.2.1, finished⟩ locked rfl rfl inv.bytes rfl rfl
      · obtain ⟨client, cleaned, rfl⟩ := Option.map_eq_some_iff.mp stepped
        have kept := invariant_client inv cleaned (by simp)
        rwa [here] at kept
  | socketLocker rv =>
      rw [here] at stepped known
      cases stepped
      exact inv.die rfl fun _ => ⟨known.2.1, known.2.2⟩
  | _ =>
      rw [here] at stepped
      cases stepped

theorem invariant_step (documented : events.Documented) {action : Action}
    (inv : s.Invariant events capacity) (stepped : s.step events capacity action = some s') :
    s'.Invariant events capacity := by
  cases action with
  | signal signal =>
      simp only [step, Option.ite_none_right_eq_some] at stepped
      cases stepped.2
      exact invariant_deliver inv stepped.1 signal
  | main outcome => exact invariant_main documented inv stepped
  | activated signal =>
      simp only [step, Option.ite_none_right_eq_some] at stepped
      obtain ⟨⟨here, activates⟩, stepped⟩ := stepped
      have caught := inv.bytes signal (documented.unread_of_activates _ _ activates)
      have looping := inv.known.looping (by rw [here]; rfl)
      cases stepped
      exact inv.move ⟨{ looping with }, caught⟩ (by rw [here]; rfl) rfl rfl inv.bytes rfl rfl
  | client outcome =>
      simp only [step, Option.ite_none_right_eq_some] at stepped
      obtain ⟨client, moved, rfl⟩ := Option.map_eq_some_iff.mp stepped.2
      exact invariant_client inv moved (by simp)

theorem invariant (documented : events.Documented)
    (reachable : (machine events capacity).Reachable s) : s.Invariant events capacity := by
  refine reachable.invariant (Invariant events capacity) ?_ ?_
  · intro s first
    subst first
    exact invariant_boot documented
  · intro s action s' inv stepped
    exact invariant_step documented inv stepped

theorem invariant_run (documented : events.Documented) {actions : List Action}
    (inv : s.Invariant events capacity) (run : (machine events capacity).run s actions = some s') :
    s'.Invariant events capacity :=
  run_invariant (Invariant events capacity)
    (fun _ _ _ inv stepped => invariant_step documented inv stepped) inv run

/-! ## A signal ends the helper -/

/-- The steps before the destructors. -/
def rank (events : EventLoop Λ) (s : Helper Λ) : Nat :=
  match s.place with
  | .checkAndTryLock => 9
  | .signalHandler => 8
  | .sigaction .SIGINT => 7
  | .sigaction .SIGTERM => 6
  | .dbusServer => 5
  | .exec => if events.result s.loop = none then 4 else 1
  | .reading _ => 3
  | .quitting _ => 2
  | _ => 0

/-- Whoever has caught a signal is on the way to the destructors. -/
structure Bound (events : EventLoop Λ) (capacity : Nat) (s : Helper Λ) : Prop where
  inv : s.Invariant events capacity
  caught : s.caught ≠ []
  free : s.place.phase ≠ .stuck
  live : s.place.phase ≠ .gone
  unused : ¬ s.client.UsesDestroyed ctrlDbusClient

/-- An action that is no signal. -/
def Own (action : Action) : Prop := ∀ signal, action ≠ .signal signal

theorem Bound.advances (documented : events.Documented) {action : Action}
    (bound : s.Bound events capacity) (own : Own action)
    (early : s.place.phase = .starting ∨ s.place.phase = .inExec)
    (stepped : s.step events capacity action = some s') (caught : s'.caught = s.caught)
    (there : s'.client.destroyed = s.client.destroyed) (free : s'.place.phase ≠ .stuck)
    (live : s'.place.phase ≠ .gone) (nearer : s'.rank events < s.rank events) :
    ∃ action s', Own action ∧ (machine events capacity).step s action = some s' ∧
      s'.Bound events capacity ∧ s'.rank events < s.rank events := by
  refine ⟨action, s', own, stepped, ⟨invariant_step documented bound.inv stepped,
    caught ▸ bound.caught, free, live, ?_⟩, nearer⟩
  rintro ⟨gone, -⟩
  have kept := OwnedThread.not_destroyed bound.inv.thread (bound.inv.known.whole early)
  rw [there, kept] at gone
  cases gone

theorem Bound.progress (documented : events.Documented) (bound : s.Bound events capacity)
    (far : s.place.phase ≠ .leaving) :
    ∃ action s', Own action ∧ (machine events capacity).step s action = some s' ∧
      s'.Bound events capacity ∧ s'.rank events < s.rank events := by
  have own : Own (.main true) := nofun
  cases here : s.place with
  | checkAndTryLock =>
      have early : s.place.phase = .starting := by rw [here]; rfl
      have stepped : s.step events capacity (.main true) =
          some { s with place := .signalHandler, lockHeld := true } := by
        rw [step, mainStep, here]
        rfl
      exact bound.advances documented own (.inl early) stepped rfl rfl nofun nofun
        (by simp [rank, here])
  | signalHandler =>
      have early : s.place.phase = .starting := by rw [here]; rfl
      have stepped : s.step events capacity (.main true) =
          some { s with place := .sigaction .SIGINT } := by
        rw [step, mainStep, here]
        rfl
      exact bound.advances documented own (.inl early) stepped rfl rfl nofun nofun
        (by simp [rank, here])
  | sigaction signal =>
      have early : s.place.phase = .starting := by rw [here]; rfl
      have stepped : s.step events capacity (.main true) = some (s.setup signal true) := by
        rw [step, mainStep, here]
      cases signal with
      | SIGINT =>
          exact bound.advances documented own (.inl early) stepped rfl rfl nofun nofun
            (by simp [rank, here, setup])
      | SIGTERM =>
          exact bound.advances documented own (.inl early) stepped rfl rfl nofun nofun
            (by simp [rank, here, setup])
  | dbusServer =>
      have early : s.place.phase = .starting := by rw [here]; rfl
      have waits := documented.exec_waits s.loop (bound.inv.known.starting early).idle
      have stepped : s.step events capacity (.main true) = some (s.constructServer events true) := by
        rw [step, mainStep, here]
      exact bound.advances documented own (.inl early) stepped rfl rfl nofun nofun
        (by simp [rank, here, constructServer, waits])
  | exec =>
      have early : s.place.phase = .inExec := by rw [here]; rfl
      have known := bound.inv.known
      rw [Known, here] at known
      cases result : events.result s.loop with
      | some rv =>
          have stepped : s.step events capacity (.main true) = some { s with
              place := .destroying rv
              client := { s.client with cleanup := some dbusServerDestructor } } := by
            rw [step, mainStep, here]
            simp only [result, Option.map_some]
          exact bound.advances documented own (.inr early) stepped rfl rfl nofun nofun
            (by simp [rank, here, result])
      | none =>
          -- The loop waits, so what has been caught is still to be read.
          obtain ⟨signal, unread⟩ := known.2 bound.caught result
          have activates := documented.activates_unread _ _ known.1.runs result unread
          have stepped : s.step events capacity (.activated signal) =
              some { s with place := .reading signal } := if_pos ⟨here, activates⟩
          have own : Own (.activated signal) := nofun
          exact bound.advances documented own (.inr early) stepped rfl rfl nofun nofun
            (by simp [rank, here, result])
  | reading signal =>
      have early : s.place.phase = .inExec := by rw [here]; rfl
      have stepped : s.step events capacity (.main true) = some { s with
          place := .quitting signal
          unread := Function.update s.unread signal (s.unread signal - 1) } := by
        rw [step, mainStep, here]
        rfl
      exact bound.advances documented own (.inr early) stepped rfl rfl nofun nofun
        (by simp [rank, here])
  | quitting signal =>
      have early : s.place.phase = .inExec := by rw [here]; rfl
      have returns := documented.quit_returns s.loop (bound.inv.known.looping early).runs
      have stepped : s.step events capacity (.main true) =
          some { s with place := .exec, loop := events.quit s.loop } := by
        rw [step, mainStep, here]
      exact bound.advances documented own (.inr early) stepped rfl rfl nofun nofun
        (by simp [rank, here, returns])
  | destroying rv | socketLocker rv => exact absurd (by rw [here]; rfl) far
  | writing signal => exact absurd (by rw [here]; rfl) bound.free
  | _ => exact absurd (by rw [here]; rfl) bound.live

/-- Once the destructor has begun, the helper takes its steps and those of the thread. -/
theorem run_destroying {rv : Int} {actions : List (OwnedThread.Action ClientOutcome)}
    {client : OwnedThread.State ClientPlace} (here : s.place = .destroying rv)
    (begun : s.client.cleanup ≠ none)
    (run : (OwnedThread.machine ctrlDbusClient dbusServerDestructor).run s.client actions =
      some client) :
    ∃ actions, (machine events capacity).run s actions = some { s with client } ∧
      ∀ action ∈ actions, Own action := by
  induction actions generalizing s with
  | nil =>
      cases run
      exact ⟨[], rfl, nofun⟩
  | cons a actions ih =>
      obtain ⟨middle, stepped, rest⟩ := run_cons_eq_some run
      have taken : ∃ action, Own action ∧
          (machine events capacity).step s action = some { s with client := middle } ∧
          middle.cleanup ≠ none := by
        have stepped' : OwnedThread.step ctrlDbusClient dbusServerDestructor s.client a =
          some middle := stepped
        rcases OwnedThread.step_cases stepped with ⟨-, -, before, -⟩ | ⟨-, before, -⟩ |
          ⟨operation, left, after, rfl, remaining, -, same⟩ | ⟨outcome, place, rfl, -, -, same⟩
        · exact absurd before begun
        · exact absurd before begun
        · refine ⟨.main true, nofun, ?_, by simp [same]⟩
          show s.mainStep events true = _
          rw [mainStep, here]
          simp only
          rw [if_neg (by simp [remaining]), stepped']
          simp
        · refine ⟨.client outcome, nofun, ?_, by simpa [same] using begun⟩
          show (if _ then _ else _) = _
          rw [if_pos (by simp [here, MainPlace.phase]), stepped']
          rfl
      obtain ⟨action, own, moved, begun'⟩ := taken
      obtain ⟨actions, run, all⟩ := ih (s := { s with client := middle }) here begun' rest
      exact ⟨action :: actions, (run_cons (machine events capacity) moved actions).trans run,
        List.forall_mem_cons.mpr ⟨own, all⟩⟩

theorem Bound.destroys {rv : Int} (bound : s.Bound events capacity)
    (here : s.place = .destroying rv) :
    ∃ actions t, (machine events capacity).run s actions = some t ∧
      (∀ action ∈ actions, Own action) ∧ t.place = .socketLocker rv := by
  have known := bound.inv.known
  rw [Known, here] at known
  obtain ⟨cleaning, client, run, cleaned⟩ := OwnedThread.finishes ctrlDbusClient_leaves rfl
    bound.inv.thread known.2.2 bound.unused
  obtain ⟨actions, run, own⟩ : ∃ actions,
      (machine events capacity).run s actions = some { s with client } ∧
        ∀ action ∈ actions, Own action := run_destroying here known.2.2 run
  have last : (machine events capacity).step { s with client } (.main true) =
      some { s with client, place := .socketLocker rv } := by
    show mainStep events _ true = _
    rw [mainStep]
    simp only [here, cleaned, if_true]
  refine ⟨actions ++ [.main true], { s with client, place := .socketLocker rv }, ?_, ?_, rfl⟩
  · rw [run_append run, run_cons _ last, run_nil]
  · intro action member
    rcases List.mem_append.mp member with inside | final
    · exact own action inside
    · cases List.mem_singleton.mp final
      exact nofun

theorem Bound.returns (documented : events.Documented) (bound : s.Bound events capacity) :
    ∃ actions t, (machine events capacity).run s actions = some t ∧
      (∀ action ∈ actions, Own action) ∧ t.place = .returned 0 ∧ t.lockHeld = false := by
  obtain ⟨toEnd, t, run, own, arrived, leaving⟩ := reaches (rank events)
    (fun s bound far => Bound.progress documented bound far) s bound
  obtain ⟨cleaning, u, rv, cleaned, own', here⟩ : ∃ actions u rv,
      (machine events capacity).run t actions = some u ∧ (∀ action ∈ actions, Own action) ∧
        u.place = .socketLocker rv := by
    cases place : t.place with
    | destroying rv =>
        obtain ⟨actions, u, run, own, here⟩ := arrived.destroys place
        exact ⟨actions, u, rv, run, own, here⟩
    | socketLocker rv => exact ⟨[], t, rv, rfl, nofun, place⟩
    | _ =>
        rw [place] at leaving
        cases leaving
  have known := (invariant_run documented arrived.inv cleaned).known
  rw [Known, here] at known
  have last : (machine events capacity).step u (.main true) = some (u.die (.returned 0)) := by
    show mainStep events u true = _
    rw [mainStep, here, known.1]
  refine ⟨toEnd ++ cleaning ++ [.main true], u.die (.returned 0), ?_, ?_, rfl, rfl⟩
  · rw [run_append (run_append run cleaning |>.trans cleaned), run_cons _ last, run_nil]
  · intro action member
    simp only [List.mem_append, List.mem_singleton] at member
    rcases member with (inside | inside) | rfl
    · exact own action inside
    · exact own' action inside
    · exact nofun

/-- A client that uses what is destroyed keeps doing so, and the destructor waits for it. -/
theorem usesDestroyed_step {action : Action} (inv : s.Invariant events capacity)
    (used : s.client.UsesDestroyed ctrlDbusClient)
    (stepped : s.step events capacity action = some s') :
    s'.client.UsesDestroyed ctrlDbusClient := by
  have late (early : s.place.phase = .starting ∨ s.place.phase = .inExec) : False := by
    have there := OwnedThread.not_destroyed inv.thread (inv.known.whole early)
    rw [used.1] at there
    cases there
  cases action with
  | signal signal =>
      simp only [step, Option.ite_none_right_eq_some] at stepped
      cases stepped.2
      unfold deliver
      split
      · split
        · exact used
        · exact used
      · exact used
  | activated signal =>
      simp only [step, Option.ite_none_right_eq_some] at stepped
      cases stepped.2
      exact used
  | client outcome =>
      simp only [step, Option.ite_none_right_eq_some] at stepped
      obtain ⟨client, moved, rfl⟩ := Option.map_eq_some_iff.mp stepped.2
      exact OwnedThread.usesDestroyed_step used moved
  | main outcome =>
      simp only [step, mainStep] at stepped
      cases here : s.place with
      | checkAndTryLock | signalHandler | sigaction signal | dbusServer =>
          exact (late (.inl (by rw [here]; rfl))).elim
      | exec | reading signal | quitting signal => exact (late (.inr (by rw [here]; rfl))).elim
      | destroying rv =>
          rw [here] at stepped
          simp only at stepped
          split at stepped
          · cases stepped
            exact used
          · obtain ⟨client, cleaned, rfl⟩ := Option.map_eq_some_iff.mp stepped
            exact OwnedThread.usesDestroyed_step used cleaned
      | socketLocker rv =>
          rw [here] at stepped
          cases stepped
          exact used
      | _ =>
          rw [here] at stepped
          cases stepped

/-- The helper comes to its end exactly when the client does not use what is destroyed. -/
theorem returns_iff (documented : events.Documented) (inv : s.Invariant events capacity)
    (caught : s.caught ≠ []) (free : s.place.phase ≠ .stuck) (live : s.place.phase ≠ .gone) :
    (∃ actions t, (machine events capacity).run s actions = some t ∧
      (∀ action ∈ actions, Own action) ∧ t.place = .returned 0 ∧ t.lockHeld = false) ↔
      ¬ s.client.UsesDestroyed ctrlDbusClient := by
  constructor
  · rintro ⟨actions, t, run, -, returned, -⟩ used
    obtain ⟨inv, -, place, located, -⟩ : t.Invariant events capacity ∧
        t.client.UsesDestroyed ctrlDbusClient :=
      run_invariant (fun s => s.Invariant events capacity ∧ s.client.UsesDestroyed ctrlDbusClient)
        (fun s action s' kept stepped => ⟨invariant_step documented kept.1 stepped,
          usesDestroyed_step kept.1 kept.2 stepped⟩) ⟨inv, used⟩ run
    have known := inv.known
    rw [Known, returned] at known
    have absent := OwnedThread.absent_of_finished (by decide) inv.thread (known rfl).2
    rw [absent] at located
    cases located
  · exact fun unused => Bound.returns documented ⟨inv, caught, free, live, unused⟩

/-- Without a signal the loop is not told to end, and nothing behind it is reached. -/
theorem Known.uncaught (known : s.Known events capacity) (quiet : s.caught = []) :
    (s.place = .exec → events.result s.loop = none) ∧ s.place.phase ≠ .leaving ∧
      s.place ≠ .returned 0 := by
  unfold Known at known
  refine ⟨?_, ?_, ?_⟩
  · intro here
    rw [here] at known
    cases result : events.result s.loop with
    | none => rfl
    | some rv => exact absurd quiet (known.1.told rv result).2
  · intro leaving
    cases here : s.place with
    | destroying rv | socketLocker rv =>
        rw [here] at known
        exact known.2.1 quiet
    | _ =>
        rw [here] at leaving
        cases leaving
  · intro returned
    rw [returned] at known
    exact (known rfl).1 quiet

theorem Known.owed (known : s.Known events capacity) (caught : s.caught ≠ [])
    (here : s.place = .exec) : events.result s.loop = some 0 ∨ ∃ signal, 0 < s.unread signal := by
  rw [Known, here] at known
  cases result : events.result s.loop with
  | none => exact .inr (known.2 caught result)
  | some rv => exact .inl (congrArg some (known.1.told rv result).1)

/-- Nothing but a signal makes the loop end, the call of `quit` in the constructor of
    `DbusServer` does not.  A signal that finds its handler in place is not lost: the loop has
    something to read, or has been told to end.  From there the steps of the helper alone lead
    to its return, exactly when its client is not caught in the use of what the destructor has
    destroyed; a handler that finds its socket pair full keeps the helper where it is.  The
    lock is held from `checkAndTryLock` to the end, whatever ends it, and the client runs only
    if the bus was there. -/
theorem signals_end_helper (documented : events.Documented)
    (reachable : (machine events capacity).Reachable s) :
    (s.caught = [] → (s.place = .exec → events.result s.loop = none) ∧
      s.place.phase ≠ .leaving ∧ s.place ≠ .returned 0) ∧
    (∀ signal, s.place = .killed signal → s.installed signal = false) ∧
    (s.caught ≠ [] → s.place = .exec →
      events.result s.loop = some 0 ∨ ∃ signal, 0 < s.unread signal) ∧
    (∀ signal, s.place = .writing signal → capacity ≤ s.unread signal) ∧
    (s.caught ≠ [] → s.place.phase ≠ .stuck → s.place.phase ≠ .gone →
      ((∃ actions t, (machine events capacity).run s actions = some t ∧
        (∀ action ∈ actions, Own action) ∧ t.place = .returned 0 ∧ t.lockHeld = false) ↔
        ¬ s.client.UsesDestroyed ctrlDbusClient)) ∧
    (s.lockHeld = true ↔ s.place ≠ .checkAndTryLock ∧ s.place.phase ≠ .gone) ∧
    (s.isConnected = false → s.client.thread = .absent) := by
  have inv := invariant documented reachable
  have known := inv.known
  refine ⟨known.uncaught, ?_, known.owed, ?_, returns_iff documented inv,
    inv.lock ▸ MainPlace.locked_iff, inv.unreached⟩
  · intro signal here
    rw [Known, here] at known
    exact known
  · intro signal here
    rw [Known, here] at known
    exact known

end Steps

/-- An application object before `exec`, in the loop, and told to leave it. -/
inductive AppState where
  | constructed
  | waiting
  | told

def coreApplication : EventLoop AppState where
  application := .constructed
  exec _ := .waiting
  quit
    | .constructed => .constructed
    | .waiting | .told => .told
  running
    | .constructed => false
    | .waiting | .told => true
  result
    | .constructed | .waiting => none
    | .told => some 0
  activates loop bytes :=
    match loop with
    | .waiting => decide (0 < bytes)
    | .constructed | .told => false

theorem coreApplication_documented : coreApplication.Documented where
  application_idle := rfl
  exec_running _ _ := rfl
  exec_waits _ _ := rfl
  quit_idle := by
    rintro (_ | _ | _) idle
    · rfl
    · cases idle
    · cases idle
  quit_running := by
    rintro (_ | _ | _) running
    · cases running
    · rfl
    · rfl
  quit_returns := by
    rintro (_ | _ | _) running
    · cases running
    · rfl
    · rfl
  activates_unread := by
    rintro (_ | _ | _) bytes running waits unread
    · cases running
    · exact decide_eq_true unread
    · cases waits
  unread_of_activates := by
    rintro (_ | _ | _) bytes activates
    · cases activates
    · exact of_decide_eq_true activates
    · cases activates

/-- A signal comes before the loop, and the bus is not there. -/
def signalledEarly : List Action :=
  [.main true, .main true, .main true, .main true, .signal .SIGTERM, .main false]

theorem signalledEarly_enabled :
    ((machine coreApplication 256).run (boot coreApplication) signalledEarly).isSome := by
  decide

theorem signals_end_helper_signalled_early :
    (∃ actions t, (machine coreApplication 256).run
        (((machine coreApplication 256).run (boot coreApplication) signalledEarly).get
          signalledEarly_enabled) actions = some t ∧
      (∀ action ∈ actions, Own action) ∧ t.place = .returned 0 ∧ t.lockHeld = false) := by
  refine ((signals_end_helper coreApplication_documented
    (.get rfl signalledEarly_enabled)).2.2.2.2.1 (by decide) (by decide) (by decide)).mpr ?_
  rintro ⟨gone, -⟩
  revert gone
  decide

end Helper

end RpiFanServe.Dbus
