import RpiFanServe.Foundation.OwnedThread

/-! # The end of the message threads

`ZmqPairThread` and `ZmqPairQThread` with the loops that run on them and the objects that
own them.  `TempsCtrl` stops its thread in the body of its destructor, before any of its
members goes.  `DbusServer` leaves that to the base class of its client, and the queue of
the client is a member of the derived class: it goes while the thread still runs.
-/

namespace RpiFanServe.Dbus

open OwnedThread

/-- The places of `ZmqDbusServer::run`: before the virtual call of it, before its loops, at the
    conditions of the two, in the virtual call of `receiveCallback` and in `sleep_seconds`. -/
inductive ServerPlace where
  | run
  | opening
  | outer
  | inner
  | receiveCallback
  | asleep
  deriving DecidableEq

/-- `ZmqDbusServer::run`; the outcome of `recv_multipart` is whether it got a message. -/
def ZmqDbusServer.run (mRunning : Bool) (r : Bool) : ServerPlace → Option ServerPlace
  | .run => some .opening
  | .opening => some .outer
  | .outer => if mRunning then some .inner else none
  -- The `break` of the inner loop leads to the condition of the outer one.
  | .inner => if !mRunning then some .outer else if r then some .receiveCallback else some .asleep
  | .receiveCallback => some .inner
  | .asleep => some .outer

def ctrlDbusServer : ThreadLoop ServerPlace Bool where
  first := .run
  next := ZmqDbusServer.run
  uses
    | .run | .receiveCallback => true
    | _ => false

/-- The places of `ZmqDbusClient::run`; `calling` is behind the condition of its loop and before
    the virtual call.  In `trySendCallback` so many messages are still to be found in the
    queue, and one has been popped and is being sent (`sending`). -/
inductive ClientPlace where
  | run
  | opening
  | outer
  | calling
  | trySendCallback (messages : Nat)
  | sending (messages : Nat)
  | asleep
  deriving DecidableEq

/-- How many messages a call of `trySendCallback` finds, and whether a `send` raises
    `zmq::error_t`. -/
structure ClientOutcome where
  found : Nat
  raises : Bool
  deriving Inhabited

/-- `ZmqDbusClient::run`; what is raised is caught inside the loop. -/
def ZmqDbusClient.run (mRunning : Bool) (outcome : ClientOutcome) :
    ClientPlace → Option ClientPlace
  | .run => some .opening
  | .opening => some .outer
  | .outer => if mRunning then some .calling else none
  | .calling => some (.trySendCallback outcome.found)
  | .trySendCallback 0 => some .asleep
  | .trySendCallback (messages + 1) => some (.sending messages)
  | .sending messages => if outcome.raises then some .outer else some (.trySendCallback messages)
  | .asleep => some .outer

/-- The virtual calls, and all of the callback, need the derived object. -/
def ctrlDbusClient : ThreadLoop ClientPlace ClientOutcome where
  first := .run
  next := ZmqDbusClient.run
  uses
    | .run | .calling | .trySendCallback _ | .sending _ => true
    | .opening | .outer | .asleep => false

/-- `stop`, in the body of the destructor and again in that of `ZmqPairThread`, with the
    members in between. -/
def tempsCtrlDestructor : List Cleanup := [.clear, .join, .destroy, .clear, .join]

/-- The destructor of `DbusServer` has an empty body; behind the members of `CtrlDbusClient`
    comes the destructor of `ZmqPairQThread`. -/
def dbusServerDestructor : List Cleanup := [.destroy, .clear, .join]

theorem ctrlDbusClient_persists : Persists ctrlDbusClient := by
  intro outcome place
  cases place with
  | trySendCallback messages => cases messages <;> rfl
  | sending messages =>
      show (if outcome.raises then some ClientPlace.outer
        else some (.trySendCallback messages)).isSome
      split <;> rfl
  | _ => rfl

def ServerPlace.rank : ServerPlace → Nat
  | .outer => 0
  | .opening | .inner | .asleep => 1
  | .run | .receiveCallback => 2

theorem ctrlDbusServer_leaves : Leaves ctrlDbusServer ServerPlace.rank where
  leaves := by
    intro running place uses
    cases place with
    | run => exact ⟨false, .opening, rfl, by decide⟩
    | receiveCallback => exact ⟨false, .inner, rfl, by decide⟩
    | _ => cases uses
  ends := by
    intro r place place' unused next
    cases place with
    | run | receiveCallback => cases unused
    | outer => cases next
    | opening | inner | asleep =>
        cases next
        decide

def ClientPlace.rank : ClientPlace → Nat
  | .outer => 0
  | .opening | .asleep => 1
  | .run => 2
  | .calling => 3
  | .trySendCallback messages => 2 * messages + 2
  | .sending messages => 2 * messages + 3

theorem ctrlDbusClient_leaves : Leaves ctrlDbusClient ClientPlace.rank where
  leaves := by
    intro running place uses
    cases place with
    | run => exact ⟨default, .opening, rfl, by decide⟩
    | calling => exact ⟨default, .trySendCallback 0, rfl, by decide⟩
    | trySendCallback messages =>
        cases messages with
        | zero => exact ⟨default, .asleep, rfl, by decide⟩
        | succ messages =>
            refine ⟨default, .sending messages, rfl, ?_⟩
            simp only [ClientPlace.rank]
            omega
    | sending messages =>
        refine ⟨default, .trySendCallback messages, rfl, ?_⟩
        simp only [ClientPlace.rank]
        omega
    | _ => cases uses
  ends := by
    intro outcome place place' unused next
    cases place with
    | opening | asleep =>
        cases next
        decide
    | outer => cases next
    | _ => cases unused

theorem queue_destroyed {s : State ClientPlace}
    (reachable : (machine ctrlDbusClient dbusServerDestructor).Reachable s)
    (left : s.cleanup = some [.clear, .join]) : s.destroyed = true ∧ s.running = true := by
  have done := done_of_reachable reachable
  unfold Done at done
  rw [left] at done
  obtain ⟨done, whole, running, destroyed, -⟩ := done
  have first : [Cleanup.destroy] = done :=
    List.append_cancel_right (show [Cleanup.destroy] ++ [.clear, .join] = _ from whole)
  subst first
  exact ⟨destroyed (by simp), running (by simp)⟩

/-- `TempsCtrl` never has a message handled when its members are gone, and its destructor can
    always come to its end.  `DbusServer` does otherwise: the thread of its client has not
    ended when the queue is destroyed, whenever it was started, and it may be about to call
    `trySendCallback` or inside it.  Its destructor can come to its end exactly when it is not. -/
theorem message_threads_lifetime :
    (∀ s, (machine ctrlDbusServer tempsCtrlDestructor).Reachable s →
      ¬ s.UsesDestroyed ctrlDbusServer) ∧
    (∀ s, (machine ctrlDbusServer tempsCtrlDestructor).Reachable s → s.cleanup ≠ none →
      ∃ actions t, (machine ctrlDbusServer tempsCtrlDestructor).run s actions = some t ∧
        t.cleanup = some []) ∧
    (∀ s, (machine ctrlDbusClient dbusServerDestructor).Reachable s →
      s.cleanup = some [.clear, .join] → s.destroyed = true ∧ s.thread ≠ .ended) ∧
    (∃ s, (machine ctrlDbusClient dbusServerDestructor).Reachable s ∧
      s.UsesDestroyed ctrlDbusClient) ∧
    ∀ s, (machine ctrlDbusClient dbusServerDestructor).Reachable s → s.cleanup ≠ none →
      ((∃ actions t, (machine ctrlDbusClient dbusServerDestructor).run s actions = some t ∧
        t.cleanup = some []) ↔ ¬ s.UsesDestroyed ctrlDbusClient) := by
  have handles : follow ctrlDbusServer [true, true, true, true] ctrlDbusServer.first =
      some .receiveCallback := rfl
  have calls : follow ctrlDbusClient [default, default, default] ctrlDbusClient.first =
      some .calling := rfl
  have safe : ∀ s, (machine ctrlDbusServer tempsCtrlDestructor).Reachable s →
      ¬ s.UsesDestroyed ctrlDbusServer := (safe_iff handles rfl).mpr rfl
  refine ⟨safe, ?_, ?_, ?_, ?_⟩
  · intro s reachable begun
    exact finishes ctrlDbusServer_leaves rfl reachable begun (safe s reachable)
  · intro s reachable left
    obtain ⟨destroyed, running⟩ := queue_destroyed reachable left
    exact ⟨destroyed, not_ended ctrlDbusClient_persists reachable running⟩
  · by_contra safe
    push Not at safe
    have joins : joinsFirst dbusServerDestructor = true := (safe_iff calls rfl).mp safe
    cases joins
  · intro s reachable begun
    exact finishes_iff ctrlDbusClient_leaves rfl (by decide) reachable begun

end RpiFanServe.Dbus
