import Mathlib.Data.List.Perm.Subperm
import RpiFanServe.Dbus.Delivery

/-! # Sends that fail

`trySendCallback` pops a payload and sends the topic and the payload without looking
at the results, and an exception of the second send leaves the topic in the socket.
A payload is out of the queue before anything is sent, so the first send that fails
loses one, and nothing brings it back.
-/

namespace RpiFanServe.Dbus

open StepMachine

/-- What `socket.send` does with a frame. -/
inductive Outcome where
  | sent
  /-- An empty result. -/
  | notSent
  /-- A `zmq::error_t`, which `run` catches before it calls again. -/
  | raises
  deriving DecidableEq

/-- The client after its greeting.  `wire` holds all complete messages and `queued`
    all payloads that were ever queued. -/
structure Sender where
  mMessages : List Bytes
  client : ClientPc
  frames : List Bytes
  wire : List (List Bytes)
  queued : List Bytes

namespace Sender

inductive Action where
  | queueSend (msg : Bytes)
  /-- `try_pop` -/
  | pop
  /-- The next send. -/
  | send (outcome : Outcome)

/-- `socket.send` of the topic, with `sndmore`. -/
def sendTopic (s : Sender) (msg : Bytes) : Outcome → Sender
  | .sent => { s with frames := s.frames ++ [Link.topic], client := .tagged msg }
  | .notSent => { s with client := .tagged msg }
  | .raises => { s with client := .idle }

/-- `socket.send` of the payload, which completes the message. -/
def sendPayload (s : Sender) (msg : Bytes) : Outcome → Sender
  | .sent => { s with frames := [], wire := s.wire ++ [s.frames ++ [msg]], client := .idle }
  | .notSent => { s with client := .idle }
  | .raises => { s with client := .idle }

def step (s : Sender) : Action → Option Sender
  | .queueSend msg => some { s with mMessages := s.mMessages ++ [msg], queued := s.queued ++ [msg] }
  | .pop =>
      match s.client, s.mMessages with
      | .idle, msg :: mMessages => some { s with mMessages, client := .popped msg }
      | _, _ => none
  | .send outcome =>
      match s.client with
      | .popped msg => some (s.sendTopic msg outcome)
      | .tagged msg => some (s.sendPayload msg outcome)
      | _ => none

def start : Sender := ⟨[], .idle, [], [], []⟩

def machine : StepMachine Sender Action where
  init s := s = start
  step := step

/-- The payload of a message of two frames behind the topic. -/
def payload : List Bytes → Option Bytes
  | [first, second] => if first = Link.topic then some second else none
  | _ => none

/-- The payloads that were sent completely. -/
def sentPayloads (s : Sender) : List Bytes := s.wire.filterMap payload

/-- Nothing is lost, and what the server receives is the topic and a payload. -/
structure Keeps (s : Sender) : Prop where
  /-- Every payload is sent completely or still queued, as often as it was queued. -/
  kept : s.queued.Subperm (s.sentPayloads ++ s.mMessages)
  framed : ∀ message ∈ s.wire, Link.subscribed message = true →
    ∃ msg ∈ s.queued, message = [Link.topic, msg] ∧ message[1]? = some msg

/-- The action is a send that fails. -/
def fails : Action → Bool
  | .send outcome => outcome ≠ .sent
  | _ => false

/-! ## Without a failure -/

/-- Every queued payload is on the wire, on its way or in the queue, in order. -/
structure Whole (s : Sender) : Prop where
  order : ∃ sent : List Bytes, s.wire = sent.map (fun msg => [Link.topic, msg]) ∧
    s.queued = sent ++ (Link.unsent s.client).toList ++ s.mMessages
  frames : s.frames =
    match s.client with
    | .tagged _ => [Link.topic]
    | _ => []

theorem filterMap_payload (sent : List Bytes) :
    (sent.map fun msg => [Link.topic, msg]).filterMap payload = sent := by
  rw [List.filterMap_map]
  exact List.filterMap_some

/-- Between two messages nothing is missing. -/
theorem Whole.keeps {s : Sender} (whole : s.Whole) (returned : s.client = .idle) : s.Keeps := by
  obtain ⟨sent, wire, queued⟩ := whole.order
  rw [returned] at queued
  have all : s.queued = s.sentPayloads ++ s.mMessages := by
    unfold sentPayloads
    rw [wire, filterMap_payload, queued]
    simp [Link.unsent]
  constructor
  · rw [← all]
  · intro message member _
    rw [wire] at member
    obtain ⟨msg, inside, rfl⟩ := List.mem_map.mp member
    refine ⟨msg, ?_, rfl, rfl⟩
    rw [queued]
    simp [inside]

/-- What is not lost: the payloads sent completely, on their way or in the queue. -/
def present (s : Sender) : Nat :=
  s.sentPayloads.length + (Link.unsent s.client).toList.length + s.mMessages.length

theorem Whole.present_eq {s : Sender} (whole : s.Whole) : s.present = s.queued.length := by
  obtain ⟨sent, wire, queued⟩ := whole.order
  unfold present sentPayloads
  rw [wire, filterMap_payload, queued]
  simp only [List.length_append]

theorem Whole.step {s s' : Sender} {action : Action} (whole : s.Whole)
    (stepped : s.step action = some s') (sent : fails action = false) : s'.Whole := by
  obtain ⟨earlier, wire, queued⟩ := whole.order
  have frames := whole.frames
  cases action with
  | queueSend msg =>
      cases stepped
      refine ⟨⟨earlier, wire, ?_⟩, frames⟩
      simp [queued]
  | pop =>
      simp only [Sender.step] at stepped
      split at stepped
      · rename_i msg mMessages idle queue
        cases stepped
        rw [idle] at frames queued
        refine ⟨⟨earlier, wire, ?_⟩, frames⟩
        simp [queued, queue, Link.unsent]
      · cases stepped
  | send outcome =>
      obtain rfl : outcome = .sent := by simpa [fails] using sent
      simp only [Sender.step] at stepped
      split at stepped
      · rename_i msg popped
        cases stepped
        rw [popped] at frames queued
        refine ⟨⟨earlier, wire, queued⟩, ?_⟩
        simp [sendTopic, frames]
      · rename_i msg tagged
        cases stepped
        rw [tagged] at frames queued
        refine ⟨⟨earlier ++ [msg], ?_, ?_⟩, rfl⟩
        · simp [sendPayload, wire, frames]
        · simp [sendPayload, queued, Link.unsent]
      · cases stepped

/-! ## After a failure -/

/-- A payload is lost, or will be: the payload that is sent next has no topic. -/
def Losing (s : Sender) : Prop :=
  s.present < s.queued.length ∨
    (s.present ≤ s.queued.length ∧ (∃ msg, s.client = .tagged msg) ∧ s.frames = [])

theorem Losing.not_keeps {s : Sender} (losing : s.Losing) (returned : s.client = .idle) :
    ¬ s.Keeps := by
  intro keeps
  have enough := keeps.kept.length_le
  rcases losing with lost | ⟨-, ⟨msg, tagged⟩, -⟩
  · unfold present at lost
    rw [returned] at lost
    simp only [Link.unsent, Option.toList_none, List.length_nil, List.length_append] at lost enough
    omega
  · rw [returned] at tagged
    cases tagged

section Present

variable {s : Sender} {msg : Bytes}

theorem present_queueSend (s : Sender) (msg : Bytes) :
    ({ s with mMessages := s.mMessages ++ [msg], queued := s.queued ++ [msg] } : Sender).present =
      s.present + 1 := by
  simp only [present, sentPayloads, List.length_append, List.length_singleton]
  omega

theorem present_pop {mMessages : List Bytes} (idle : s.client = .idle)
    (queue : s.mMessages = msg :: mMessages) :
    ({ s with mMessages, client := .popped msg } : Sender).present = s.present := by
  simp only [present, sentPayloads, idle, queue, Link.unsent, Option.toList_some, Option.toList_none,
    List.length_nil, List.length_cons]
  omega

theorem present_sendTopic (popped : s.client = .popped msg) (outcome : Outcome) :
    (s.sendTopic msg outcome).present + (if outcome = .raises then 1 else 0) = s.present := by
  cases outcome <;> simp [sendTopic, present, sentPayloads, popped, Link.unsent]
  omega

theorem present_sendPayload (tagged : s.client = .tagged msg) (outcome : Outcome) :
    (s.sendPayload msg outcome).present ≤ s.present ∧
      (s.frames = [] ∨ outcome ≠ .sent → (s.sendPayload msg outcome).present < s.present) := by
  have one : (payload (s.frames ++ [msg])).toList.length ≤ 1 := by
    cases payload (s.frames ++ [msg]) <;> simp
  have none_alone : s.frames = [] → payload (s.frames ++ [msg]) = none := by
    intro empty
    rw [empty]
    rfl
  cases outcome with
  | sent =>
      simp only [sendPayload, present, sentPayloads, tagged, Link.unsent, List.filterMap_append,
        List.length_append, Option.toList_some, Option.toList_none, List.length_singleton,
        List.length_nil]
      cases reads : payload (s.frames ++ [msg]) with
      | none =>
          simp [reads]
      | some read =>
          simp [reads]
          grind
  | notSent => simp [sendPayload, present, sentPayloads, tagged, Link.unsent]
  | raises => simp [sendPayload, present, sentPayloads, tagged, Link.unsent]

end Present

theorem Whole.losing {s s' : Sender} {action : Action} (whole : s.Whole)
    (stepped : s.step action = some s') (failed : fails action = true) : s'.Losing := by
  have all := whole.present_eq
  have frames := whole.frames
  cases action with
  | queueSend msg => cases failed
  | pop => cases failed
  | send outcome =>
      simp only [Sender.step] at stepped
      split at stepped
      · rename_i msg popped
        cases stepped
        rw [popped] at frames
        have topic := present_sendTopic popped outcome
        cases outcome with
        | sent => cases failed
        | notSent => exact .inr ⟨by simp at topic; rw [topic, all]; rfl, ⟨msg, rfl⟩, frames⟩
        | raises =>
            left
            simp only [if_true] at topic
            show _ < s.queued.length
            omega
      · rename_i msg tagged
        cases stepped
        have lost := (present_sendPayload tagged outcome).2 (.inr (by simpa [fails] using failed))
        left
        have same : (s.sendPayload msg outcome).queued = s.queued := by cases outcome <;> rfl
        rw [same]
        omega
      · cases stepped

theorem Losing.step {s s' : Sender} {action : Action} (losing : s.Losing)
    (stepped : s.step action = some s') : s'.Losing := by
  cases action with
  | queueSend msg =>
      cases stepped
      have more := present_queueSend s msg
      rcases losing with lost | ⟨le, tagged, empty⟩
      · left
        simp only [List.length_append, List.length_singleton]
        omega
      · right
        refine ⟨?_, tagged, empty⟩
        simp only [List.length_append, List.length_singleton]
        omega
  | pop =>
      simp only [Sender.step] at stepped
      split at stepped
      · rename_i msg mMessages idle queue
        cases stepped
        rcases losing with lost | ⟨-, ⟨msg, tagged⟩, -⟩
        · left
          rw [present_pop idle queue]
          exact lost
        · rw [idle] at tagged
          cases tagged
      · cases stepped
  | send outcome =>
      simp only [Sender.step] at stepped
      split at stepped
      · rename_i msg popped
        cases stepped
        have topic := present_sendTopic popped outcome
        have same : (s.sendTopic msg outcome).queued = s.queued := by cases outcome <;> rfl
        rcases losing with lost | ⟨-, ⟨msg, tagged⟩, -⟩
        · left
          rw [same]
          omega
        · rw [popped] at tagged
          cases tagged
      · rename_i msg tagged
        cases stepped
        have payload := present_sendPayload tagged outcome
        have same : (s.sendPayload msg outcome).queued = s.queued := by cases outcome <;> rfl
        left
        rw [same]
        rcases losing with lost | ⟨le, -, empty⟩
        · omega
        · have := payload.2 (.inl empty)
          omega
      · cases stepped

/-! ## Runs -/

theorem Losing.run {s t : Sender} {actions : List Action} (losing : s.Losing)
    (run : machine.run s actions = some t) : t.Losing :=
  run_invariant Losing (fun _ _ _ losing stepped => losing.step stepped) losing run

/-- As long as no send fails nothing is missing, and after that something is. -/
theorem Whole.run {s t : Sender} {actions : List Action} (whole : s.Whole)
    (run : machine.run s actions = some t) :
    if ∃ action ∈ actions, fails action = true then t.Losing else t.Whole := by
  induction actions generalizing s with
  | nil =>
      cases run
      simpa using whole
  | cons action actions ih =>
      obtain ⟨s', stepped, rest⟩ := run_cons_eq_some run
      cases failed : fails action with
      | true => simpa [failed] using (whole.losing stepped failed).run rest
      | false => simpa [failed] using ih (whole.step stepped failed) rest

theorem start_whole : start.Whole where
  order := ⟨[], rfl, rfl⟩
  frames := rfl

/-- In every run, whenever the client is out of a message, nothing is lost and the
    framing holds exactly when every send in the run has succeeded. -/
theorem keeps_iff {actions : List Action} {s : Sender} (run : machine.run start actions = some s)
    (returned : s.client = .idle) :
    s.Keeps ↔ ∀ outcome, Action.send outcome ∈ actions → outcome = .sent := by
  have ends := start_whole.run run
  have same : (∃ action ∈ actions, fails action = true) ↔
      ¬ ∀ outcome, Action.send outcome ∈ actions → outcome = .sent := by
    constructor
    · intro failure all
      obtain ⟨action, member, failed⟩ := failure
      cases action with
      | queueSend msg => cases failed
      | pop => cases failed
      | send outcome => simp [fails, all outcome member] at failed
    · intro some_fails
      push Not at some_fails
      obtain ⟨outcome, member, other⟩ := some_fails
      exact ⟨_, member, by simpa [fails] using other⟩
  split at ends
  · rename_i failure
    exact ⟨fun keeps => absurd keeps (ends.not_keeps returned),
      fun all => absurd all (same.mp failure)⟩
  · rename_i success
    exact ⟨fun _ => not_not.mp (mt same.mpr success), fun _ => ends.keeps returned⟩

/-- Two payloads that are queued at once and sent. -/
def twoSent : List Action :=
  [.queueSend (utf8 "NCLE:60"), .queueSend (utf8 "NCLE:90"), .pop, .send .sent, .send .sent, .pop,
    .send .sent, .send .sent]

theorem twoSent_enabled : (machine.run start twoSent).isSome := by
  decide

theorem keeps_iff_twoSent :
    ((machine.run start twoSent).get twoSent_enabled).Keeps ↔
      ∀ outcome, Action.send outcome ∈ twoSent → outcome = .sent :=
  keeps_iff (Option.some_get twoSent_enabled).symm rfl

/-- The payload of the first message is not sent. -/
def oneRefused : List Action :=
  [.queueSend (utf8 "NCLE:60"), .pop, .send .sent, .send .notSent, .queueSend (utf8 "NCLE:90"),
    .pop, .send .sent, .send .sent]

theorem oneRefused_enabled : (machine.run start oneRefused).isSome := by
  decide

/-- It is gone, and the next message has the topic twice, so the server takes the topic
    for its payload. -/
theorem not_keeps_oneRefused :
    ((machine.run start oneRefused).get oneRefused_enabled).client = .idle ∧
    ((machine.run start oneRefused).get oneRefused_enabled).wire =
      [[utf8 "A", utf8 "A", utf8 "NCLE:90"]] ∧
    ¬ ((machine.run start oneRefused).get oneRefused_enabled).Keeps := by
  refine ⟨rfl, by decide, ?_⟩
  intro keeps
  have enough := keeps.kept.length_le
  exact absurd enough (by decide)

end Sender

end RpiFanServe.Dbus
