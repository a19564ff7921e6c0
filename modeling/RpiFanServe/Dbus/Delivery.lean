import RpiFanServe.Foundation.Channel
import RpiFanServe.Dbus.Message

/-! # Delivery from D-Bus to the server

The way of a property write from `RpiFanServeObject` to
`TempsCtrl::setCacheLifeExpectancy`: the change signal queues a message, the client
thread of the helper pops it and sends it behind the topic, and the loop of
`ZmqDbusServer::run` receives it.  Every step of the three threads is one action, so
a run is any interleaving of them.

The pipeline refines a channel of numbers (`link_simulates_channel`); that nothing
is lost or reordered is then a fact about channels.
-/

namespace RpiFanServe.Dbus

open StepMachine

/-- Where the client thread stands: in `ZmqDbusClient::run` before its loop, or in
    `trySendCallback`. -/
inductive ClientPc where
  | connected
  | greeted
  | idle
  | popped (msg : Bytes)
  | tagged (msg : Bytes)

/-- `frames` are the frames of a message that is not complete yet; `wire` holds the
    complete messages; `written` records the property writes. -/
structure Link where
  mCacheLifeExpectancy : CLong
  mMessages : List Bytes
  client : ClientPc
  frames : List Bytes
  wire : List (List Bytes)
  handled : List CInt
  written : List CLong

namespace Link

/-- The topic that the client sends and the server subscribes to. -/
def topic : Bytes := utf8 "A"

/-- A frame sent with `sndmore`. -/
def sendMore (s : Link) (frame : Bytes) : Link := { s with frames := s.frames ++ [frame] }

/-- A frame sent without it completes the message. -/
def send (s : Link) (frame : Bytes) : Link :=
  { s with frames := [], wire := s.wire ++ [s.frames ++ [frame]] }

/-- `onCacheLifeExpectancyChanged`, which reads the property again. -/
def onCacheLifeExpectancyChanged (s : Link) : Link :=
  { s with mMessages := s.mMessages ++ [cacheLifeExpectancyMessage s.mCacheLifeExpectancy] }

/-- `RpiFanServeObject::setCacheLifeExpectancy`; the signal runs its slot. -/
def setCacheLifeExpectancy (s : Link) (value : CLong) : Link :=
  if invalidCacheLifeExpectancy value then s
  else { s with mCacheLifeExpectancy := value }.onCacheLifeExpectancyChanged

/-- The next step of the client thread; without a message it sleeps. -/
def clientStep (s : Link) : Option Link :=
  match s.client with
  | .connected => some { s.sendMore topic with client := .greeted }
  | .greeted => some { s.send greeting with client := .idle }
  | .idle =>
      match s.mMessages with
      | [] => none
      | msg :: mMessages => some { s with mMessages, client := .popped msg }
  | .popped msg => some { s.sendMore topic with client := .tagged msg }
  | .tagged msg => some { s.send msg with client := .idle }

/-- The subscription filters by the start of the first frame. -/
def subscribed (message : List Bytes) : Bool :=
  match message with
  | [] => false
  | first :: _ => topic.isPrefixOf first

/-- `recv_multipart` and the callback; `recv_msgs[1]` of a shorter message has no
    meaning, so there is no step for it. -/
def receiveStep (s : Link) : Option Link :=
  match s.wire with
  | [] => none
  | message :: wire =>
      if subscribed message then
        match message[1]? with
        | none => none
        | some payload =>
            some { s with wire, handled := s.handled ++ (receiveCallback payload).toList }
      else some { s with wire }

inductive Action where
  | write (value : CLong)
  | client
  | receive

def step (s : Link) : Action → Option Link
  | .write value =>
      some (({ s with written := s.written ++ [value] } : Link).setCacheLifeExpectancy value)
  | .client => s.clientStep
  | .receive => s.receiveStep

def start (property : CLong) : Link := ⟨property, [], .connected, [], [], [], []⟩

def machine : StepMachine Link Action where
  init s := ∃ property, s = start property
  step := step

/-! ## What is on its way -/

/-- The written values that the object admits, as numbers. -/
def admitted (s : Link) : List Int :=
  (s.written.filter fun value => !invalidCacheLifeExpectancy value).map BitVec.toInt

/-- The number that a payload stands for; the greeting stands for none. -/
def payloadValue (payload : Bytes) : Option Int := (receiveCallback payload).map BitVec.toInt

/-- The payload that the client has popped and not sent. -/
def unsent : ClientPc → Option Bytes
  | .popped msg | .tagged msg => some msg
  | _ => none

/-- The payloads between the queue and the server, the next to arrive first. -/
def payloads (s : Link) : List Bytes :=
  s.wire.filterMap (fun message => message[1]?) ++ (unsent s.client).toList ++ s.mMessages

/-- Complete messages are a topic and a payload, and the incomplete one is a topic
    while the client is between its two sends. -/
structure Framed (s : Link) : Prop where
  wire : ∀ message ∈ s.wire, ∃ payload, message = [topic, payload]
  frames : s.frames =
    match s.client with
    | .greeted | .tagged _ => [topic]
    | _ => []

theorem payloads_sendMore (s : Link) (frame : Bytes) (client : ClientPc)
    (same : unsent client = unsent s.client) :
    ({ s.sendMore frame with client := client } : Link).payloads = s.payloads := by
  unfold payloads
  rw [same]
  rfl

theorem Framed.send {s : Link} (framed : Framed s) (topical : s.frames = [topic]) (payload : Bytes) :
    Framed ({ s.send payload with client := .idle } : Link) where
  wire := by
    intro message member
    cases List.mem_append.mp member with
    | inl before => exact framed.wire message before
    | inr new =>
        rw [List.mem_singleton.mp new, topical]
        exact ⟨payload, rfl⟩
  frames := rfl

theorem payloads_send {s : Link} (topical : s.frames = [topic]) (payload : Bytes) :
    ({ s.send payload with client := .idle } : Link).payloads =
      s.wire.filterMap (fun message => message[1]?) ++ [payload] ++ s.mMessages := by
  unfold payloads
  simp [Link.send, topical, unsent]

/-- A step of the client moves payloads along and adds none but the greeting. -/
theorem clientStep_payloads {s s' : Link} (framed : Framed s) (stepped : s.clientStep = some s') :
    Framed s' ∧ s'.payloads.filterMap payloadValue = s.payloads.filterMap payloadValue ∧
      s'.handled = s.handled ∧ s'.written = s.written := by
  have frames := framed.frames
  unfold clientStep at stepped
  cases pc : s.client with
  | connected =>
      rw [pc] at stepped frames
      cases stepped
      refine ⟨⟨framed.wire, ?_⟩, ?_, rfl, rfl⟩
      · simp [sendMore, frames]
      · rw [payloads_sendMore s topic .greeted (by rw [pc]; rfl)]
  | greeted =>
      rw [pc] at stepped frames
      cases stepped
      refine ⟨framed.send frames greeting, ?_, rfl, rfl⟩
      rw [payloads_send frames]
      unfold payloads
      rw [pc]
      simp [unsent, payloadValue, receiveCallback_greeting]
  | idle =>
      rw [pc] at stepped frames
      cases queue : s.mMessages with
      | nil =>
          rw [queue] at stepped
          cases stepped
      | cons msg mMessages =>
          rw [queue] at stepped
          cases stepped
          refine ⟨⟨framed.wire, frames⟩, ?_, rfl, rfl⟩
          unfold payloads
          rw [pc, queue]
          simp [unsent]
  | popped msg =>
      rw [pc] at stepped frames
      cases stepped
      refine ⟨⟨framed.wire, ?_⟩, ?_, rfl, rfl⟩
      · simp [sendMore, frames]
      · rw [payloads_sendMore s topic (.tagged msg) (by rw [pc]; rfl)]
  | tagged msg =>
      rw [pc] at stepped frames
      cases stepped
      refine ⟨framed.send frames msg, ?_, rfl, rfl⟩
      rw [payloads_send frames]
      unfold payloads
      rw [pc]
      rfl

theorem receiveStep_payloads {s s' : Link} (framed : Framed s) (stepped : s.receiveStep = some s') :
    ∃ payload, Framed s' ∧ s.payloads = payload :: s'.payloads ∧
      s'.handled.map BitVec.toInt = s.handled.map BitVec.toInt ++ (payloadValue payload).toList ∧
      s'.written = s.written := by
  unfold receiveStep at stepped
  cases located : s.wire with
  | nil =>
      rw [located] at stepped
      cases stepped
  | cons message wire =>
      obtain ⟨payload, shape⟩ := framed.wire message (by rw [located]; exact List.mem_cons_self)
      subst shape
      rw [located] at stepped
      simp only [subscribed, List.isPrefixOf_iff_prefix, List.prefix_rfl, if_true] at stepped
      cases stepped
      refine ⟨payload, ⟨?_, framed.frames⟩, ?_, ?_, rfl⟩
      · intro message member
        exact framed.wire message (by rw [located]; exact List.mem_cons_of_mem _ member)
      · unfold payloads
        rw [located]
        rfl
      · unfold payloadValue
        cases receiveCallback payload <;> simp

theorem write_payloads {s : Link} (framed : Framed s) (value : CLong) :
    let s' := ({ s with written := s.written ++ [value] } : Link).setCacheLifeExpectancy value
    Framed s' ∧ s'.handled = s.handled ∧
      if invalidCacheLifeExpectancy value then
        s'.payloads = s.payloads ∧ s'.admitted = s.admitted
      else
        s'.payloads.filterMap payloadValue = s.payloads.filterMap payloadValue ++ [value.toInt] ∧
          s'.admitted = s.admitted ++ [value.toInt] := by
  unfold setCacheLifeExpectancy
  cases valid : invalidCacheLifeExpectancy value with
  | true =>
      refine ⟨⟨framed.wire, framed.frames⟩, rfl, rfl, ?_⟩
      simp [admitted, valid]
  | false =>
      refine ⟨⟨framed.wire, framed.frames⟩, rfl, ?_, ?_⟩
      · obtain ⟨narrow, read, same⟩ := receiveCallback_message valid
        have number : payloadValue (cacheLifeExpectancyMessage value) = some value.toInt := by
          unfold payloadValue
          rw [read, Option.map_some, same]
        simp [payloads, onCacheLifeExpectancyChanged, number]
      · simp [admitted, onCacheLifeExpectancyChanged, valid]

/-! ## The pipeline is a channel -/

/-- The channel of numbers that a state of the pipeline shows. -/
structure Shows (s : Link) (c : Channel Int) : Prop where
  framed : Framed s
  sent : c.sent = s.admitted
  transit : c.transit = s.payloads.filterMap payloadValue
  delivered : c.delivered = s.handled.map BitVec.toInt

theorem write_simulated {s : Link} {c : Channel Int} (shows : Shows s c) (value : CLong) :
    ∃ sends c', (Channel.machine Int).run c sends = some c' ∧
      Shows (({ s with written := s.written ++ [value] } : Link).setCacheLifeExpectancy value) c' := by
  obtain ⟨framed, handled, queued⟩ := write_payloads shows.framed value
  cases valid : invalidCacheLifeExpectancy value with
  | true =>
      rw [valid, if_pos rfl] at queued
      refine ⟨[], c, rfl, framed, ?_, ?_, ?_⟩
      · rw [shows.sent, queued.2]
      · rw [shows.transit, queued.1]
      · rw [shows.delivered, handled]
  | false =>
      rw [valid, if_neg (by decide)] at queued
      refine ⟨[.send value.toInt], _, rfl, framed, ?_, ?_, ?_⟩
      · rw [queued.2, ← shows.sent]
      · rw [queued.1, ← shows.transit]
      · rw [handled]
        exact shows.delivered

theorem Shows.sent_eq {s s' : Link} {c : Channel Int} (shows : Shows s c)
    (written : s'.written = s.written) : c.sent = s'.admitted := by
  rw [shows.sent]
  unfold admitted
  rw [written]

theorem client_simulated {s s' : Link} {c : Channel Int} (shows : Shows s c)
    (stepped : s.clientStep = some s') : Shows s' c := by
  obtain ⟨framed, payloads, handled, written⟩ := clientStep_payloads shows.framed stepped
  refine ⟨framed, shows.sent_eq written, ?_, ?_⟩
  · rw [shows.transit, payloads]
  · rw [shows.delivered, handled]

/-- A reception delivers a number, or nothing when the payload stands for none. -/
theorem receive_simulated {s s' : Link} {c : Channel Int} (shows : Shows s c)
    (stepped : s.receiveStep = some s') :
    ∃ deliveries c', (Channel.machine Int).run c deliveries = some c' ∧ Shows s' c' := by
  obtain ⟨payload, framed, payloads, handled, written⟩ := receiveStep_payloads shows.framed stepped
  have sent := shows.sent_eq written
  have transit := shows.transit
  rw [payloads] at transit
  cases number : payloadValue payload with
  | none =>
      rw [List.filterMap_cons_none number] at transit
      rw [number] at handled
      refine ⟨[], c, rfl, framed, sent, transit, ?_⟩
      rw [handled, shows.delivered]
      exact (List.append_nil _).symm
  | some value =>
      rw [List.filterMap_cons_some number] at transit
      rw [number] at handled
      refine ⟨[.deliver], ⟨c.sent, s'.payloads.filterMap payloadValue, c.delivered ++ [value]⟩,
        ?_, framed, sent, rfl, ?_⟩
      · rw [run_cons, run_nil]
        show Channel.step c .deliver = _
        unfold Channel.step
        rw [transit]
      · rw [handled, shows.delivered]
        rfl

theorem link_simulates_channel : Simulation machine (Channel.machine Int) Shows where
  init := by
    intro s initial
    obtain ⟨property, rfl⟩ := initial
    refine ⟨⟨[], [], []⟩, rfl, ⟨?_, rfl⟩, rfl, rfl, rfl⟩
    intro message member
    cases member
  step := by
    intro s c action s' shows stepped
    cases action with
    | write value =>
        cases stepped
        exact write_simulated shows value
    | client => exact ⟨[], c, rfl, client_simulated shows stepped⟩
    | receive => exact receive_simulated shows stepped

/-- Nothing is queued, popped or on the wire. -/
def Drained (s : Link) : Prop := s.mMessages = [] ∧ unsent s.client = none ∧ s.wire = []

/-- The server gets a prefix of the admitted values in writing order, each as the
    number that was written, and all of them once nothing is on its way. -/
theorem delivery_exact {s : Link} (reachable : machine.Reachable s) :
    s.handled.map BitVec.toInt <+: s.admitted ∧
      (s.Drained → s.handled.map BitVec.toInt = s.admitted) := by
  obtain ⟨c, reachable, shows⟩ := link_simulates_channel.reachable reachable
  rw [← shows.delivered, ← shows.sent]
  refine ⟨Channel.delivered_prefix reachable, fun drained => ?_⟩
  apply Channel.delivered_all reachable
  obtain ⟨queue, client, wire⟩ := drained
  rw [shows.transit]
  unfold payloads
  rw [queue, client, wire]
  rfl

/-- The greeting, an admitted write, a refused one, and the first two receptions. -/
def twoWrites : List Action :=
  [.client, .write 120, .client, .write 5, .receive, .client, .client, .client, .receive]

theorem start_init (property : CLong) : machine.init (start property) := ⟨property, rfl⟩

theorem twoWrites_enabled : (machine.run (start 0) twoWrites).isSome := by
  decide

theorem delivery_exact_two_writes :
    ((machine.run (start 0) twoWrites).get twoWrites_enabled).handled.map BitVec.toInt <+:
        ((machine.run (start 0) twoWrites).get twoWrites_enabled).admitted ∧
      (((machine.run (start 0) twoWrites).get twoWrites_enabled).Drained →
        ((machine.run (start 0) twoWrites).get twoWrites_enabled).handled.map BitVec.toInt =
          ((machine.run (start 0) twoWrites).get twoWrites_enabled).admitted) :=
  delivery_exact (.get (start_init 0) twoWrites_enabled)

end Link

end RpiFanServe.Dbus
