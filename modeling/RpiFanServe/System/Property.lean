import RpiFanServe.Cli.Control
import RpiFanServe.Config.Life
import RpiFanServe.Config.Save
import RpiFanServe.Dbus.Delivery

/-! # The programs together

The control program and other clients of the bus, the D-Bus helper, the server and its
configuration file as one machine.  The parts are those of the modules below; what is
new is how they meet: a command line becomes a write of the property, a message that
the loop receives is handed to `setCacheLifeExpectancy`, and loads and saves go to one
file.  Either party may be stopped at any moment and started again.  What the publisher of
the helper sends before the subscription of the server has reached it may be lost.
-/

namespace RpiFanServe

open CString Dbus Config StepMachine PermanentConfig

/-- `joined` is set once the publisher of the helper has the server for a subscriber, and
    `terminated` when an exception has left `save_config`. -/
structure System where
  link : Link
  life : Life
  configFile : ConfigFile
  joined : Bool
  terminated : Bool

namespace System

inductive Action where
  /-- A run of rpi-fan-serve-ctrl. -/
  | control (isConnected : Bool) (argv : List Bytes)
  /-- Any other client of the bus sets the property. -/
  | write (value : CLong)
  /-- The subscription of the server reaches the helper. -/
  | join
  | client
  /-- A step of the client; the message that it completes has no subscriber. -/
  | drop
  | receive
  /-- A step of the server that receives nothing. -/
  | server (action : Life.Action) (io : FileIo)
  /-- The server is started again; so much of the wire is lost. -/
  | restart (mConfig : PermConfig) (lost : Nat)
  /-- The helper is started again. -/
  | helper (property : CLong)

/-- The payload that `recv_multipart` gets for the callback. -/
def arriving (link : Link) : Option Bytes :=
  match link.wire with
  | [] => none
  | message :: _ => if Link.subscribed message then message[1]? else none

def receiveStep (s : System) : Option System :=
  match s.link.receiveStep with
  | none => none
  | some link =>
      match arriving s.link with
      | none => some { s with link }
      | some msg =>
          (s.life.step (.startup (.receive msg))).map fun life => { s with link, life }

/-- Whether a step calls `save_config`. -/
def saves : Life.Action → Bool
  | .startup _ => false
  | .saveDefault | .fire => true
  | .saveCurrentConfig durationMs => MAX_DELAY_BETWEEN_SAVES_MS ≤ durationMs

def save (s : System) (io : FileIo) : System :=
  match saveConfig s.life.startup.mConfig io s.configFile with
  | (.returns _, configFile) => { s with configFile }
  | (.terminates, configFile) => { s with configFile, terminated := true }

/-- What loading reads is in the file. -/
def reads (s : System) (io : FileIo) : Life.Action → Life.Action
  | .startup (.load answers) =>
      .startup (.load { answers with readFile := io.readFile s.configFile })
  | action => action

def serverStep (s : System) (action : Life.Action) (io : FileIo) : Option System :=
  match action with
  | .startup (.receive _) => none
  | action =>
      (s.life.step (s.reads io action)).map fun life =>
        { (if saves action then s.save io else s) with life }

def write (s : System) (value : CLong) : System :=
  { s with
    link := ({ s.link with written := s.link.written ++ [value] } : Link).setCacheLifeExpectancy
      value }

/-- The link after a step of the client whose message is dropped. -/
def dropStep (link : Link) : Option Link :=
  link.clientStep.map fun link' => { link' with wire := link.wire }

def step (s : System) : Action → Option System
  | .control isConnected argv =>
      match Cli.Control.main isConnected argv with
      | .set cle => some (s.write cle)
      | _ => some s
  | .write value => some (s.write value)
  -- A subscriber that comes between two frames gets the next message first.
  | .join => if s.terminated ∨ s.link.frames ≠ [] then none else some { s with joined := true }
  | .client => s.link.clientStep.map fun link => { s with link }
  | .drop => if s.joined then none else (dropStep s.link).map fun link => { s with link }
  | .receive => if s.terminated then none else s.receiveStep
  | .server action io => if s.terminated then none else s.serverStep action io
  | .restart mConfig lost =>
      some { s with
        link := { s.link with wire := s.link.wire.drop lost }
        life := .start mConfig
        joined := false
        terminated := false }
  | .helper property =>
      some { s with
        link := { s.link with
          mCacheLifeExpectancy := property
          mMessages := []
          client := .connected
          frames := [] }
        joined := false }

def start (property : CLong) (mConfig : PermConfig) (configFile : ConfigFile) : System :=
  ⟨.start property, .start mConfig, configFile, false, false⟩

def machine : StepMachine System Action where
  init s := ∃ property mConfig configFile, s = start property mConfig configFile
  step := step

end System

/-! ## What a step does to the parts -/

namespace Config

theorem Life.step_startup {s s' : Life} {action : Life.Action} (stepped : s.step action = some s') :
    (∃ a, action = .startup a ∧ s.startup.step a = some s'.startup) ∨
      (∀ a, action ≠ .startup a) ∧ s'.startup = s.startup := by
  cases action with
  | startup a =>
      refine .inl ⟨a, rfl, ?_⟩
      cases a with
      | load answers =>
          obtain ⟨startup, loaded, rfl⟩ := Option.map_eq_some_iff.mp stepped
          exact loaded
      | adopt =>
          obtain ⟨startup, adopted, rfl⟩ := Option.map_eq_some_iff.mp stepped
          exact adopted
      | receive msg =>
          simp only [Life.step, Life.startupStep, Option.ite_none_left_eq_some] at stepped
          obtain ⟨startup, received, rfl⟩ := Option.map_eq_some_iff.mp stepped.2
          exact received
      | assign =>
          obtain ⟨startup, assigned, rfl⟩ := Option.map_eq_some_iff.mp stepped
          exact assigned
  | saveDefault =>
      simp only [Life.step, Option.ite_none_right_eq_some] at stepped
      refine .inr ⟨?_, by rw [← Option.some.inj stepped.2]; rfl⟩
      intro a same
      cases same
  | saveCurrentConfig durationMs =>
      simp only [Life.step, Option.ite_none_right_eq_some] at stepped
      refine .inr ⟨?_, ?_⟩
      · intro a same
        cases same
      · have stepped := stepped.2
        split at stepped
        · rw [← Option.some.inj stepped]
        · rw [← Option.some.inj stepped]
          rfl
  | fire =>
      simp only [Life.step, Option.ite_none_right_eq_some] at stepped
      refine .inr ⟨?_, by rw [← Option.some.inj stepped.2]; rfl⟩
      intro a same
      cases same

namespace Startup

/-- The values that the messages have handed over so far, the first one first. -/
def received (s : Startup) : List CInt :=
  s.handled.reverse ++
    match s.message with
    | .idle => []
    | .assigned seconds => [seconds]

/-- What a step receives. -/
def incoming : Action → List CInt
  | .receive msg => (receiveCallback msg).toList
  | _ => []

theorem received_step {s s' : Startup} {action : Action} (stepped : s.step action = some s') :
    s'.received = s.received ++ incoming action := by
  cases action with
  | load answers =>
      simp only [step, loadStep] at stepped
      split at stepped
      · cases stepped
        exact (List.append_nil _).symm
      · cases stepped
  | adopt =>
      rcases adoptStep_cases stepped with ⟨-, rfl⟩ | ⟨lrv, -, -, rfl⟩
      · exact (List.append_nil _).symm
      · exact (List.append_nil _).symm
  | receive msg =>
      simp only [step, receiveStep] at stepped
      split at stepped
      · rename_i idle
        cases handed : receiveCallback msg with
        | none =>
            rw [handed] at stepped
            cases stepped
            rw [incoming, handed]
            exact (List.append_nil _).symm
        | some seconds =>
            rw [handed] at stepped
            cases stepped
            rw [incoming, handed]
            simp [received, idle]
      · cases stepped
  | assign =>
      simp only [step, assignStep] at stepped
      split at stepped
      · cases stepped
      · rename_i seconds assigned
        cases stepped
        unfold received
        rw [assigned]
        simp [incoming]

theorem invariant_step {s s' : Startup} {action : Action} (inv : s.Invariant)
    (keeps : s.KeepsUpdate action = true) (stepped : s.step action = some s') : s'.Invariant := by
  cases action with
  | load answers => exact invariant_load inv stepped
  | adopt => exact invariant_adopt inv keeps stepped
  | receive msg => exact invariant_receive inv stepped
  | assign => exact invariant_assign inv stepped

end Startup

end Config

namespace System

theorem receiveStep_handled {link link' : Link} (stepped : link.receiveStep = some link') :
    link'.handled = link.handled ++ ((arriving link).bind receiveCallback).toList := by
  unfold Link.receiveStep at stepped
  unfold arriving
  cases located : link.wire with
  | nil =>
      rw [located] at stepped
      cases stepped
  | cons message wire =>
      rw [located] at stepped
      simp only at stepped ⊢
      split at stepped
      · rename_i topical
        rw [if_pos topical]
        cases payload : message[1]? with
        | none =>
            rw [payload] at stepped
            cases stepped
        | some msg =>
            rw [payload] at stepped
            cases stepped
            rfl
      · rename_i foreign
        cases stepped
        rw [if_neg foreign]
        exact (List.append_nil _).symm

theorem receiveStep_parts {s s' : System} (stepped : s.receiveStep = some s') :
    s.link.receiveStep = some s'.link ∧ s'.configFile = s.configFile ∧
      s'.terminated = s.terminated ∧ s'.joined = s.joined ∧
      match arriving s.link with
      | none => s'.life = s.life
      | some msg => s.life.step (.startup (.receive msg)) = some s'.life := by
  unfold receiveStep at stepped
  cases received : s.link.receiveStep with
  | none =>
      rw [received] at stepped
      cases stepped
  | some link =>
      rw [received] at stepped
      cases arrived : arriving s.link with
      | none =>
          rw [arrived] at stepped
          cases stepped
          exact ⟨rfl, rfl, rfl, rfl, rfl⟩
      | some msg =>
          rw [arrived] at stepped
          obtain ⟨life, taken, rfl⟩ := Option.map_eq_some_iff.mp stepped
          exact ⟨rfl, rfl, rfl, rfl, taken⟩

theorem save_link (s : System) (io : FileIo) :
    (s.save io).link = s.link ∧ (s.save io).joined = s.joined := by
  unfold save
  split <;> exact ⟨rfl, rfl⟩

theorem serverStep_parts {s s' : System} {action : Life.Action} {io : FileIo}
    (stepped : s.serverStep action io = some s') :
    (∀ msg, s.reads io action ≠ .startup (.receive msg)) ∧
      (s'.link = s.link ∧ s'.joined = s.joined) ∧
      s.life.step (s.reads io action) = some s'.life ∧
      (s'.configFile, s'.terminated) =
        if saves action then ((s.save io).configFile, (s.save io).terminated)
        else (s.configFile, s.terminated) := by
  unfold serverStep at stepped
  split at stepped
  · cases stepped
  · rename_i sent
    obtain ⟨life, taken, rfl⟩ := Option.map_eq_some_iff.mp stepped
    refine ⟨?_, ?_, taken, ?_⟩
    · intro msg
      unfold reads
      split
      · nofun
      · exact sent msg
    · show (if saves action then s.save io else s).link = s.link ∧
        (if saves action then s.save io else s).joined = s.joined
      split
      · exact save_link s io
      · exact ⟨rfl, rfl⟩
    · show (Prod.mk (if saves action then s.save io else s).configFile
        (if saves action then s.save io else s).terminated) = _
      split <;> rfl

/-! ## The last write is in effect -/

/-- Neither party is started again, and the constructor overwrites no message. -/
def Steady (s : System) : Action → Bool
  | .server (.startup .adopt) _ => s.life.startup.KeepsUpdate .adopt
  | .restart _ _ | .helper _ => false
  | _ => true

/-- The machine that takes only these steps. -/
def steady : StepMachine System Action := machine.restrict fun s action => s.Steady action = true

theorem dropStep_payloads {link link' : Link} (framed : Link.Framed link)
    (stepped : dropStep link = some link') :
    Link.Framed link' ∧ link'.payloads ⊆ link.payloads ∧ link'.handled = link.handled := by
  obtain ⟨sent, sends, rfl⟩ := Option.map_eq_some_iff.mp stepped
  obtain ⟨framed', -, handled, -⟩ := Link.clientStep_payloads framed sends
  refine ⟨⟨framed.wire, framed'.frames⟩, ?_, handled⟩
  have left : (Link.unsent sent.client).toList ++ sent.mMessages ⊆
      (Link.unsent link.client).toList ++ link.mMessages := by
    unfold Link.clientStep at sends
    cases pc : link.client with
    | idle =>
        rw [pc] at sends
        cases queue : link.mMessages with
        | nil =>
            rw [queue] at sends
            cases sends
        | cons msg mMessages =>
            rw [queue] at sends
            cases sends
            exact List.Subset.refl _
    | _ =>
        rw [pc] at sends
        cases sends
        simp [Link.unsent, Link.send, Link.sendMore]
  intro payload member
  rw [Link.payloads, List.append_assoc, List.mem_append] at member ⊢
  exact member.imp_right fun queued => left queued

/-- What the messages have handed to the server is what the link has delivered. -/
structure Connected (s : System) : Prop where
  framed : Link.Framed s.link
  startup : s.life.startup.Invariant
  received : s.link.handled = s.life.startup.received

theorem Connected.write {s : System} (connected : s.Connected) (value : CLong) :
    (s.write value).Connected := by
  obtain ⟨framed, handled, -⟩ := Link.write_payloads connected.framed value
  exact ⟨framed, connected.startup, handled.trans connected.received⟩

theorem Connected.link {s : System} {link : Link} (connected : s.Connected)
    (framed : Link.Framed link) (handled : link.handled = s.link.handled) :
    ({ s with link } : System).Connected :=
  ⟨framed, connected.startup, handled.trans connected.received⟩

theorem Connected.receive {s s' : System} (connected : s.Connected)
    (stepped : s.receiveStep = some s') : s'.Connected := by
  obtain ⟨received, -, -, -, taken⟩ := receiveStep_parts stepped
  obtain ⟨-, framed, -⟩ := Link.receiveStep_payloads connected.framed received
  have handled := receiveStep_handled received
  rw [connected.received] at handled
  cases arrived : arriving s.link with
  | none =>
      rw [arrived] at taken handled
      have same : s'.life = s.life := taken
      refine ⟨framed, same ▸ connected.startup, ?_⟩
      rw [handled, same]
      exact List.append_nil _
  | some msg =>
      rw [arrived] at taken handled
      rcases Life.step_startup taken with ⟨a, same, startup⟩ | ⟨other, -⟩
      · cases same
        refine ⟨framed, Startup.invariant_step connected.startup rfl startup, ?_⟩
        rw [handled, Startup.received_step startup]
        rfl
      · exact absurd rfl (other _)

theorem Connected.server {s s' : System} {action : Life.Action} {io : FileIo}
    (connected : s.Connected) (keeps : s.Steady (.server action io) = true)
    (stepped : s.serverStep action io = some s') : s'.Connected := by
  obtain ⟨sent, ⟨link, -⟩, taken, -⟩ := serverStep_parts stepped
  rcases Life.step_startup taken with ⟨a, same, startup⟩ | ⟨-, same⟩
  · have silent : Startup.incoming a = [] := by
      cases a with
      | receive msg => exact absurd same (sent msg)
      | _ => rfl
    have unlost : s.life.startup.KeepsUpdate a = true := by
      cases a with
      | adopt =>
          have adopts : action = .startup .adopt := by
            unfold reads at same
            split at same
            · cases same
            · exact same
          rw [adopts] at keeps
          exact keeps
      | _ => rfl
    refine ⟨link ▸ connected.framed, Startup.invariant_step connected.startup unlost startup, ?_⟩
    rw [link, Startup.received_step startup, silent, List.append_nil]
    exact connected.received
  · exact ⟨link ▸ connected.framed, same ▸ connected.startup,
      (congrArg Link.handled link).trans (same ▸ connected.received)⟩

theorem connected_step {s s' : System} {action : Action} (connected : s.Connected)
    (keeps : s.Steady action = true) (stepped : s.step action = some s') : s'.Connected := by
  cases action with
  | control isConnected argv =>
      simp only [step] at stepped
      split at stepped
      · cases stepped
        exact connected.write _
      · cases stepped
        exact connected
  | write value =>
      cases stepped
      exact connected.write value
  | join =>
      simp only [step, Option.ite_none_left_eq_some] at stepped
      cases stepped.2
      exact ⟨connected.framed, connected.startup, connected.received⟩
  | client =>
      obtain ⟨link, sent, rfl⟩ := Option.map_eq_some_iff.mp stepped
      obtain ⟨framed, -, handled, -⟩ := Link.clientStep_payloads connected.framed sent
      exact connected.link framed handled
  | drop =>
      simp only [step, Option.ite_none_left_eq_some] at stepped
      obtain ⟨link, dropped, rfl⟩ := Option.map_eq_some_iff.mp stepped.2
      obtain ⟨framed, -, handled⟩ := dropStep_payloads connected.framed dropped
      exact connected.link framed handled
  | receive =>
      simp only [step, Option.ite_none_left_eq_some] at stepped
      exact connected.receive stepped.2
  | server action io =>
      simp only [step, Option.ite_none_left_eq_some] at stepped
      exact connected.server keeps stepped.2
  | restart mConfig lost => cases keeps
  | helper property => cases keeps

theorem connected {s : System} (reachable : steady.Reachable s) : s.Connected := by
  refine reachable.invariant Connected ?_ ?_
  · rintro s ⟨property, mConfig, configFile, rfl⟩
    refine ⟨⟨?_, rfl⟩, Startup.invariant_start mConfig, rfl⟩
    intro message member
    cases member
  · intro s action s' connected stepped
    obtain ⟨keeps, stepped⟩ := restrict_step.mp stepped
    exact connected_step connected keeps stepped

/-- Nothing is on its way from the bus to the fields of the server. -/
structure Settled (s : System) : Prop where
  drained : s.link.Drained
  idle : s.life.startup.message = .idle
  done : s.life.startup.constructor = .done

/-- The server runs with this life expectancy and would save it. -/
structure InEffect (s : System) (seconds : Int) : Prop where
  config : s.life.startup.mConfig.cacheLifeExpectancy.toInt = seconds
  used : s.life.startup.mCacheLifeExpectancySeconds =
    CInt.toULong s.life.startup.mConfig.cacheLifeExpectancy

/-! ## A number on its way -/

/-- The values that an action writes to the property. -/
def writes : Action → List CLong
  | .control isConnected argv =>
      match Cli.Control.main isConnected argv with
      | .set cle => [cle]
      | _ => []
  | .write value => [value]
  | _ => []

/-- What has been handed over and what is on its way end with this number. -/
def Carries (link : Link) (n : Int) : Prop :=
  (link.handled.map BitVec.toInt ++ link.payloads.filterMap Link.payloadValue).getLast? = some n

structure Carrying (n : Int) (s : System) : Prop where
  connected : s.Connected
  joined : s.joined = true
  carries : Carries s.link n

section Carrying

variable {s s' : System} {n : Int}

theorem Carrying.write {value : CLong} (carrying : s.Carrying n)
    (refused : invalidCacheLifeExpectancy value = true) : (s.write value).Carrying n := by
  refine ⟨carrying.connected.write value, carrying.joined, ?_⟩
  obtain ⟨-, handled, queued⟩ := Link.write_payloads carrying.connected.framed value
  rw [refused, if_pos rfl] at queued
  have same : (s.write value).link.payloads = s.link.payloads := queued.1
  have before : (s.write value).link.handled = s.link.handled := handled
  rw [Carries, same, before]
  exact carrying.carries

theorem Carrying.client {link : Link} (carrying : s.Carrying n)
    (sent : s.link.clientStep = some link) : ({ s with link } : System).Carrying n := by
  obtain ⟨framed, payloads, handled, -⟩ := Link.clientStep_payloads carrying.connected.framed sent
  refine ⟨carrying.connected.link framed handled, carrying.joined, ?_⟩
  show Carries link n
  rw [Carries, payloads, handled]
  exact carrying.carries

theorem Carrying.receive (carrying : s.Carrying n) (stepped : s.receiveStep = some s') :
    s'.Carrying n := by
  obtain ⟨received, -, -, joined, -⟩ := receiveStep_parts stepped
  obtain ⟨payload, -, payloads, handled, -⟩ :=
    Link.receiveStep_payloads carrying.connected.framed received
  refine ⟨carrying.connected.receive stepped, joined.trans carrying.joined, ?_⟩
  have carries := carrying.carries
  rw [Carries, payloads] at carries
  rw [Carries, handled, List.append_assoc]
  cases number : Link.payloadValue payload with
  | none => rwa [List.filterMap_cons_none number] at carries
  | some value => rwa [List.filterMap_cons_some number] at carries

theorem Carrying.inEffect (carrying : s.Carrying n) (settled : s.Settled) : s.InEffect n := by
  have handled : s.link.handled = s.life.startup.handled.reverse := by
    rw [carrying.connected.received, Startup.received, settled.idle]
    exact List.append_nil _
  obtain ⟨queue, client, wire⟩ := settled.drained
  obtain ⟨used, config⟩ := carrying.connected.startup.done settled.done settled.idle
  refine ⟨?_, used⟩
  have last := carrying.carries
  rw [Carries, handled, Link.payloads, queue, client, wire] at last
  simp only [List.filterMap_nil, Option.toList_none, List.append_nil, List.map_reverse,
    List.getLast?_reverse, List.head?_map, Option.map_eq_some_iff] at last
  obtain ⟨seconds, newest, rfl⟩ := last
  rw [config, newest]
  rfl

end Carrying

/-! ## A run of the control program -/

/-- The constructor is done and no exception has ended the server. -/
structure Running (s : System) : Prop where
  connected : s.Connected
  joined : s.joined = true
  alive : s.terminated = false
  done : s.life.startup.constructor = .done

/-- The steps that a property write still has before it. -/
def distance (s : System) : Nat :=
  7 * s.link.mMessages.length +
    (match s.link.client with
      | .idle => 0
      | .greeted | .tagged _ => 5
      | .connected | .popped _ => 6) +
    4 * s.link.wire.length +
    (match s.life.startup.message with
      | .idle => 0
      | .assigned _ => 2) +
    if s.life.saving then 1 else 0

section Progress

variable {s : System}

/-- An enabled step of the server or of the link that ends nothing, and after which less is
    to be done. -/
def Advances (s : System) : Prop :=
  ∃ action s', writes action = [] ∧ steady.step s action = some s' ∧ s'.Running ∧
    s'.distance < s.distance

theorem Running.advances {s' : System} {action : Action} (running : s.Running)
    (silent : writes action = []) (keeps : s.Steady action = true)
    (stepped : s.step action = some s') (joined : s'.joined = s.joined)
    (alive : s'.terminated = s.terminated)
    (done : s'.life.startup.constructor = s.life.startup.constructor)
    (nearer : s'.distance < s.distance) : s.Advances :=
  ⟨action, s', silent, restrict_step.mpr ⟨keeps, stepped⟩,
    ⟨connected_step running.connected keeps stepped, joined.trans running.joined,
      alive.trans running.alive, done.trans running.done⟩, nearer⟩

theorem Running.assign (running : s.Running) {seconds : CInt}
    (assigned : s.life.startup.message = .assigned seconds) : s.Advances := by
  let startup : Startup := { s.life.startup with
    mConfig := ⟨CULong.toCInt s.life.startup.mCacheLifeExpectancySeconds⟩
    message := .idle
    handled := seconds :: s.life.startup.handled }
  have stepped : s.step (.server (.startup .assign) reliableIo) =
      some { s with life := { s.life with startup, saving := true } } := by
    simp only [step, running.alive, Bool.false_eq_true, if_false, serverStep, reads, Life.step,
      Life.startupStep, Startup.assignStep, assigned, Option.map_some, saves]
    rfl
  apply running.advances rfl rfl stepped rfl rfl rfl
  simp only [distance, assigned, startup, if_true]
  omega

theorem Running.saveCurrentConfig (running : s.Running) (saving : s.life.saving = true)
    (idle : s.life.startup.message = .idle) : s.Advances := by
  have stepped : s.step (.server (.saveCurrentConfig 0) reliableIo) =
      some { s with life := { s.life with saving := false, armed := true } } := by
    simp [step, running.alive, serverStep, reads, Life.step, saving, saves,
      MAX_DELAY_BETWEEN_SAVES_MS]
  apply running.advances rfl rfl stepped rfl rfl rfl
  simp [distance, idle, saving]

theorem Running.receive (running : s.Running) (saving : s.life.saving = false)
    (idle : s.life.startup.message = .idle) {message : List Bytes} {wire : List (List Bytes)}
    (located : s.link.wire = message :: wire) : s.Advances := by
  obtain ⟨payload, rfl⟩ := running.connected.framed.wire message (located ▸ List.mem_cons_self)
  let link : Link := { s.link with
    wire, handled := s.link.handled ++ (receiveCallback payload).toList }
  have received : s.link.receiveStep = some link := by
    simp [Link.receiveStep, located, Link.subscribed, link]
  have arrived : arriving s.link = some payload := by
    simp [arriving, located, Link.subscribed]
  cases handed : receiveCallback payload with
  | none =>
      have taken : s.life.step (.startup (.receive payload)) = some s.life := by
        rw [Life.step, Life.startupStep, if_neg (by simp [saving]), Startup.receiveStep, idle]
        simp only [handed, Option.map_some]
      have stepped : s.step .receive = some { s with link } := by
        simp [step, running.alive, receiveStep, received, arrived, taken]
      apply running.advances rfl rfl stepped rfl rfl rfl
      simp [distance, located, link]
  | some seconds =>
      let startup : Startup := { s.life.startup with
        mCacheLifeExpectancySeconds := CInt.toULong seconds
        message := .assigned seconds }
      have stepped : s.step .receive =
          some { s with link, life := { s.life with startup } } := by
        simp [step, running.alive, receiveStep, received, arrived, Life.step, Life.startupStep,
          saving, Startup.receiveStep, idle, handed, startup]
      apply running.advances rfl rfl stepped rfl rfl rfl
      simp [distance, located, link, startup, idle, saving]
      omega

theorem Running.client {link : Link} (running : s.Running) (sent : s.link.clientStep = some link)
    (nearer : ({ s with link } : System).distance < s.distance) : s.Advances := by
  have stepped : s.step .client = some { s with link } := by
    simp only [step, sent, Option.map_some]
  exact running.advances rfl rfl stepped rfl rfl rfl nearer

theorem Running.send (running : s.Running) (pending : s.link.client = .idle → s.link.mMessages ≠ []) :
    s.Advances := by
  cases pc : s.link.client with
  | connected =>
      apply running.client (by unfold Link.clientStep; rw [pc])
      simp [distance, pc, Link.sendMore]
  | greeted =>
      apply running.client (by unfold Link.clientStep; rw [pc])
      simp [distance, pc, Link.send]
      omega
  | idle =>
      cases queue : s.link.mMessages with
      | nil => exact absurd queue (pending pc)
      | cons msg mMessages =>
          apply running.client (by unfold Link.clientStep; rw [pc, queue])
          simp [distance, pc, queue]
          omega
  | popped msg =>
      apply running.client (by unfold Link.clientStep; rw [pc])
      simp [distance, pc, Link.sendMore]
  | tagged msg =>
      apply running.client (by unfold Link.clientStep; rw [pc])
      simp [distance, pc, Link.send]
      omega

theorem Running.progress (running : s.Running) (unsettled : ¬ s.Settled) : s.Advances := by
  cases message : s.life.startup.message with
  | assigned seconds => exact running.assign message
  | idle =>
      cases saving : s.life.saving with
      | true => exact running.saveCurrentConfig saving message
      | false =>
          cases located : s.link.wire with
          | cons first wire => exact running.receive saving message located
          | nil =>
              apply running.send
              intro pc empty
              refine unsettled ⟨⟨empty, ?_, located⟩, message, running.done⟩
              rw [pc]
              rfl

end Progress

theorem InEffect.seconds {s : System} {v : CLong} (inEffect : s.InEffect v.toNat) :
    s.life.startup.mCacheLifeExpectancySeconds = v := by
  have whole := CInt.toULong_toNat s.life.startup.mConfig.cacheLifeExpectancy
  rw [inEffect.config, if_pos (Int.natCast_nonneg _)] at whole
  apply BitVec.eq_of_toNat_eq
  rw [inEffect.used]
  exact Int.ofNat_inj.mp whole

/-- Two minutes on the command line. -/
def twoMinutes : List Bytes := [utf8 "rpi-fan-serve-ctrl", utf8 "-c", utf8 "120"]

theorem start_init (property : CLong) (mConfig : PermConfig) (configFile : ConfigFile) :
    steady.init (start property mConfig configFile) :=
  ⟨property, mConfig, configFile, rfl⟩

/-- The constructor finds an hour in the file.  The greeting of the helper comes too early. -/
def hourLoaded : List Action :=
  [.server (.startup (.load Startup.oneHour)) reliableIo, .drop, .drop, .join,
    .server (.startup .adopt) reliableIo]

end System

end RpiFanServe
