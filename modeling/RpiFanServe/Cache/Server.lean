import RpiFanServe.Foundation.Threads
import RpiFanServe.Cache.Thresholds

/-! # The cache server

`updateCache`, `handleAllTempsRequest`, the callback of the cache timer and the
end of the constructor of TempsCtrl, as threads over one shared state.  An action
is an acquisition or a release of `cacheMutex`, one look at a log file, or one
access to the shared variables.  The environment moves the clock, rotates and
edits the log files, and sets the life expectancy.

`History` records what the server does not store; no thread reads it.
-/

namespace RpiFanServe.Cache

open CString Log

/-- What stays fixed while the server runs. -/
structure Setup where
  ticksPerSecond : Nat
  positive : 0 < ticksPerSecond
  maxjobs : Nat

/-- A log file that is there; `none` cannot be opened. -/
abbrev LogFile := Option Bytes

/-- What an execution of `updateCache` put into one entry, and the turn in which
    it looked at the log file. -/
structure Written where
  entry : Json
  readAt : Nat

/-- An answer to `/all_temps`, with what the request found and when it began. -/
structure Response where
  alltemps : Json
  foundExpired : Bool
  began : Nat
  lastCompleted : Option Nat

/-- Turns count steps.  An execution of `updateCache` is named by the turn in
    which it took the lock. -/
structure History where
  turn : Nat
  lockedAt : Nat
  lookedAt : Nat
  stampedAt : Nat
  written : Nat → Fin 7 → Option Written
  completed : List Nat
  /-- The log was rotated after the last look at the active log. -/
  rotatedInRead : Bool
  /-- The log was rotated after the reading of the data in the cache began. -/
  rotatedSinceData : Bool
  began : Nat → Nat
  foundExpired : Nat → Bool
  raised : Bool
  responses : List Response

def History.start : History where
  turn := 1
  lockedAt := 0
  lookedAt := 0
  stampedAt := 0
  written := fun _ _ => none
  completed := []
  rotatedInRead := false
  rotatedSinceData := false
  began := fun _ => 0
  foundExpired := fun _ => false
  raised := false
  responses := []

/-- The members of `TempsCtrl` that the cache uses, the clock and the log files.
    `birth` is the instant of the last rotation, whose minutes are counted as those of the
    clock are; `stxBtime` is what the buffer of `statx` holds when the call fails. -/
structure Server where
  cache : DaysDataCache
  mCacheLifeExpectancySeconds : CULong
  cacheMutex : Option Nat
  constructed : Bool
  clock : Nat
  logs : Nat → Option LogFile
  birth : Nat
  stxBtime : CLong
  history : History

namespace Server

def getActiveLogFileCreationTimeMinutes (setup : Setup) (s : Server) : CULong :=
  if (s.logs 0).isSome then epochMinutes setup.ticksPerSecond s.birth
  else Cache.getActiveLogFileCreationTimeMinutes s.stxBtime

def isCacheExpired (setup : Setup) (s : Server) : Bool :=
  Cache.isCacheExpired s.cache.creationEpochMinutes s.mCacheLifeExpectancySeconds
    (epochMinutes setup.ticksPerSecond s.clock) (s.getActiveLogFileCreationTimeMinutes setup)

def isCacheNeedingUpdate (setup : Setup) (s : Server) : Bool :=
  Cache.isCacheNeedingUpdate s.cache.creationEpochMinutes s.mCacheLifeExpectancySeconds
    (epochMinutes setup.ticksPerSecond s.clock) (s.getActiveLogFileCreationTimeMinutes setup)

section Numbers

variable {setup : Setup} {s : Server} (present : (s.logs 0).isSome)
  (stamped : s.cache.creationEpochMinutes.toNat < maxMinutes)
  (early : minutes setup.ticksPerSecond s.clock < maxMinutes)
  (born : minutes setup.ticksPerSecond s.birth < maxMinutes)

include present stamped early born

theorem isCacheExpired_eq_false :
    s.isCacheExpired setup = false ↔
      minutes setup.ticksPerSecond s.birth ≤ s.cache.creationEpochMinutes.toNat ∧
        minutes setup.ticksPerSecond s.clock <
          s.cache.creationEpochMinutes.toNat + s.mCacheLifeExpectancySeconds.toNat / 60 := by
  unfold isCacheExpired getActiveLogFileCreationTimeMinutes
  rw [if_pos present, Cache.isCacheExpired_eq_false stamped, epochMinutes_toNat born,
    epochMinutes_toInt early, Int.ofNat_lt]

theorem isCacheNeedingUpdate_eq_false :
    s.isCacheNeedingUpdate setup = false ↔
      minutes setup.ticksPerSecond s.birth ≤ s.cache.creationEpochMinutes.toNat ∧
        minutes setup.ticksPerSecond s.clock <
          s.cache.creationEpochMinutes.toNat +
            s.mCacheLifeExpectancySeconds.toNat / 60 * 95 / 100 := by
  unfold isCacheNeedingUpdate getActiveLogFileCreationTimeMinutes
  rw [if_pos present, Cache.isCacheNeedingUpdate_eq_false stamped, epochMinutes_toNat born,
    epochMinutes_toInt early, Int.ofNat_lt]

end Numbers

end Server

/-! ## Actions -/

/-- The atomic actions of the threads. -/
inductive Call where
  /-- A request comes in. -/
  | receive
  | isCacheExpired
  | isCacheNeedingUpdate
  | lock
  | unlock
  /-- Whether `offset2LogFilePath` finds the file. -/
  | offset2LogFilePath (offset : Fin 7)
  | logFile2Json (offset : Fin 7)
  /-- `cache.data[offset] = temps` -/
  | store (offset : Fin 7) (temps : Json)
  | now
  /-- `cache.creationEpochMinutes = currentEpoch` -/
  | stamp (currentEpoch : CLong)
  | data
  | callback (alltemps : Json)
  /-- The constructor returns. -/
  | constructed

/-- What an action answers. -/
@[reducible] def Answer : Call → Type
  | .isCacheExpired | .isCacheNeedingUpdate | .offset2LogFilePath _ => Bool
  | .logFile2Json _ => Except Fault Json
  | .now => CLong
  | .data => Fin 7 → Json
  | _ => Unit

abbrev Thread := Prog Call Answer (Except Fault Unit)

open Prog

/-- `p`, and `next` unless `p` raised. -/
def orRaise (p next : Thread) : Thread := do
  match ← p with
  | .error fault => return .error fault
  | .ok () => next

/-- The loop of `updateCache` over the day offsets. -/
def fill : List (Fin 7) → Thread
  | [] => return .ok ()
  | offset :: offsets => do
      let found ← perform (.offset2LogFilePath offset)
      if found then
        let temps : Except Fault Json ← perform (Call.logFile2Json offset)
        match temps with
        | .error fault => return .error fault
        | .ok temps =>
            let _ ← perform (.store offset temps)
            fill offsets
      else
        let _ ← perform (.store offset (.array []))
        fill offsets

/-- `updateCache`; the guard releases the lock on every way out. -/
def updateCache : Thread := do
  let _ ← perform .lock
  let filled ← fill (List.finRange 7)
  match filled with
  | .error fault =>
      let _ ← perform .unlock
      return .error fault
  | .ok () =>
      let currentEpoch ← perform .now
      let _ ← perform (.stamp currentEpoch)
      let _ ← perform .unlock
      return .ok ()

/-- The part of `handleAllTempsRequest` behind the check. -/
def answerAllTemps : Thread := do
  let _ ← perform .lock
  let data ← perform .data
  let _ ← perform (.callback (.array (List.ofFn data)))
  let _ ← perform .unlock
  return .ok ()

def handleAllTempsRequest : Thread := do
  let _ ← perform .receive
  let expired ← perform .isCacheExpired
  if expired then orRaise updateCache answerAllTemps else answerAllTemps

/-- The callback that `setCacheTimer` installs. -/
def cacheTimerCallback : Thread := do
  let needed ← perform .isCacheNeedingUpdate
  if needed then updateCache else return .ok ()

/-- The constructor from `cache.creationEpochMinutes = 0` on. -/
def constructorEnd : Thread := orRaise updateCache do
  let _ ← perform .constructed
  return .ok ()

/-! ## What the actions do -/

namespace Server

/-- The next turn. -/
def tick (s : Server) : Server :=
  { s with history := { s.history with turn := s.history.turn + 1 } }

/-- The action of thread `t`; requests come in once the constructor has returned,
    and a lock that is taken blocks. -/
def perform (setup : Setup) (t : Nat) (s : Server) : (call : Call) → Option (Answer call × Server)
  | .receive =>
      if s.constructed then
        some ((), { s with history := { s.history with
          began := Function.update s.history.began t s.history.turn
          foundExpired := Function.update s.history.foundExpired t false } })
      else none
  | .isCacheExpired =>
      some (s.isCacheExpired setup, { s with history := { s.history with
        foundExpired := Function.update s.history.foundExpired t (s.isCacheExpired setup) } })
  | .isCacheNeedingUpdate => some (s.isCacheNeedingUpdate setup, s)
  | .lock =>
      if s.cacheMutex = none then
        some ((), { s with
          cacheMutex := some t
          history := { s.history with lockedAt := s.history.turn } })
      else none
  | .unlock => some ((), { s with cacheMutex := none })
  | .offset2LogFilePath offset =>
      some ((s.logs offset).isSome, { s with history := { s.history with
        lookedAt := s.history.turn
        rotatedInRead := if offset = 0 then false else s.history.rotatedInRead } })
  | .logFile2Json offset =>
      let temps := logFile2Json extractMatches setup.maxjobs (s.logs offset).join
      some (temps, { s with history := { s.history with
        lookedAt := s.history.turn
        raised := s.history.raised || !temps.isOk } })
  | .store offset temps =>
      some ((), { s with
        cache := { s.cache with data := Function.update s.cache.data offset temps }
        history := { s.history with
          written := Function.update s.history.written s.history.lockedAt
            (Function.update (s.history.written s.history.lockedAt) offset
              (some ⟨temps, s.history.lookedAt⟩)) } })
  | .now => some (epochMinutes setup.ticksPerSecond s.clock, s)
  | .stamp currentEpoch =>
      some ((), { s with
        cache := { s.cache with creationEpochMinutes := currentEpoch }
        history := { s.history with
          stampedAt := s.clock
          completed := s.history.lockedAt :: s.history.completed
          rotatedSinceData := s.history.rotatedInRead } })
  | .data => some (s.cache.data, s)
  | .callback alltemps =>
      some ((), { s with history := { s.history with
        responses :=
          ⟨alltemps, s.history.foundExpired t, s.history.began t, s.history.completed.head?⟩
            :: s.history.responses } })
  | .constructed => some ((), { s with constructed := true })

/-- What happens outside the threads of the cache. -/
inductive Outside where
  | advance (ticks : Nat)
  /-- Every log moves up by one day and a new active log is created. -/
  | rotate (active : Bytes)
  | write (offset : Nat) (content : Bytes)
  /-- The file can be opened no longer. -/
  | deny (offset : Nat)
  | remove (offset : Nat)
  /-- Other calls leave their bytes where the buffer of `statx` will be. -/
  | scribble (stxBtime : CLong)
  | setCacheLifeExpectancy (seconds : CInt)

def outside (setup : Setup) (s : Server) : Outside → Option Server
  | .advance ticks =>
      if minutes setup.ticksPerSecond (s.clock + ticks) < maxMinutes then
        some { s with clock := s.clock + ticks }
      else none
  | .rotate active =>
      some { s with
        logs := fun | 0 => some (some active) | offset + 1 => s.logs offset
        birth := s.clock
        history := { s.history with rotatedInRead := true, rotatedSinceData := true } }
  | .write offset content =>
      if (s.logs offset).isSome then
        some { s with logs := Function.update s.logs offset (some (some content)) }
      else none
  | .deny offset =>
      if (s.logs offset).isSome then
        some { s with logs := Function.update s.logs offset (some none) }
      else none
  | .remove offset => some { s with logs := Function.update s.logs offset none }
  | .scribble stxBtime => some { s with stxBtime }
  | .setCacheLifeExpectancy seconds =>
      some { s with mCacheLifeExpectancySeconds := CInt.toULong seconds }

end Server

def handler (setup : Setup) : Handler Call Answer Server Server.Outside where
  handle t s call := (s.perform setup t call).map fun answer => (answer.1, answer.2.tick)
  environment s action := (s.outside setup action).map Server.tick

/-- The state in which the constructor sets the stamp to zero. -/
structure Server.Started (setup : Setup) (s : Server) : Prop where
  stamp : s.cache.creationEpochMinutes = 0
  unlocked : s.cacheMutex = none
  unconstructed : s.constructed = false
  born : s.birth ≤ s.clock
  early : minutes setup.ticksPerSecond s.clock < maxMinutes
  history : s.history = .start

/-- Thread 0 is the constructor, every other thread is one call. -/
structure Started (setup : Setup) (s : Pool Call Answer Server (Except Fault Unit)) : Prop where
  shared : s.shared.Started setup
  constructor : s.threads 0 = constructorEnd
  calls : ∀ t, t ≠ 0 → s.threads t = handleAllTempsRequest ∨ s.threads t = cacheTimerCallback

def server (setup : Setup) :
    StepMachine (Pool Call Answer Server (Except Fault Unit)) (Move Server.Outside) :=
  Pool.machine (handler setup) (Started setup)

/-- A server that is about to fill its cache for the first time. -/
def boot (life : CInt) (clock : Nat) (logs : Nat → Option LogFile) (calls : Nat → Thread) :
    Pool Call Answer Server (Except Fault Unit) where
  shared := {
    cache := ⟨0, fun _ => .null⟩
    mCacheLifeExpectancySeconds := CInt.toULong life
    cacheMutex := none
    constructed := false
    clock := clock
    logs := logs
    birth := 0
    stxBtime := 0
    history := .start }
  threads t := if t = 0 then constructorEnd else calls t

theorem boot_started {setup : Setup} {life : CInt} {clock : Nat} {logs : Nat → Option LogFile}
    {calls : Nat → Thread} (early : minutes setup.ticksPerSecond clock < maxMinutes)
    (kinds : ∀ t, calls t = handleAllTempsRequest ∨ calls t = cacheTimerCallback) :
    Started setup (boot life clock logs calls) where
  shared := ⟨rfl, rfl, rfl, Nat.zero_le _, early, rfl⟩
  constructor := rfl
  calls t other := by simpa only [boot, other, if_false] using kinds t

/-- A server that counts seconds and has a log of one comment line. -/
def sampleSetup : Setup := ⟨1, by decide, 1⟩

def sampleBoot : Pool Call Answer Server (Except Fault Unit) :=
  boot 1000 1000000 (fun offset => if offset = 0 then some (some (utf8 "# fan\n")) else none)
    fun _ => handleAllTempsRequest

theorem sampleBoot_started : Started sampleSetup sampleBoot :=
  boot_started (by decide) fun _ => .inl rfl

/-- The steps of the constructor. -/
def firstUpdate : List (Move Server.Outside) := List.replicate 20 (.thread 0)

theorem firstUpdate_enabled : ((server sampleSetup).run sampleBoot firstUpdate).isSome := by
  decide

/-! ## What a step leaves alone -/

section Frame

variable {setup : Setup} {t : Nat} {s s' : Server} {call : Call} {answer : Answer call}

theorem handle_lock (setup : Setup) (t : Nat) {s : Server} (unlocked : s.cacheMutex = none) :
    (handler setup).handle t s .lock = some ((), { s with
      cacheMutex := some t
      history := { s.history with lockedAt := s.history.turn, turn := s.history.turn + 1 } }) := by
  simp only [handler, Server.perform, Server.tick, unlocked, if_true, Option.map_some]

theorem handle_outside (h : (handler setup).handle t s call = some (answer, s')) :
    s'.clock = s.clock ∧ s'.logs = s.logs ∧ s'.birth = s.birth ∧
      s'.mCacheLifeExpectancySeconds = s.mCacheLifeExpectancySeconds := by
  cases call <;>
    simp only [handler, Server.perform, Option.map_if, Option.map_some, Option.ite_none_right_eq_some,
      Option.some.injEq, Prod.mk.injEq] at h <;>
    grind [Server.tick]

theorem handle_stamped (h : (handler setup).handle t s call = some (answer, s'))
    (other : ∀ epoch, call ≠ .stamp epoch) :
    s'.cache.creationEpochMinutes = s.cache.creationEpochMinutes ∧
      s'.history.stampedAt = s.history.stampedAt ∧
      s'.history.rotatedSinceData = s.history.rotatedSinceData := by
  cases call <;>
    simp only [handler, Server.perform, Option.map_if, Option.map_some, Option.ite_none_right_eq_some,
      Option.some.injEq, Prod.mk.injEq] at h <;>
    grind [Server.tick]

theorem handle_stamp {epoch : CLong}
    (h : (handler setup).handle t s (.stamp epoch) = some ((), s')) :
    s'.cache.creationEpochMinutes = epoch ∧ s'.history.stampedAt = s.clock ∧
      s'.history.rotatedSinceData = s.history.rotatedInRead ∧ s'.clock = s.clock := by
  cases h
  exact ⟨rfl, rfl, rfl, rfl⟩

theorem environment_clock {action : Server.Outside}
    (h : (handler setup).environment s action = some s')
    (early : minutes setup.ticksPerSecond s.clock < maxMinutes) :
    s.clock ≤ s'.clock ∧ minutes setup.ticksPerSecond s'.clock < maxMinutes ∧
      s'.cache = s.cache ∧ s'.history.stampedAt = s.history.stampedAt := by
  cases action <;>
    simp only [handler, Server.outside, Option.map_if, Option.map_some, Option.ite_none_right_eq_some,
      Option.some.injEq] at h <;>
    grind [Server.tick]

end Frame

/-! ## What the threads store and stamp -/

/-- A protocol that all the threads keep to from any view: what is stored is what has
    just been read, or the empty array, and what is stamped has just been read from the
    clock. -/
structure Permits {V : Type} (P : Protocol Call Answer V) : Prop where
  free : ∀ v call, (∀ offset temps, call ≠ .store offset temps) → (∀ epoch, call ≠ .stamp epoch) →
    P.allowed v call
  empty : ∀ v offset, P.allowed v (.store offset (.array []))
  read : ∀ v offset temps v', P.next v (.logFile2Json offset) (.ok temps) v' →
    P.allowed v' (.store offset temps)
  clock : ∀ v epoch v', P.next v .now epoch v' → P.allowed v' (.stamp epoch)

section Permits

variable {V : Type} {P : Protocol Call Answer V} (permits : Permits P)

include permits

/-- An action that is neither a store nor a stamp. -/
theorem Permits.perform {call : Call} {f : Answer call → Thread} {v : V}
    (store : ∀ offset temps, call ≠ .store offset temps) (stamp : ∀ epoch, call ≠ .stamp epoch)
    (rest : ∀ answer v', P.next v call answer v' → (f answer).Conforms P (fun _ _ => True) v') :
    (Prog.perform call >>= f).Conforms P (fun _ _ => True) v :=
  Conforms.perform (permits.free v call store stamp) rest

theorem Permits.fill (offsets : List (Fin 7)) (v : V) :
    (fill offsets).Conforms P (fun _ _ => True) v := by
  induction offsets generalizing v with
  | nil => trivial
  | cons offset offsets ih =>
      unfold Cache.fill
      apply permits.perform (by simp) (by simp)
      intro found v _
      cases found with
      | false =>
          apply Conforms.perform (permits.empty v offset)
          intro _ v _
          exact ih v
      | true =>
          apply permits.perform (by simp) (by simp)
          intro temps v' moved
          cases temps with
          | error fault => trivial
          | ok temps =>
              apply Conforms.perform (permits.read v offset temps v' moved)
              intro _ v _
              exact ih v

theorem Permits.updateCache (v : V) : updateCache.Conforms P (fun _ _ => True) v := by
  unfold Cache.updateCache
  apply permits.perform (by simp) (by simp)
  intro _ v _
  apply Conforms.bind
  apply (permits.fill (List.finRange 7) v).mono
  intro v filled _
  cases filled with
  | error fault =>
      apply permits.perform (by simp) (by simp)
      intro _ _ _
      trivial
  | ok _ =>
      apply permits.perform (by simp) (by simp)
      intro currentEpoch v' moved
      apply Conforms.perform (permits.clock v currentEpoch v' moved)
      intro _ v _
      apply permits.perform (by simp) (by simp)
      intro _ _ _
      trivial

theorem Permits.answerAllTemps (v : V) : answerAllTemps.Conforms P (fun _ _ => True) v := by
  unfold Cache.answerAllTemps
  apply permits.perform (by simp) (by simp)
  intro _ v _
  apply permits.perform (by simp) (by simp)
  intro data v _
  apply permits.perform (by simp) (by simp)
  intro _ v _
  apply permits.perform (by simp) (by simp)
  intro _ _ _
  trivial

omit permits in
theorem Permits.orRaise {p next : Thread} {v : V} (first : p.Conforms P (fun _ _ => True) v)
    (then_ : ∀ v, next.Conforms P (fun _ _ => True) v) :
    (orRaise p next).Conforms P (fun _ _ => True) v := by
  unfold Cache.orRaise
  apply Conforms.bind
  apply first.mono
  intro v outcome _
  cases outcome with
  | error fault => trivial
  | ok _ => exact then_ v

theorem Permits.threads {setup : Setup} {s : Pool Call Answer Server (Except Fault Unit)}
    (started : Started setup s) (t : Nat) (v : V) :
    (s.threads t).Conforms P (fun _ _ => True) v := by
  by_cases first : t = 0
  · rw [first, started.constructor]
    unfold constructorEnd
    apply Permits.orRaise (permits.updateCache v)
    intro v
    apply permits.perform (by simp) (by simp)
    intro _ _ _
    trivial
  · cases started.calls t first with
    | inl request =>
        rw [request]
        unfold handleAllTempsRequest
        apply permits.perform (by simp) (by simp)
        intro _ v _
        apply permits.perform (by simp) (by simp)
        intro expired v _
        cases expired with
        | false => exact permits.answerAllTemps v
        | true => exact Permits.orRaise (permits.updateCache v) permits.answerAllTemps
    | inr timer =>
        rw [timer]
        unfold cacheTimerCallback
        apply permits.perform (by simp) (by simp)
        intro needed v _
        cases needed with
        | false => trivial
        | true => exact permits.updateCache v

end Permits

end RpiFanServe.Cache
