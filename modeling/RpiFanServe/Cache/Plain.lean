import RpiFanServe.Cache.Entries
import RpiFanServe.Log.DayOffset

/-! # The cache and the requests for one day

`/all_temps` answers from the cache, a request for one day reads the log file of that day.
Every entry of an answer from the cache is what a request for its day alone would have been
answered at one moment of the run: the look at the log file behind the entry.  For a day
without a log file the one gives an empty array and the other an error object.
-/

namespace RpiFanServe.Cache

open Prog Log CString

/-- The log files of the state are the files of the process under its settings. -/
def Finds (config : SharedConfig) (files : Files) (s : Server) : Prop :=
  ∀ offset : Fin 7, files.find (dayLog config offset) = s.logs offset

/-- The entry is what a request for that day alone is answered in the state. -/
def AsPlain (setup : Setup) (s : Server) (offset : Fin 7) (entry : Json) : Prop :=
  ∀ config files, config.maxjobs = setup.maxjobs → Finds config files s →
    match s.logs offset with
    | none => entry = .array [] ∧
        ∃ errorMsg, handleTempsRequest config files (decimal offset) = .ok (.error errorMsg)
    | some _ => handleTempsRequest config files (decimal offset) =
        .ok (.temps (files.absolute (dayLog config offset)) entry)

/-! ## One day -/

theorem stoul_decimal {n : Nat} (small : n < 2 ^ 64) :
    stoul (decimal n) = .ok (BitVec.ofNat 64 n) := by
  have number : DayNumber (decimal n) n :=
    ⟨decimal_ne_nil n, decimal_isDigit n, digitsVal_decimal n⟩
  apply stoul_eq_ok.mpr ⟨[], [], decimal n, [], number.integerPrefix, ?_, ?_⟩
  · rw [digitsVal_decimal]
    exact small
  · simp [signedVal]

theorem absolute_rooted (files : Files) (path : Bytes) :
    (files.absolute path).head? = some 47 := by
  unfold Files.absolute
  split
  · assumption
  · rw [List.append_assoc, List.head?_append, files.rooted]
    rfl

theorem find_absolute (files : Files) {path : Bytes} (named : path ≠ []) :
    files.find (files.absolute path) = files.find path := by
  have rooted := absolute_rooted files path
  have absolute_named : files.absolute path ≠ [] := by
    intro empty
    rw [empty] at rooted
    cases rooted
  have same : files.absolute (files.absolute path) = files.absolute path := if_pos rooted
  unfold Files.find
  rw [if_neg named, if_neg absolute_named, same]

theorem asPlain_of_dayEntry {setup : Setup} {s : Server} {offset : Fin 7} {entry : Json}
    (read : dayEntry setup (s.logs offset) = .ok entry) : AsPlain setup s offset entry := by
  intro config files jobs finds
  have small : (offset : Nat) < 2 ^ 64 := by omega
  have number : (BitVec.ofNat 64 offset).toNat = offset := by
    rw [BitVec.toNat_ofNat, Nat.mod_eq_of_lt small]
  have found := finds offset
  cases log : s.logs offset with
  | none =>
      rw [log] at read found
      cases read
      refine ⟨rfl, handleTempsRequest_missing (stoul_decimal small) ?_⟩
      rw [number, found]
  | some file =>
      rw [log] at read found
      have present : (files.find (dayLog config (BitVec.ofNat 64 offset).toNat)).isSome := by
        rw [number, found]
        rfl
      have named : dayLog config offset ≠ [] := by
        intro empty
        rw [empty] at found
        cases found
      have read : logFile2Json extractMatches config.maxjobs file = .ok entry := jobs ▸ read
      show handleTempsRequest config files (decimal offset) = _
      rw [handleTempsRequest_present (stoul_decimal small) present, number,
        find_absolute files named, found, Option.join_some, read]
      rfl

/-! ## What a thread has in hand -/

/-- The day and the entry that a thread has read and not stored. -/
abbrev Hand := Option (Fin 7 × Json)

def Hand.after (hand : Hand) : (call : Call) → Answer call → Hand
  | .offset2LogFilePath offset, found => if found then none else some (offset, .array [])
  | .logFile2Json offset, .ok temps => some (offset, temps)
  | _, _ => hand

/-- A thread stores what it has in hand. -/
def handProtocol : Protocol Call Answer Hand where
  allowed hand call := ∀ offset temps, call = .store offset temps → hand = some (offset, temps)
  next hand call answer hand' := hand' = hand.after call answer

theorem hand_perform {call : Call} {f : Answer call → Thread} {hand : Hand}
    (other : ∀ offset temps, call ≠ .store offset temps)
    (rest : ∀ answer, (f answer).Conforms handProtocol (fun _ _ => True) (hand.after call answer)) :
    (Prog.perform call >>= f).Conforms handProtocol (fun _ _ => True) hand := by
  apply Conforms.perform
  · intro offset temps same
    exact absurd same (other offset temps)
  · intro answer hand' moved
    exact moved ▸ rest answer

theorem hand_store {offset : Fin 7} {temps : Json} {f : Unit → Thread}
    (rest : (f ()).Conforms handProtocol (fun _ _ => True) (some (offset, temps))) :
    (Prog.perform (.store offset temps) >>= f).Conforms handProtocol (fun _ _ => True)
      (some (offset, temps)) := by
  apply Conforms.perform
  · intro _ _ same
    cases same
    rfl
  · intro _ hand' moved
    exact moved ▸ rest

theorem fill_hand (offsets : List (Fin 7)) (hand : Hand) :
    (fill offsets).Conforms handProtocol (fun _ _ => True) hand := by
  induction offsets generalizing hand with
  | nil => trivial
  | cons offset offsets ih =>
      unfold fill
      apply hand_perform (by simp)
      intro found
      cases found with
      | false => exact hand_store (ih _)
      | true =>
          apply hand_perform (by simp)
          intro temps
          cases temps with
          | error fault => trivial
          | ok temps => exact hand_store (ih _)

theorem updateCache_hand (hand : Hand) :
    updateCache.Conforms handProtocol (fun _ _ => True) hand := by
  unfold updateCache
  apply hand_perform (by simp)
  intro _
  apply Conforms.bind
  apply (fill_hand (List.finRange 7) _).mono
  intro hand filled _
  cases filled with
  | error fault =>
      apply hand_perform (by simp)
      intro _
      trivial
  | ok _ =>
      apply hand_perform (by simp)
      intro currentEpoch
      apply hand_perform (by simp)
      intro _
      apply hand_perform (by simp)
      intro _
      trivial

theorem answerAllTemps_hand (hand : Hand) :
    answerAllTemps.Conforms handProtocol (fun _ _ => True) hand := by
  unfold answerAllTemps
  apply hand_perform (by simp)
  intro _
  apply hand_perform (by simp)
  intro data
  apply hand_perform (by simp)
  intro _
  apply hand_perform (by simp)
  intro _
  trivial

theorem orRaise_hand {next : Thread} {hand : Hand}
    (then_ : ∀ hand, next.Conforms handProtocol (fun _ _ => True) hand) :
    (orRaise updateCache next).Conforms handProtocol (fun _ _ => True) hand := by
  unfold orRaise
  apply Conforms.bind
  apply (updateCache_hand hand).mono
  intro hand outcome _
  cases outcome with
  | error fault => trivial
  | ok _ => exact then_ hand

theorem calls_hand {setup : Setup} {s : Pool Call Answer Server (Except Fault Unit)}
    (started : Started setup s) (t : Nat) :
    (s.threads t).Conforms handProtocol (fun _ _ => True) none := by
  by_cases first : t = 0
  · rw [first, started.constructor]
    apply orRaise_hand
    intro hand
    apply hand_perform (by simp)
    intro _
    trivial
  · cases started.calls t first with
    | inl request =>
        rw [request]
        apply hand_perform (by simp)
        intro _
        apply hand_perform (by simp)
        intro expired
        cases expired with
        | false => exact answerAllTemps_hand _
        | true => exact orRaise_hand answerAllTemps_hand
    | inr timer =>
        rw [timer]
        apply hand_perform (by simp)
        intro needed
        cases needed with
        | false => trivial
        | true => exact updateCache_hand _

/-! ## Looks at the log files -/

/-- In a turn of the past the entry was that of its day. -/
def LookedUp (setup : Setup) (past : List Server) (turn : Nat) (offset : Fin 7) (entry : Json) :
    Prop :=
  ∃ p ∈ past, p.history.turn = turn ∧ dayEntry setup (p.logs offset) = .ok entry

theorem LookedUp.later {setup : Setup} {past : List Server} {turn : Nat} {offset : Fin 7}
    {entry : Json} (looked : LookedUp setup past turn offset entry) (s : Server) :
    LookedUp setup (s :: past) turn offset entry := by
  obtain ⟨p, member, found⟩ := looked
  exact ⟨p, List.mem_cons_of_mem s member, found⟩

/-- Every entry that an execution wrote was looked up in the turn that it records. -/
def Sourced (setup : Setup) (s : Server × List Server) : Prop :=
  ∀ x offset w, s.1.history.written x offset = some w →
    LookedUp setup s.2 w.readAt offset w.entry

/-- So was what a thread has in hand, in the turn of the last look. -/
def HandLookedUp (setup : Setup) (v : View × Hand) (s : Server × List Server) : Prop :=
  ∀ done offset, v.1.stage = .looked done offset → ∀ day entry, v.2 = some (day, entry) →
    LookedUp setup s.2 s.1.history.lookedAt day entry

def Call.looks : Call → Bool
  | .offset2LogFilePath _ | .logFile2Json _ => true
  | _ => false

section Steps

variable {setup : Setup} {t : Nat} {s s' : Server} {call : Call} {answer : Answer call}

theorem handle_lookedAt (handled : (handler setup).handle t s call = some (answer, s'))
    (other : call.looks = false) : s'.history.lookedAt = s.history.lookedAt := by
  cases call <;>
    simp only [handler, Server.perform, Option.map_if, Option.map_some, Option.ite_none_right_eq_some,
      Option.some.injEq, Prod.mk.injEq] at handled <;>
    grind [Server.tick, Call.looks]

theorem looks_inside {v : View} (allowed : Allowed v call) (looks : call.looks = true) :
    v.stage ≠ .free := by
  cases allowed with
  | first | next | read => simp
  | _ => cases looks

theorem sourced_own {past : List Server} {v : View × Hand} (sourced : Sourced setup (s, past))
    (hand : HandLookedUp setup v (s, past)) (allowed : Allowed v.1 call)
    (holds : handProtocol.allowed v.2 call)
    (handled : (handler setup).handle t s call = some (answer, s')) :
    Sourced setup (s', s :: past) := by
  cases call with
  | store offset temps =>
      have inHand := holds offset temps rfl
      cases handled
      intro x offset' w written
      simp only [Server.tick] at written
      by_cases mine : x = s.history.lockedAt
      · subst mine
        rw [Function.update_self] at written
        by_cases slot : offset' = offset
        · subst slot
          rw [Function.update_self] at written
          cases written
          generalize stage : v.1 = view at allowed
          cases allowed
          exact (hand _ _ (by rw [stage]) offset' temps inHand).later s
        · rw [Function.update_of_ne slot] at written
          exact (sourced _ offset' w written).later s
      · rw [Function.update_of_ne mine] at written
        exact (sourced x offset' w written).later s
  | _ =>
      have same := handle_written handled (by simp)
      intro x offset' w written
      rw [same] at written
      exact (sourced x offset' w written).later s

theorem dayEntry_of_read {offset : Fin 7} {temps : Json}
    (read : logFile2Json extractMatches setup.maxjobs (s.logs offset).join = .ok temps) :
    dayEntry setup (s.logs offset) = .ok temps := by
  cases log : s.logs offset with
  | none =>
      rw [log] at read
      cases read
  | some file =>
      rw [log] at read
      exact read

theorem handle_read {offset : Fin 7} {temps : Except Fault Json}
    (handled : (handler setup).handle t s (.logFile2Json offset) = some (temps, s')) :
    temps = logFile2Json extractMatches setup.maxjobs (s.logs offset).join ∧
      s'.history.lookedAt = s.history.turn := by
  cases handled
  exact ⟨rfl, rfl⟩

theorem hand_own {past : List Server} {v : View × Hand} (allowed : Allowed v.1 call)
    (handled : (handler setup).handle t s call = some (answer, s')) :
    HandLookedUp setup (v.1.after call answer, v.2.after call answer) (s', s :: past) := by
  intro done offset stage day entry inHand
  obtain ⟨view, hand⟩ := v
  cases allowed with
  | first | next =>
      cases handled
      simp only [Hand.after] at inHand
      split at inHand
      · cases inHand
      · rename_i missing
        cases inHand
        refine ⟨s, List.mem_cons_self, rfl, ?_⟩
        rw [Option.not_isSome_iff_eq_none.mp missing]
        rfl
  | read =>
      obtain ⟨answered, looked⟩ := handle_read handled
      cases answer with
      | error fault => cases stage
      | ok temps =>
          cases inHand
          exact ⟨s, List.mem_cons_self, looked.symm, dayEntry_of_read answered.symm⟩
  | _ => cases stage

theorem hand_others {past : List Server} {u : Nat} {v w : View × Hand} (other : u ≠ t)
    (knows : Knows t v.1 s) (knows' : Knows u w.1 s) (hand : HandLookedUp setup w (s, past))
    (allowed : Allowed v.1 call)
    (handled : (handler setup).handle t s call = some (answer, s')) :
    HandLookedUp setup w (s', s :: past) := by
  intro done offset stage day entry inHand
  have silent : call.looks = false := by
    by_contra looks
    rw [Bool.not_eq_false] at looks
    have mine : s.cacheMutex = some t :=
      knows.stage.owner.resolve_left (looks_inside allowed looks)
    have theirs : s.cacheMutex = some u :=
      knows'.stage.owner.resolve_left (by rw [stage]; simp)
    exact other (Option.some.inj (theirs.symm.trans mine))
  have looked := hand done offset stage day entry inHand
  show LookedUp setup (s :: past) s'.history.lookedAt day entry
  rw [handle_lookedAt handled silent]
  exact looked.later s

end Steps

/-- While no read has raised, the answers are snapshots and every entry has been looked up. -/
theorem plain_obligations (setup : Setup) :
    Pool.Obligations (handler setup).recording (snapshotProtocol.both handProtocol)
      (fun s => s.1.history.raised = false → Consistent s.1 ∧ Sourced setup s)
      (fun t v s => s.1.history.raised = false → Knows t v.1 s.1 ∧ HandLookedUp setup v s) where
  own := by
    intro t s v call answer s' inv knows allowed handled
    obtain ⟨handled, past⟩ := Pool.recording_handle handled
    obtain ⟨shared', past'⟩ := s'
    cases past
    refine ⟨?_, (v.1.after call answer, v.2.after call answer), ⟨rfl, rfl⟩, ?_⟩
    · intro quietly
      have before := handle_raised handled quietly
      obtain ⟨consistent, sourced⟩ := inv before
      obtain ⟨view, hand⟩ := knows before
      exact ⟨(allowed_own consistent view allowed.1 handled quietly).1,
        sourced_own sourced hand allowed.1 allowed.2 handled⟩
    · intro quietly
      have before := handle_raised handled quietly
      obtain ⟨consistent, -⟩ := inv before
      exact ⟨(allowed_own consistent (knows before).1 allowed.1 handled quietly).2,
        hand_own allowed.1 handled⟩
  others := by
    intro t u s v w call answer s' other _ knows knows' allowed handled quietly
    obtain ⟨handled, past⟩ := Pool.recording_handle handled
    obtain ⟨shared', past'⟩ := s'
    cases past
    have before := handle_raised handled quietly
    obtain ⟨view, -⟩ := knows before
    obtain ⟨view', hand'⟩ := knows' before
    exact ⟨allowed_other other view view' allowed.1 handled,
      hand_others other view view' hand' allowed.1 handled⟩
  environment := by
    intro s action s' inv moved
    obtain ⟨moved, past⟩ := Pool.recording_environment moved
    obtain ⟨shared', past'⟩ := s'
    cases past
    obtain ⟨quiet, constructed, began, foundExpired, lookedAt, raised⟩ := environment_quiet moved
    rw [raised]
    refine ⟨?_, ?_⟩
    · intro quietly
      obtain ⟨consistent, sourced⟩ := inv quietly
      refine ⟨quiet.consistent consistent ?_ ?_, ?_⟩
      · rw [constructed, quiet.completed]
        exact consistent.serving
      · intro t
        rw [began]
        exact (consistent.began t).trans quiet.turn
      · intro x offset w written
        rw [quiet.written] at written
        exact (sourced x offset w written).later s.1
    · intro t v knows quietly
      obtain ⟨view, hand⟩ := knows quietly
      refine ⟨quiet.knows view (congrFun began t) (congrFun foundExpired t) lookedAt, ?_⟩
      intro done offset stage day entry inHand
      show LookedUp setup (s.1 :: s.2) shared'.history.lookedAt day entry
      rw [lookedAt]
      exact (hand done offset stage day entry inHand).later s.1

/-- The server with a past, of which there is none at first. -/
def RecordStarted (setup : Setup)
    (s : Pool Call Answer (Server × List Server) (Except Fault Unit)) : Prop :=
  Started setup ⟨s.shared.1, s.threads⟩ ∧ s.shared.2 = []

def recorded (setup : Setup) :
    StepMachine (Pool Call Answer (Server × List Server) (Except Fault Unit))
      (Move Server.Outside) :=
  Pool.machine (handler setup).recording (RecordStarted setup)

theorem sourced_of_reachable {setup : Setup}
    {s : Pool Call Answer (Server × List Server) (Except Fault Unit)}
    (reachable : (recorded setup).Reachable s) (quietly : s.shared.1.history.raised = false) :
    Consistent s.shared.1 ∧ Sourced setup s.shared := by
  refine (Pool.conforms_invariant (plain_obligations setup) ?_ reachable).1 quietly
  intro s recordStarted
  have started := recordStarted.1
  have history : s.shared.1.history = .start := started.shared.history
  have consistent : Consistent s.shared.1 :=
    consistent_of_reachable (.of_init started) (by rw [history]; rfl)
  refine ⟨fun _ => ⟨consistent, ?_⟩, ?_⟩
  · intro x offset w written
    rw [history] at written
    cases written
  · intro t
    refine ⟨(⟨.free, false, false⟩, none), fun _ => ⟨⟨trivial, ?_, ?_⟩, ?_⟩,
      ((calls_snapshot started t).both (calls_hand started t)).mono fun _ _ _ => trivial⟩
    · intro impossible
      cases impossible
    · intro _ found
      rw [history] at found
      cases found
    · intro done offset stage
      cases stage

/-- In every run in which no read raises, every entry of every answer is what a request for
    its day alone would have been answered in an earlier state of the run, and in one after
    the request began if it found the cache expired. -/
theorem answers_agree_with_plain {setup : Setup}
    {boot s : Pool Call Answer Server (Except Fault Unit)} {moves : List (Move Server.Outside)}
    (started : Started setup boot) (run : (server setup).run boot moves = some s)
    (quietly : s.shared.history.raised = false) :
    ∀ r ∈ s.shared.history.responses, ∃ entries : Fin 7 → Json,
      r.alltemps = .array (List.ofFn entries) ∧
      ∀ offset, ∃ earlier p, earlier <+: moves ∧ (server setup).run boot earlier = some p ∧
        (r.foundExpired = true → r.began < p.shared.history.turn) ∧
        AsPlain setup p.shared offset (entries offset) := by
  obtain ⟨past, recording, passed⟩ := Pool.run_record (RecordStarted setup) run []
  have reachable : (recorded setup).Reachable (s.record past) :=
    ⟨boot.record [], moves, ⟨started, rfl⟩, recording⟩
  obtain ⟨consistent, sourced⟩ := sourced_of_reachable reachable quietly
  intro r member
  obtain ⟨x, -, -, w, written, alltemps, fresh⟩ := consistent.snapshots r member
  refine ⟨fun offset => (w offset).entry, alltemps, ?_⟩
  intro offset
  obtain ⟨q, inPast, turn, entry⟩ := sourced x offset (w offset) (written offset)
  rcases passed q inPast with impossible | ⟨earlier, p, front, reached, rfl⟩
  · cases impossible
  · refine ⟨earlier, p, front, reached, ?_, asPlain_of_dayEntry entry⟩
    intro found
    rw [turn]
    exact fresh found offset

def sampleConfig : SharedConfig := ⟨utf8 "fan.log", 1⟩

/-- The files of a process that runs in the directory of the log. -/
def sampleFiles : Files where
  cwd := utf8 "/var/log"
  rooted := rfl
  content path := if path = utf8 "/var/log/fan.log" then some (some recordAndComment) else none

theorem lateRequest_recorded : ((server sampleSetup).run recordBoot lateRequest).isSome := by
  decide +kernel

theorem lateRequest_logs : ∀ n < lateRequest.length + 1, ∀ offset : Fin 7,
    ((server sampleSetup).run recordBoot (lateRequest.take n)).map (fun p => p.shared.logs offset) =
      some (recordBoot.shared.logs offset) := by
  decide +kernel

theorem recordBoot_finds : ∀ offset : Fin 7,
    sampleFiles.find (dayLog sampleConfig offset) = recordBoot.shared.logs offset := by
  decide +kernel

/-- The first entry of the late answer is that of a request for today, and the one for
    yesterday, which has no log, is empty. -/
theorem answers_agree_with_plain_late_request :
    (((server sampleSetup).run recordBoot lateRequest).get
      lateRequest_recorded).shared.history.responses.length = 1 ∧
    ∀ r ∈ (((server sampleSetup).run recordBoot lateRequest).get
        lateRequest_recorded).shared.history.responses,
      ∃ entries : Fin 7 → Json, r.alltemps = .array (List.ofFn entries) ∧
        handleTempsRequest sampleConfig sampleFiles (decimal 0) =
          .ok (.temps (utf8 "/var/log/fan.log") (entries 0)) ∧
        entries 1 = .array [] ∧
        ∃ errorMsg, handleTempsRequest sampleConfig sampleFiles (decimal 1) = .ok (.error errorMsg) := by
  refine ⟨by decide +kernel, fun r member => ?_⟩
  obtain ⟨entries, alltemps, plain⟩ := answers_agree_with_plain recordBoot_started
    (Option.some_get lateRequest_recorded).symm (by decide +kernel) r member
  have found : ∀ offset, ∃ p : Pool Call Answer Server (Except Fault Unit),
      Finds sampleConfig sampleFiles p.shared ∧ AsPlain sampleSetup p.shared offset (entries offset) ∧
        ∀ offset : Fin 7, p.shared.logs offset = recordBoot.shared.logs offset := by
    intro offset
    obtain ⟨earlier, p, front, reached, -, entry⟩ := plain offset
    have same : ∀ offset : Fin 7, p.shared.logs offset = recordBoot.shared.logs offset := by
      intro offset
      have kept := lateRequest_logs earlier.length (Nat.lt_succ_of_le front.length_le) offset
      rw [← List.prefix_iff_eq_take.mp front, reached] at kept
      exact Option.some.inj kept
    exact ⟨p, fun offset => (recordBoot_finds offset).trans (same offset).symm, entry, same⟩
  refine ⟨entries, alltemps, ?_, ?_⟩
  · obtain ⟨p, finds, entry, same⟩ := found 0
    have entry := entry sampleConfig sampleFiles rfl finds
    rw [same 0] at entry
    exact entry
  · obtain ⟨p, finds, entry, same⟩ := found 1
    have entry := entry sampleConfig sampleFiles rfl finds
    rw [same 1] at entry
    exact entry

end RpiFanServe.Cache
