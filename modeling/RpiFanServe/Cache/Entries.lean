import RpiFanServe.Log.Malformed
import RpiFanServe.Cache.Refill
import RpiFanServe.Cache.Snapshot

/-! # The shape of the entries

`updateCache` stores an empty array for a day without a log file, and what
`logFile2Json` returns for the others.  That is an array of data points when the file
has a byte for every job, and the error object of an empty file when it has fewer.
-/

namespace RpiFanServe.Cache

open Prog Log CString

/-- An array of records with a date and three numbers. -/
def DataPoints (entry : Json) : Prop :=
  ∃ points : List TempDataPoint, entry = .array (points.map TempDataPoint2Json)

/-- Every log file is missing, or it can be opened and none of its lines raises. -/
def Readable (s : Server) : Prop :=
  ∀ (offset : Fin 7) file, s.logs offset = some file → ∃ content, file = some content ∧
    ∀ line ∈ getlines content, ∃ data, extractMatches line = .ok data

/-- Every log file that is there has a byte for every job. -/
def Sized (setup : Setup) (s : Server) : Prop :=
  ∀ (offset : Fin 7) content, s.logs offset = some (some content) →
    setup.maxjobs ≤ content.length

/-! ## One file -/

theorem dataPoints_empty : DataPoints (.array []) := ⟨[], rfl⟩

theorem not_dataPoints_jsonError (errorMsg : Bytes) : ¬ DataPoints (jsonError errorMsg) := by
  intro entry
  obtain ⟨points, same⟩ := entry
  cases same

/-- What is read from a file with a byte for every job is an array of data points. -/
theorem dataPoints_read {maxjobs : Nat} {content : Bytes} {temps : Json} (hjobs : 1 ≤ maxjobs)
    (hsize : maxjobs ≤ content.length)
    (read : logFile2Json extractMatches maxjobs (some content) = .ok temps) : DataPoints temps := by
  rw [logFile2Json_eq extractMatches hjobs hsize] at read
  cases parsed : linesChunk2TempsChunk extractMatches (getlines content) with
  | error fault =>
      rw [parsed] at read
      cases read
  | ok chunk_temps =>
      have complete := linesChunk2TempsChunk_ok_iff.mp ⟨chunk_temps, parsed⟩
      rw [linesChunk2TempsChunk_complete complete] at read
      cases read
      exact ⟨_, rfl⟩

theorem read_dataPoints_iff {maxjobs : Nat} {content : Bytes} (hjobs : 1 ≤ maxjobs)
    (returns : ∀ line ∈ getlines content, ∃ data, extractMatches line = .ok data) :
    ∃ temps, logFile2Json extractMatches maxjobs (some content) = .ok temps ∧
      (DataPoints temps ↔ maxjobs ≤ content.length) := by
  by_cases hsize : maxjobs ≤ content.length
  · have complete : ∀ line ∈ getlines content, Complete line :=
      fun line member => extractMatches_returns_iff.mp (returns line member)
    have read : logFile2Json extractMatches maxjobs (some content) =
        .ok (.array (((getlines content).filterMap accepted).map TempDataPoint2Json)) := by
      rw [logFile2Json_eq extractMatches hjobs hsize, linesChunk2TempsChunk_complete complete]
      rfl
    exact ⟨_, read, iff_of_true ⟨_, rfl⟩ hsize⟩
  · exact ⟨_, logFile2Json_small extractMatches (Nat.lt_of_not_le hsize),
      iff_of_false (not_dataPoints_jsonError _) hsize⟩

/-! ## One execution -/

theorem dayEntry_dataPoints_iff {setup : Setup} {s : Server} (hjobs : 1 ≤ setup.maxjobs)
    (readable : Readable s) (offset : Fin 7) :
    ∃ entry, dayEntry setup (s.logs offset) = .ok entry ∧
      (DataPoints entry ↔
        ∀ content, s.logs offset = some (some content) → setup.maxjobs ≤ content.length) := by
  cases found : s.logs offset with
  | none => exact ⟨_, rfl, iff_of_true dataPoints_empty (by simp)⟩
  | some file =>
      obtain ⟨content, rfl, returns⟩ := readable offset file found
      obtain ⟨temps, read, shape⟩ := read_dataPoints_iff hjobs returns
      refine ⟨temps, read, shape.trans ?_⟩
      simp

/-- An execution over readable files fills every entry; all of them are arrays of data
    points exactly when every file that is there has a byte for every job. -/
theorem updateCache_dataPoints_iff {setup : Setup} {t : Nat} {s : Server}
    (hjobs : 1 ≤ setup.maxjobs) (unlocked : s.cacheMutex = none) (readable : Readable s) :
    ∃ s', updateCache.exec ((handler setup).handle t) s = some (.ok (), s') ∧
      ((∀ offset, DataPoints (s'.cache.data offset)) ↔ Sized setup s) := by
  have days := dayEntry_dataPoints_iff hjobs readable
  choose entry reads shape using days
  obtain ⟨history, ran⟩ := updateCache_exec setup t unlocked
  rw [refresh_ok reads] at ran
  exact ⟨_, ran, forall_congr' shape⟩

/-! ## Runs -/

/-- A log file that is about to be read has a byte for every job. -/
def sizedRead (setup : Setup) (s : Server) : Call → Bool
  | .logFile2Json offset =>
      match s.logs offset with
      | some (some content) => setup.maxjobs ≤ content.length
      | _ => true
  | _ => true

theorem dataPoints_sized {setup : Setup} {s : Server} {offset : Fin 7} {temps : Json}
    (hjobs : 1 ≤ setup.maxjobs) (sized : sizedRead setup s (.logFile2Json offset) = true)
    (read : logFile2Json extractMatches setup.maxjobs (s.logs offset).join = .ok temps) :
    DataPoints temps := by
  cases found : (s.logs offset).join with
  | none =>
      rw [found] at read
      cases read
  | some content =>
      rw [found] at read
      rw [Option.join_eq_some_iff] at found
      simp only [sizedRead, found, decide_eq_true_eq] at sized
      exact dataPoints_read hjobs sized read

/-- The server when it reads only such files. -/
def sizedServer (setup : Setup) :
    StepMachine (Pool Call Answer Server (Except Fault Unit)) (Move Server.Outside) :=
  Pool.machine ((handler setup).restrict (sizedRead setup)) (Started setup)

/-- A thread stores the empty array or what it has just read. -/
def entryProtocol : Protocol Call Answer (Option Json) where
  allowed temps call := ∀ offset entry, call = .store offset entry →
    entry = .array [] ∨ temps = some entry
  next
    | _, .logFile2Json _, .ok temps, temps' => temps' = some temps
    | temps, _, _, temps' => temps' = temps

theorem entry_permits : Permits entryProtocol where
  free _ _ other _ offset entry same := absurd same (other offset entry)
  empty _ _ _ _ same := by
    cases same
    exact .inl rfl
  read _ _ _ _ moved _ _ same := by
    cases same
    exact .inr moved
  clock _ _ _ _ _ _ same := nomatch same

/-- Every entry that an execution wrote is an array of data points. -/
def WritesDataPoints (s : Server) : Prop :=
  ∀ x offset w, s.history.written x offset = some w → DataPoints w.entry

/-- What a thread has read is an array of data points. -/
def ReadDataPoints (_ : Nat) (temps : Option Json) (_ : Server) : Prop :=
  ∀ entry, temps = some entry → DataPoints entry

theorem handle_written {setup : Setup} {t : Nat} {s s' : Server} {call : Call} {answer : Answer call}
    (h : (handler setup).handle t s call = some (answer, s'))
    (other : ∀ offset temps, call ≠ .store offset temps) :
    s'.history.written = s.history.written := by
  cases call <;>
    simp only [handler, Server.perform, Option.map_if, Option.map_some, Option.ite_none_right_eq_some,
      Option.some.injEq, Prod.mk.injEq] at h <;>
    grind [Server.tick]

theorem environment_written {setup : Setup} {s s' : Server} {action : Server.Outside}
    (h : (handler setup).environment s action = some s') :
    s'.history.written = s.history.written := by
  cases action <;>
    simp only [handler, Server.outside, Option.map_if, Option.map_some, Option.ite_none_right_eq_some,
      Option.some.injEq] at h <;>
    grind [Server.tick]

theorem WritesDataPoints.congr {s s' : Server} (writes : WritesDataPoints s)
    (same : s'.history.written = s.history.written) : WritesDataPoints s' := by
  unfold WritesDataPoints
  rw [same]
  exact writes

theorem writes_store {setup : Setup} {t : Nat} {s s' : Server} {offset : Fin 7} {temps : Json}
    (writes : WritesDataPoints s) (entry : DataPoints temps)
    (h : (handler setup).handle t s (.store offset temps) = some ((), s')) : WritesDataPoints s' := by
  cases h
  intro x offset' w written
  by_cases mine : x = s.history.lockedAt
  · subst mine
    by_cases slot : offset' = offset
    · subst slot
      simp only [Server.tick, Function.update_self] at written
      cases written
      exact entry
    · simp only [Server.tick, Function.update_self, Function.update_of_ne slot] at written
      exact writes _ offset' w written
  · simp only [Server.tick, Function.update_of_ne mine] at written
    exact writes x offset' w written

theorem entry_obligations {setup : Setup} (hjobs : 1 ≤ setup.maxjobs) :
    Pool.Obligations ((handler setup).restrict (sizedRead setup)) entryProtocol WritesDataPoints
      ReadDataPoints where
  own := by
    intro t s temps call answer s' writes known allowed handled
    obtain ⟨sized, handled⟩ := Pool.restrict_handle handled
    cases call with
    | store offset entry =>
        refine ⟨writes_store writes ?_ handled, temps, rfl, known⟩
        cases allowed offset entry rfl with
        | inl empty => exact empty ▸ dataPoints_empty
        | inr read => exact known entry read
    | logFile2Json offset =>
        have writes' := writes.congr (handle_written handled (by intro _ _ same; cases same))
        have answered : answer = logFile2Json extractMatches setup.maxjobs (s.logs offset).join := by
          cases handled
          rfl
        cases answer with
        | error fault => exact ⟨writes', temps, rfl, known⟩
        | ok entry =>
            refine ⟨writes', some entry, rfl, ?_⟩
            intro entry' same
            cases same
            exact dataPoints_sized hjobs sized answered.symm
    | _ =>
        have same := handle_written handled (by intro _ _ same; cases same)
        exact ⟨writes.congr same, temps, rfl, known⟩
  others _ _ _ _ _ _ _ _ _ _ _ known _ _ := known
  environment := by
    intro s action s' writes moved
    have same : s'.history.written = s.history.written := environment_written moved
    exact ⟨writes.congr same, fun _ _ known => known⟩

theorem writes_of_reachable {setup : Setup} (hjobs : 1 ≤ setup.maxjobs)
    {s : Pool Call Answer Server (Except Fault Unit)} (reachable : (sizedServer setup).Reachable s) :
    WritesDataPoints s.shared := by
  refine (Pool.conforms_invariant (entry_obligations hjobs) ?_ reachable).1
  intro s started
  refine ⟨?_, ?_⟩
  · intro x offset w written
    rw [started.shared.history] at written
    cases written
  · intro t
    exact ⟨none, by simp [ReadDataPoints], entry_permits.threads started t none⟩

/-- An answer of seven arrays of data points. -/
def Response.Uniform (r : Response) : Prop :=
  ∃ entries : Fin 7 → Json, r.alltemps = .array (List.ofFn entries) ∧
    ∀ offset, DataPoints (entries offset)

/-- Over readable files `updateCache` makes every entry an array of data points exactly when
    every file that is there has a byte for every job.  In every run that reads only such
    files and in which no read raises, the entries are arrays of data points from the first
    update on, whenever the lock is free, and so is every part of every answer. -/
theorem entries_are_data_points {setup : Setup} (hjobs : 1 ≤ setup.maxjobs) :
    (∀ t s, s.cacheMutex = none → Readable s →
      ∃ s', updateCache.exec ((handler setup).handle t) s = some (.ok (), s') ∧
        ((∀ offset, DataPoints (s'.cache.data offset)) ↔ Sized setup s)) ∧
    ∀ s, (sizedServer setup).Reachable s → s.shared.history.raised = false →
      (s.shared.cacheMutex = none → s.shared.history.completed ≠ [] →
        ∀ offset, DataPoints (s.shared.cache.data offset)) ∧
      ∀ r ∈ s.shared.history.responses, r.Uniform := by
  refine ⟨fun t s unlocked readable => updateCache_dataPoints_iff hjobs unlocked readable, ?_⟩
  intro s reachable quietly
  have writes := writes_of_reachable hjobs reachable
  have consistent := consistent_of_reachable (Pool.reachable_of_restrict reachable) quietly
  constructor
  · intro free updated offset
    obtain ⟨x, earlier, completed⟩ := List.exists_cons_of_ne_nil updated
    have last : s.shared.history.completed.head? = some x := by
      rw [completed]
      rfl
    obtain ⟨w, written, same⟩ := consistent.clean free x last offset
    rw [← same]
    exact writes x offset w written
  · intro r member
    obtain ⟨x, -, -, w, written, alltemps, -⟩ := consistent.snapshots r member
    exact ⟨fun offset => (w offset).entry, alltemps,
      fun offset => writes x offset (w offset) (written offset)⟩

/-- A server whose log has a record. -/
def recordBoot : Pool Call Answer Server (Except Fault Unit) :=
  boot 1000 1000000 (fun offset => if offset = 0 then some (some recordAndComment) else none)
    fun _ => handleAllTempsRequest

theorem recordBoot_started : Started sampleSetup recordBoot :=
  boot_started (by decide) fun _ => .inl rfl

theorem recordBoot_sized : ((sizedServer sampleSetup).run recordBoot lateRequest).isSome := by
  decide +kernel

/-- The number of data points in the entry of the active log. -/
def Response.points (r : Response) : Nat :=
  match r.alltemps with
  | .array (.array points :: _) => points.length
  | _ => 0

theorem entries_are_data_points_record :
    (((sizedServer sampleSetup).run recordBoot lateRequest).get
      recordBoot_sized).shared.history.responses.map Response.points = [1] ∧
    ∀ r ∈ (((sizedServer sampleSetup).run recordBoot lateRequest).get
      recordBoot_sized).shared.history.responses, r.Uniform :=
  ⟨by decide +kernel,
    ((entries_are_data_points (by decide : 1 ≤ sampleSetup.maxjobs)).2 _
      (.get recordBoot_started recordBoot_sized) (by decide +kernel)).2⟩

/-- The first update, a rotation a day later, and a request. -/
def rotatedEmpty : List (Move Server.Outside) :=
  firstUpdate ++ .environment (.advance 86400) :: .environment (.rotate []) ::
    List.replicate 26 (.thread 1)

theorem rotatedEmpty_enabled : ((server sampleSetup).run sampleBoot rotatedEmpty).isSome := by
  decide

def Response.startsWithObject (r : Response) : Bool :=
  match r.alltemps with
  | .array (.object _ :: _) => true
  | _ => false

theorem not_uniform_of_object {r : Response} (object : r.startsWithObject = true) : ¬ r.Uniform := by
  intro uniform
  obtain ⟨entries, alltemps, shape⟩ := uniform
  obtain ⟨points, first⟩ := shape 0
  rw [Response.startsWithObject, alltemps, List.ofFn_succ, first] at object
  cases object

/-- The answer to a request after a rotation starts with the error object of the new log. -/
theorem empty_log_error_entry :
    ∃ s, (server sampleSetup).Reachable s ∧ s.shared.history.raised = false ∧
      ∃ r ∈ s.shared.history.responses, ¬ r.Uniform := by
  refine ⟨_, .get sampleBoot_started rotatedEmpty_enabled, by decide, ?_⟩
  have answered : (((server sampleSetup).run sampleBoot rotatedEmpty).get
      rotatedEmpty_enabled).shared.history.responses.any Response.startsWithObject = true := by
    decide
  obtain ⟨r, member, object⟩ := List.any_eq_true.mp answered
  exact ⟨r, member, not_uniform_of_object object⟩

end RpiFanServe.Cache
