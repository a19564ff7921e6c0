import RpiFanServe.Cache.Server

/-! # One execution of `updateCache`

Alone with a file system, `updateCache` is a function of the log files and the cache.
It overwrites the entries in place, day by day, and sets the stamp behind the last one,
so an execution that raises keeps the stamp and leaves the days before the first one
that raises.
-/

namespace RpiFanServe.Cache

open Prog Log CString

/-- What `updateCache` puts into the entry of a day, whose log file is `none` when it is
    missing. -/
def dayEntry (setup : Setup) : Option LogFile → Except Fault Json
  | none => .ok (.array [])
  | some file => logFile2Json extractMatches setup.maxjobs file

/-- How the loop over the day offsets ends, and what it leaves in the entries. -/
def refill (setup : Setup) (logs : Nat → Option LogFile) :
    List (Fin 7) → (Fin 7 → Json) → Except Fault Unit × (Fin 7 → Json)
  | [], data => (.ok (), data)
  | offset :: offsets, data =>
      match dayEntry setup (logs offset) with
      | .error fault => (.error fault, data)
      | .ok entry => refill setup logs offsets (Function.update data offset entry)

/-- How `updateCache` ends, and the cache that it leaves. -/
def refresh (setup : Setup) (s : Server) : Except Fault Unit × DaysDataCache :=
  match refill setup s.logs (List.finRange 7) s.cache.data with
  | (.error fault, data) => (.error fault, { s.cache with data })
  | (.ok (), data) => (.ok (), ⟨epochMinutes setup.ticksPerSecond s.clock, data⟩)

/-! ## The threads compute it -/

section Exec

variable (setup : Setup) (t : Nat)

theorem fill_exec (offsets : List (Fin 7)) (s : Server) :
    ∃ history, (fill offsets).exec ((handler setup).handle t) s =
      some ((refill setup s.logs offsets s.cache.data).1,
        { s with
          cache := { s.cache with data := (refill setup s.logs offsets s.cache.data).2 }
          history }) := by
  induction offsets generalizing s with
  | nil => exact ⟨s.history, rfl⟩
  | cons offset offsets ih =>
      unfold fill refill
      cases found : s.logs offset with
      | none =>
          simp only [perform_bind, exec, handler, Server.perform, Server.tick, Option.map_some,
            found, Option.isSome_none, dayEntry]
          exact ih _
      | some file =>
          cases read : logFile2Json extractMatches setup.maxjobs file with
          | error fault =>
              simp only [perform_bind, exec, handler, Server.perform, Server.tick, Option.map_some,
                found, Option.isSome_some, if_true, Option.join_some, dayEntry, read, pure_eq]
              exact ⟨_, rfl⟩
          | ok temps =>
              simp only [perform_bind, exec, handler, Server.perform, Server.tick, Option.map_some,
                found, Option.isSome_some, if_true, Option.join_some, dayEntry, read]
              exact ih _

theorem updateCache_exec {s : Server} (unlocked : s.cacheMutex = none) :
    ∃ history, updateCache.exec ((handler setup).handle t) s =
      some ((refresh setup s).1,
        { s with cache := (refresh setup s).2, cacheMutex := none, history }) := by
  have locked := handle_lock setup t unlocked
  obtain ⟨history, filled⟩ := fill_exec setup t (List.finRange 7)
    { s with
      cacheMutex := some t
      history := { s.history with lockedAt := s.history.turn, turn := s.history.turn + 1 } }
  unfold updateCache refresh
  simp only [perform_bind, exec, locked]
  rw [exec_bind filled]
  cases refilled : refill setup s.logs (List.finRange 7) s.cache.data with
  | mk outcome data =>
      cases outcome with
      | error fault => exact ⟨_, rfl⟩
      | ok _ => exact ⟨_, rfl⟩

end Exec

/-! ## What it leaves of the entries -/

section Refill

variable {setup : Setup} {logs : Nat → Option LogFile}

theorem refill_error {offsets : List (Fin 7)} {offset : Fin 7} {fault : Fault}
    (member : offset ∈ offsets) (raises : dayEntry setup (logs offset) = .error fault)
    (data : Fin 7 → Json) : ∃ fault, (refill setup logs offsets data).1 = .error fault := by
  induction offsets generalizing data with
  | nil => cases member
  | cons head offsets ih =>
      rw [refill]
      cases read : dayEntry setup (logs head) with
      | error fault => exact ⟨fault, rfl⟩
      | ok entry =>
          rcases List.mem_cons.mp member with rfl | member
          · rw [raises] at read
            cases read
          · exact ih member _

theorem refill_other {offsets : List (Fin 7)} {offset : Fin 7} (other : offset ∉ offsets)
    (data : Fin 7 → Json) : (refill setup logs offsets data).2 offset = data offset := by
  induction offsets generalizing data with
  | nil => rfl
  | cons head offsets ih =>
      rw [List.mem_cons, not_or] at other
      rw [refill]
      cases dayEntry setup (logs head) with
      | error fault => rfl
      | ok entry =>
          rw [ih other.2, Function.update_of_ne other.1]

theorem refill_ok {offsets : List (Fin 7)} {entry : Fin 7 → Json}
    (reads : ∀ offset ∈ offsets, dayEntry setup (logs offset) = .ok (entry offset))
    (data : Fin 7 → Json) : ∃ filled, refill setup logs offsets data = (.ok (), filled) ∧
      ∀ offset ∈ offsets, filled offset = entry offset := by
  induction offsets generalizing data with
  | nil => exact ⟨data, rfl, fun _ member => nomatch member⟩
  | cons head offsets ih =>
      obtain ⟨filled, ran, stored⟩ :=
        ih (fun offset member => reads offset (List.mem_cons_of_mem head member))
          (Function.update data head (entry head))
      have started : refill setup logs (head :: offsets) data = (.ok (), filled) := by
        rw [refill, reads head List.mem_cons_self]
        exact ran
      refine ⟨filled, started, ?_⟩
      intro offset member
      rcases Classical.em (offset ∈ offsets) with later | last
      · exact stored offset later
      · obtain rfl | later := List.mem_cons.mp member
        · have kept : (refill setup logs offsets (Function.update data offset (entry offset))).2
              offset = _ := refill_other last _
          rw [ran, Function.update_self] at kept
          exact kept
        · exact absurd later last

/-- When no day raises, the execution ends well with every entry that of its day. -/
theorem refresh_ok {s : Server} {entry : Fin 7 → Json}
    (reads : ∀ offset : Fin 7, dayEntry setup (s.logs offset) = .ok (entry offset)) :
    refresh setup s = (.ok (), ⟨epochMinutes setup.ticksPerSecond s.clock, entry⟩) := by
  obtain ⟨filled, ran, stored⟩ :=
    refill_ok (fun offset (_ : offset ∈ List.finRange 7) => reads offset) s.cache.data
  have same : filled = entry := funext fun offset => stored offset (List.mem_finRange offset)
  simp only [refresh, ran, same]

/-- A first day that does not raise leaves the entries as they were when it reads as the
    cache holds and the other days leave them as they were. -/
theorem refill_cons_unchanged {head : Fin 7} {offsets : List (Fin 7)} (absent : head ∉ offsets)
    {data : Fin 7 → Json} {entry : Json} :
    (refill setup logs offsets (Function.update data head entry)).2 = data ↔
      data head = entry ∧ (refill setup logs offsets data).2 = data := by
  have stored : (refill setup logs offsets (Function.update data head entry)).2 head = entry := by
    rw [refill_other absent, Function.update_self]
  constructor
  · intro same
    rw [same] at stored
    rw [← stored, Function.update_eq_self] at same
    exact ⟨stored, same⟩
  · intro held
    rw [← held.1, Function.update_eq_self]
    exact held.2

theorem forall_earlier_cons {head offset : Fin 7} {offsets : List (Fin 7)} {P : Fin 7 → Prop}
    (first : ∀ later ∈ offsets, head < later) (later : offset ∈ offsets) :
    (∀ earlier ∈ head :: offsets, earlier < offset → P earlier) ↔
      P head ∧ ∀ earlier ∈ offsets, earlier < offset → P earlier := by
  simp only [List.forall_mem_cons, first offset later, forall_const]

theorem forall_earlier_head {head : Fin 7} {offsets : List (Fin 7)} {P : Fin 7 → Prop}
    (first : ∀ later ∈ offsets, head < later) :
    ∀ earlier ∈ head :: offsets, earlier < head → P earlier := by
  intro earlier member before
  rcases List.mem_cons.mp member with rfl | later
  · exact absurd before (Nat.lt_irrefl _)
  · exact absurd before (Nat.lt_asymm (first earlier later))

/-- The loop leaves the entries as they were exactly when every day that it stores reads
    as the cache holds. -/
theorem refill_unchanged_iff {offsets : List (Fin 7)} (ordered : offsets.Pairwise (· < ·))
    (data : Fin 7 → Json) :
    (refill setup logs offsets data).2 = data ↔
      ∀ offset ∈ offsets,
        (∀ earlier ∈ offsets, earlier < offset → (dayEntry setup (logs earlier)).isOk) →
        ∀ entry, dayEntry setup (logs offset) = .ok entry → data offset = entry := by
  induction offsets generalizing data with
  | nil => simp [refill]
  | cons head offsets ih =>
      obtain ⟨first, ordered⟩ := List.pairwise_cons.mp ordered
      have absent : head ∉ offsets := fun member => Nat.lt_irrefl head (first head member)
      rw [refill, List.forall_mem_cons]
      cases read : dayEntry setup (logs head) with
      | error fault =>
          refine iff_of_true rfl ⟨fun _ _ reads => (nomatch reads), ?_⟩
          intro offset later before
          have ok := ((forall_earlier_cons first later).mp before).1
          rw [read] at ok
          cases ok
      | ok entry =>
          rw [refill_cons_unchanged absent, ih ordered]
          refine and_congr ?_ (forall₂_congr fun offset later => ?_)
          · constructor
            · intro held _ entry' reads
              cases reads
              exact held
            · intro held
              exact held (forall_earlier_head first) entry rfl
          · have ok : (dayEntry setup (logs head)).isOk := by
              rw [read]
              rfl
            rw [forall_earlier_cons first later, and_iff_right ok]

end Refill

/-! ## A failed refresh -/

/-- Every day before the first one whose reading raises reads as the cache holds it. -/
def HoldsReadDays (setup : Setup) (s : Server) : Prop :=
  ∀ offset : Fin 7,
    (∀ earlier : Fin 7, earlier < offset → (dayEntry setup (s.logs earlier)).isOk) →
    ∀ entry, dayEntry setup (s.logs offset) = .ok entry → s.cache.data offset = entry

/-- Where the reading of a day raises, so does `updateCache`; it leaves the cache as it was
    exactly when every day before the first one that raises reads as the cache holds it. -/
theorem failed_refresh_unchanged_iff {setup : Setup} {t : Nat} {s : Server} {offset : Fin 7}
    {fault : Fault} (unlocked : s.cacheMutex = none)
    (raises : dayEntry setup (s.logs offset) = .error fault) :
    ∃ fault s', updateCache.exec ((handler setup).handle t) s = some (.error fault, s') ∧
      ((s'.cache.data = s.cache.data ∧
          s'.cache.creationEpochMinutes = s.cache.creationEpochMinutes) ↔
        HoldsReadDays setup s) := by
  obtain ⟨history, ran⟩ := updateCache_exec setup t unlocked
  obtain ⟨fault, failed⟩ := refill_error (List.mem_finRange offset) raises s.cache.data
  have left : refresh setup s = (.error fault,
      { s.cache with data := (refill setup s.logs (List.finRange 7) s.cache.data).2 }) := by
    unfold refresh
    split
    · rename_i other data same
      rw [same] at failed ⊢
      cases failed
      rfl
    · rename_i data same
      rw [same] at failed
      cases failed
  rw [left] at ran
  refine ⟨fault, _, ran, ?_⟩
  have ordered : (List.finRange 7).Pairwise (· < ·) := List.pairwise_lt_finRange 7
  simp only [and_true, refill_unchanged_iff ordered, List.mem_finRange, forall_const, HoldsReadDays]

/-- The first update, a rotation, and a log of the day before that cannot be opened. -/
def rotatedLog : Bytes :=
  utf8 "2021-09-23T18:43:40+02:00 CPU is too high! with 63°C, Δ1°C, level is 4.\n"

def dayDenied : List (Move Server.Outside) :=
  firstUpdate ++ [.environment (.rotate rotatedLog), .environment (.deny 1)]

theorem dayDenied_enabled : ((server sampleSetup).run sampleBoot dayDenied).isSome := by
  decide

def deniedServer : Server := (((server sampleSetup).run sampleBoot dayDenied).get dayDenied_enabled).shared

theorem failed_refresh_unchanged_iff_day_denied :
    ∃ fault s', updateCache.exec ((handler sampleSetup).handle 1) deniedServer =
        some (.error fault, s') ∧
      ((s'.cache.data = deniedServer.cache.data ∧
          s'.cache.creationEpochMinutes = deniedServer.cache.creationEpochMinutes) ↔
        HoldsReadDays sampleSetup deniedServer) :=
  failed_refresh_unchanged_iff (by decide : deniedServer.cacheMutex = none)
    (rfl : dayEntry sampleSetup (deniedServer.logs (1 : Fin 7)) = .error .runtimeError)

/-- The new active log is in the cache, the day before it is still the old one. -/
theorem failed_refresh_mixes_days :
    deniedServer.cacheMutex = none ∧
      dayEntry sampleSetup (deniedServer.logs 1) = .error .runtimeError ∧
      ∃ fault s', updateCache.exec ((handler sampleSetup).handle 1) deniedServer =
          some (.error fault, s') ∧
        s'.cache.data 0 ≠ deniedServer.cache.data 0 := by
  have unlocked : deniedServer.cacheMutex = none := by decide
  refine ⟨unlocked, rfl, ?_⟩
  obtain ⟨history, ran⟩ := updateCache_exec sampleSetup 1 unlocked
  have raised : (refresh sampleSetup deniedServer).1 = .error .runtimeError := by decide
  rw [raised] at ran
  have stored : (refresh sampleSetup deniedServer).2.data 0 ≠ deniedServer.cache.data 0 := by
    intro same
    have points := congrArg (fun | Json.array items => items.length | _ => 0) same
    revert points
    decide
  exact ⟨_, _, ran, stored⟩

end RpiFanServe.Cache
