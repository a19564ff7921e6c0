import RpiFanServe.Cli.CommandLine
import RpiFanServe.Locker.Race
import RpiFanServe.Log.Jobs

/-! # The server's `main`

`main` of main.cc: the command line, the checks of the settings, the lock, the log
file and the number of jobs, in the order of the source.  The result of a run is
its exit status, or the configuration that it serves with, since the event loop of
the HTTP framework does not return while the server runs.

Any number of processes run it at the same time over one file system.
-/

namespace RpiFanServe.Cli

open CString Prog Locker

/-- How a run of `main` ends. -/
inductive Outcome where
  | exit (status : Nat)
  /-- An exception that nothing catches. -/
  | terminated
  /-- The configuration in `SharedConfig` with which the listener runs. -/
  | serving (port : CULong) (logFilePath : Bytes) (maxjobs : CULong)
  deriving DecidableEq

/-- The texts of the three settings, empty where one does not occur, or how `main` ends
    without them. -/
def settings (argv : List Bytes) : Except Outcome (Bytes × Bytes × Bytes) :=
  match program.parseArgs argv with
  | .error .help | .error .version => .error (.exit 0)
  | .error (.runtimeError _) => .error (.exit 1)
  | .error _ => .error .terminated
  | .ok program =>
      match program.present (utf8 "-p"), program.present (utf8 "-l"),
        program.present (utf8 "-j") with
      | .ok portStr, .ok logFilePath, .ok maxJobsStr =>
          .ok (portStr.getD [], logFilePath.getD [], maxJobsStr.getD [])
      | _, _, _ => .error .terminated

/-- The part of `main` that reads the port; `none` is the exit with status 1. -/
def parsePort (portStr : Bytes) : Option CULong :=
  match stoul portStr with
  | .error _ => none
  | .ok port => if port < 1000 ∨ port > 100000 then none else some port

/-- `main`; `logExists` is what `std::filesystem::exists` finds when it is asked for the log
    file, and a failure is thrown. -/
def main (logExists : Bytes → FsAnswer) (argv : List Bytes) : Locking Outcome :=
  match settings argv with
  | .error outcome => return outcome
  | .ok (portStr, logFilePath, maxJobsStr) =>
      if portStr = [] ∨ logFilePath = [] ∨ maxJobsStr = [] then return .exit 1
      else
        match parsePort portStr with
        | none => return .exit 1
        | some port => do
            let (locked, _) ← checkAndTryLock (.lock .server) (-1)
            if !locked then return .exit 1
            else
              match logExists logFilePath with
              | .failed _ => return .terminated
              | .no => return .exit 1
              | .yes =>
                  match Log.parseMaxJobs maxJobsStr with
                  | none => return .exit 1
                  | some maxjobs => return .serving port logFilePath maxjobs

/-! ## The settings -/

/-- The texts that the command line gives the settings, empty where one does not occur. -/
def Texts (words : List Bytes) (text : Setting → Bytes) : Prop :=
  ∃ parts, Parts words parts ∧
    ∀ setting, text setting = ((parts.flatMap Part.settings).lookup setting).getD []

theorem shorts : utf8 "-p" = Setting.port.short ∧ utf8 "-l" = Setting.logFile.short ∧
    utf8 "-j" = Setting.maxJobs.short := by
  decide

theorem settings_eq {name : Bytes} {words : List Bytes} {q : ArgumentParser Empty}
    (parsed : program.parseArgs (name :: words) = .ok q) {answer : Setting → Option Bytes}
    (present : ∀ setting : Setting, q.present setting.short = .ok (answer setting)) :
    settings (name :: words) = .ok ((answer .port).getD [], (answer .logFile).getD [],
      (answer .maxJobs).getD []) := by
  obtain ⟨p, l, j⟩ := shorts
  unfold settings
  rw [parsed, p, l, j]
  dsimp only
  rw [present, present, present]

theorem settings_ok_iff {name : Bytes} {words : List Bytes} {texts : Bytes × Bytes × Bytes} :
    settings (name :: words) = .ok texts ↔
      ∃ text, Texts words text ∧ texts = (text .port, text .logFile, text .maxJobs) := by
  constructor
  · intro found
    cases parsed : program.parseArgs (name :: words) with
    | error stop =>
        unfold settings at found
        rw [parsed] at found
        cases stop <;> cases found
    | ok q =>
        obtain ⟨parts, made, present⟩ := parts_of_parsed parsed
        rw [settings_eq parsed present] at found
        cases found
        exact ⟨fun setting => ((parts.flatMap Part.settings).lookup setting).getD [],
          ⟨parts, made, fun _ => rfl⟩, rfl⟩
  · rintro ⟨text, ⟨parts, made, same⟩, rfl⟩
    obtain ⟨q, parsed, present⟩ := parsed_of_parts name made
    rw [settings_eq parsed present, same, same, same]

/-! ## The lock of a process that serves -/

section Conforms

variable {v : View}

theorem keeps_passed (v : View) (call : FsCall) (r : Answer call) (v' : View)
    (passed : v.passed = true) (next : (lockProtocol .server).next v call r v') :
    v'.passed = true := by
  cases call with
  | fileExists path | openCreate path =>
      have same : v'.passed = v.passed := by
        rw [show v' = _ from next]
        split <;> rfl
      rw [same, passed]
  | hasType kind path | permissions path =>
      rw [show v' = v from next.1, passed]
  | removeAll path | createDirectory path =>
      rw [show v' = v from next, passed]
  | flock fd =>
      rw [show v' = _ from next, passed, Bool.true_or]
  | close fd =>
      rw [show v' = { v with socketFd := none } from next, passed]

/-- A result other than -1 comes from a lock that `flock` granted. -/
theorem tryLock_passes (unlocked : v.passed = false) :
    (tryLock (.lock .server)).Conforms (lockProtocol .server)
      (fun v rc => rc ≠ -1 → v.passed = true) v := by
  apply Conforms.bind
  apply (cleanLock_conforms unlocked).mono
  intro v₁ _ unlocked
  apply Conforms.perform fun _ => unlocked
  rintro fd v₂ rfl
  rw [if_pos rfl]
  cases fd with
  | none => exact fun held => absurd rfl held
  | some fd =>
      apply Conforms.perform rfl
      rintro locked v₃ rfl
      cases locked with
      | true => exact fun _ => Bool.or_true _
      | false => exact fun held => absurd rfl held

theorem checkAndTryLock_passes (unlocked : v.passed = false) :
    (checkAndTryLock (.lock .server) (-1)).Conforms (lockProtocol .server)
      (fun v result => result.1 = true → v.passed = true) v := by
  unfold checkAndTryLock
  rw [if_neg (by simp)]
  apply Conforms.bind
  apply (tryLock_passes unlocked).mono
  intro v₁ rc passed
  split
  · exact fun ready => absurd ready Bool.false_ne_true
  · rename_i held
    apply Conforms.bind
    apply (checkCleanSocket_conforms.keep (passed held) keeps_passed).mono
    intro v₂ ready kept _
    exact kept.1

end Conforms

/-- The configuration comes from the command line and passed every check. -/
structure Configured (logExists : Bytes → FsAnswer) (words : List Bytes) (port : CULong)
    (logFilePath : Bytes) (maxjobs : CULong) : Prop where
  texts : ∃ text, Texts words text ∧ stoul (text .port) = .ok port ∧ text .logFile = logFilePath ∧
    stoul (text .maxJobs) = .ok maxjobs
  port_range : 1000 ≤ port.toNat ∧ port.toNat ≤ 100000
  named : logFilePath ≠ []
  there : logExists logFilePath = .yes
  jobs_range : maxjobs.toNat ≤ 10000

theorem parsePort_eq_some {portStr : Bytes} {port : CULong} :
    parsePort portStr = some port ↔
      stoul portStr = .ok port ∧ 1000 ≤ port.toNat ∧ port.toNat ≤ 100000 := by
  unfold parsePort
  cases read : stoul portStr with
  | error fault => simp
  | ok n =>
      have low : n < 1000 ↔ n.toNat < 1000 := BitVec.lt_def
      have high : n > 100000 ↔ 100000 < n.toNat := BitVec.lt_def
      dsimp only
      split_ifs with outside <;> rw [low, high] at outside
      · simp only [false_iff, Except.ok.injEq]
        rintro ⟨rfl, _, _⟩
        omega
      · simp only [Option.some.injEq, Except.ok.injEq]
        constructor
        · rintro rfl
          exact ⟨rfl, by omega, by omega⟩
        · exact fun same => same.1

theorem parseMaxJobs_eq_some {maxJobsStr : Bytes} {maxjobs : CULong} :
    Log.parseMaxJobs maxJobsStr = some maxjobs ↔
      stoul maxJobsStr = .ok maxjobs ∧ maxjobs.toNat ≤ 10000 := by
  unfold Log.parseMaxJobs
  cases read : stoul maxJobsStr with
  | error fault => rcases stoul_fault read with rfl | rfl <;> simp
  | ok n =>
      have high : n > 10000 ↔ 10000 < n.toNat := BitVec.lt_def
      dsimp only
      split_ifs with large <;> rw [high] at large
      · simp only [false_iff, Except.ok.injEq]
        rintro ⟨rfl, _⟩
        omega
      · simp only [Option.some.injEq, Except.ok.injEq]
        constructor
        · rintro rfl
          exact ⟨rfl, by omega⟩
        · exact fun same => same.1

theorem settings_error {argv : List Bytes} {outcome : Outcome}
    (ended : settings argv = .error outcome) : ∀ port logFilePath maxjobs,
      outcome ≠ .serving port logFilePath maxjobs := by
  intro port logFilePath maxjobs serving
  subst serving
  unfold settings at ended
  split at ended
  · cases ended
  · cases ended
  · cases ended
  · cases ended
  · split at ended <;> cases ended

theorem main_configured {logExists : Bytes → FsAnswer} {words : List Bytes} {port maxjobs : CULong}
    {logFilePath : Bytes} (configured : Configured logExists words port logFilePath maxjobs)
    (name : Bytes) :
    main logExists (name :: words) =
      (checkAndTryLock (.lock .server) (-1) >>= fun result =>
        if result.1 then return .serving port logFilePath maxjobs else return .exit 1) := by
  obtain ⟨text, texts, read, rfl, jobs⟩ := configured.texts
  have found : settings (name :: words) = .ok (text .port, text .logFile, text .maxJobs) :=
    settings_ok_iff.mpr ⟨text, texts, rfl⟩
  have no_port : text .port ≠ [] := by
    intro empty
    rw [empty] at read
    cases read
  have no_jobs : text .maxJobs ≠ [] := by
    intro empty
    rw [empty] at jobs
    cases jobs
  have port_read := parsePort_eq_some.mpr ⟨read, configured.port_range⟩
  have jobs_read := parseMaxJobs_eq_some.mpr ⟨jobs, configured.jobs_range⟩
  unfold main
  rw [found]
  simp only [no_port, no_jobs, configured.named, or_self, if_false, port_read, jobs_read,
    configured.there]
  congr 1
  funext result
  obtain ⟨locked, fd⟩ := result
  cases locked <;> rfl

theorem main_conforms (logExists : Bytes → FsAnswer) (name : Bytes) (words : List Bytes) {v : View}
    (unlocked : v.passed = false) :
    (main logExists (name :: words)).Conforms (lockProtocol .server)
      (fun v outcome => ∀ port logFilePath maxjobs, outcome = .serving port logFilePath maxjobs →
        v.passed = true ∧ Configured logExists words port logFilePath maxjobs) v := by
  unfold main
  split
  · rename_i outcome ended
    intro port logFilePath maxjobs serving
    exact absurd serving (settings_error ended port logFilePath maxjobs)
  · rename_i portStr logFilePath maxJobsStr found
    split
    · intro _ _ _ serving
      cases serving
    · rename_i given
      split
      · intro _ _ _ serving
        cases serving
      · rename_i port read
        apply Conforms.bind
        apply (checkAndTryLock_passes unlocked).mono
        intro v₁ result passed
        obtain ⟨locked, fd⟩ := result
        dsimp only
        cases locked with
        | false =>
            intro _ _ _ serving
            cases serving
        | true =>
            simp only [Bool.not_true, Bool.false_eq_true, if_false]
            split
            · intro _ _ _ serving
              cases serving
            · intro _ _ _ serving
              cases serving
            · rename_i there
              split
              · intro _ _ _ serving
                cases serving
              · rename_i maxjobs jobs
                intro _ _ _ serving
                cases serving
                obtain ⟨text, texts, same⟩ := settings_ok_iff.mp found
                cases same
                obtain ⟨port_read, port_range⟩ := parsePort_eq_some.mp read
                obtain ⟨jobs_read, jobs_range⟩ := parseMaxJobs_eq_some.mp jobs
                exact ⟨passed rfl, ⟨text, texts, port_read, rfl, jobs_read⟩, port_range,
                  fun empty => given (.inr (.inl empty)), there, jobs_range⟩

/-! ## Any number of servers -/

/-- Processes that run `main`, each with its own command line, started in the world `w`. -/
def servers (logExists : Nat → Bytes → FsAnswer) (name : Bytes) (words : Nat → List Bytes)
    (w : World) : StepMachine (Pool FsCall Answer World Outcome) (Move Nat) :=
  Pool.machine handler fun s =>
    s.shared = w ∧ ∀ p, s.threads p = main (logExists p) (name :: words p)

/-- Started over a lock file that is absent or good, any number of processes with any command
    lines have in every interleaving at most one that is alive and serves, and whichever
    serves has settings from its command line that passed every check.  With such settings a
    process serves exactly when it gets the lock and a clean socket. -/
theorem servers_exclusive {logExists : Nat → Bytes → FsAnswer} {name : Bytes}
    {words : Nat → List Bytes} {w : World} (booted : Booted w) (safe : SafeLock .server w)
    {s : Pool FsCall Answer World Outcome}
    (reached : (servers logExists name words w).Reachable s) :
    (∀ p q port port' log log' jobs jobs', s.shared.kernel.alive p = true →
      s.shared.kernel.alive q = true → s.threads p = .ret (.serving port log jobs) →
      s.threads q = .ret (.serving port' log' jobs') → p = q) ∧
    (∀ p port log jobs, s.shared.kernel.alive p = true →
      s.threads p = .ret (.serving port log jobs) →
      Configured (logExists p) (words p) port log jobs) ∧
    ∀ p port log jobs, Configured (logExists p) (words p) port log jobs →
      main (logExists p) (name :: words p) =
        (checkAndTryLock (.lock .server) (-1) >>= fun result =>
          if result.1 then return .serving port log jobs else return .exit 1) := by
  have conforming : Pool.ConformingTo (lockProtocol .server)
      (fun p v outcome => ∀ port logFilePath maxjobs,
        outcome = .serving port logFilePath maxjobs →
          v.passed = true ∧ Configured (logExists p) (words p) port logFilePath maxjobs)
      (Guarded .server) (Tied .server) s := by
    apply Pool.conformingTo_invariant lock_obligations _ reached
    rintro s ⟨rfl, threads⟩
    refine ⟨⟨booted.fresh, booted.umask, safe⟩, fun p => ?_⟩
    refine ⟨⟨false, none, none, false⟩, fun _ => ?_, threads p ▸ main_conforms _ _ _ rfl⟩
    exact ⟨nofun, nofun, nofun, booted.passed p, nofun⟩
  have exclusive : Exclusive s.shared := by
    apply exclusive_of_knows
    intro p alive
    obtain ⟨v, tied, -⟩ := conforming.2 p
    exact ⟨v, tied alive⟩
  refine ⟨?_, ?_, fun p port log jobs configured => main_configured configured name⟩
  · intro p q port port' log log' jobs jobs' aliveP aliveQ servesP servesQ
    obtain ⟨u, tiedP, endP⟩ := conforming.ended servesP
    obtain ⟨v, tiedQ, endQ⟩ := conforming.ended servesQ
    have passedP := (tiedP aliveP).passed.trans (endP port log jobs rfl).1
    have passedQ := (tiedQ aliveQ).passed.trans (endQ port' log' jobs' rfl).1
    exact exclusive p q aliveP aliveQ passedP passedQ
  · intro p port log jobs _ serves
    obtain ⟨v, -, ended⟩ := conforming.ended serves
    exact (ended port log jobs rfl).2

def sampleWords : List Bytes :=
  [utf8 "--port", utf8 "8080", utf8 "-lj", utf8 "/var/log/fan.log", utf8 "4"]

/-- Processes with one command line. -/
def sampleServers : StepMachine (Pool FsCall Answer World Outcome) (Move Nat) :=
  servers (fun _ _ => .yes) (utf8 "rpi-fan-serve") (fun _ => sampleWords) (worldWith none)

def sampleStart : Pool FsCall Answer World Outcome where
  shared := worldWith none
  threads := fun _ => main (fun _ => .yes) (utf8 "rpi-fan-serve" :: sampleWords)

/-- The first one begins to serve before the second one tries to. -/
def secondRefused : List (Move Nat) :=
  List.replicate 8 (.thread 0) ++ List.replicate 5 (.thread 1)

theorem secondRefused_enabled : (sampleServers.run sampleStart secondRefused).isSome := by
  rfl

theorem servers_exclusive_sample : ∃ s, sampleServers.Reachable s ∧
    s.threads 0 = .ret (.serving 8080 (utf8 "/var/log/fan.log") 4) ∧
    s.threads 1 = .ret (.exit 1) ∧
    (∀ q port log jobs, s.shared.kernel.alive q = true →
      s.threads q = .ret (.serving port log jobs) → 0 = q) ∧
    Configured (fun _ => .yes) sampleWords 8080 (utf8 "/var/log/fan.log") 4 := by
  have init : sampleServers.init sampleStart := ⟨rfl, fun _ => rfl⟩
  have reached := StepMachine.Reachable.get init secondRefused_enabled
  have safe : SafeLock .server (worldWith none) := fun _ found => nomatch found
  obtain ⟨alone, configured, -⟩ := servers_exclusive (worldWith_booted none) safe reached
  refine ⟨_, reached, rfl, rfl, ?_, configured 0 _ _ _ rfl rfl⟩
  intro q port log jobs alive serves
  exact alone 0 q _ port _ log _ jobs rfl alive rfl serves

end RpiFanServe.Cli
