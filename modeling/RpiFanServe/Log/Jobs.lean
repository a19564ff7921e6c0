import RpiFanServe.Log.Malformed

/-! # The number of jobs

`main` admits any number of jobs up to ten thousand, and `logFile2Json` divides the
size of the file by it.  The quotient also serves as the test for an empty file, so a
file is parsed only when it has as many bytes as there are jobs, and there is one.
-/

namespace RpiFanServe.Log

open CString

/-- The part of `main` that reads `--max-jobs`; `none` is the exit with status 1. -/
def parseMaxJobs (maxJobsStr : Bytes) : Option CULong :=
  match stoul maxJobsStr with
  | .error .invalidArgument => none
  | .error .outOfRange => none
  | .error _ => none
  | .ok maxjobs => if maxjobs > 10000 then none else some maxjobs

/-- No division by zero, not the answer for an empty file, but the data points of the
    lines in file order. -/
def ParsesLines (maxjobs : Nat) (content : Bytes) : Prop :=
  logFile2Json extractMatches maxjobs (some content) ≠ .error .divisionByZero ∧
    logFile2Json extractMatches maxjobs (some content) ≠
      .ok (jsonError (utf8 "Log file is empty.")) ∧
    logFile2Json extractMatches maxjobs (some content) =
      .ok (.array (((getlines content).filterMap accepted).map TempDataPoint2Json))

theorem parsesLines_of_array {maxjobs : Nat} {content : Bytes}
    (parsed : logFile2Json extractMatches maxjobs (some content) =
      .ok (.array (((getlines content).filterMap accepted).map TempDataPoint2Json))) :
    ParsesLines maxjobs content := by
  refine ⟨?_, ?_, parsed⟩ <;> rw [parsed] <;> exact nofun

theorem parsesLines_iff_complete {maxjobs : Nat} {content : Bytes} :
    ParsesLines maxjobs content ↔
      1 ≤ maxjobs ∧ maxjobs ≤ content.length ∧ ∀ line ∈ getlines content, Complete line := by
  constructor
  · intro parses
    obtain ⟨divides, not_empty, parsed⟩ := parses
    have hjobs : 1 ≤ maxjobs := by
      by_contra none
      obtain rfl : maxjobs = 0 := by omega
      exact divides rfl
    have hsize : maxjobs ≤ content.length := by
      by_contra small
      exact not_empty (logFile2Json_small extractMatches (Nat.lt_of_not_le small))
    refine ⟨hjobs, hsize, linesChunk2TempsChunk_ok_iff.mp ?_⟩
    rw [logFile2Json_eq extractMatches hjobs hsize] at parsed
    cases chunk : linesChunk2TempsChunk extractMatches (getlines content) with
    | ok temps => exact ⟨temps, rfl⟩
    | error fault =>
        rw [chunk] at parsed
        cases parsed
  · intro sized
    obtain ⟨hjobs, hsize, complete⟩ := sized
    apply parsesLines_of_array
    rw [logFile2Json_eq extractMatches hjobs hsize, linesChunk2TempsChunk_complete complete]
    rfl

theorem parseMaxJobs_le {maxJobsStr : Bytes} {maxjobs : CULong}
    (admitted : parseMaxJobs maxJobsStr = some maxjobs) : maxjobs.toNat ≤ 10000 := by
  unfold parseMaxJobs at admitted
  split at admitted
  · cases admitted
  · cases admitted
  · cases admitted
  · split_ifs at admitted with large
    cases admitted
    rw [gt_iff_lt, BitVec.lt_def, not_lt] at large
    exact large

/-- For every number of jobs that `main` admits, none of which exceeds ten thousand, a file
    is parsed exactly when there is a job and a byte for every job, and no line raises. -/
theorem parsesLines_iff {maxJobsStr : Bytes} {maxjobs : CULong} {content : Bytes}
    (admitted : parseMaxJobs maxJobsStr = some maxjobs) :
    maxjobs.toNat ≤ 10000 ∧
      (ParsesLines maxjobs.toNat content ↔
        1 ≤ maxjobs.toNat ∧ maxjobs.toNat ≤ content.length ∧
          ∀ line ∈ getlines content, Complete line) :=
  ⟨parseMaxJobs_le admitted, parsesLines_iff_complete⟩

/-- Two jobs for a log of one comment line. -/
theorem parsesLines_iff_two_jobs :
    (2 : CULong).toNat ≤ 10000 ∧
      (ParsesLines (2 : CULong).toNat (utf8 "# fan\n") ↔
        1 ≤ (2 : CULong).toNat ∧ (2 : CULong).toNat ≤ (utf8 "# fan\n").length ∧
          ∀ line ∈ getlines (utf8 "# fan\n"), Complete line) :=
  parsesLines_iff (by decide : parseMaxJobs (utf8 "2") = some 2)

/-- `--max-jobs 0` is admitted, and every file then divides by zero. -/
theorem no_jobs_divide_by_zero :
    parseMaxJobs (utf8 "0") = some 0 ∧ ¬ ParsesLines (0 : CULong).toNat (utf8 "# fan\n") ∧
      logFile2Json extractMatches (0 : CULong).toNat (some (utf8 "# fan\n")) =
        .error .divisionByZero := by
  refine ⟨by decide, ?_, rfl⟩
  intro parses
  exact parses.1 rfl

end RpiFanServe.Log
