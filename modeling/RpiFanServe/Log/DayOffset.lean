import RpiFanServe.Log.File

/-! # Requests for one day

`handleTempsRequest` and `offset2LogFilePath` of TempsCtrl.cc.  The day comes as
text; the path is rebuilt from the number that `stoul` makes of it, so a request
is served whenever the log file of that number exists.
-/

namespace RpiFanServe.Log

open CString

/-- The log files as the process finds them, by absolute path.  A file that is there
    holds `none` when it cannot be opened. -/
structure Files where
  cwd : Bytes
  rooted : cwd.head? = some 47
  content : Bytes → Option (Option Bytes)

/-- `std::filesystem::absolute` -/
def Files.absolute (files : Files) (path : Bytes) : Bytes :=
  if path.head? = some 47 then path else files.cwd ++ utf8 "/" ++ path

/-- The file that a path names; an empty path names none. -/
def Files.find (files : Files) (path : Bytes) : Option (Option Bytes) :=
  if path = [] then none else files.content (files.absolute path)

/-- The members of `SharedConfig`. -/
structure SharedConfig where
  logFilePath : Bytes
  maxjobs : Nat

def offset2LogFilePath (config : SharedConfig) (files : Files) (dayOffset : CULong) : Bytes :=
  let logFilePath :=
    if dayOffset > 0 then config.logFilePath ++ utf8 "." ++ decimal dayOffset.toNat
    else config.logFilePath
  if (files.find logFilePath).isSome then files.absolute logFilePath else []

/-- What the callback of a request for one day is given. -/
inductive TempsResponse where
  /-- What `logFile2Json` returned for the file. -/
  | temps (logFilePath : Bytes) (temps : Json)
  /-- `jsonErrorResponse` -/
  | error (errorMsg : Bytes)

/-- `handleTempsRequest`, with what `logFile2Json` raises. -/
def handleTempsRequest (config : SharedConfig) (files : Files) (dayOffset : Bytes) :
    Except Fault TempsResponse :=
  match stoul dayOffset with
  | .error .invalidArgument => .ok (.error (utf8 "Invalid day offset `" ++ dayOffset ++ utf8 "`."))
  | .error .outOfRange => .ok (.error (utf8 "Out of range day offset `" ++ dayOffset ++ utf8 "`."))
  | .error fault => .error fault
  | .ok intDayOffset =>
      let logFilePath := offset2LogFilePath config files intDayOffset
      if logFilePath ≠ [] then
        match logFile2Json extractMatches config.maxjobs (files.find logFilePath).join with
        | .error fault => .error fault
        | .ok temps => .ok (.temps logFilePath temps)
      else .ok (.error (utf8 "Log file " ++ dayOffset ++ utf8 " doesn't exist"))

/-! ## The file of a day -/

/-- The name of the log of the `n`th day back. -/
def dayLog (config : SharedConfig) (n : Nat) : Bytes :=
  if n = 0 then config.logFilePath else config.logFilePath ++ utf8 "." ++ decimal n

/-- The text is an unsigned decimal number. -/
def DayNumber (dayOffset : Bytes) (n : Nat) : Prop :=
  dayOffset ≠ [] ∧ (∀ c ∈ dayOffset, isDigit c = true) ∧ digitsVal dayOffset = n

/-- `stoul` makes `n` of the text, but passes over white space, a sign or what
    follows the number. -/
def LooseDay (dayOffset : Bytes) (n : CULong) : Prop :=
  ∃ space sign digits rest, IntegerPrefix dayOffset space sign digits rest ∧
    digitsVal digits < 2 ^ 64 ∧ n = BitVec.ofInt 64 (signedVal sign digits) ∧
    (space ≠ [] ∨ sign ≠ [] ∨ rest ≠ [])

/-- A request is answered with a log file only for an unsigned decimal number, with
    the file of that day, and with an error object for any other text. -/
def ServesDays (config : SharedConfig) (files : Files) (dayOffset : Bytes) : Prop :=
  (∀ path temps, handleTempsRequest config files dayOffset = .ok (.temps path temps) →
    ∃ n < 2 ^ 64, DayNumber dayOffset n ∧ path = files.absolute (dayLog config n) ∧
      logFile2Json extractMatches config.maxjobs (files.find path).join = .ok temps) ∧
  ((¬ ∃ n < 2 ^ 64, DayNumber dayOffset n) →
    ∃ errorMsg, handleTempsRequest config files dayOffset = .ok (.error errorMsg))

section Request

variable {config : SharedConfig} {files : Files} {dayOffset : Bytes}

theorem Files.absolute_ne_nil {path : Bytes} (present : (files.find path).isSome) :
    files.absolute path ≠ [] := by
  have named : path ≠ [] := by
    intro empty
    subst empty
    cases present
  unfold absolute
  split
  · exact named
  · simp [named]

theorem offset2LogFilePath_eq (config : SharedConfig) (files : Files) (n : CULong) :
    offset2LogFilePath config files n =
      if (files.find (dayLog config n.toNat)).isSome then files.absolute (dayLog config n.toNat)
      else [] := by
  have zero : n > 0 ↔ n.toNat ≠ 0 := by
    rw [gt_iff_lt, BitVec.lt_def]
    exact Nat.pos_iff_ne_zero
  have same : (if n > 0 then config.logFilePath ++ utf8 "." ++ decimal n.toNat
      else config.logFilePath) = dayLog config n.toNat := by
    simp only [dayLog, zero, ne_eq, ite_not]
  simp only [offset2LogFilePath, same]

theorem handleTempsRequest_missing {n : CULong} (read : stoul dayOffset = .ok n)
    (missing : files.find (dayLog config n.toNat) = none) :
    ∃ errorMsg, handleTempsRequest config files dayOffset = .ok (.error errorMsg) := by
  have path : offset2LogFilePath config files n = [] := by
    rw [offset2LogFilePath_eq, missing]
    rfl
  simp only [handleTempsRequest, read, path, ne_eq, not_true_eq_false, if_false]
  exact ⟨_, rfl⟩

theorem handleTempsRequest_present {n : CULong} (read : stoul dayOffset = .ok n)
    (present : (files.find (dayLog config n.toNat)).isSome) :
    handleTempsRequest config files dayOffset =
      (logFile2Json extractMatches config.maxjobs
        (files.find (files.absolute (dayLog config n.toNat))).join).map
          (.temps (files.absolute (dayLog config n.toNat))) := by
  have path : offset2LogFilePath config files n = files.absolute (dayLog config n.toNat) := by
    rw [offset2LogFilePath_eq, if_pos present]
  simp only [handleTempsRequest, read, path]
  rw [if_pos (Files.absolute_ne_nil present)]
  cases logFile2Json extractMatches config.maxjobs
    (files.find (files.absolute (dayLog config n.toNat))).join <;> rfl

theorem handleTempsRequest_refused {fault : Fault} (refused : stoul dayOffset = .error fault) :
    ∃ errorMsg, handleTempsRequest config files dayOffset = .ok (.error errorMsg) := by
  unfold handleTempsRequest
  rw [refused]
  rcases stoul_fault refused with rfl | rfl <;> exact ⟨_, rfl⟩

theorem DayNumber.integerPrefix {n : Nat} (number : DayNumber dayOffset n) :
    IntegerPrefix dayOffset [] [] dayOffset [] where
  split := by simp
  blank := by simp
  signed := .inl rfl
  some_digit := number.1
  run := number.2.1
  maximal := by simp

theorem handleTempsRequest_served {n : CULong} (read : stoul dayOffset = .ok n)
    (present : (files.find (dayLog config n.toNat)).isSome) {response : TempsResponse}
    (served : handleTempsRequest config files dayOffset = .ok response) :
    ∃ temps, response = .temps (files.absolute (dayLog config n.toNat)) temps ∧
      logFile2Json extractMatches config.maxjobs
        (files.find (files.absolute (dayLog config n.toNat))).join = .ok temps := by
  rw [handleTempsRequest_present read present] at served
  cases answer : logFile2Json extractMatches config.maxjobs
      (files.find (files.absolute (dayLog config n.toNat))).join with
  | error fault =>
      rw [answer] at served
      cases served
  | ok temps =>
      rw [answer] at served
      cases served
      exact ⟨temps, rfl, rfl⟩

theorem LooseDay.read {n : CULong} (loose : LooseDay dayOffset n) : stoul dayOffset = .ok n := by
  obtain ⟨space, sign, digits, rest, found, range, value, -⟩ := loose
  exact stoul_eq_ok.mpr ⟨space, sign, digits, rest, found, range, value⟩

theorem LooseDay.not_number {n : CULong} {m : Nat} (loose : LooseDay dayOffset n) :
    ¬ DayNumber dayOffset m := by
  obtain ⟨space, sign, digits, rest, found, -, -, extra⟩ := loose
  intro number
  obtain ⟨rfl, rfl, -, rfl⟩ := found.unique number.integerPrefix
  simp at extra

/-- What `stoul` reads without passing over a part of the text is the number. -/
theorem dayNumber_of_strict {n : CULong} (read : stoul dayOffset = .ok n)
    (strict : ¬ LooseDay dayOffset n) : DayNumber dayOffset n.toNat := by
  obtain ⟨space, sign, digits, rest, found, range, value⟩ := stoul_eq_ok.mp read
  have plain : space = [] ∧ sign = [] ∧ rest = [] := by
    by_contra extra
    apply strict ⟨space, sign, digits, rest, found, range, value, ?_⟩
    grind
  obtain ⟨rfl, rfl, rfl⟩ := plain
  have whole : dayOffset = digits := by simpa using found.split
  subst whole
  have number : n.toNat = digitsVal dayOffset := by
    rw [value]
    simpa [signedVal] using range
  exact ⟨found.some_digit, found.run, number.symm⟩

theorem servesDays_refused
    (refused : ∃ errorMsg, handleTempsRequest config files dayOffset = .ok (.error errorMsg)) :
    ServesDays config files dayOffset := by
  refine ⟨?_, fun _ => refused⟩
  intro path temps served
  obtain ⟨errorMsg, refused⟩ := refused
  rw [refused] at served
  cases served

theorem servesDays_number {n : CULong} (read : stoul dayOffset = .ok n)
    (day : DayNumber dayOffset n.toNat) (present : (files.find (dayLog config n.toNat)).isSome) :
    ServesDays config files dayOffset := by
  constructor
  · intro path temps served
    obtain ⟨temps, same, answer⟩ := handleTempsRequest_served read present served
    cases same
    exact ⟨n.toNat, n.isLt, day, rfl, answer⟩
  · intro other
    exact absurd ⟨n.toNat, n.isLt, day⟩ other

end Request

/-- Requests are served as they should be exactly when the text is not one that
    `stoul` passes over parts of while the log file of the number it makes of the
    rest exists. -/
theorem servesDays_iff (config : SharedConfig) (files : Files) (dayOffset : Bytes) :
    ServesDays config files dayOffset ↔
      ∀ n, LooseDay dayOffset n → files.find (dayLog config n.toNat) = none := by
  constructor
  · intro serves n loose
    by_contra there
    have other : ¬ ∃ m < 2 ^ 64, DayNumber dayOffset m := by
      intro number
      obtain ⟨m, -, number⟩ := number
      exact loose.not_number number
    obtain ⟨errorMsg, refused⟩ := serves.2 other
    obtain ⟨temps, same, -⟩ :=
      handleTempsRequest_served loose.read (Option.ne_none_iff_isSome.mp there) refused
    cases same
  · intro strict
    cases read : stoul dayOffset with
    | error fault => exact servesDays_refused (handleTempsRequest_refused read)
    | ok n =>
        by_cases missing : files.find (dayLog config n.toNat) = none
        · exact servesDays_refused (handleTempsRequest_missing read missing)
        · have day := dayNumber_of_strict read fun loose => missing (strict n loose)
          exact servesDays_number read day (Option.ne_none_iff_isSome.mp missing)

/-- A log of yesterday. -/
def sampleFiles : Files where
  cwd := utf8 "/var/log"
  rooted := by decide
  content path := if path = utf8 "/var/log/rpi-fan.log.1" then some (some (utf8 "# fan\n")) else none

/-- A negative number wraps to the number of a day that has a log file. -/
theorem not_servesDays_negative :
    ¬ ServesDays ⟨utf8 "rpi-fan.log", 1⟩ sampleFiles (utf8 "-18446744073709551615") := by
  intro serves
  have read : stoul (utf8 "-18446744073709551615") = .ok 1 := by decide
  have served : ∃ path temps, handleTempsRequest ⟨utf8 "rpi-fan.log", 1⟩ sampleFiles
      (utf8 "-18446744073709551615") = .ok (.temps path temps) := by
    rw [handleTempsRequest_present read (by decide)]
    exact ⟨_, _, rfl⟩
  obtain ⟨path, temps, served⟩ := served
  obtain ⟨n, -, number, -⟩ := serves.1 path temps served
  exact absurd (number.2.1 45 (by decide)) (by decide)

end RpiFanServe.Log
