import RpiFanServe.Log.File

/-! # Malformed lines

Which lines `extractMatches` accepts, rejects and raises on, said in terms of the
occurrences of its four patterns.  A line raises when it has a timestamp but the
next pattern it needs is missing: the `substr` of that block runs before the
handlers, on an empty match.  One such line makes the whole file raise.
-/

namespace RpiFanServe.Log

open CString Regex

/-- The line starts with a timestamp. -/
def Dated (line : Bytes) : Prop := ∃ d, dateRegex.body.Lang d ∧ d <+: line

/-- What a block cuts out of the leftmost longest occurrence of its pattern is a
    number that fits in `int`. -/
def Reads (regex : Pattern) (start cut : Nat) (line : Bytes) : Prop :=
  ∃ m, regex.body.LeftmostLongest line m ∧
    (m.drop start).take (sizeSub m.length cut) ≠ [] ∧
    digitsVal ((m.drop start).take (sizeSub m.length cut)) < 2 ^ 31

def ReadsTemp : Bytes → Prop := Reads tempRegex 5 8
def ReadsDelta : Bytes → Prop := Reads deltaRegex 2 5
def ReadsLevel : Bytes → Prop := Reads levelRegex 9 12

/-- Every pattern that `extractMatches` gets to is there. -/
def Complete (line : Bytes) : Prop :=
  Dated line → tempRegex.body.Occurs line ∧
    (ReadsTemp line → deltaRegex.body.Occurs line ∧
      (ReadsDelta line → levelRegex.body.Occurs line))

/-- The line holds a data point. -/
def Acceptable (line : Bytes) : Prop :=
  Dated line ∧ ReadsTemp line ∧ ReadsDelta line ∧ ReadsLevel line

/-! ## The timestamp -/

theorem getFirstMatch_date_eq_nil {line : Bytes} :
    getFirstMatch line dateRegex = [] ↔ ¬ Dated line := by
  unfold getFirstMatch
  rw [if_pos (show dateRegex.anchored = true from rfl)]
  constructor
  · intro none_found dated
    obtain ⟨d, lang, rest, rfl⟩ := dated
    cases located : dateRegex.body.matchHere (d ++ rest) with
    | none => exact matchHere_ne_none lang located
    | some m =>
        rw [located] at none_found
        exact date_ne_nil (matchHere_sound located).1 none_found
  · intro undated
    cases located : dateRegex.body.matchHere line with
    | none => rfl
    | some m => exact absurd ⟨m, matchHere_sound located⟩ undated

/-! ## The number blocks -/

/-- What the three blocks have in common: a match reaches to `start`, and what is
    cut out of it is a run of digits. -/
structure NumberBlock (regex : Pattern) (start cut : Nat) : Prop where
  unanchored : regex.anchored = false
  greedy : regex.body.Greedy
  pos : 0 < start
  reaches : ∀ m, regex.body.Lang m → start ≤ m.length
  digits : ∀ m, regex.body.Lang m →
    ∀ c ∈ (m.drop start).take (sizeSub m.length cut), isDigit c = true

section Blocks

variable {regex : Pattern} {start cut : Nat} {line : Bytes}

theorem NumberBlock.getFirstMatch_eq (block : NumberBlock regex start cut) :
    getFirstMatch line regex = (regex.body.search line).getD [] := by
  unfold getFirstMatch
  rw [block.unanchored]
  rfl

theorem NumberBlock.absent (block : NumberBlock regex start cut)
    (absent : ¬ regex.body.Occurs line) :
    extractField line regex start cut = .error .outOfRange := by
  apply extractField_absent cut _ block.pos
  rw [block.getFirstMatch_eq, search_eq_none.mpr absent]
  rfl

/-- An occurrence is read as `stoi` reads the digits cut out of it. -/
theorem NumberBlock.present (block : NumberBlock regex start cut) {m : Bytes}
    (found : regex.body.LeftmostLongest line m) :
    extractField line regex start cut =
      .ok (stoi ((m.drop start).take (sizeSub m.length cut))).toOption := by
  rw [extractField_eq, block.getFirstMatch_eq, (search_eq_some block.greedy).mpr found,
    Option.getD_some]
  unfold substr
  rw [if_pos (block.reaches m found.lang)]

theorem NumberBlock.reads (block : NumberBlock regex start cut)
    (reads : Reads regex start cut line) :
    ∃ value, extractField line regex start cut = .ok (some value) := by
  obtain ⟨m, found, some_digit, small⟩ := reads
  rw [block.present found, stoi_digits (block.digits m found.lang), if_neg some_digit,
    if_pos small]
  exact ⟨_, rfl⟩

theorem NumberBlock.rejects (block : NumberBlock regex start cut)
    (occurs : regex.body.Occurs line) (unread : ¬ Reads regex start cut line) :
    extractField line regex start cut = .ok none := by
  cases located : regex.body.search line with
  | none => exact absurd occurs (search_eq_none.mp located)
  | some m =>
      have found := (search_eq_some block.greedy).mp located
      rw [block.present found, stoi_digits (block.digits m found.lang)]
      split_ifs with empty small
      · rfl
      · exact absurd ⟨m, found, empty, small⟩ unread
      · rfl

theorem Reads.occurs (reads : Reads regex start cut line) : regex.body.Occurs line := by
  obtain ⟨m, found, -⟩ := reads
  obtain ⟨pre, post, rfl, lang, -⟩ := found
  exact ⟨m, lang, pre, post, by simp⟩

end Blocks

theorem numberBlock_delimited {head tail : Bytes} (pos : 0 < head.length) (closes : tail ≠ [])
    (apart : ∀ c ∈ tail.head?, isDigit c = false) :
    NumberBlock ⟨false, delimited head isDigit tail⟩ head.length (head.length + tail.length) where
  unanchored := rfl
  greedy := greedy_delimited apart closes
  pos := pos
  reaches := by
    intro m lang
    obtain ⟨ds, -, rfl⟩ := lang_delimited.mp lang
    simp only [List.length_append]
    omega
  digits := by
    intro m lang c member
    obtain ⟨ds, digits, rfl⟩ := lang_delimited.mp lang
    have inside : sizeSub (head ++ ds ++ tail).length (head.length + tail.length) ≤ ds.length := by
      unfold sizeSub
      simp only [List.length_append]
      omega
    rw [List.append_assoc, List.drop_left, List.take_append_of_le_length
      (by simpa only [List.append_assoc] using inside)] at member
    exact digits c (List.mem_of_mem_take member)

theorem numberBlock_headed {head : Bytes} (pos : 0 < head.length) (cut : Nat) :
    NumberBlock ⟨false, headed head isDigit⟩ head.length cut where
  unanchored := rfl
  greedy := greedy_headed
  pos := pos
  reaches := by
    intro m lang
    obtain ⟨ds, -, rfl⟩ := lang_headed.mp lang
    simp only [List.length_append]
    omega
  digits := by
    intro m lang c member
    obtain ⟨ds, digits, rfl⟩ := lang_headed.mp lang
    rw [List.drop_left] at member
    exact digits c (List.mem_of_mem_take member)

theorem tempBlock : NumberBlock tempRegex 5 8 :=
  numberBlock_delimited (by decide) (by decide) (by decide +kernel)

theorem deltaBlock : NumberBlock deltaRegex 2 5 :=
  numberBlock_delimited (by decide) (by decide) (by decide +kernel)

theorem levelBlock : NumberBlock levelRegex 9 12 := numberBlock_headed (by decide) 12

/-! ## Lines -/

theorem extractMatches_undated {line : Bytes} (undated : ¬ Dated line) :
    extractMatches line = .ok none := by
  unfold extractMatches
  rw [if_pos (getFirstMatch_date_eq_nil.mpr undated)]

theorem extractMatches_dated {line : Bytes} (dated : Dated line) :
    ∃ date, extractMatches line = (extractTemp line).bind fun temp? =>
      match temp? with
      | none => .ok none
      | some temp => (extractDelta line).bind fun delta? =>
          match delta? with
          | none => .ok none
          | some delta => (extractLevel line).map fun level? =>
              level?.map fun level => ⟨date, temp, delta, level⟩ := by
  refine ⟨getFirstMatch line dateRegex, ?_⟩
  unfold extractMatches
  rw [if_neg fun empty => getFirstMatch_date_eq_nil.mp empty dated]
  cases extractTemp line with
  | error fault => rfl
  | ok temp? =>
      cases temp? with
      | none => rfl
      | some temp =>
          cases extractDelta line with
          | error fault => rfl
          | ok delta? =>
              cases delta? with
              | none => rfl
              | some delta =>
                  cases extractLevel line with
                  | error fault => rfl
                  | ok level? => cases level? <;> rfl

/-- Every line is accepted, skipped or raises, as its patterns say. -/
theorem extractMatches_cases (line : Bytes) :
    (Acceptable line ∧ ∃ data, extractMatches line = .ok (some data)) ∨
    (¬ Acceptable line ∧ Complete line ∧ extractMatches line = .ok none) ∨
    (¬ Complete line ∧ extractMatches line = .error .outOfRange) := by
  by_cases dated : Dated line
  · obtain ⟨date, split⟩ := extractMatches_dated dated
    by_cases temp : ReadsTemp line
    · obtain ⟨t, read_temp⟩ := tempBlock.reads temp
      by_cases delta : ReadsDelta line
      · obtain ⟨d, read_delta⟩ := deltaBlock.reads delta
        by_cases level : ReadsLevel line
        · obtain ⟨l, read_level⟩ := levelBlock.reads level
          left
          refine ⟨⟨dated, temp, delta, level⟩, ⟨date, t, d, l⟩, ?_⟩
          rw [split, extractTemp, read_temp, extractDelta, read_delta, extractLevel, read_level]
          rfl
        · right
          by_cases occurs : levelRegex.body.Occurs line
          · left
            refine ⟨fun h => level h.2.2.2, fun _ => ⟨temp.occurs, fun _ => ⟨delta.occurs, fun _ => occurs⟩⟩, ?_⟩
            rw [split, extractTemp, read_temp, extractDelta, read_delta, extractLevel,
              levelBlock.rejects occurs level]
            rfl
          · right
            refine ⟨fun h => occurs (((h dated).2 temp).2 delta), ?_⟩
            rw [split, extractTemp, read_temp, extractDelta, read_delta, extractLevel,
              levelBlock.absent occurs]
            rfl
      · right
        by_cases occurs : deltaRegex.body.Occurs line
        · left
          refine ⟨fun h => delta h.2.2.1, fun _ => ⟨temp.occurs, fun _ => ⟨occurs, fun h => absurd h delta⟩⟩, ?_⟩
          rw [split, extractTemp, read_temp, extractDelta, deltaBlock.rejects occurs delta]
          rfl
        · right
          refine ⟨fun h => occurs ((h dated).2 temp).1, ?_⟩
          rw [split, extractTemp, read_temp, extractDelta, deltaBlock.absent occurs]
          rfl
    · right
      by_cases occurs : tempRegex.body.Occurs line
      · left
        refine ⟨fun h => temp h.2.1, fun _ => ⟨occurs, fun h => absurd h temp⟩, ?_⟩
        rw [split, extractTemp, tempBlock.rejects occurs temp]
        rfl
      · right
        refine ⟨fun h => occurs (h dated).1, ?_⟩
        rw [split, extractTemp, tempBlock.absent occurs]
        rfl
  · right
    left
    exact ⟨fun h => dated h.1, fun h => absurd h dated, extractMatches_undated dated⟩

theorem Acceptable.complete {line : Bytes} (h : Acceptable line) : Complete line :=
  fun _ => ⟨h.2.1.occurs, fun _ => ⟨h.2.2.1.occurs, fun _ => h.2.2.2.occurs⟩⟩

theorem extractMatches_returns_iff {line : Bytes} :
    (∃ data, extractMatches line = .ok data) ↔ Complete line := by
  cases extractMatches_cases line with
  | inl accepted =>
      obtain ⟨acceptable, data, returns⟩ := accepted
      exact ⟨fun _ => acceptable.complete, fun _ => ⟨_, returns⟩⟩
  | inr rest =>
      cases rest with
      | inl skipped => exact ⟨fun _ => skipped.2.1, fun _ => ⟨_, skipped.2.2⟩⟩
      | inr raises =>
          constructor
          · intro returns
            obtain ⟨data, returns⟩ := returns
            rw [raises.2] at returns
            cases returns
          · intro complete
            exact absurd complete raises.1

/-! ## Files -/

/-- The data point of a line that is accepted. -/
def accepted (line : Bytes) : Option TempDataPoint := (extractMatches line).toOption.join

/-- The data points of an answer; an error object has none. -/
def Json.reported : Json → List Json
  | .array items => items
  | _ => []

/-- No line of the file is fatal, and the answer reports the accepted lines. -/
def SkipsMalformed (maxjobs : Nat) (order : List Nat) (content : Bytes) : Prop :=
  (∀ line ∈ getlines content, ∃ data, extractMatches line = .ok data) ∧
  ∃ answer, logFile2JsonAsync extractMatches maxjobs order (some content) = some (.ok answer) ∧
    answer.reported = ((getlines content).filterMap accepted).map TempDataPoint2Json

theorem accepted_eq_none_iff {line : Bytes} : accepted line = none ↔ ¬ Acceptable line := by
  unfold accepted
  cases extractMatches_cases line with
  | inl accepted =>
      obtain ⟨acceptable, data, returns⟩ := accepted
      rw [returns]
      simp [Except.toOption, acceptable]
  | inr rest =>
      cases rest with
      | inl skipped =>
          rw [skipped.2.2]
          simp [Except.toOption, skipped.1]
      | inr raises =>
          rw [raises.2]
          simp only [Except.toOption, Option.join_none, true_iff]
          exact fun acceptable => raises.1 acceptable.complete

theorem linesChunk2TempsChunk_complete {lines : List Bytes} (complete : ∀ line ∈ lines, Complete line) :
    linesChunk2TempsChunk extractMatches lines =
      .ok ((lines.filterMap accepted).map TempDataPoint2Json) := by
  apply linesChunk2TempsChunk_ok
  intro line member
  obtain ⟨data, returns⟩ := extractMatches_returns_iff.mpr (complete line member)
  unfold accepted
  rw [returns]
  rfl

theorem linesChunk2TempsChunk_ok_iff {lines : List Bytes} :
    (∃ temps, linesChunk2TempsChunk extractMatches lines = .ok temps) ↔
      ∀ line ∈ lines, Complete line := by
  constructor
  · intro parsed line member
    obtain ⟨temps, parsed⟩ := parsed
    apply extractMatches_returns_iff.mp
    cases returned : extractMatches line with
    | ok data => exact ⟨data, rfl⟩
    | error fault =>
        obtain ⟨fault, raised⟩ := linesChunk2TempsChunk_error member returned
        rw [parsed] at raised
        cases raised
  · intro complete
    exact ⟨_, linesChunk2TempsChunk_complete complete⟩

/-- Malformed lines are skipped exactly in the files where no dated line lacks a
    pattern that its parse gets to, and that have as many bytes as there are jobs
    or nothing to report. -/
theorem skipsMalformed_iff {maxjobs : Nat} {content : Bytes} {order : List Nat}
    (hjobs : 1 ≤ maxjobs)
    (all : ∀ i < (launch (content.length / maxjobs) (getlines content)).length, i ∈ order) :
    SkipsMalformed maxjobs order content ↔
      (∀ line ∈ getlines content, Complete line) ∧
      (maxjobs ≤ content.length ∨ ∀ line ∈ getlines content, ¬ Acceptable line) := by
  unfold SkipsMalformed
  rw [logFile2JsonAsync_eq _ all]
  have lines_iff : (∀ line ∈ getlines content, ∃ data, extractMatches line = .ok data) ↔
      ∀ line ∈ getlines content, Complete line :=
    forall₂_congr fun line _ => extractMatches_returns_iff
  rw [lines_iff]
  apply and_congr_right
  intro complete
  by_cases large : maxjobs ≤ content.length
  · rw [logFile2Json_eq _ hjobs large, linesChunk2TempsChunk_complete complete]
    exact ⟨fun _ => .inl large, fun _ => ⟨_, rfl, rfl⟩⟩
  · rw [logFile2Json_small _ (by omega)]
    have nothing : ((getlines content).filterMap accepted).map TempDataPoint2Json = [] ↔
        ∀ line ∈ getlines content, ¬ Acceptable line := by
      rw [List.map_eq_nil_iff, List.filterMap_eq_nil_iff]
      exact forall₂_congr fun line _ => accepted_eq_none_iff
    constructor
    · intro answers
      obtain ⟨answer, returns, reported⟩ := answers
      cases returns
      exact .inr (nothing.mp reported.symm)
    · intro quiet
      exact ⟨_, rfl, (nothing.mpr (quiet.resolve_left large)).symm⟩

def recordLine : Bytes := utf8 "2021-09-23T18:43:40+02:00 CPU is fine with 54°C, Δ0°C, level is 3."

/-- A log of a record, a comment and an empty line. -/
def recordAndComment : Bytes := recordLine ++ utf8 "\n# fan\n\n"

/-- The record is reported, and the other lines are skipped. -/
theorem skipsMalformed_iff_record :
    SkipsMalformed 2 [1, 0] recordAndComment ∧
      (((getlines recordAndComment).filterMap accepted).map fun data => data.temp.toInt) = [54] := by
  have lines : getlines recordAndComment = [recordLine, utf8 "# fan", []] := by decide +kernel
  have record : ∃ data, extractMatches recordLine = .ok (some data) ∧ data.temp = 54 :=
    ⟨⟨utf8 "2021-09-23T18:43:40", 54, 0, 3⟩, by decide +kernel, rfl⟩
  have comment : extractMatches (utf8 "# fan") = .ok none := by decide +kernel
  have blank : extractMatches [] = .ok none := by decide +kernel
  obtain ⟨data, reported, temp⟩ := record
  constructor
  · refine (skipsMalformed_iff (by decide) (by decide +kernel)).mpr ⟨?_, .inl (by decide +kernel)⟩
    intro line member
    rw [lines] at member
    apply extractMatches_returns_iff.mp
    simp only [List.mem_cons, List.not_mem_nil, or_false] at member
    rcases member with rfl | rfl | rfl
    · exact ⟨_, reported⟩
    · exact ⟨_, comment⟩
    · exact ⟨_, blank⟩
  · rw [lines]
    simp [accepted, reported, comment, blank, Except.toOption, temp]

/-- A line cut short while it is written makes the whole file raise. -/
theorem not_skipsMalformed_truncated :
    ¬ SkipsMalformed 1 [0] (utf8 "2021-09-23T18:43:40+02:00 CPU is fi") := by
  intro skips
  have raises : extractMatches (utf8 "2021-09-23T18:43:40+02:00 CPU is fi") = .error .outOfRange := by
    decide +kernel
  have line : utf8 "2021-09-23T18:43:40+02:00 CPU is fi" ∈
      getlines (utf8 "2021-09-23T18:43:40+02:00 CPU is fi") := by
    rw [getlines_last (by decide +kernel), if_neg (by decide)]
    exact List.mem_singleton_self _
  obtain ⟨data, returns⟩ := skips.1 _ line
  rw [raises] at returns
  cases returns

end RpiFanServe.Log
