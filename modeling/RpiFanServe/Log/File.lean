import RpiFanServe.Log.Line

/-! # Log files

`linesChunk2TempsChunk` and `logFile2Json` of TempsCtrl.cc.  The file is cut into
chunks of lines, one asynchronous task parses each chunk, and the results are
joined in the order in which the tasks were launched.

The parser of a line is a parameter of this layer.  `logFile2JsonAsync` runs the
tasks in any order of completion; `logFile2Json` is what the call returns, and
`logFile2JsonAsync_eq` says that the order never shows.
-/

namespace RpiFanServe.Log

open CString

/-- The `Json::Value`s that the server builds. -/
inductive Json where
  | null
  | int (value : CInt)
  | string (value : Bytes)
  | array (items : List Json)
  | object (members : List (Bytes × Json))

/-- `jsonError` -/
def jsonError (errorMsg : Bytes) : Json :=
  .object [(utf8 "type", .string (utf8 "Error")), (utf8 "message", .string errorMsg)]

def TempDataPoint2Json (data : TempDataPoint) : Json :=
  .object [(utf8 "date", .string data.date), (utf8 "temp", .int data.temp),
    (utf8 "delta", .int data.delta), (utf8 "level", .int data.level)]

/-- A parser of one line: `none` reports nothing. -/
abbrev LineParser := Bytes → Except Fault (Option TempDataPoint)

/-- The elements appended to `chunk_temps`. -/
def linesChunk2TempsChunk (parse : LineParser) : List Bytes → Except Fault (List Json)
  | [] => .ok []
  | line :: lines =>
      match parse line with
      | .error fault => .error fault
      | .ok data =>
          match linesChunk2TempsChunk parse lines with
          | .error fault => .error fault
          | .ok temps => .ok ((data.map TempDataPoint2Json).toList ++ temps)

/-- The variables of the loop over the lines; a task is the chunk that its lambda
    captured. -/
structure Splitter where
  currentChunkSize : Nat
  currentChunk : List Bytes
  tasks : List (List Bytes)
  deriving DecidableEq

/-- One turn of the loop. -/
def Splitter.push (chunk_size : Nat) (st : Splitter) (line : Bytes) : Splitter :=
  let size := st.currentChunkSize + line.length
  let chunk := st.currentChunk ++ [line]
  if size ≥ chunk_size then ⟨0, [], st.tasks ++ [chunk]⟩ else ⟨size, chunk, st.tasks⟩

/-- The chunks that tasks are launched for, the leftover chunk last. -/
def launch (chunk_size : Nat) (lines : List Bytes) : List (List Bytes) :=
  let st := lines.foldl (Splitter.push chunk_size) ⟨0, [], []⟩
  if st.currentChunk.length > 0 then st.tasks ++ [st.currentChunk] else st.tasks

/-- The loop that waits for each future in turn and appends what it holds;
    `none` means that a wait never ends. -/
def joinTasks : List (Option (Except Fault (List Json))) → Option (Except Fault (List Json))
  | [] => some (.ok [])
  | none :: _ => none
  | some (.error fault) :: _ => some (.error fault)
  | some (.ok chunk_temps) :: futures =>
      match joinTasks futures with
      | none => none
      | some (.error fault) => some (.error fault)
      | some (.ok temps) => some (.ok (chunk_temps ++ temps))

/-- The shared states of the futures after the tasks with these indices have
    completed, the last one of the list first. -/
def completeTasks (parse : LineParser) (tasks : List (List Bytes)) :
    List Nat → List (Option (Except Fault (List Json)))
  | [] => tasks.map fun _ => none
  | i :: order =>
      (completeTasks parse tasks order).set i (tasks[i]?.map (linesChunk2TempsChunk parse))

/-- `chunk_size`; `none` is the division by zero. -/
def chunkSize (maxjobs : Nat) (content : Bytes) : Option Nat :=
  if maxjobs = 0 then none else some (content.length / maxjobs)

/-- `logFile2Json` for one order of completion of its tasks.  The file is `none`
    when it cannot be opened. -/
def logFile2JsonAsync (parse : LineParser) (maxjobs : Nat) (order : List Nat) :
    Option Bytes → Option (Except Fault Json)
  | none => some (.error .runtimeError)
  | some content =>
      match chunkSize maxjobs content with
      | none => some (.error .divisionByZero)
      | some 0 => some (.ok (jsonError (utf8 "Log file is empty.")))
      | some chunk_size =>
          let tasks := launch chunk_size (getlines content)
          (joinTasks (completeTasks parse tasks order)).map (Except.map Json.array)

/-- `logFile2Json`, a task being the call that it makes. -/
def logFile2Json (parse : LineParser) (maxjobs : Nat) : Option Bytes → Except Fault Json
  | none => .error .runtimeError
  | some content =>
      match chunkSize maxjobs content with
      | none => .error .divisionByZero
      | some 0 => .ok (jsonError (utf8 "Log file is empty."))
      | some chunk_size =>
          (linesChunk2TempsChunk parse (launch chunk_size (getlines content)).flatten).map Json.array

/-! ## The splitter loses no line -/

/-- The lines that the loop has consumed, in order. -/
def Splitter.lines (st : Splitter) : List Bytes := st.tasks.flatten ++ st.currentChunk

theorem Splitter.lines_push (chunk_size : Nat) (st : Splitter) (line : Bytes) :
    (st.push chunk_size line).lines = st.lines ++ [line] := by
  simp only [push]
  split <;> simp [lines]

theorem Splitter.lines_foldl (chunk_size : Nat) (lines : List Bytes) (st : Splitter) :
    (lines.foldl (push chunk_size) st).lines = st.lines ++ lines := by
  induction lines generalizing st with
  | nil => simp
  | cons line rest ih =>
      rw [List.foldl_cons, ih, lines_push]
      simp

/-- The chunks in launch order are the lines in file order. -/
theorem launch_flatten (chunk_size : Nat) (lines : List Bytes) :
    (launch chunk_size lines).flatten = lines := by
  have consumed := Splitter.lines_foldl chunk_size lines ⟨0, [], []⟩
  simp only [Splitter.lines, List.flatten_nil, List.nil_append] at consumed
  simp only [launch]
  split
  · rw [List.flatten_append, List.flatten_singleton]
    exact consumed
  · rename_i empty
    rw [gt_iff_lt, List.length_pos_iff, not_not] at empty
    rw [empty, List.append_nil] at consumed
    exact consumed

/-! ## Chunks and lines -/

theorem linesChunk2TempsChunk_append (parse : LineParser) (a b : List Bytes) :
    linesChunk2TempsChunk parse (a ++ b) =
      match linesChunk2TempsChunk parse a with
      | .error fault => .error fault
      | .ok temps =>
          match linesChunk2TempsChunk parse b with
          | .error fault => .error fault
          | .ok temps' => .ok (temps ++ temps') := by
  induction a with
  | nil => cases h : linesChunk2TempsChunk parse b <;> simp [linesChunk2TempsChunk, h]
  | cons line a ih =>
      simp only [List.cons_append, linesChunk2TempsChunk, ih]
      cases parse line with
      | error fault => rfl
      | ok data =>
          cases linesChunk2TempsChunk parse a with
          | error fault => rfl
          | ok temps =>
              cases linesChunk2TempsChunk parse b with
              | error fault => rfl
              | ok temps' => simp

theorem linesChunk2TempsChunk_ok {parse : LineParser} {lines : List Bytes}
    {report : Bytes → Option TempDataPoint} (total : ∀ line ∈ lines, parse line = .ok (report line)) :
    linesChunk2TempsChunk parse lines = .ok ((lines.filterMap report).map TempDataPoint2Json) := by
  induction lines with
  | nil => rfl
  | cons line lines ih =>
      rw [linesChunk2TempsChunk, total line List.mem_cons_self,
        ih fun l hl => total l (List.mem_cons_of_mem line hl)]
      cases h : report line <;> simp [h]

theorem linesChunk2TempsChunk_error {parse : LineParser} {lines : List Bytes} {line : Bytes}
    {fault : Fault} (member : line ∈ lines) (raises : parse line = .error fault) :
    ∃ fault, linesChunk2TempsChunk parse lines = .error fault := by
  induction lines with
  | nil => cases member
  | cons head lines ih =>
      rw [linesChunk2TempsChunk]
      cases parsed : parse head with
      | error fault => exact ⟨fault, rfl⟩
      | ok data =>
          rcases List.mem_cons.mp member with rfl | member
          · rw [raises] at parsed
            cases parsed
          · obtain ⟨fault, h⟩ := ih member
            exact ⟨fault, by rw [h]⟩

/-! ## The order of completion never shows -/

theorem length_completeTasks (parse : LineParser) (tasks : List (List Bytes)) (order : List Nat) :
    (completeTasks parse tasks order).length = tasks.length := by
  induction order with
  | nil => simp [completeTasks]
  | cons i order ih => simp [completeTasks, ih]

theorem completeTasks_getElem? (parse : LineParser) (tasks : List (List Bytes)) (order : List Nat)
    {i : Nat} (done : i ∈ order) (inside : i < tasks.length) :
    (completeTasks parse tasks order)[i]? = some (some (linesChunk2TempsChunk parse tasks[i])) := by
  induction order with
  | nil => cases done
  | cons j order ih =>
      rw [completeTasks, List.getElem?_set]
      split
      · rename_i same
        subst same
        rw [if_pos (by rw [length_completeTasks]; exact inside), List.getElem?_eq_getElem inside]
        rfl
      · rename_i other
        exact ih ((List.mem_cons.mp done).resolve_left fun e => other e.symm)

theorem completeTasks_all {parse : LineParser} {tasks : List (List Bytes)} {order : List Nat}
    (all : ∀ i < tasks.length, i ∈ order) :
    completeTasks parse tasks order = tasks.map fun chunk => some (linesChunk2TempsChunk parse chunk) := by
  apply List.ext_getElem?
  intro i
  by_cases inside : i < tasks.length
  · rw [completeTasks_getElem? parse tasks order (all i inside) inside, List.getElem?_map,
      List.getElem?_eq_getElem inside]
    rfl
  · rw [List.getElem?_eq_none (by rw [length_completeTasks]; omega),
      List.getElem?_eq_none (by rw [List.length_map]; omega)]

theorem joinTasks_map (parse : LineParser) (tasks : List (List Bytes)) :
    joinTasks (tasks.map fun chunk => some (linesChunk2TempsChunk parse chunk)) =
      some (linesChunk2TempsChunk parse tasks.flatten) := by
  induction tasks with
  | nil => rfl
  | cons chunk tasks ih =>
      rw [List.map_cons, List.flatten_cons, linesChunk2TempsChunk_append]
      cases h : linesChunk2TempsChunk parse chunk with
      | error fault => rfl
      | ok temps =>
          rw [joinTasks, ih]
          cases linesChunk2TempsChunk parse tasks.flatten <;> rfl

/-- Whatever the order in which its tasks complete, the call returns the same. -/
theorem logFile2JsonAsync_eq (parse : LineParser) {maxjobs : Nat} {content : Bytes}
    {order : List Nat}
    (all : ∀ i < (launch (content.length / maxjobs) (getlines content)).length, i ∈ order) :
    logFile2JsonAsync parse maxjobs order (some content) =
      some (logFile2Json parse maxjobs (some content)) := by
  simp only [logFile2JsonAsync, logFile2Json, chunkSize]
  split_ifs
  · rfl
  · rename_i pos
    cases size : content.length / maxjobs with
    | zero => rfl
    | succ n =>
        rw [size] at all
        simp only [completeTasks_all all, joinTasks_map]
        rfl

theorem logFile2Json_eq (parse : LineParser) {maxjobs : Nat} {content : Bytes}
    (hjobs : 1 ≤ maxjobs) (hsize : maxjobs ≤ content.length) :
    logFile2Json parse maxjobs (some content) =
      (linesChunk2TempsChunk parse (getlines content)).map Json.array := by
  have pos : 0 < content.length / maxjobs := Nat.div_pos hsize hjobs
  simp only [logFile2Json, chunkSize, if_neg (show maxjobs ≠ 0 by omega)]
  cases size : content.length / maxjobs with
  | zero => omega
  | succ n => simp only [launch_flatten]

theorem logFile2Json_small (parse : LineParser) {maxjobs : Nat} {content : Bytes}
    (hsize : content.length < maxjobs) :
    logFile2Json parse maxjobs (some content) = .ok (jsonError (utf8 "Log file is empty.")) := by
  simp only [logFile2Json, chunkSize, if_neg (show maxjobs ≠ 0 by omega),
    Nat.div_eq_of_lt hsize]

/-- Parallel parsing is sequential parsing, for every number of jobs and every
    order in which the tasks complete. -/
theorem logFile2JsonAsync_sequential (parse : Bytes → Option TempDataPoint) {maxjobs : Nat}
    {content : Bytes} {order : List Nat} (hjobs : 1 ≤ maxjobs) (hsize : maxjobs ≤ content.length)
    (all : ∀ i < (launch (content.length / maxjobs) (getlines content)).length, i ∈ order) :
    logFile2JsonAsync (fun line => .ok (parse line)) maxjobs order (some content) =
      some (.ok (.array (((getlines content).filterMap parse).map TempDataPoint2Json))) := by
  rw [logFile2JsonAsync_eq _ all, logFile2Json_eq _ hjobs hsize,
    linesChunk2TempsChunk_ok fun line _ => rfl]
  rfl

theorem logFile2JsonAsync_sequential_two_tasks :
    logFile2JsonAsync (fun line => .ok (some ⟨line, 0, 0, 0⟩)) 2 [1, 0]
        (some (utf8 "ab\n\ncd\ne")) =
      some (.ok (.array (((getlines (utf8 "ab\n\ncd\ne")).filterMap
        fun line => some ⟨line, 0, 0, 0⟩).map TempDataPoint2Json))) :=
  logFile2JsonAsync_sequential (fun line => some ⟨line, 0, 0, 0⟩) (by decide) (by decide)
    (by decide)

end RpiFanServe.Log
