import Mathlib.Data.List.Basic
import RpiFanServe.Log.File

/-! # The tasks of a file

How many tasks `logFile2Json` launches and how long they are.  The chunk size is
rounded down and a leftover chunk is added, but `line.size()` leaves out the newline
that the file size counts.  Charging that byte to its line makes every full chunk
longer than the chunk size, which pays for the leftover one.
-/

namespace RpiFanServe.Log

open CString

/-- What `currentChunkSize` counts for the lines of a chunk. -/
def lineBytes (chunk : List Bytes) : Nat := (chunk.map List.length).sum

/-- What terminated lines take up in the file. -/
def fileBytes (lines : List Bytes) : Nat := (lines.map fun line => line.length + 1).sum

@[simp] theorem lineBytes_append (a b : List Bytes) :
    lineBytes (a ++ b) = lineBytes a + lineBytes b := by
  simp [lineBytes]

@[simp] theorem lineBytes_singleton (line : Bytes) : lineBytes [line] = line.length := by
  simp [lineBytes]

@[simp] theorem fileBytes_append (a b : List Bytes) :
    fileBytes (a ++ b) = fileBytes a + fileBytes b := by
  simp [fileBytes]

theorem fileBytes_eq (lines : List Bytes) : fileBytes lines = lineBytes lines + lines.length := by
  induction lines with
  | nil => rfl
  | cons line lines ih =>
      simp only [fileBytes, lineBytes, List.map_cons, List.sum_cons, List.length_cons] at ih ⊢
      omega

/-! ## The bytes of the file -/

theorem getlines_cons {content line : Bytes} {lines : List Bytes} (more : lines ≠ [])
    (split : getlines content = line :: lines) :
    ∃ rest, content = line ++ newline :: rest ∧ getlines rest = lines := by
  induction content generalizing line with
  | nil => cases split
  | cons c cs ih =>
      rw [getlines] at split
      split_ifs at split with ends
      · cases split
        exact ⟨cs, by rw [ends, List.nil_append], rfl⟩
      · cases tail : getlines cs with
        | nil =>
            rw [tail] at split
            cases split
            exact absurd rfl more
        | cons next others =>
            rw [tail] at split
            cases split
            obtain ⟨rest, whole, same⟩ := ih tail
            exact ⟨rest, by rw [whole, List.cons_append], same⟩

theorem fileBytes_lt {content : Bytes} {before after : List Bytes} (more : after ≠ [])
    (split : getlines content = before ++ after) : fileBytes before < content.length := by
  induction before generalizing content with
  | nil =>
      cases content with
      | nil => exact absurd split.symm more
      | cons c cs => exact Nat.zero_lt_succ _
  | cons line before ih =>
      obtain ⟨rest, whole, same⟩ := getlines_cons (by simp [more]) split
      have shorter := ih same
      rw [whole]
      simp only [fileBytes, List.map_cons, List.sum_cons, List.length_append, List.length_cons]
        at shorter ⊢
      omega

/-! ## The splitter -/

/-- A chunk stays below the chunk size until its last line. -/
def Fits (chunk_size : Nat) (chunk : List Bytes) : Prop :=
  ∃ body last, chunk = body ++ [last] ∧ lineBytes body < chunk_size

/-- What the loop keeps: the counter is right and below the chunk size, and every chunk
    that got a task reaches it with its last line. -/
structure Splitter.Counts (chunk_size : Nat) (st : Splitter) : Prop where
  counter : st.currentChunkSize = lineBytes st.currentChunk
  small : st.currentChunkSize < chunk_size
  full : ∀ chunk ∈ st.tasks, chunk_size ≤ lineBytes chunk ∧ Fits chunk_size chunk

theorem Splitter.counts_push {chunk_size : Nat} {st : Splitter} (counts : st.Counts chunk_size)
    (line : Bytes) : (st.push chunk_size line).Counts chunk_size := by
  have size : lineBytes (st.currentChunk ++ [line]) = st.currentChunkSize + line.length := by
    rw [lineBytes_append, lineBytes_singleton, counts.counter]
  simp only [push]
  split
  · rename_i reached
    refine ⟨rfl, (Nat.zero_le _).trans_lt counts.small, fun chunk member => ?_⟩
    cases List.mem_append.mp member with
    | inl before => exact counts.full chunk before
    | inr new =>
        rw [List.mem_singleton.mp new, size]
        exact ⟨reached, st.currentChunk, line, rfl, counts.counter ▸ counts.small⟩
  · rename_i below
    exact ⟨size.symm, Nat.lt_of_not_le below, counts.full⟩

theorem Splitter.counts_foldl {chunk_size : Nat} (lines : List Bytes) {st : Splitter}
    (counts : st.Counts chunk_size) : (lines.foldl (push chunk_size) st).Counts chunk_size := by
  induction lines generalizing st with
  | nil => exact counts
  | cons line lines ih => exact ih (counts_push counts line)

theorem Splitter.counts_launch {chunk_size : Nat} (pos : 0 < chunk_size) (lines : List Bytes) :
    (lines.foldl (push chunk_size) ⟨0, [], []⟩).Counts chunk_size :=
  counts_foldl lines ⟨rfl, pos, by simp⟩

theorem launch_fits {chunk_size : Nat} (pos : 0 < chunk_size) (lines : List Bytes) :
    ∀ chunk ∈ launch chunk_size lines, Fits chunk_size chunk := by
  have counts := Splitter.counts_launch pos lines
  intro chunk member
  simp only [launch] at member
  split at member
  · rename_i leftover
    cases List.mem_append.mp member with
    | inl full => exact (counts.full chunk full).2
    | inr last =>
        rw [List.mem_singleton.mp last]
        obtain ⟨body, line, split⟩ :=
          (List.eq_nil_or_concat' _).resolve_left (List.length_pos_iff.mp leftover)
        rw [split]
        refine ⟨body, line, rfl, ?_⟩
        have small := counts.counter ▸ counts.small
        rw [split, lineBytes_append] at small
        omega
  · exact (counts.full chunk member).2

/-- Every chunk but the last one reaches the chunk size. -/
theorem launch_full {chunk_size : Nat} (pos : 0 < chunk_size) {lines : List Bytes}
    {before : List (List Bytes)} {last : List Bytes}
    (split : launch chunk_size lines = before ++ [last]) :
    ∀ chunk ∈ before, chunk_size ≤ lineBytes chunk := by
  have counts := Splitter.counts_launch pos lines
  intro chunk member
  simp only [launch] at split
  split at split
  · obtain ⟨same, -⟩ := List.append_inj' split rfl
    exact (counts.full chunk (same ▸ member)).1
  · exact (counts.full chunk (split ▸ List.mem_append_left _ member)).1

theorem Fits.bytes {chunk_size : Nat} {chunk : List Bytes} (fits : Fits chunk_size chunk) :
    lineBytes chunk < fileBytes chunk := by
  obtain ⟨body, last, rfl, -⟩ := fits
  rw [fileBytes_eq, List.length_append, List.length_singleton]
  omega

theorem fileBytes_full {chunk_size : Nat} {chunks : List (List Bytes)}
    (full : ∀ chunk ∈ chunks, chunk_size ≤ lineBytes chunk)
    (fits : ∀ chunk ∈ chunks, Fits chunk_size chunk) :
    chunks.length * (chunk_size + 1) ≤ fileBytes chunks.flatten := by
  induction chunks with
  | nil => simp
  | cons chunk chunks ih =>
      have rest := ih (fun c m => full c (List.mem_cons_of_mem _ m))
        (fun c m => fits c (List.mem_cons_of_mem _ m))
      have reached := full chunk List.mem_cons_self
      have bytes := (fits chunk List.mem_cons_self).bytes
      rw [List.length_cons, List.flatten_cons, fileBytes_append, Nat.add_one_mul]
      omega

theorem length_launch_le {maxjobs : Nat} {content : Bytes} (hjobs : 1 ≤ maxjobs)
    (hsize : maxjobs ≤ content.length) :
    (launch (content.length / maxjobs) (getlines content)).length ≤ maxjobs := by
  have pos : 0 < content.length / maxjobs := Nat.div_pos hsize hjobs
  cases (launch (content.length / maxjobs) (getlines content)).eq_nil_or_concat' with
  | inl none => simp [none]
  | inr some =>
      obtain ⟨before, last, split⟩ := some
      have fits := launch_fits pos (getlines content)
      rw [split] at fits ⊢
      have lines : getlines content = before.flatten ++ last := by
        have whole := launch_flatten (content.length / maxjobs) (getlines content)
        rw [split] at whole
        simpa using whole.symm
      have more : last ≠ [] := by
        obtain ⟨body, line, rfl, -⟩ := fits last (by simp)
        simp
      have charged := fileBytes_full (launch_full pos split)
        fun chunk member => fits chunk (List.mem_append_left _ member)
      have left_over := fileBytes_lt more lines
      have rounded : content.length < maxjobs * (content.length / maxjobs + 1) :=
        Nat.lt_mul_div_succ _ hjobs
      have fewer : before.length < maxjobs :=
        Nat.lt_of_mul_lt_mul_right (charged.trans_lt (left_over.trans rounded))
      rw [List.length_append]
      exact fewer

/-- The thread budget: at most `maxjobs` tasks, each with at least one line, and shorter
    than the chunk size and its last line together. -/
theorem launch_budget {maxjobs : Nat} {content : Bytes} (hjobs : 1 ≤ maxjobs)
    (hsize : maxjobs ≤ content.length) :
    (launch (content.length / maxjobs) (getlines content)).length ≤ maxjobs ∧
      ∀ chunk ∈ launch (content.length / maxjobs) (getlines content),
        ∃ body last, chunk = body ++ [last] ∧
          lineBytes chunk < content.length / maxjobs + last.length := by
  refine ⟨length_launch_le hjobs hsize, fun chunk member => ?_⟩
  obtain ⟨body, last, rfl, small⟩ := launch_fits (Nat.div_pos hsize hjobs) _ chunk member
  refine ⟨body, last, rfl, ?_⟩
  rw [lineBytes_append, lineBytes_singleton]
  omega

/-- Three jobs for a file whose last line has no newline. -/
theorem launch_budget_three :
    (launch ((utf8 "a\nbb\n\nc").length / 3) (getlines (utf8 "a\nbb\n\nc"))).length ≤ 3 ∧
      ∀ chunk ∈ launch ((utf8 "a\nbb\n\nc").length / 3) (getlines (utf8 "a\nbb\n\nc")),
        ∃ body last, chunk = body ++ [last] ∧
          lineBytes chunk < (utf8 "a\nbb\n\nc").length / 3 + last.length :=
  launch_budget (by decide) (by decide)

end RpiFanServe.Log
