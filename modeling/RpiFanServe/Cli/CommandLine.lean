import RpiFanServe.Cli.Options

/-! # The command line of rpi-fan-serve

The parser that `main` builds has three options, each under a letter and a long
name.
-/

namespace RpiFanServe.Cli

open CString

/-- The parser of `main` in main.cc. -/
def program : ArgumentParser Empty :=
  (((ArgumentParser.make (utf8 "rpi-fan-serve")).addArgument
    (Argument.make [utf8 "-p", utf8 "--port"])).addArgument
    (Argument.make [utf8 "-l", utf8 "--log-file"])).addArgument
    (Argument.make [utf8 "-j", utf8 "--max-jobs"])

inductive Setting where
  | port
  | logFile
  | maxJobs
  deriving DecidableEq

namespace Setting

def letter : Setting → UInt8
  | .port => 'p'.toUInt8
  | .logFile => 'l'.toUInt8
  | .maxJobs => 'j'.toUInt8

def short (setting : Setting) : Bytes := ['-'.toUInt8, setting.letter]

def long : Setting → Bytes
  | .port => utf8 "--port"
  | .logFile => utf8 "--log-file"
  | .maxJobs => utf8 "--max-jobs"

def place : Setting → Place
  | .port => .optional 2
  | .logFile => .optional 3
  | .maxJobs => .optional 4

end Setting

/-- A part of the command line: a setting under one of its names, or several letters behind
    one minus sign, and the values. -/
inductive Part where
  | short (setting : Setting) (value : Bytes)
  | long (setting : Setting) (value : Bytes)
  | letters (entries : List (Setting × Bytes))

namespace Part

def words : Part → List Bytes
  | .short setting value => [setting.short, value]
  | .long setting value => [setting.long, value]
  | .letters entries =>
      ('-'.toUInt8 :: entries.map fun entry => entry.1.letter) :: entries.map Prod.snd

def settings : Part → List (Setting × Bytes)
  | .short setting value | .long setting value => [(setting, value)]
  | .letters entries => entries

/-- Values do not look like options, and letters stand together from two on. -/
def Valid (part : Part) : Prop :=
  (∀ entry ∈ part.settings, Argument.isPositional entry.2 = true) ∧
    match part with
    | .letters entries => 2 ≤ entries.length
    | _ => True

end Part

theorem program_map : program.mArgumentMap =
    [(utf8 "--help", .optional 0), (utf8 "--log-file", .optional 3),
      (utf8 "--max-jobs", .optional 4), (utf8 "--port", .optional 2),
      (utf8 "--version", .optional 1), (utf8 "-h", .optional 0), (utf8 "-j", .optional 4),
      (utf8 "-l", .optional 3), (utf8 "-p", .optional 2), (utf8 "-v", .optional 1)] := by
  decide

theorem program_flat : program.Flat := by
  unfold program
  refine (((ArgumentParser.Flat.make _).addArgument ?_ ?_ ?_).addArgument ?_ ?_ ?_).addArgument
    ?_ ?_ ?_
  all_goals decide

theorem find_short (setting : Setting) : program.find setting.short = some setting.place := by
  cases setting <;> decide

theorem find_long (setting : Setting) : program.find setting.long = some setting.place := by
  cases setting <;> decide

theorem place_large (setting : Setting) : ∃ i, 2 ≤ i ∧ setting.place = .optional i := by
  cases setting
  · exact ⟨2, by decide, rfl⟩
  · exact ⟨3, by decide, rfl⟩
  · exact ⟨4, by decide, rfl⟩

theorem place_injective : Function.Injective Setting.place := by
  intro a b same
  cases a <;> cases b <;> first | rfl | cases same

theorem names_iff {name : Bytes} : Group.Names program name ↔
    ∃ setting : Setting, name = setting.short ∨ name = setting.long := by
  constructor
  · rintro ⟨i, large, found⟩
    have member : (name, Place.optional i) ∈ program.mArgumentMap :=
      ArgumentParser.mem_of_lookup found
    rw [program_map] at member
    simp only [List.mem_cons, Prod.mk.injEq, Place.optional.injEq, List.not_mem_nil, or_false]
      at member
    rcases member with ⟨-, zero⟩ | ⟨rfl, -⟩ | ⟨rfl, -⟩ | ⟨rfl, -⟩ | ⟨-, one⟩ | ⟨-, zero⟩ |
      ⟨rfl, -⟩ | ⟨rfl, -⟩ | ⟨rfl, -⟩ | ⟨-, one⟩
    · omega
    · exact ⟨.logFile, .inr rfl⟩
    · exact ⟨.maxJobs, .inr rfl⟩
    · exact ⟨.port, .inr rfl⟩
    · omega
    · omega
    · exact ⟨.maxJobs, .inl (by decide)⟩
    · exact ⟨.logFile, .inl (by decide)⟩
    · exact ⟨.port, .inl (by decide)⟩
    · omega
  · rintro ⟨setting, rfl | rfl⟩
    · obtain ⟨i, large, same⟩ := place_large setting
      exact ⟨i, large, same ▸ find_short setting⟩
    · obtain ⟨i, large, same⟩ := place_large setting
      exact ⟨i, large, same ▸ find_long setting⟩

theorem letter_iff {c : UInt8} :
    Group.Names program ['-'.toUInt8, c] ↔ ∃ setting : Setting, c = setting.letter := by
  rw [names_iff]
  constructor
  · rintro ⟨setting, short | long⟩
    · exact ⟨setting, (List.cons.inj (List.cons.inj short).2).1⟩
    · have two : setting.long.length = 2 := (congrArg List.length long).symm
      have longer : setting.long.length ≠ 2 := by cases setting <;> decide
      exact absurd two longer
  · rintro ⟨setting, rfl⟩
    exact ⟨setting, .inl rfl⟩

/-- Letters of options behind a minus sign are a name only when there is one letter. -/
theorem find_letters {c d : UInt8} (rest : Bytes) (first : ∃ setting : Setting, c = setting.letter) :
    program.find ('-'.toUInt8 :: c :: d :: rest) = none := by
  obtain ⟨setting, rfl⟩ := first
  cases found : program.find ('-'.toUInt8 :: setting.letter :: d :: rest) with
  | none => rfl
  | some place =>
      have member := ArgumentParser.mem_of_lookup found
      have keys : ∀ entry ∈ program.mArgumentMap,
          entry.1.length = 2 ∨ entry.1.tail.head? = some '-'.toUInt8 := by
        rw [program_map]
        decide
      rcases keys _ member with two | dash
      · simp at two
      · revert dash
        cases setting <;> simp [Setting.letter] <;> decide

/-! ## Parts and groups -/

namespace Part

/-- What the parser makes of a part. -/
def group : Part → Group
  | .short setting value => .named setting.short value
  | .long setting value => .named setting.long value
  | .letters entries => .compound (entries.map fun entry => (entry.1.letter, entry.2))

theorem group_words (part : Part) : part.group.words = part.words := by
  cases part with
  | short | long => rfl
  | letters entries => simp [group, words, Group.words, Function.comp_def]

theorem group_assignments (part : Part) : part.group.assignments program =
    part.settings.map fun entry => (some entry.1.place, entry.2) := by
  cases part with
  | short setting value => simp [group, settings, Group.assignments, find_short]
  | long setting value => simp [group, settings, Group.assignments, find_long]
  | letters entries =>
      have found (setting : Setting) : program.find ['-'.toUInt8, setting.letter] =
        some setting.place := find_short setting
      simp [group, settings, Group.assignments, Function.comp_def, found]

theorem isPositional_short (setting : Setting) : Argument.isPositional setting.short = false := by
  cases setting <;> decide

theorem isPositional_long (setting : Setting) : Argument.isPositional setting.long = false := by
  cases setting <;> decide

theorem isPositional_letters (setting : Setting) (rest : Bytes) :
    Argument.isPositional ('-'.toUInt8 :: setting.letter :: rest) = false := by
  have other : setting.letter ≠ '0'.toUInt8 ∧ isDigit setting.letter = false ∧
      setting.letter ≠ '.'.toUInt8 := by
    cases setting <;> decide
  simp [Argument.isPositional, Argument.isDecimalLiteral, Argument.lookahead, other]

theorem group_valid (part : Part) : part.group.Valid program ↔ part.Valid := by
  cases part with
  | short setting value =>
      have named : Group.Names program setting.short := names_iff.mpr ⟨setting, .inl rfl⟩
      simp [group, Group.Valid, Valid, settings, isPositional_short, named]
  | long setting value =>
      have named : Group.Names program setting.long := names_iff.mpr ⟨setting, .inr rfl⟩
      simp [group, Group.Valid, Valid, settings, isPositional_long, named]
  | letters entries =>
      cases entries with
      | nil =>
          have dash : Argument.isPositional ['-'.toUInt8] = true := by decide
          simp [group, Group.Valid, Valid, dash]
      | cons first entries =>
          cases entries with
          | nil =>
              have found : program.find ['-'.toUInt8, first.1.letter] = some first.1.place :=
                find_short first.1
              simp [group, Group.Valid, Valid, found]
          | cons second entries =>
              have named (setting : Setting) :
                  Group.Names program ['-'.toUInt8, setting.letter] := letter_iff.mpr ⟨setting, rfl⟩
              have no_dash : first.1.letter ≠ '-'.toUInt8 := by
                cases first.1 <;> decide
              constructor
              · rintro ⟨-, -, -, valid⟩
                exact ⟨fun entry member => (List.forall_mem_map.mp valid entry member).2, by simp⟩
              · rintro ⟨valid, -⟩
                refine ⟨isPositional_letters first.1 _, find_letters _ ⟨first.1, rfl⟩, ?_, ?_⟩
                · rintro entry head
                  obtain rfl := Option.some.inj head
                  exact no_dash
                · exact List.forall_mem_map.mpr fun entry member =>
                    ⟨named entry.1, valid entry member⟩

/-- Every group that the parser reads is one of these. -/
theorem exists_group {read : Group} (valid : read.Valid program) : ∃ part : Part, part.group = read := by
  cases read with
  | named name value =>
      obtain ⟨setting, rfl | rfl⟩ := names_iff.mp valid.2.1
      · exact ⟨.short setting value, rfl⟩
      · exact ⟨.long setting value, rfl⟩
  | compound letters =>
      have each : ∀ entry ∈ letters, ∃ setting : Setting, entry.1 = setting.letter :=
        fun entry member => letter_iff.mp (valid.2.2.2 entry member).1
      obtain ⟨entries, rfl⟩ : ∃ entries : List (Setting × Bytes),
          letters = entries.map fun entry => (entry.1.letter, entry.2) := by
        clear valid
        induction letters with
        | nil => exact ⟨[], rfl⟩
        | cons entry letters ih =>
            obtain ⟨setting, same⟩ := each entry List.mem_cons_self
            obtain ⟨entries, rfl⟩ := ih fun e member => each e (List.mem_cons_of_mem _ member)
            exact ⟨(setting, entry.2) :: entries, by rw [List.map_cons, ← same]⟩
      exact ⟨.letters entries, rfl⟩

theorem exists_groups {groups : List Group} (valid : ∀ read ∈ groups, read.Valid program) :
    ∃ parts : List Part, parts.map group = groups := by
  induction groups with
  | nil => exact ⟨[], rfl⟩
  | cons read groups ih =>
      obtain ⟨part, rfl⟩ := exists_group (valid read List.mem_cons_self)
      obtain ⟨parts, rfl⟩ := ih fun g member => valid g (List.mem_cons_of_mem _ member)
      exact ⟨part :: parts, rfl⟩

theorem words_groups (parts : List Part) :
    (parts.map group).flatMap Group.words = parts.flatMap words := by
  rw [List.flatMap_map]
  simp only [group_words]

theorem assignments_groups (parts : List Part) :
    (parts.map group).flatMap (Group.assignments program) =
      (parts.flatMap settings).map fun entry => (some entry.1.place, entry.2) := by
  rw [List.flatMap_map, List.map_flatMap]
  simp only [group_assignments]

theorem once_groups (parts : List Part) :
    (((parts.map group).flatMap (Group.assignments program)).map Prod.fst).Nodup ↔
      ((parts.flatMap settings).map Prod.fst).Nodup := by
  have keys : ((parts.map group).flatMap (Group.assignments program)).map Prod.fst =
      ((parts.flatMap settings).map Prod.fst).map fun setting => some setting.place := by
    rw [assignments_groups, List.map_map, List.map_map]
    rfl
  rw [keys, List.nodup_map_iff]
  intro a b same
  exact place_injective (Option.some.inj same)

theorem lookup_groups (parts : List Part) (setting : Setting) :
    ((parts.map group).flatMap (Group.assignments program)).lookup (some setting.place) =
      (parts.flatMap settings).lookup setting := by
  rw [assignments_groups]
  generalize parts.flatMap settings = entries
  induction entries with
  | nil => rfl
  | cons entry entries ih =>
      rw [List.map_cons, List.lookup_cons, List.lookup_cons, ih]
      by_cases same : setting = entry.1
      · rw [same, beq_self_eq_true, beq_self_eq_true]
      · have places : some setting.place ≠ some entry.1.place :=
          fun equal => same (place_injective (Option.some.inj equal))
        rw [beq_eq_false_iff_ne.mpr same, beq_eq_false_iff_ne.mpr places]

end Part

/-- The parts of a command line, in which no setting occurs twice. -/
structure Parts (words : List Bytes) (parts : List Part) : Prop where
  valid : ∀ part ∈ parts, part.Valid
  once : ((parts.flatMap Part.settings).map Prod.fst).Nodup
  split : words = parts.flatMap Part.words

theorem parts_of_parsed {name : Bytes} {words : List Bytes} {q : ArgumentParser Empty}
    (parsed : program.parseArgs (name :: words) = .ok q) :
    ∃ parts, Parts words parts ∧
      ∀ setting : Setting,
        q.present setting.short = .ok ((parts.flatMap Part.settings).lookup setting) := by
  obtain ⟨groups, valid, once, rfl, present⟩ := program_flat.parseArgs_ok parsed
  obtain ⟨parts, rfl⟩ := Part.exists_groups valid
  refine ⟨parts, ⟨?_, (Part.once_groups parts).mp once, Part.words_groups parts⟩, ?_⟩
  · exact fun part member => (Part.group_valid part).mp (List.forall_mem_map.mp valid part member)
  · intro setting
    rw [present _ _ (find_short setting), Part.lookup_groups]

theorem parsed_of_parts (name : Bytes) {words : List Bytes} {parts : List Part}
    (made : Parts words parts) :
    ∃ q, program.parseArgs (name :: words) = .ok q ∧
      ∀ setting : Setting,
        q.present setting.short = .ok ((parts.flatMap Part.settings).lookup setting) := by
  obtain ⟨q, parsed, present⟩ := program_flat.parseArgs_of name (parts.map Part.group)
    (List.forall_mem_map.mpr fun part member =>
      (Part.group_valid part).mpr (made.valid part member))
    ((Part.once_groups parts).mpr made.once)
  refine ⟨q, ?_, ?_⟩
  · rw [made.split, ← Part.words_groups]
    exact parsed
  · intro setting
    rw [present _ _ (find_short setting), Part.lookup_groups]

/-- The command lines that rpi-fan-serve accepts are those made of parts in which no setting
    occurs twice, in any order; each setting is then answered with the value of its
    occurrence, and one that does not occur with nothing. -/
theorem commandLine_iff (name : Bytes) (words : List Bytes) (answer : Setting → Option Bytes) :
    (∃ q, program.parseArgs (name :: words) = .ok q ∧
      ∀ setting : Setting, q.present setting.short = .ok (answer setting)) ↔
    ∃ parts, Parts words parts ∧
      ∀ setting, answer setting = (parts.flatMap Part.settings).lookup setting := by
  constructor
  · rintro ⟨q, parsed, answers⟩
    obtain ⟨parts, made, present⟩ := parts_of_parsed parsed
    refine ⟨parts, made, ?_⟩
    intro setting
    exact Except.ok.inj ((answers setting).symm.trans (present setting))
  · rintro ⟨parts, made, answers⟩
    obtain ⟨q, parsed, present⟩ := parsed_of_parts name made
    refine ⟨q, parsed, ?_⟩
    intro setting
    rw [answers, present]

end RpiFanServe.Cli
