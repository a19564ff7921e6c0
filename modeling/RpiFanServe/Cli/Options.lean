import RpiFanServe.Cli.Parse

/-! # Parsers of plain options

Both programs only have options that take one word each, beside `--help` and
`--version`.  The command lines that such a parser accepts are those that
consist of groups: an option under one of its names and its word, or a word of
several letters and a word for each of them.  No option may occur twice, and the
answer to `present` is the word of the option's occurrence.
-/

namespace RpiFanServe.Cli

open CString

/-- A part of a command line. -/
inductive Group where
  | named (name value : Bytes)
  | compound (letters : List (UInt8 × Bytes))

namespace Group

def words : Group → List Bytes
  | .named name value => [name, value]
  | .compound letters => ('-'.toUInt8 :: letters.map Prod.fst) :: letters.map Prod.snd

variable {V : Type}

/-- The options of a group, by the names that the group uses, and their words. -/
def assignments (p : ArgumentParser V) : Group → List (Option Place × Bytes)
  | .named name value => [(p.find name, value)]
  | .compound letters => letters.map fun entry => (p.find ['-'.toUInt8, entry.1], entry.2)

/-- A name of an option other than `--help` and `--version`. -/
def Names (p : ArgumentParser V) (name : Bytes) : Prop := ∃ i, 2 ≤ i ∧ p.find name = some (.optional i)

/-- The names lead to options, the values are no options, and a word of several letters is
    not itself a name. -/
def Valid (p : ArgumentParser V) : Group → Prop
  | .named name value =>
      Argument.isPositional name = false ∧ Names p name ∧ Argument.isPositional value = true
  | .compound letters =>
      Argument.isPositional ('-'.toUInt8 :: letters.map Prod.fst) = false ∧
        p.find ('-'.toUInt8 :: letters.map Prod.fst) = none ∧
        (∀ entry ∈ letters.head?, entry.1 ≠ '-'.toUInt8) ∧
        ∀ entry ∈ letters, Names p ['-'.toUInt8, entry.1] ∧ Argument.isPositional entry.2 = true

end Group

namespace Argument

variable {V : Type} {a a' : Argument V} {it rest : List Bytes} {usedName : Bytes}

/-- An option that takes one word. -/
structure Plain (a : Argument V) : Prop where
  default : a.mDefaultValue = .empty
  action : a.mAction = .valued fun aValue => .ok (.string aValue)
  nargs : a.mNumArgs = 1
  optional : a.mIsOptional = true
  required : a.mIsRequired = false
  repeatable : a.mIsRepeatable = false

/-- `--help` and `--version`. -/
structure Exits (a : Argument V) : Prop where
  default : a.mDefaultValue = .empty
  nargs : a.mNumArgs = 0
  optional : a.mIsOptional = true
  required : a.mIsRequired = false
  repeatable : a.mIsRepeatable = false

theorem Plain.consume (plain : a.Plain) (unused : a.mIsUsed = false) {value : Bytes}
    (positional : isPositional value = true) :
    a.consume (value :: rest) usedName =
      .ok ({ a.used usedName with mValues := a.mValues ++ [.string value] }, rest) := by
  simp [Argument.consume, maybeNargs, applyAction, used, isOptional, unused, positional,
    plain.nargs, plain.action]

/-- An option that takes one word takes the next word, where that is positional and the
    option has not occurred before. -/
theorem Plain.consume_ok (plain : a.Plain) (consumed : a.consume it usedName = .ok (a', rest)) :
    a.mIsUsed = false ∧ ∃ value, it = value :: rest ∧ isPositional value = true ∧
      a' = { a.used usedName with mValues := a.mValues ++ [.string value] } := by
  obtain ⟨again, taken⟩ := Argument.consume_ok consumed
  have unused : a.mIsUsed = false := by
    rcases again with repeatable | unused
    · rw [plain.repeatable] at repeatable
      cases repeatable
    · exact unused
  obtain ⟨value, left, rfl, positional⟩ :
      ∃ value left, it = value :: left ∧ isPositional value = true := by
    have one := plain.nargs
    cases taken with
    | implicit flag => omega
    | values n expected pos enough positional applied =>
        obtain rfl : n = 1 := by omega
        obtain ⟨value, left, rfl⟩ := List.exists_cons_of_length_pos enough
        exact ⟨value, left, rfl, positional value (by simp)⟩
    | remaining unbounded => omega
    | default few given =>
        rw [plain.default] at given
        cases given
  rw [plain.consume unused positional] at consumed
  cases consumed
  exact ⟨unused, value, rfl, positional, rfl⟩

end Argument

namespace ArgumentParser

open Argument

variable {V : Type} {p q q' : ArgumentParser V} {a : Argument V} {place : Place}
  {it rest words : List Bytes} {usedName name value : Bytes}

/-- Only `--help`, `--version` and options that take one word. -/
structure Flat (p : ArgumentParser V) : Prop where
  described : p.Described
  no_positional : p.mPositionalArguments = []
  exits : ∀ i a, i < 2 → p.argument (.optional i) = some a → a.Exits
  plain : ∀ i a, 2 ≤ i → p.argument (.optional i) = some a → a.Plain
  named : ∀ i, i < 2 → ∃ name, p.find name = some (.optional i)

/-- The argument holds the word of its occurrence, if there was one. -/
def Holds (a : Argument V) : Option Bytes → Prop
  | none => a.mIsUsed = false ∧ a.mValues = []
  | some value => a.mIsUsed = true ∧ a.mValues = [.string value]

/-- `q` is `p` with the words of `done` recorded. -/
structure Given (p q : ArgumentParser V) (done : List (Option Place × Bytes)) : Prop where
  map : q.mArgumentMap = p.mArgumentMap
  no_positional : q.mPositionalArguments = []
  nodup : (done.map Prod.fst).Nodup
  argument : ∀ place a, p.argument place = some a →
    ∃ a', q.argument place = some a' ∧ SameSettings a a' ∧ Holds a' (done.lookup (some place))
  only : ∀ place, p.argument place = none → q.argument place = none

theorem Flat.given (flat : p.Flat) (map : q.mArgumentMap = p.mArgumentMap)
    (places : q.argument = p.argument)
    (positionals : q.mPositionalArguments = p.mPositionalArguments) : Given p q [] where
  map := map
  no_positional := positionals.trans flat.no_positional
  nodup := List.nodup_nil
  argument := by
    intro place a inside
    have fresh := flat.described.fresh place a inside
    exact ⟨a, places ▸ inside, SameSettings.refl a, fresh.unused, fresh.empty⟩
  only := fun _ absent => places ▸ absent

section Given

variable {done : List (Option Place × Bytes)} {i : Nat}

theorem Given.find (given : Given p q done) : q.find = p.find := by
  funext name
  unfold ArgumentParser.find
  rw [given.map]

theorem lookup_fresh {done : List (Option Place × Bytes)} {key : Option Place} :
    done.lookup key = none ↔ key ∉ done.map Prod.fst := by
  rw [List.lookup_eq_none_iff, List.mem_map]
  constructor
  · rintro apart ⟨entry, member, rfl⟩
    exact bne_iff_ne.mp (apart entry member) rfl
  · intro absent entry member
    apply bne_iff_ne.mpr
    rintro rfl
    exact absent ⟨entry, member, rfl⟩

theorem lookup_push (done : List (Option Place × Bytes)) (key place : Option Place) (value : Bytes)
    (fresh : key ∉ done.map Prod.fst) :
    (done ++ [(key, value)]).lookup place = if place = key then some value else done.lookup place := by
  rw [List.lookup_append]
  by_cases same : place = key
  · subst same
    rw [lookup_fresh.mpr fresh, if_pos rfl, List.lookup_cons_self]
    rfl
  · have differs : (place == key) = false := beq_eq_false_iff_ne.mpr same
    rw [if_neg same, List.lookup_cons, differs]
    simp

theorem Plain.sameSettings {a' : Argument V} (plain : a.Plain) (same : SameSettings a a') :
    a'.Plain where
  default := same.default.trans plain.default
  action := same.action.trans plain.action
  nargs := same.nargs.trans plain.nargs
  optional := same.optional.trans plain.optional
  required := same.required.trans plain.required
  repeatable := same.repeatable.trans plain.repeatable

theorem Given.store (given : Given p q done) (initial : p.argument place = some a) {b : Argument V}
    (inside : q.argument place = some b) (unused : b.mIsUsed = false) (usedName value : Bytes) :
    some place ∉ done.map Prod.fst ∧
      Given p (q.store place { b.used usedName with mValues := b.mValues ++ [.string value] })
        (done ++ [(some place, value)]) := by
  obtain ⟨b', inside', same, holds⟩ := given.argument place a initial
  obtain rfl : b' = b := by
    rw [inside] at inside'
    exact (Option.some.inj inside').symm
  have absent : done.lookup (some place) = none := by
    cases located : done.lookup (some place) with
    | none => rfl
    | some old =>
        rw [located] at holds
        rw [holds.1] at unused
        cases unused
  have fresh := lookup_fresh.mp absent
  rw [absent] at holds
  refine ⟨fresh, ?_⟩
  constructor
  · rw [store_mArgumentMap]
    exact given.map
  · have length : (q.store place { b'.used usedName with
        mValues := b'.mValues ++ [.string value] }).mPositionalArguments.length = 0 := by
      rw [store_positional_length, given.no_positional]
      rfl
    exact List.eq_nil_of_length_eq_zero length
  · rw [List.map_append, List.map_singleton]
    exact List.nodup_append.mpr ⟨given.nodup, List.nodup_singleton _, by
      intro x member y last
      obtain rfl := List.mem_singleton.mp last
      rintro rfl
      exact fresh member⟩
  · intro place' a₀ initial'
    rw [argument_store inside, lookup_push done _ _ value fresh]
    by_cases here : place' = place
    · subst here
      rw [initial] at initial'
      cases initial'
      rw [if_pos rfl, if_pos rfl]
      refine ⟨_, rfl, same.trans ⟨rfl, rfl, rfl, rfl, rfl, rfl, rfl, rfl⟩, rfl, ?_⟩
      rw [holds.2]
      rfl
    · rw [if_neg here, if_neg (fun same => here (Option.some.inj same))]
      exact given.argument place' a₀ initial'
  · intro place' missing
    rw [argument_store inside, if_neg]
    · exact given.only place' missing
    · rintro rfl
      rw [initial] at missing
      cases missing

theorem Given.consumeAt_ok (flat : p.Flat) (given : Given p q done) (large : 2 ≤ i)
    (named : p.find name = some (.optional i))
    (consumed : q.consumeAt (.optional i) it usedName = .ok (q', rest)) :
    ∃ value, it = value :: rest ∧ isPositional value = true ∧
      Given p q' (done ++ [(some (.optional i), value)]) := by
  obtain ⟨a, initial⟩ := flat.described.indexed name _ named
  obtain ⟨b, inside, same, -⟩ := given.argument _ a initial
  have plain := Plain.sameSettings (flat.plain i a large initial) same
  unfold consumeAt at consumed
  rw [inside] at consumed
  dsimp only at consumed
  split at consumed
  · cases consumed
  · rename_i took
    cases consumed
    obtain ⟨unused, value, rfl, positional, rfl⟩ := plain.consume_ok took
    exact ⟨value, rfl, positional, (given.store initial inside unused usedName value).2⟩

theorem Given.consumeAt_of (flat : p.Flat) (given : Given p q done) (large : 2 ≤ i)
    (named : p.find name = some (.optional i)) (positional : isPositional value = true)
    (fresh : some (Place.optional i) ∉ done.map Prod.fst) (rest : List Bytes) (usedName : Bytes) :
    ∃ q', q.consumeAt (.optional i) (value :: rest) usedName = .ok (q', rest) ∧
      Given p q' (done ++ [(some (.optional i), value)]) := by
  obtain ⟨a, initial⟩ := flat.described.indexed name _ named
  obtain ⟨b, inside, same, holds⟩ := given.argument _ a initial
  have plain := Plain.sameSettings (flat.plain i a large initial) same
  rw [lookup_fresh.mpr fresh] at holds
  refine ⟨_, ?_, (given.store initial inside holds.1 usedName value).2⟩
  unfold consumeAt
  rw [inside]
  dsimp only
  rw [plain.consume holds.1 positional]

/-! ## From the words to the groups -/

/-- `--help` and `--version` have not been used. -/
def NoExit (q : ArgumentParser V) : Prop :=
  ∀ i a, i < 2 → q.argument (.optional i) = some a → a.mIsUsed = false

theorem used_kept (words : List Bytes) (place : Place) :
    Kept words fun q : ArgumentParser V => ∃ a, q.argument place = some a ∧ a.mIsUsed = true := by
  intro q other a a' it rest usedName used _ inside _ taken
  rw [argument_store inside]
  split_ifs
  · exact ⟨a', rfl, taken.isUsed.1⟩
  · exact used

theorem consumeAt_used (consumed : q.consumeAt place it usedName = .ok (q', rest)) :
    ∃ a, q'.argument place = some a ∧ a.mIsUsed = true := by
  obtain ⟨a, a', inside, -, taken, rfl⟩ := ArgumentParser.consumeAt_ok consumed
  exact ⟨a', by rw [argument_store inside, if_pos rfl], taken.isUsed.1⟩

/-- What is consumed is an option that takes a word, or `--help` or `--version`, which then
    have been used. -/
theorem Given.consumed_place (given : Given p q done)
    (consumed : q.consumeAt place it usedName = .ok (q', rest)) :
    ∃ i, place = .optional i ∧
      (2 ≤ i ∨ i < 2 ∧ ∃ a, q'.argument (.optional i) = some a ∧ a.mIsUsed = true) := by
  obtain ⟨a, used⟩ := consumeAt_used consumed
  obtain ⟨b, -, inside, -⟩ := ArgumentParser.consumeAt_ok consumed
  cases place with
  | positional j =>
      rw [ArgumentParser.argument, given.no_positional] at inside
      cases inside
  | optional i =>
      by_cases large : 2 ≤ i
      · exact ⟨i, rfl, .inl large⟩
      · exact ⟨i, rfl, .inr ⟨by omega, a, used⟩⟩

/-- A letter that leads to `--help` or `--version` is used up without a word, which stays
    visible to the end. -/
theorem Given.consumeLetters_ok (flat : p.Flat) (letters : Bytes) (given : Given p q done)
    (consumed : q.consumeLetters letters it = .ok (q', rest)) (no_exit : NoExit q') :
    ∃ entries : List (UInt8 × Bytes), entries.map Prod.fst = letters ∧
      it = entries.map Prod.snd ++ rest ∧
      (∀ entry ∈ entries, Group.Names p ['-'.toUInt8, entry.1] ∧ isPositional entry.2 = true) ∧
      Given p q' (done ++ (Group.compound entries).assignments p) := by
  induction letters generalizing q it done with
  | nil =>
      cases consumed
      exact ⟨[], rfl, rfl, by simp, by simpa [Group.assignments] using given⟩
  | cons letter letters ih =>
      rw [consumeLetters] at consumed
      split at consumed
      · cases consumed
      · rename_i place found
        split at consumed
        · cases consumed
        · rename_i q₁ left first
          rw [given.find] at found
          obtain ⟨i, rfl, large | ⟨small, used⟩⟩ := given.consumed_place first
          · obtain ⟨value, rfl, positional, given₁⟩ := given.consumeAt_ok flat large found first
            obtain ⟨entries, spelled, words, valid, given'⟩ := ih given₁ consumed
            refine ⟨(letter, value) :: entries, by simp [spelled], by simp [words], ?_, ?_⟩
            · intro entry member
              rcases List.mem_cons.mp member with rfl | member
              · exact ⟨⟨i, large, found⟩, positional⟩
              · exact valid entry member
            · simpa [Group.assignments, found] using given'
          · obtain ⟨a, inside, isUsed⟩ :=
              ((used_kept left (.optional i)).consumeLetters letters used (List.suffix_refl left)
                consumed).1
            rw [no_exit i a small inside] at isUsed
            cases isUsed

theorem Given.parseWord_ok (flat : p.Flat) {j j' : Nat} {w : Bytes} (given : Given p q done)
    (passes : Passes q j w rest q' j' it) (bound : j ≤ q.mPositionalArguments.length)
    (no_exit : NoExit q') :
    ∃ group : Group, group.Valid p ∧ w :: rest = group.words ++ it ∧ j' = j ∧
      Given p q' (done ++ group.assignments p) := by
  cases passes with
  | positional value more consumed =>
      rw [given.no_positional] at more bound
      simp at more bound
      exact absurd bound more
  | named option found no_help no_version consumed =>
      rw [given.find] at found
      obtain ⟨i, rfl, large | ⟨small, -⟩⟩ := given.consumed_place consumed
      · obtain ⟨value, rfl, positional, given'⟩ := given.consumeAt_ok flat large found consumed
        exact ⟨.named w value, ⟨option, ⟨i, large, found⟩, positional⟩, rfl, rfl,
          by simpa [Group.assignments, found] using given'⟩
      · obtain rfl | rfl : i = 0 ∨ i = 1 := by omega
        · exact absurd rfl no_help
        · exact absurd rfl no_version
  | compound option unknown spelled short consumed =>
      rw [given.find] at unknown
      obtain ⟨entries, letters, rfl, valid, given'⟩ := given.consumeLetters_ok flat _ consumed no_exit
      refine ⟨.compound entries, ⟨?_, ?_, ?_, valid⟩, ?_, rfl, given'⟩
      · rw [letters, ← spelled]
        exact option
      · rw [letters, ← spelled]
        exact unknown
      · intro entry first
        have head := congrArg List.head? letters
        rw [List.head?_map, first] at head
        obtain rfl := Option.some.inj head
        exact short
      · simp [Group.words, letters, spelled]

theorem Given.parseWords_ok (flat : p.Flat) (bound : Nat) (given : Given p q done)
    (parsed : q.parseWords bound 0 it = .ok q') (no_exit : NoExit q') :
    ∃ groups : List Group, (∀ group ∈ groups, group.Valid p) ∧ it = groups.flatMap Group.words ∧
      Given p q' (done ++ groups.flatMap (Group.assignments p)) := by
  induction bound generalizing q it done with
  | zero =>
      cases it with
      | nil =>
          cases parsed
          exact ⟨[], by simp, rfl, by simpa using given⟩
      | cons w rest => cases parsed
  | succ bound ih =>
      cases it with
      | nil =>
          cases parsed
          exact ⟨[], by simp, rfl, by simpa using given⟩
      | cons w rest =>
          rw [parseWords] at parsed
          split at parsed
          · cases parsed
          · rename_i q₁ j left pass
            have passes := ArgumentParser.parseWord_ok pass
            have still : NoExit q₁ := by
              intro i a small inside
              by_contra isUsed
              obtain ⟨a', inside', isUsed'⟩ := (used_kept left (.optional i)).parseWords bound j
                ⟨a, inside, by simpa using isUsed⟩ (List.suffix_refl left) parsed
              rw [no_exit i a' small inside'] at isUsed'
              cases isUsed'
            obtain ⟨group, valid, words, rfl, given₁⟩ :=
              given.parseWord_ok flat passes (Nat.zero_le _) still
            obtain ⟨groups, others, rfl, given'⟩ := ih given₁ parsed
            refine ⟨group :: groups, ?_, by simp [words], by simpa using given'⟩
            intro g member
            rcases List.mem_cons.mp member with rfl | member
            · exact valid
            · exact others g member

/-! ## From the groups to the words -/

theorem Given.consumeLetters_of (flat : p.Flat) (entries : List (UInt8 × Bytes))
    (given : Given p q done)
    (valid : ∀ entry ∈ entries,
      Group.Names p ['-'.toUInt8, entry.1] ∧ isPositional entry.2 = true)
    (once : ((done ++ (Group.compound entries).assignments p).map Prod.fst).Nodup) :
    ∃ q', q.consumeLetters (entries.map Prod.fst) (entries.map Prod.snd ++ rest) = .ok (q', rest) ∧
      Given p q' (done ++ (Group.compound entries).assignments p) := by
  induction entries generalizing q done with
  | nil => exact ⟨q, rfl, by simpa [Group.assignments] using given⟩
  | cons entry entries ih =>
      obtain ⟨letter, value⟩ := entry
      obtain ⟨⟨i, large, found⟩, positional⟩ := valid (letter, value) List.mem_cons_self
      dsimp only at found positional
      have split : done ++ (Group.compound ((letter, value) :: entries)).assignments p =
          (done ++ [(some (.optional i), value)]) ++ (Group.compound entries).assignments p := by
        simp [Group.assignments, found]
      rw [split] at once ⊢
      have fresh : some (Place.optional i) ∉ done.map Prod.fst := by
        rw [List.append_assoc, List.map_append, List.nodup_append] at once
        intro member
        exact once.2.2 _ member _ (by simp) rfl
      obtain ⟨q₁, first, given₁⟩ :=
        given.consumeAt_of flat large found positional fresh (entries.map Prod.snd ++ rest)
          ['-'.toUInt8, letter]
      obtain ⟨q', others, given'⟩ :=
        ih given₁ (fun e member => valid e (List.mem_cons_of_mem _ member)) once
      refine ⟨q', ?_, given'⟩
      simp only [List.map_cons, List.cons_append, consumeLetters]
      rw [given.find, found]
      dsimp only
      rw [first]
      exact others

theorem Given.parseWord_of (flat : p.Flat) {group : Group} (given : Given p q done)
    (valid : group.Valid p) (once : ((done ++ group.assignments p).map Prod.fst).Nodup) :
    ∃ w tail q', group.words = w :: tail ∧ q.parseWord 0 w (tail ++ rest) = .ok (q', 0, rest) ∧
      Given p q' (done ++ group.assignments p) := by
  cases group with
  | named name value =>
      obtain ⟨option, ⟨i, large, found⟩, positional⟩ := valid
      have fresh : some (Place.optional i) ∉ done.map Prod.fst := by
        rw [List.map_append, List.nodup_append] at once
        intro member
        exact once.2.2 _ member _ (by simp [Group.assignments, found]) rfl
      obtain ⟨q', first, given'⟩ := given.consumeAt_of flat large found positional fresh rest name
      refine ⟨name, [value], q', rfl, ?_, by simpa [Group.assignments, found] using given'⟩
      have no_help : Place.optional i ≠ .optional 0 := by simp; omega
      have no_version : Place.optional i ≠ .optional 1 := by simp; omega
      unfold parseWord
      rw [option, given.find, found]
      simp only [Bool.false_eq_true, if_false, no_help, no_version, List.singleton_append, first]
  | compound entries =>
      obtain ⟨option, unknown, short, valid⟩ := valid
      obtain ⟨q', taken, given'⟩ := given.consumeLetters_of flat entries valid once
      refine ⟨_, _, q', rfl, ?_, given'⟩
      cases entries with
      | nil => exact absurd option (by decide)
      | cons entry entries =>
          have short : entry.1 ≠ '-'.toUInt8 := short entry rfl
          unfold parseWord
          rw [option, given.find, unknown]
          simp only [Bool.false_eq_true, if_false, List.map_cons, true_and, ne_eq, short,
            not_false_eq_true, if_true]
          rw [List.map_cons, List.map_cons] at taken
          rw [taken]

theorem Given.parseWords_of (flat : p.Flat) (groups : List Group) (bound : Nat)
    (given : Given p q done) (valid : ∀ group ∈ groups, group.Valid p)
    (once : ((done ++ groups.flatMap (Group.assignments p)).map Prod.fst).Nodup)
    (enough : (groups.flatMap Group.words).length ≤ bound) :
    ∃ q', q.parseWords bound 0 (groups.flatMap Group.words) = .ok q' ∧
      Given p q' (done ++ groups.flatMap (Group.assignments p)) := by
  induction groups generalizing q done bound with
  | nil =>
      refine ⟨q, ?_, by simpa using given⟩
      cases bound <;> rfl
  | cons group groups ih =>
      rw [List.flatMap_cons, ← List.append_assoc] at once
      have here : ((done ++ group.assignments p).map Prod.fst).Nodup := by
        rw [List.map_append] at once
        exact (List.nodup_append.mp once).1
      obtain ⟨w, tail, q₁, words, pass, given₁⟩ :=
        given.parseWord_of flat (valid group List.mem_cons_self) here
      rw [List.flatMap_cons, words, List.cons_append, List.length_cons, List.length_append] at enough
      cases bound with
      | zero => omega
      | succ bound =>
          obtain ⟨q', others, given'⟩ := ih bound given₁
            (fun g member => valid g (List.mem_cons_of_mem _ member)) once (by omega)
          refine ⟨q', ?_, by simpa using given'⟩
          rw [List.flatMap_cons, words, List.cons_append, parseWords, pass]
          exact others

end Given

/-! ## The command lines of a parser -/

theorem forM_of_ok {α ε : Type} {f : α → Except ε Unit} {xs : List α}
    (all : ∀ x ∈ xs, f x = .ok ()) : xs.forM f = .ok () := by
  induction xs with
  | nil => rfl
  | cons y xs ih =>
      change (f y >>= fun _ => xs.forM f) = .ok ()
      rw [all y List.mem_cons_self]
      exact ih fun x member => all x (List.mem_cons_of_mem y member)

theorem assignments_large {group : Group} (valid : group.Valid p) :
    ∀ entry ∈ group.assignments p, ∃ i, 2 ≤ i ∧ entry.1 = some (.optional i) := by
  intro entry member
  cases group with
  | named name value =>
      obtain rfl := List.mem_singleton.mp member
      exact valid.2.1
  | compound letters =>
      obtain ⟨letter, inside, rfl⟩ := List.mem_map.mp member
      exact (valid.2.2.2 letter inside).1

theorem Exits.validate {a' : Argument V} (exits : a.Exits) (same : SameSettings a a')
    (unused : a'.mIsUsed = false) : a'.validate = .ok () := by
  simp [Argument.validate, maybeNargs, same.nargs, same.optional, same.required, exits.nargs,
    exits.optional, exits.required, unused]

theorem Plain.validate {a' : Argument V} {word : Option Bytes} (plain : a.Plain)
    (same : SameSettings a a') (holds : Holds a' word) : a'.validate = .ok () := by
  cases word with
  | none =>
      simp [Argument.validate, maybeNargs, same.nargs, same.optional, same.required, plain.nargs,
        plain.optional, plain.required, holds.1]
  | some value =>
      simp [Argument.validate, maybeNargs, same.nargs, same.optional, same.required, plain.nargs,
        plain.optional, plain.required, holds.1, holds.2]

theorem Flat.validate (flat : p.Flat) {groups : List Group}
    (valid : ∀ group ∈ groups, group.Valid p)
    (given : Given p q (groups.flatMap (Group.assignments p))) : q.parseArgsValidate = .ok () := by
  apply forM_of_ok
  intro argPair _
  obtain ⟨name, place⟩ := argPair
  cases inside : q.argument place with
  | none => rfl
  | some b =>
      change b.validate = .ok ()
      cases initial : p.argument place with
      | none =>
          rw [given.only place initial] at inside
          cases inside
      | some a =>
          obtain ⟨b', inside', same, holds⟩ := given.argument place a initial
          obtain rfl : b' = b := by
            rw [inside] at inside'
            exact (Option.some.inj inside').symm
          cases place with
          | positional i =>
              rw [argument, flat.no_positional] at initial
              cases initial
          | optional i =>
              by_cases large : 2 ≤ i
              · exact Plain.validate (flat.plain i a large initial) same holds
              · have small : i < 2 := by omega
                cases located : (groups.flatMap (Group.assignments p)).lookup (some (.optional i)) with
                | none =>
                    rw [located] at holds
                    exact Exits.validate (flat.exits i a small initial) same holds.1
                | some value =>
                    obtain ⟨before, after, split, -⟩ := List.lookup_eq_some_iff.mp located
                    have member : (some (Place.optional i), value) ∈
                        groups.flatMap (Group.assignments p) := by
                      rw [split]
                      simp
                    obtain ⟨group, there, entry⟩ := List.mem_flatMap.mp member
                    obtain ⟨j, large', key⟩ := assignments_large (valid group there) _ entry
                    cases key
                    omega

theorem Given.present (flat : p.Flat) {done : List (Option Place × Bytes)} (given : Given p q done)
    (found : p.find name = some place) : q.present name = .ok (done.lookup (some place)) := by
  obtain ⟨a, initial⟩ := flat.described.indexed name place found
  obtain ⟨b, inside, same, holds⟩ := given.argument place a initial
  have no_default : a.mDefaultValue = .empty := by
    cases place with
    | positional i =>
        rw [ArgumentParser.argument, flat.no_positional] at initial
        cases initial
    | optional i =>
        by_cases large : 2 ≤ i
        · exact (flat.plain i a large initial).default
        · exact (flat.exits i a (by omega) initial).default
  unfold ArgumentParser.present
  rw [given.find, found, Option.bind_some, inside]
  dsimp only
  rw [same.default, no_default]
  cases located : done.lookup (some place) with
  | none =>
      rw [located] at holds
      rw [holds.2]
      rfl
  | some value =>
      rw [located] at holds
      rw [holds.2]
      rfl

theorem Flat.noExit (flat : p.Flat) {aArguments : List Bytes}
    (parsed : p.parseArgs aArguments = .ok q) : NoExit q := by
  intro i a' small inside'
  obtain ⟨name, found⟩ := flat.named i small
  obtain ⟨a, inside⟩ := flat.described.indexed name _ found
  obtain ⟨occurrences, -, all⟩ := flat.described.complete aArguments parsed
  obtain ⟨b', there, same, -, complete⟩ := all _ a inside
  have exits := flat.exits i a small inside
  rw [inside'] at there
  cases there
  by_contra isUsed
  have counted := (complete name found (by rw [exits.default]; rfl) exits.repeatable).used
    (by simpa using isUsed) 0 (same.nargs.trans exits.nargs)
  exact absurd counted.2 (Nat.lt_irrefl 0)

/-- What a parser of plain options accepts are valid groups no two of which share an option,
    and each option then has the word of its occurrence. -/
theorem Flat.parseArgs_ok (flat : p.Flat) {program : Bytes}
    (parsed : p.parseArgs (program :: words) = .ok q) :
    ∃ groups : List Group, (∀ group ∈ groups, group.Valid p) ∧
      ((groups.flatMap (Group.assignments p)).map Prod.fst).Nodup ∧
      words = groups.flatMap Group.words ∧
      ∀ name place, p.find name = some place →
        q.present name = .ok ((groups.flatMap (Group.assignments p)).lookup (some place)) := by
  obtain ⟨p₁, map, places, positionals, run⟩ := parseArgsInternal_eq p (program :: words)
  have start : Given p p₁ [] := flat.given map places positionals
  obtain ⟨internal, -⟩ := ArgumentParser.parseArgs_ok parsed
  rw [run] at internal
  obtain ⟨groups, valid, split, given⟩ := start.parseWords_ok flat _ internal (flat.noExit parsed)
  exact ⟨groups, valid, given.nodup, split, fun name place found => given.present flat found⟩

/-- It accepts all of them. -/
theorem Flat.parseArgs_of (flat : p.Flat) (program : Bytes) (groups : List Group)
    (valid : ∀ group ∈ groups, group.Valid p)
    (once : ((groups.flatMap (Group.assignments p)).map Prod.fst).Nodup) :
    ∃ q, p.parseArgs (program :: groups.flatMap Group.words) = .ok q ∧
      ∀ name place, p.find name = some place →
        q.present name = .ok ((groups.flatMap (Group.assignments p)).lookup (some place)) := by
  obtain ⟨p₁, map, places, positionals, run⟩ :=
    parseArgsInternal_eq p (program :: groups.flatMap Group.words)
  have start : Given p p₁ [] := flat.given map places positionals
  obtain ⟨q, parsed, given⟩ := start.parseWords_of flat groups
    ((program :: groups.flatMap Group.words).length + p₁.mPositionalArguments.length) valid once
    (by rw [List.length_cons]; omega)
  refine ⟨q, ?_, fun name place found => given.present flat found⟩
  unfold parseArgs
  rw [run, List.tail_cons, parsed]
  dsimp only
  rw [flat.validate valid given]

/-! ## Parsers that the programs build -/

theorem Flat.make (aProgramName : Bytes) : (ArgumentParser.make aProgramName : ArgumentParser V).Flat where
  described := Described.make aProgramName
  no_positional := rfl
  exits := by
    intro i a small inside
    obtain rfl | rfl : i = 0 ∨ i = 1 := by omega
    · cases inside
      exact ⟨rfl, rfl, rfl, rfl, rfl⟩
    · cases inside
      exact ⟨rfl, rfl, rfl, rfl, rfl⟩
  plain := by
    intro i a large inside
    obtain ⟨j, rfl⟩ : ∃ j, i = j + 2 := ⟨i - 2, by omega⟩
    cases inside
  named := by
    intro i small
    obtain rfl | rfl : i = 0 ∨ i = 1 := by omega
    · exact ⟨utf8 "-h", rfl⟩
    · exact ⟨utf8 "-v", rfl⟩

/-- An option that leaves `--help` and `--version` their names. -/
theorem Flat.addArgument (flat : p.Flat) {names : List Bytes}
    (optional : names.any isOptional = true)
    (help : utf8 "--help" ∉ names ∧ p.find (utf8 "--help") = some (.optional 0))
    (version : utf8 "--version" ∉ names ∧ p.find (utf8 "--version") = some (.optional 1)) :
    (p.addArgument (Argument.make names)).Flat := by
  have new : p.nextPlace (Argument.make names : Argument V) =
      .optional p.mOptionalArguments.length := if_pos optional
  have size : 2 ≤ p.mOptionalArguments.length := by
    obtain ⟨name, found⟩ := flat.named 1 (by omega)
    obtain ⟨a, inside⟩ := flat.described.indexed name _ found
    exact (List.getElem?_eq_some_iff.mp inside).1
  have names_iff (name : Bytes) :
      name ∈ (Argument.make names : Argument V).mNames ↔ name ∈ names := List.mem_insertionSort _
  constructor
  · exact flat.described.addArgument ⟨rfl, rfl⟩
  · have here : (Argument.make names : Argument V).mIsOptional = true := optional
    rw [ArgumentParser.addArgument, if_pos here]
    exact flat.no_positional
  · intro i a small inside
    rw [argument_addArgument, new, if_neg (by simp; omega)] at inside
    exact flat.exits i a small inside
  · intro i a large inside
    rw [argument_addArgument, new] at inside
    split_ifs at inside
    · cases inside
      exact ⟨rfl, rfl, rfl, optional, rfl, rfl⟩
    · exact flat.plain i a large inside
  · intro i small
    have kept {name : Bytes} {place : Place} (apart : name ∉ names ∧ p.find name = some place) :
        (p.addArgument (Argument.make names)).find name = some place := by
      rw [find_addArgument_not_mem (by rw [names_iff]; exact apart.1)]
      exact apart.2
    obtain rfl | rfl : i = 0 ∨ i = 1 := by omega
    · exact ⟨_, kept help⟩
    · exact ⟨_, kept version⟩

end ArgumentParser

end RpiFanServe.Cli
