import RpiFanServe.Cli.Argparse

/-! # What every parse keeps

Each change that a parse makes is one occurrence of one argument.  A property of
the parser that such an occurrence keeps holds after every parse that returns.
The command line falls apart into the occurrences, each with the words it takes,
and what an argument holds in the end comes from the words of its own; with the
checks of `validate` this says what a caller may rely on.
-/

namespace RpiFanServe.Cli

open CString

theorem length_of_mapM {α β ε : Type} {f : α → Except ε β} {xs : List α} {ys : List β}
    (mapped : xs.mapM f = .ok ys) : ys.length = xs.length := by
  induction xs generalizing ys with
  | nil =>
      cases mapped
      rfl
  | cons x xs ih =>
      rw [List.mapM_cons] at mapped
      cases first : f x with
      | error fault =>
          rw [first] at mapped
          cases mapped
      | ok y =>
          rw [first] at mapped
          cases others : xs.mapM f with
          | error fault =>
              rw [others] at mapped
              cases mapped
          | ok zs =>
              rw [others] at mapped
              cases mapped
              exact congrArg (· + 1) (ih others)

theorem mapM_append_ok {α β ε : Type} {f : α → Except ε β} {xs ys : List α} {vs ws : List β}
    (before : xs.mapM f = .ok vs) (behind : ys.mapM f = .ok ws) :
    (xs ++ ys).mapM f = .ok (vs ++ ws) := by
  rw [List.mapM_append, before, behind]
  rfl

/-- One occurrence of an argument: the name it is used under and the words it takes. -/
structure Occurrence where
  place : Place
  usedName : Bytes
  range : List Bytes

/-- The occurrences of the argument at a place. -/
def own (place : Place) (occurrences : List Occurrence) : List Occurrence :=
  occurrences.filter (·.place = place)

theorem own_append (place : Place) (before behind : List Occurrence) :
    own place (before ++ behind) = own place before ++ own place behind :=
  List.filter_append ..

namespace Argument

variable {V : Type} {a a' : Argument V} {start rest range : List Bytes} {usedName : Bytes}
  {own : List Occurrence}

/-- The words that an occurrence takes of those in front of it, and those that it leaves. -/
inductive Owns (a : Argument V) : List Bytes → List Bytes → Prop where
  | implicit (flag : a.mNumArgs = 0) (left : List Bytes) : Owns a [] left
  | values {n : Nat} (expected : a.mNumArgs = n) (pos : 0 < n) {range : List Bytes}
      (size : range.length = n) (positional : ∀ w ∈ range, isPositional w = true)
      (left : List Bytes) : Owns a range left
  | remaining (unbounded : a.mNumArgs < 0) (range : List Bytes) : Owns a range []
  | default {left : List Bytes} (few : (left.length : Int) < a.mNumArgs)
      (given : a.mDefaultValue.hasValue = true) : Owns a [] left

theorem Owns.of_same {left : List Bytes} (owns : a'.Owns range left) (same : SameSettings a a') :
    a.Owns range left := by
  cases owns with
  | implicit flag => exact .implicit (same.nargs ▸ flag) left
  | values expected pos size positional => exact .values (same.nargs ▸ expected) pos size positional left
  | remaining unbounded => exact .remaining (same.nargs ▸ unbounded) range
  | default few given => exact .default (same.nargs ▸ few) (same.default ▸ given)

/-- What an argument holds after its own occurrences: the implicit value for each of them,
    what its action makes of their words, or what a void action stands for. -/
structure Recorded (own : List Occurrence) (a : Argument V) : Prop where
  unused : own = [] → a.mIsUsed = false ∧ a.mValues = []
  used : ∀ last ∈ own.getLast?, a.mIsUsed = true ∧ a.mUsedName = last.usedName
  once : a.mIsRepeatable = false → own.length ≤ 1
  flag : a.mNumArgs = 0 → a.mValues = List.replicate own.length a.mImplicitValue
  texts : ∀ f, a.mAction = .valued f → a.mNumArgs ≠ 0 →
    (own.flatMap Occurrence.range).mapM f = .ok a.mValues
  blank : ∀ f, a.mAction = .void f → a.mNumArgs ≠ 0 →
    (∃ units, (own.flatMap Occurrence.range).mapM f = .ok units) ∧ ∀ v ∈ a.mValues, v = .empty
  counted : own ≠ [] → a.mIsRepeatable = false → ∀ n : Nat, 0 < n → a.mNumArgs = n →
    a.mValues.length = n ∨ a.mValues = [] ∧ a.mDefaultValue.hasValue = true

/-- An argument that is only described yet. -/
structure Fresh (a : Argument V) : Prop where
  unused : a.mIsUsed = false
  empty : a.mValues = []

theorem Fresh.recorded (fresh : a.Fresh) : a.Recorded [] where
  unused _ := ⟨fresh.unused, fresh.empty⟩
  used last member := by cases member
  once _ := Nat.zero_le 1
  flag _ := fresh.empty
  texts f _ _ := by
    rw [fresh.empty]
    rfl
  blank f _ _ := by
    rw [fresh.empty]
    exact ⟨⟨[], rfl⟩, fun v member => by cases member⟩
  counted some := absurd rfl some

theorem Recorded.isUsed (recorded : a.Recorded own) : a.mIsUsed = true ↔ own ≠ [] := by
  constructor
  · intro used none
    rw [(recorded.unused none).1] at used
    cases used
  · intro some
    exact (recorded.used _ (List.getLast?_eq_some_getLast some)).1

/-- What the words of one occurrence add. -/
structure Adds (a : Argument V) (range : List Bytes) (a' : Argument V) : Prop where
  flag : a.mNumArgs = 0 → a'.mValues = a.mValues ++ [a.mImplicitValue]
  texts : ∀ f, a.mAction = .valued f → a.mNumArgs ≠ 0 →
    ∃ values, range.mapM f = .ok values ∧ a'.mValues = a.mValues ++ values
  blank : ∀ f, a.mAction = .void f → a.mNumArgs ≠ 0 →
    (∃ units, range.mapM f = .ok units) ∧ ∀ v ∈ a'.mValues, v ∈ a.mValues ∨ v = .empty
  counted : a.mValues = [] → ∀ n : Nat, 0 < n → a.mNumArgs = n →
    a'.mValues.length = n ∨ a'.mValues = [] ∧ a.mDefaultValue.hasValue = true

theorem applyAction_adds (applied : a.applyAction range = .ok a') (counted : a.mNumArgs ≠ 0)
    (size : ∀ n : Nat, a.mNumArgs = n → range.length = n) : a.Adds range a' := by
  unfold applyAction at applied
  split at applied
  · rename_i f valued
    split at applied
    · cases applied
    · rename_i values mapped
      cases applied
      constructor
      · exact fun flag => absurd flag counted
      · intro f' valued' _
        rw [valued] at valued'
        cases valued'
        exact ⟨values, mapped, rfl⟩
      · intro f' void _
        rw [valued] at void
        cases void
      · intro none n _ expected
        left
        rw [none, List.nil_append, length_of_mapM mapped, size n expected]
  · rename_i f void
    split at applied
    · cases applied
    · rename_i units mapped
      have accepted : ∀ f', a.mAction = .void f' → ∃ units, range.mapM f' = .ok units := by
        intro f' void'
        rw [void] at void'
        cases void'
        exact ⟨units, mapped⟩
      have valued : ∀ f', a.mAction ≠ .valued f' := by simp [void]
      split_ifs at applied with given
      · cases applied
        exact ⟨fun flag => absurd flag counted, fun f' same => absurd same (valued f'),
          fun f' same _ => ⟨accepted f' same, fun v member => .inl member⟩,
          fun none n _ _ => .inr ⟨none, given⟩⟩
      · split at applied
        · rename_i unbounded
          cases applied
          refine ⟨fun flag => absurd flag counted, fun f' same => absurd same (valued f'),
            fun f' same _ => ⟨accepted f' same, fun v member => .inl member⟩, ?_⟩
          intro _ n _ expected
          have negative := maybeNargs_eq_none.mp unbounded
          omega
        · rename_i expected number
          cases applied
          refine ⟨fun flag => absurd flag counted, fun f' same => absurd same (valued f'), ?_, ?_⟩
          · intro f' same _
            refine ⟨accepted f' same, fun v member => ?_⟩
            rcases List.mem_append.mp member with old | new
            · exact .inl (List.mem_of_mem_take old)
            · exact .inr (List.eq_of_mem_replicate new)
          · intro none n _ same
            have number := maybeNargs_eq_some.mp number
            left
            simp only [resize, none, List.take_nil, List.nil_append, List.length_nil, Nat.sub_zero,
              List.length_replicate]
            omega

theorem Takes.adds (taken : Takes a start usedName a' rest) :
    ∃ range, start = range ++ rest ∧ a.Owns range rest ∧ a.Adds range a' := by
  cases taken with
  | implicit flag =>
      refine ⟨[], rfl, .implicit flag _, ⟨fun _ => rfl, ?_, ?_, ?_⟩⟩
      · exact fun _ _ counted => absurd flag counted
      · exact fun _ _ counted => absurd flag counted
      · intro _ n _ expected
        omega
  | values n expected pos enough positional applied =>
      have size : (start.take n).length = n := List.length_take_of_le enough
      have added := applyAction_adds applied (show a.mNumArgs ≠ 0 by omega) (by
        intro m same
        have same : a.mNumArgs = m := same
        omega)
      exact ⟨start.take n, (List.take_append_drop n start).symm,
        .values expected pos size positional _,
        ⟨added.flag, added.texts, added.blank, added.counted⟩⟩
  | remaining unbounded applied =>
      have added := applyAction_adds applied (show a.mNumArgs ≠ 0 by omega) (by
        intro m same
        have same : a.mNumArgs = m := same
        omega)
      exact ⟨start, (List.append_nil start).symm, .remaining unbounded start,
        ⟨added.flag, added.texts, added.blank, added.counted⟩⟩
  | default few given =>
      refine ⟨[], rfl, .default few given, ⟨?_, ?_, ?_, ?_⟩⟩
      · intro flag
        omega
      · exact fun f _ _ => ⟨[], rfl, (List.append_nil _).symm⟩
      · exact fun f _ _ => ⟨⟨[], rfl⟩, fun v member => .inl member⟩
      · exact fun none n _ _ => .inr ⟨none, given⟩

theorem Recorded.push (recorded : a.Recorded own) (again : a.mIsRepeatable = true ∨ a.mIsUsed = false)
    (added : a.Adds range a') (same : SameSettings a a')
    (isUsed : a'.mIsUsed = true ∧ a'.mUsedName = usedName) (place : Place) :
    a'.Recorded (own ++ [⟨place, usedName, range⟩]) := by
  have first : a.mIsRepeatable = false → own = [] := by
    intro once
    by_contra some
    rcases again with repeatable | unused
    · rw [repeatable] at once
      cases once
    · rw [recorded.isUsed.mpr some] at unused
      cases unused
  constructor
  · intro none
    simp at none
  · intro last member
    rw [List.getLast?_concat] at member
    cases member
    exact isUsed
  · intro once
    rw [same.repeatable] at once
    simp [first once]
  · intro flag
    rw [same.nargs] at flag
    rw [added.flag flag, recorded.flag flag, same.implicit, List.length_append, List.length_singleton,
      List.replicate_succ']
  · intro f valued counted
    rw [same.action] at valued
    rw [same.nargs] at counted
    obtain ⟨values, mapped, new⟩ := added.texts f valued counted
    rw [List.flatMap_append, List.flatMap_singleton, new]
    exact mapM_append_ok (recorded.texts f valued counted) mapped
  · intro f void counted
    rw [same.action] at void
    rw [same.nargs] at counted
    obtain ⟨⟨units, before⟩, empty⟩ := recorded.blank f void counted
    obtain ⟨⟨units', behind⟩, new⟩ := added.blank f void counted
    rw [List.flatMap_append, List.flatMap_singleton]
    refine ⟨⟨units ++ units', mapM_append_ok before behind⟩, fun v member => ?_⟩
    rcases new v member with old | blank
    · exact empty v old
    · exact blank
  · intro _ once n pos expected
    rw [same.repeatable] at once
    rw [same.nargs] at expected
    rw [same.default]
    exact added.counted (recorded.unused (first once)).2 n pos expected

end Argument

namespace ArgumentParser

open Argument

variable {V : Type} {p p' : ArgumentParser V} {a a' : Argument V} {place q : Place}
  {words it rest : List Bytes} {usedName name : Bytes}

@[simp] theorem store_mArgumentMap : (p.store place a).mArgumentMap = p.mArgumentMap := by
  cases place <;> rfl

@[simp] theorem store_find : (p.store place a).find name = p.find name := by
  simp [find]

@[simp] theorem store_positional_length :
    (p.store place a).mPositionalArguments.length = p.mPositionalArguments.length := by
  cases place <;> simp [store]

theorem argument_store (inside : p.argument place = some a) (q : Place) :
    (p.store place a').argument q = if q = place then some a' else p.argument q := by
  have at_index (xs : List (Argument V)) (i j : Nat) (here : xs[i]? = some a) :
      (xs.set i a')[j]? = if j = i then some a' else xs[j]? := by
    have bound : i < xs.length := (List.getElem?_eq_some_iff.mp here).1
    rw [List.getElem?_set]
    by_cases same : i = j
    · subst same
      simp [bound]
    · simp [same, Ne.symm same]
  cases place with
  | positional i =>
      cases q with
      | positional j => simpa [store, argument] using at_index _ i j inside
      | optional j => simp [store, argument]
  | optional i =>
      cases q with
      | positional j => simp [store, argument]
      | optional j => simpa [store, argument] using at_index _ i j inside

theorem consumeAt_ok (consumed : p.consumeAt place it usedName = .ok (p', rest)) :
    ∃ a a', p.argument place = some a ∧ (a.mIsRepeatable = true ∨ a.mIsUsed = false) ∧
      Takes a it usedName a' rest ∧ p' = p.store place a' := by
  unfold consumeAt at consumed
  split at consumed
  · cases consumed
  · rename_i a inside
    split at consumed
    · cases consumed
    · rename_i a' left took
      cases consumed
      obtain ⟨again, taken⟩ := consume_ok took
      exact ⟨a, a', inside, again, taken, rfl⟩

/-- What a pass of the loop does when it returns: the next positional argument, the
    argument named by the word, or those named by its letters. -/
inductive Passes (p : ArgumentParser V) (i : Nat) (w : Bytes) (rest : List Bytes) :
    ArgumentParser V → Nat → List Bytes → Prop where
  | positional (value : isPositional w = true) (more : i ≠ p.mPositionalArguments.length)
      {left : ArgumentParser V} {it : List Bytes}
      (consumed : p.consumeAt (.positional i) (w :: rest) [] = .ok (left, it)) :
      Passes p i w rest left (i + 1) it
  | named (option : isPositional w = false) {place : Place} (found : p.find w = some place)
      (no_help : place ≠ .optional 0) (no_version : place ≠ .optional 1)
      {left : ArgumentParser V} {it : List Bytes}
      (consumed : p.consumeAt place rest w = .ok (left, it)) :
      Passes p i w rest left i it
  | compound (option : isPositional w = false) (unknown : p.find w = none) {letter : UInt8}
      {letters : Bytes} (spelled : w = '-'.toUInt8 :: letter :: letters)
      (short : letter ≠ '-'.toUInt8) {left : ArgumentParser V} {it : List Bytes}
      (consumed : p.consumeLetters (letter :: letters) rest = .ok (left, it)) :
      Passes p i w rest left i it

theorem parseWord_ok {i i' : Nat} {w : Bytes}
    (parsed : p.parseWord i w rest = .ok (p', i', it)) : Passes p i w rest p' i' it := by
  unfold parseWord at parsed
  split at parsed
  · rename_i value
    split at parsed
    · cases parsed
    · rename_i more
      split at parsed
      · cases parsed
      · rename_i consumed
        cases parsed
        exact .positional value more consumed
  · rename_i option
    rw [Bool.not_eq_true] at option
    split at parsed
    · rename_i place found
      split_ifs at parsed with help version
      split at parsed
      · cases parsed
      · rename_i consumed
        cases parsed
        exact .named option found help version consumed
    · rename_i unknown
      split at parsed
      · rename_i dash letter letters
        split_ifs at parsed with short
        split at parsed
        · cases parsed
        · rename_i consumed
          cases parsed
          exact .compound option unknown (by rw [short.1]) short.2 consumed
      · cases parsed

/-! ## The run rule -/

/-- A property of the parser that every occurrence of an argument keeps, whichever words
    from the command line are left. -/
def Kept (words : List Bytes) (P : ArgumentParser V → Prop) : Prop :=
  ∀ (p : ArgumentParser V) (place : Place) (a a' : Argument V) (it rest : List Bytes)
    (usedName : Bytes), P p → it <:+ words → p.argument place = some a →
    a.mIsRepeatable = true ∨ a.mIsUsed = false → Takes a it usedName a' rest →
    P (p.store place a')

section Kept

variable {P : ArgumentParser V → Prop} (kept : Kept words P)

include kept

theorem Kept.consumeAt (holds : P p) (within : it <:+ words)
    (consumed : p.consumeAt place it usedName = .ok (p', rest)) : P p' ∧ rest <:+ it := by
  obtain ⟨a, a', inside, again, taken, rfl⟩ := consumeAt_ok consumed
  exact ⟨kept p place a a' it rest usedName holds within inside again taken, taken.suffix⟩

theorem Kept.consumeLetters (letters : Bytes) (holds : P p) (within : it <:+ words)
    (consumed : p.consumeLetters letters it = .ok (p', rest)) : P p' ∧ rest <:+ it := by
  induction letters generalizing p it with
  | nil =>
      cases consumed
      exact ⟨holds, List.suffix_refl _⟩
  | cons letter letters ih =>
      rw [ArgumentParser.consumeLetters] at consumed
      split at consumed
      · cases consumed
      · split at consumed
        · cases consumed
        · rename_i first
          obtain ⟨holds, left⟩ := kept.consumeAt holds within first
          obtain ⟨holds, others⟩ := ih holds (left.trans within) consumed
          exact ⟨holds, others.trans left⟩

theorem Kept.parseWord {i i' : Nat} {w : Bytes} (holds : P p) (within : w :: rest <:+ words)
    (passes : Passes p i w rest p' i' it) : P p' ∧ it <:+ w :: rest := by
  have tail : rest <:+ w :: rest := List.suffix_cons w rest
  cases passes with
  | positional value more consumed => exact kept.consumeAt holds within consumed
  | named option found no_help no_version consumed =>
      obtain ⟨holds, left⟩ := kept.consumeAt holds (tail.trans within) consumed
      exact ⟨holds, left.trans tail⟩
  | compound option unknown spelled short consumed =>
      obtain ⟨holds, left⟩ := kept.consumeLetters _ holds (tail.trans within) consumed
      exact ⟨holds, left.trans tail⟩

theorem Kept.parseWords (bound i : Nat) (holds : P p) (within : it <:+ words)
    (parsed : p.parseWords bound i it = .ok p') : P p' := by
  induction bound generalizing p i it with
  | zero =>
      cases it with
      | nil =>
          cases parsed
          exact holds
      | cons w rest => cases parsed
  | succ bound ih =>
      cases it with
      | nil =>
          cases parsed
          exact holds
      | cons w rest =>
          rw [ArgumentParser.parseWords] at parsed
          split at parsed
          · cases parsed
          · rename_i pass
            obtain ⟨holds, left⟩ := kept.parseWord holds within (parseWord_ok pass)
            exact ih _ holds (left.trans within) parsed

end Kept

/-! ## Parsers that the constructor and `add_argument` build -/

theorem lookup_entry (key n : Bytes) (place : Place) (entries : List (Bytes × Place)) :
    ((key, place) :: entries).lookup n = if n = key then some place else entries.lookup n := by
  by_cases same : n = key
  · subst same
    rw [List.lookup_cons_self, if_pos rfl]
  · have differs : (n == key) = false := beq_eq_false_iff_ne.mpr same
    rw [List.lookup_cons, differs, if_neg same]

theorem lookup_insertOrAssign (entries : List (Bytes × Place)) (key n : Bytes) (place : Place) :
    (insertOrAssign entries key place).lookup n =
      if n = key then some place else entries.lookup n := by
  induction entries with
  | nil => rw [insertOrAssign, lookup_entry]
  | cons entry entries ih =>
      obtain ⟨k, old⟩ := entry
      unfold insertOrAssign
      split_ifs <;> simp_all [lookup_entry]

theorem lookup_assigned (names : List Bytes) (n : Bytes) (place : Place)
    (entries : List (Bytes × Place)) :
    (names.foldl (fun entries name => insertOrAssign entries name place) entries).lookup n =
        some place ∧ (n ∈ names ∨ entries.lookup n = some place) ∨
      (names.foldl (fun entries name => insertOrAssign entries name place) entries).lookup n =
        entries.lookup n ∧ n ∉ names := by
  induction names generalizing entries with
  | nil => simp
  | cons m names ih =>
      rw [List.foldl_cons]
      rcases ih (insertOrAssign entries m place) with ⟨found, named | early⟩ | ⟨found, other⟩
      · exact .inl ⟨found, .inl (List.mem_cons_of_mem m named)⟩
      · rw [lookup_insertOrAssign] at early
        split_ifs at early with same
        · exact .inl ⟨found, .inl (same ▸ List.mem_cons_self)⟩
        · exact .inl ⟨found, .inr early⟩
      · rw [lookup_insertOrAssign] at found
        split_ifs at found with same
        · exact .inl ⟨found, .inl (same ▸ List.mem_cons_self)⟩
        · exact .inr ⟨found, by simp [same, other]⟩

theorem find_indexArgument_mem {names : List Bytes} {n : Bytes} (named : n ∈ names) :
    (p.indexArgument names place).find n = some place := by
  rcases lookup_assigned names n place p.mArgumentMap with ⟨found, -⟩ | ⟨-, other⟩
  · exact found
  · exact absurd named other

theorem find_indexArgument_not_mem {names : List Bytes} {n : Bytes} (other : n ∉ names) :
    (p.indexArgument names place).find n = p.find n := by
  rcases lookup_assigned names n place p.mArgumentMap with ⟨found, named | old⟩ | ⟨found, -⟩
  · exact absurd named other
  · exact found.trans old.symm
  · exact found

/-- The parser after the constructor and the given calls of `add_argument`. -/
def build (aProgramName : Bytes) (arguments : List (Argument V)) : ArgumentParser V :=
  arguments.foldl addArgument (make aProgramName)

/-- Every name leads to an argument, and no argument has been used. -/
structure Described (p : ArgumentParser V) : Prop where
  indexed : ∀ name place, p.find name = some place → ∃ a, p.argument place = some a
  fresh : ∀ place a, p.argument place = some a → a.Fresh

@[simp] theorem argument_indexArgument {names : List Bytes} :
    (p.indexArgument names place).argument q = p.argument q := by
  cases q <;> rfl

theorem getElem?_push {α : Type} (xs : List α) (x : α) (i : Nat) :
    (xs ++ [x])[i]? = if i = xs.length then some x else xs[i]? := by
  split_ifs with last
  · rw [last, List.getElem?_concat_length]
  · by_cases inside : i < xs.length
    · exact List.getElem?_append_left inside
    · rw [List.getElem?_eq_none (by simp; omega), List.getElem?_eq_none (by omega)]

/-- Where `add_argument` puts an argument. -/
def nextPlace (p : ArgumentParser V) (a : Argument V) : Place :=
  if a.mIsOptional then .optional p.mOptionalArguments.length
  else .positional p.mPositionalArguments.length

theorem argument_addArgument (p : ArgumentParser V) (a : Argument V) (q : Place) :
    (p.addArgument a).argument q = if q = p.nextPlace a then some a else p.argument q := by
  unfold ArgumentParser.addArgument nextPlace
  split <;> rw [argument_indexArgument] <;> cases q <;> simp [argument, getElem?_push]

theorem find_addArgument_mem {n : Bytes} (named : n ∈ a.mNames) :
    (p.addArgument a).find n = some (p.nextPlace a) := by
  unfold ArgumentParser.addArgument nextPlace
  split <;> exact find_indexArgument_mem named

theorem find_addArgument_not_mem {n : Bytes} (other : n ∉ a.mNames) :
    (p.addArgument a).find n = p.find n := by
  unfold ArgumentParser.addArgument
  split <;> rw [find_indexArgument_not_mem other] <;> rfl

theorem Described.addArgument (described : p.Described) (fresh : a.Fresh) :
    (p.addArgument a).Described := by
  constructor
  · intro name q found
    rw [argument_addArgument]
    by_cases named : name ∈ a.mNames
    · rw [find_addArgument_mem named] at found
      cases found
      exact ⟨a, if_pos rfl⟩
    · rw [find_addArgument_not_mem named] at found
      obtain ⟨b, inside⟩ := described.indexed name q found
      split_ifs
      · exact ⟨a, rfl⟩
      · exact ⟨b, inside⟩
  · intro q b inside
    rw [argument_addArgument] at inside
    split_ifs at inside
    · cases inside
      exact fresh
    · exact described.fresh q b inside

theorem Described.make (aProgramName : Bytes) :
    (ArgumentParser.make aProgramName : ArgumentParser V).Described := by
  apply Described.addArgument
  · apply Described.addArgument
    · constructor
      · intro name place found
        cases found
      · intro place a inside
        cases place <;> cases inside
    · exact ⟨rfl, rfl⟩
  · exact ⟨rfl, rfl⟩

theorem Described.build (aProgramName : Bytes) (arguments : List (Argument V))
    (fresh : ∀ a ∈ arguments, a.Fresh) : (ArgumentParser.build aProgramName arguments).Described := by
  have added (p : ArgumentParser V) (described : p.Described) :
      (arguments.foldl ArgumentParser.addArgument p).Described := by
    induction arguments generalizing p with
    | nil => exact described
    | cons a arguments ih =>
        apply ih (fun b member => fresh b (List.mem_cons_of_mem a member))
        exact described.addArgument (fresh a List.mem_cons_self)
  exact added _ (Described.make aProgramName)

/-! ## Every parse ends -/

theorem rethrown {α β : Type} {r : Except Stop α} {stop : Stop} (thrown : r = .error stop)
    (finished : r ≠ .error .unfinished) : (.error stop : Except Stop β) ≠ .error .unfinished := by
  intro stopped
  cases stopped
  exact finished thrown

theorem consume_ne_unfinished : a.consume it usedName ≠ .error .unfinished := by
  have applied (b : Argument V) (range : List Bytes) : b.applyAction range ≠ .error .unfinished := by
    unfold applyAction
    repeat' split
    all_goals exact fun stopped => by cases stopped
  unfold consume
  dsimp only
  split_ifs
  · exact fun stopped => by cases stopped
  · exact fun stopped => by cases stopped
  · split
    · split_ifs
      · exact fun stopped => by cases stopped
      · split
        · rename_i stop thrown
          exact rethrown thrown (applied _ _)
        · exact fun stopped => by cases stopped
    · split
      · rename_i stop thrown
        exact rethrown thrown (applied _ _)
      · exact fun stopped => by cases stopped
  · exact fun stopped => by cases stopped
  · exact fun stopped => by cases stopped

/-- Every name leads to an argument, and there are `n` positional arguments. -/
structure Indexed (n : Nat) (p : ArgumentParser V) : Prop where
  leads : ∀ name place, p.find name = some place → ∃ a, p.argument place = some a
  count : p.mPositionalArguments.length = n

theorem Indexed.kept (n : Nat) (words : List Bytes) :
    Kept words (Indexed n : ArgumentParser V → Prop) := by
  intro p place a a' it rest usedName indexed _ inside _ _
  constructor
  · intro name q found
    rw [store_find] at found
    obtain ⟨b, there⟩ := indexed.leads name q found
    rw [argument_store inside]
    split_ifs
    · exact ⟨a', rfl⟩
    · exact ⟨b, there⟩
  · rw [store_positional_length]
    exact indexed.count

theorem consumeAt_ne_unfinished (inside : p.argument place = some a) :
    p.consumeAt place it usedName ≠ .error .unfinished := by
  unfold consumeAt
  rw [inside]
  dsimp only
  split
  · rename_i stop thrown
    exact rethrown thrown consume_ne_unfinished
  · exact fun stopped => by cases stopped

section Finishes

variable {n : Nat} (indexed : p.Indexed n)

include indexed

theorem consumeLetters_ne_unfinished (letters : Bytes) (it : List Bytes) :
    p.consumeLetters letters it ≠ .error .unfinished := by
  induction letters generalizing p it with
  | nil => exact fun stopped => by cases stopped
  | cons letter letters ih =>
      rw [consumeLetters]
      split
      · exact fun stopped => by cases stopped
      · rename_i place found
        obtain ⟨a, inside⟩ := indexed.leads _ place found
        split
        · rename_i stop thrown
          exact rethrown thrown (consumeAt_ne_unfinished inside)
        · rename_i p' rest consumed
          exact ih ((Indexed.kept n it).consumeAt indexed (List.suffix_refl it) consumed).1 rest

theorem parseWord_ne_unfinished {i : Nat} (bound : i ≤ n) (w : Bytes) (rest : List Bytes) :
    p.parseWord i w rest ≠ .error .unfinished := by
  unfold parseWord
  split
  · split_ifs with last
    · exact fun stopped => by cases stopped
    · have more : i < p.mPositionalArguments.length := by
        have := indexed.count
        omega
      have inside : p.argument (.positional i) = some p.mPositionalArguments[i] :=
        List.getElem?_eq_getElem more
      split
      · rename_i stop thrown
        exact rethrown thrown (consumeAt_ne_unfinished inside)
      · exact fun stopped => by cases stopped
  · split
    · rename_i place found
      obtain ⟨a, inside⟩ := indexed.leads w place found
      split_ifs
      · exact fun stopped => by cases stopped
      · exact fun stopped => by cases stopped
      · split
        · rename_i stop thrown
          exact rethrown thrown (consumeAt_ne_unfinished inside)
        · exact fun stopped => by cases stopped
    · split
      · split_ifs
        · split
          · rename_i stop thrown
            exact rethrown thrown (consumeLetters_ne_unfinished indexed _ _)
          · exact fun stopped => by cases stopped
        · exact fun stopped => by cases stopped
      · exact fun stopped => by cases stopped

/-- Every pass takes a word or a positional argument, so the loop never needs more passes
    than there are of both. -/
theorem parseWords_ne_unfinished {i : Nat} (bound : Nat) (it : List Bytes) (at_most : i ≤ n)
    (enough : it.length + (n - i) ≤ bound) : p.parseWords bound i it ≠ .error .unfinished := by
  induction bound generalizing p i it with
  | zero =>
      cases it with
      | nil => exact fun stopped => by cases stopped
      | cons w rest => simp at enough
  | succ bound ih =>
      cases it with
      | nil => exact fun stopped => by cases stopped
      | cons w rest =>
          rw [parseWords]
          split
          · rename_i stop thrown
            exact rethrown thrown (parseWord_ne_unfinished indexed at_most w rest)
          · rename_i p' i' left pass
            have passes := parseWord_ok pass
            obtain ⟨indexed', suffix⟩ :=
              (Indexed.kept n (w :: rest)).parseWord indexed (List.suffix_refl _) passes
            have progress : i' ≤ n ∧ left.length + (n - i') ≤ bound := by
              rw [List.length_cons] at enough
              have shorter := suffix.length_le
              rw [List.length_cons] at shorter
              cases passes with
              | positional value more consumed =>
                  have := indexed.count
                  omega
              | named option found no_help no_version consumed =>
                  have kept := (Indexed.kept n rest).consumeAt indexed (List.suffix_refl _) consumed
                  have := kept.2.length_le
                  omega
              | compound option unknown spelled short consumed =>
                  have kept :=
                    (Indexed.kept n rest).consumeLetters _ indexed (List.suffix_refl _) consumed
                  have := kept.2.length_le
                  omega
            exact ih indexed' left progress.1 progress.2

end Finishes

/-! ## The occurrences on a command line -/

def Owns (p : ArgumentParser V) (place : Place) (range left : List Bytes) : Prop :=
  ∃ a, p.argument place = some a ∧ a.Owns range left

/-- The letters of a compound argument, and the words behind it that they take in order. -/
inductive Letters (p : ArgumentParser V) :
    Bytes → List Bytes → List Occurrence → List Bytes → Prop where
  | nil (left : List Bytes) : Letters p [] left [] left
  | cons {letter : UInt8} {place : Place} (found : p.find ['-'.toUInt8, letter] = some place)
      {range left rest : List Bytes} (owns : p.Owns place range left) {letters : Bytes}
      {occurrences : List Occurrence} (behind : Letters p letters left occurrences rest) :
      Letters p (letter :: letters) (range ++ left)
        (⟨place, ['-'.toUInt8, letter], range⟩ :: occurrences) rest

/-- The words from the `i`-th positional argument on, as a sequence of occurrences. -/
inductive Layout (p : ArgumentParser V) : Nat → List Bytes → List Occurrence → Prop where
  | done (i : Nat) : Layout p i [] []
  | positional {i : Nat} {w : Bytes} (value : isPositional w = true) {rest range left : List Bytes}
      (split : w :: rest = range ++ left) (owns : p.Owns (.positional i) range left)
      {occurrences : List Occurrence} (behind : Layout p (i + 1) left occurrences) :
      Layout p i (w :: rest) (⟨.positional i, [], range⟩ :: occurrences)
  | named {i : Nat} {w : Bytes} (option : isPositional w = false) {place : Place}
      (found : p.find w = some place) (no_help : place ≠ .optional 0)
      (no_version : place ≠ .optional 1) {range left : List Bytes} (owns : p.Owns place range left)
      {occurrences : List Occurrence} (behind : Layout p i left occurrences) :
      Layout p i (w :: (range ++ left)) (⟨place, w, range⟩ :: occurrences)
  | compound {i : Nat} {w : Bytes} (option : isPositional w = false) (unknown : p.find w = none)
      {letter : UInt8} {letters : Bytes} (spelled : w = '-'.toUInt8 :: letter :: letters)
      (short : letter ≠ '-'.toUInt8) {group occurrences : List Occurrence}
      {rest left : List Bytes} (taken : p.Letters (letter :: letters) rest group left)
      (behind : Layout p i left occurrences) : Layout p i (w :: rest) (group ++ occurrences)

/-- `p'` is `p` with these occurrences recorded, each at its own argument. -/
structure Records (p : ArgumentParser V) (occurrences : List Occurrence) (p' : ArgumentParser V) :
    Prop where
  find : p'.find = p.find
  here : ∀ place a, p.argument place = some a → ∃ a', p'.argument place = some a'
  argument : ∀ place a', p'.argument place = some a' → ∃ a, p.argument place = some a ∧
    SameSettings a a' ∧ ∀ earlier, a.Recorded earlier → a'.Recorded (earlier ++ own place occurrences)

theorem Records.refl (p : ArgumentParser V) : p.Records [] p where
  find := rfl
  here _ a inside := ⟨a, inside⟩
  argument _ a inside := ⟨a, inside, SameSettings.refl a, fun earlier recorded => by
    simpa [own] using recorded⟩

section Records

variable {p'' : ArgumentParser V} {before behind occurrences : List Occurrence}

theorem Records.trans (records : p.Records before p') (more : p'.Records behind p'') :
    p.Records (before ++ behind) p'' where
  find := more.find.trans records.find
  here place a inside := by
    obtain ⟨a', there⟩ := records.here place a inside
    exact more.here place a' there
  argument place a'' last := by
    obtain ⟨a', middle, same', recorded'⟩ := more.argument place a'' last
    obtain ⟨a, first, same, recorded⟩ := records.argument place a' middle
    refine ⟨a, first, same.trans same', fun earlier old => ?_⟩
    rw [own_append, ← List.append_assoc]
    exact recorded' _ (recorded earlier old)

theorem Records.consumeAt (consumed : p.consumeAt place it usedName = .ok (p', rest)) :
    ∃ range, it = range ++ rest ∧ p.Owns place range rest ∧
      p.Records [⟨place, usedName, range⟩] p' := by
  obtain ⟨a, a', inside, again, taken, rfl⟩ := consumeAt_ok consumed
  obtain ⟨range, split, owns, added⟩ := taken.adds
  refine ⟨range, split, ⟨a, inside, owns⟩, ?_, ?_, ?_⟩
  · funext name
    exact store_find
  · intro q b there
    rw [argument_store inside]
    split_ifs
    · exact ⟨a', rfl⟩
    · exact ⟨b, there⟩
  · intro q b there
    rw [argument_store inside] at there
    split_ifs at there with same
    · subst same
      cases there
      refine ⟨a, inside, taken.sameSettings, fun earlier recorded => ?_⟩
      simpa [own] using recorded.push again added taken.sameSettings taken.isUsed q
    · refine ⟨b, there, SameSettings.refl b, fun earlier recorded => ?_⟩
      simpa [own, Ne.symm same] using recorded

theorem Owns.of_records {left : List Bytes} {range : List Bytes} (records : p.Records before p')
    (owns : p'.Owns place range left) : p.Owns place range left := by
  obtain ⟨a', there, owns⟩ := owns
  obtain ⟨a, inside, same, -⟩ := records.argument place a' there
  exact ⟨a, inside, owns.of_same same⟩

theorem Letters.of_records {letters : Bytes} (records : p.Records before p')
    (taken : p'.Letters letters it occurrences rest) : p.Letters letters it occurrences rest := by
  induction taken with
  | nil left => exact .nil left
  | cons found owns behind ih => exact .cons (records.find ▸ found) (owns.of_records records) ih

theorem Layout.of_records {i : Nat} (records : p.Records before p')
    (layout : p'.Layout i it occurrences) : p.Layout i it occurrences := by
  induction layout with
  | done i => exact .done i
  | positional value split owns behind ih => exact .positional value split (owns.of_records records) ih
  | named option found no_help no_version owns behind ih =>
      exact .named option (records.find ▸ found) no_help no_version (owns.of_records records) ih
  | compound option unknown spelled short taken behind ih =>
      exact .compound option (records.find ▸ unknown) spelled short (taken.of_records records) ih

end Records

theorem Letters.of_consumed {letters : Bytes}
    (consumed : p.consumeLetters letters it = .ok (p', rest)) :
    ∃ occurrences, p.Letters letters it occurrences rest ∧ p.Records occurrences p' := by
  induction letters generalizing p it with
  | nil =>
      cases consumed
      exact ⟨[], .nil _, .refl _⟩
  | cons letter letters ih =>
      rw [consumeLetters] at consumed
      split at consumed
      · cases consumed
      · rename_i place found
        split at consumed
        · cases consumed
        · rename_i first
          obtain ⟨range, rfl, owns, records⟩ := Records.consumeAt first
          obtain ⟨occurrences, behind, more⟩ := ih consumed
          exact ⟨_, .cons found owns (behind.of_records records), records.trans more⟩

/-- What the loop accepts is a sequence of occurrences, and it records them. -/
theorem Layout.of_parsed {bound i : Nat} (parsed : p.parseWords bound i it = .ok p') :
    ∃ occurrences, p.Layout i it occurrences ∧ p.Records occurrences p' := by
  induction bound generalizing p i it with
  | zero =>
      cases it with
      | nil =>
          cases parsed
          exact ⟨[], .done i, .refl _⟩
      | cons w rest => cases parsed
  | succ bound ih =>
      cases it with
      | nil =>
          cases parsed
          exact ⟨[], .done i, .refl _⟩
      | cons w rest =>
          rw [parseWords] at parsed
          split at parsed
          · cases parsed
          · rename_i pass
            obtain ⟨occurrences, behind, more⟩ := ih parsed
            cases parseWord_ok pass with
            | positional value _ consumed =>
                obtain ⟨range, split, owns, records⟩ := Records.consumeAt consumed
                exact ⟨_, .positional value split owns (behind.of_records records),
                  records.trans more⟩
            | named option found no_help no_version consumed =>
                obtain ⟨range, rfl, owns, records⟩ := Records.consumeAt consumed
                exact ⟨_, .named option found no_help no_version owns (behind.of_records records),
                  records.trans more⟩
            | compound option unknown spelled short consumed =>
                obtain ⟨group, taken, records⟩ := Letters.of_consumed consumed
                exact ⟨_, .compound option unknown spelled short taken (behind.of_records records),
                  records.trans more⟩

/-! ## What a parse that returns says -/

/-- What `validate` accepts of an argument with neither a default nor leave to occur again. -/
structure Complete (a : Argument V) : Prop where
  /-- An argument that takes a number of words has as many values, and one that takes none is
      never used. -/
  used : a.mIsUsed = true → ∀ n : Nat, a.mNumArgs = n → a.mValues.length = n ∧ 0 < n
  unused : a.mIsUsed = false → a.mValues = [] ∧
    (a.mIsOptional = true → a.mIsRequired = true → a.mNumArgs < 0) ∧
    (a.mIsOptional = false → a.mNumArgs ≤ 0)

theorem validate_complete {own : List Occurrence} (recorded : a.Recorded own)
    (valid : a.validate = .ok ()) (no_default : a.mDefaultValue.hasValue = false)
    (once : a.mIsRepeatable = false) : Complete a := by
  have sizes : ∀ n : Nat, a.mNumArgs = n → a.mIsUsed = true → a.mValues.length = n := by
    intro n expected isUsed
    unfold validate at valid
    rw [maybeNargs_eq_some.mpr expected] at valid
    dsimp only at valid
    by_contra differs
    split_ifs at valid <;> simp_all
  constructor
  · intro isUsed n expected
    have size := sizes n expected isUsed
    refine ⟨size, ?_⟩
    by_contra zero
    obtain rfl : n = 0 := by omega
    have some := recorded.isUsed.mp isUsed
    rw [recorded.flag expected, List.length_replicate, List.length_eq_zero_iff] at size
    exact some size
  · intro unused
    have none : own = [] := by
      by_contra some
      rw [recorded.isUsed.mpr some] at unused
      cases unused
    have values := (recorded.unused none).2
    refine ⟨values, ?_, ?_⟩
    · intro optional required
      by_contra bounded
      have expected : a.maybeNargs = some a.mNumArgs.toNat := maybeNargs_eq_some.mpr (by omega)
      unfold validate at valid
      rw [expected] at valid
      simp [optional, required, unused, no_default] at valid
    · intro positional
      by_contra counted
      have expected : a.maybeNargs = some a.mNumArgs.toNat := maybeNargs_eq_some.mpr (by omega)
      unfold validate at valid
      rw [expected] at valid
      simp [positional, values, no_default] at valid
      omega

theorem forM_ok {α ε : Type} {f : α → Except ε Unit} {xs : List α}
    (all : xs.forM f = .ok ()) : ∀ x ∈ xs, f x = .ok () := by
  induction xs with
  | nil => simp
  | cons y xs ih =>
      change (f y >>= fun _ => xs.forM f) = .ok () at all
      cases first : f y with
      | error fault =>
          rw [first] at all
          cases all
      | ok =>
          rw [first] at all
          intro x member
          rcases List.mem_cons.mp member with rfl | member
          · exact first
          · exact ih all x member

theorem forM_error {α ε : Type} {f : α → Except ε Unit} {xs : List α} {fault : ε}
    (thrown : xs.forM f = .error fault) : ∃ x ∈ xs, f x = .error fault := by
  induction xs with
  | nil => cases thrown
  | cons y xs ih =>
      change (f y >>= fun _ => xs.forM f) = .error fault at thrown
      cases first : f y with
      | error other =>
          rw [first] at thrown
          cases thrown
          exact ⟨y, List.mem_cons_self, first⟩
      | ok =>
          rw [first] at thrown
          obtain ⟨x, member, here⟩ := ih thrown
          exact ⟨x, List.mem_cons_of_mem y member, here⟩

theorem validate_error {stop : Stop} (thrown : a.validate = .error stop) :
    ∃ what, stop = .runtimeError what := by
  unfold validate at thrown
  split at thrown
  · cases thrown
  · split_ifs at thrown <;> cases thrown <;> exact ⟨_, rfl⟩

theorem parseArgsValidate_error {stop : Stop} (thrown : p.parseArgsValidate = .error stop) :
    ∃ what, stop = .runtimeError what := by
  obtain ⟨argPair, -, here⟩ := forM_error thrown
  split at here
  · cases here
  · exact validate_error here

theorem mem_of_lookup {entries : List (Bytes × Place)} (found : entries.lookup name = some place) :
    (name, place) ∈ entries := by
  induction entries with
  | nil => cases found
  | cons entry entries ih =>
      obtain ⟨k, old⟩ := entry
      rw [lookup_entry] at found
      split_ifs at found with same
      · cases found
        exact same ▸ List.mem_cons_self
      · exact List.mem_cons_of_mem _ (ih found)

theorem parseArgs_ok {aArguments : List Bytes} (parsed : p.parseArgs aArguments = .ok p') :
    p.parseArgsInternal aArguments = .ok p' ∧
      ∀ name place a, p'.find name = some place → p'.argument place = some a → a.validate = .ok () := by
  unfold parseArgs at parsed
  split at parsed
  · cases parsed
  · rename_i internal
    split at parsed
    · cases parsed
    · rename_i valid
      cases parsed
      refine ⟨internal, ?_⟩
      intro name place a found inside
      have checked := forM_ok valid (name, place) (mem_of_lookup found)
      dsimp only at checked
      rwa [inside] at checked

/-- The name of the program is all that a parse changes before its loop. -/
theorem parseArgsInternal_eq (p : ArgumentParser V) (aArguments : List Bytes) :
    ∃ q : ArgumentParser V, q.mArgumentMap = p.mArgumentMap ∧ q.argument = p.argument ∧
      q.mPositionalArguments = p.mPositionalArguments ∧
      p.parseArgsInternal aArguments =
        q.parseWords (aArguments.length + q.mPositionalArguments.length) 0 aArguments.tail := by
  refine ⟨if p.mProgramName = [] then { p with mProgramName := aArguments.headD [] } else p, ?_⟩
  split_ifs with unnamed
  · refine ⟨rfl, ?_, rfl, by simp [parseArgsInternal, unnamed]⟩
    funext place
    cases place <;> rfl
  · exact ⟨rfl, rfl, rfl, by simp [parseArgsInternal, unnamed]⟩

section Described

variable (described : p.Described) (aArguments : List Bytes)

include described

theorem Described.initial : ∃ q : ArgumentParser V, q.Described ∧ q.mArgumentMap = p.mArgumentMap ∧
    q.argument = p.argument ∧ p.parseArgsInternal aArguments =
      q.parseWords (aArguments.length + q.mPositionalArguments.length) 0 aArguments.tail := by
  obtain ⟨q, map, places, -, run⟩ := parseArgsInternal_eq p aArguments
  have find : q.find = p.find := by
    funext name
    unfold ArgumentParser.find
    rw [map]
  refine ⟨q, ?_, map, places, run⟩
  constructor
  · rw [find, places]
    exact described.indexed
  · rw [places]
    exact described.fresh

theorem Described.finishes : p.parseArgs aArguments ≠ .error .unfinished := by
  obtain ⟨q, described', -, -, run⟩ := described.initial aArguments
  have indexed : q.Indexed q.mPositionalArguments.length := ⟨described'.indexed, rfl⟩
  intro stopped
  unfold parseArgs at stopped
  split at stopped
  · rename_i stop thrown
    cases stopped
    rw [run] at thrown
    exact parseWords_ne_unfinished indexed _ _ (Nat.zero_le _) (by simp) thrown
  · split at stopped
    · rename_i stop thrown
      cases stopped
      obtain ⟨what, same⟩ := parseArgsValidate_error thrown
      cases same
    · cases stopped

/-- The words behind the program are occurrences of the arguments, and each argument holds
    what its own make of it; one that is still found under a name has passed `validate`. -/
theorem Described.complete (parsed : p.parseArgs aArguments = .ok p') :
    ∃ occurrences, p.Layout 0 aArguments.tail occurrences ∧
      ∀ place a, p.argument place = some a → ∃ a', p'.argument place = some a' ∧
        SameSettings a a' ∧ a'.Recorded (own place occurrences) ∧
        ∀ name, p.find name = some place → a.mDefaultValue.hasValue = false →
          a.mIsRepeatable = false → Complete a' := by
  obtain ⟨q, described', map, places, run⟩ := described.initial aArguments
  have find : q.find = p.find := by
    funext name
    unfold ArgumentParser.find
    rw [map]
  have named : p.Records [] q := by
    refine ⟨find, fun place a inside => ⟨a, places ▸ inside⟩, fun place a inside => ?_⟩
    refine ⟨a, places ▸ inside, SameSettings.refl a, fun earlier recorded => ?_⟩
    simpa [own] using recorded
  obtain ⟨internal, valid⟩ := parseArgs_ok parsed
  rw [run] at internal
  obtain ⟨occurrences, layout, records⟩ := Layout.of_parsed internal
  refine ⟨occurrences, layout.of_records named, fun place a inside => ?_⟩
  have inside' : q.argument place = some a := places ▸ inside
  obtain ⟨a', there⟩ := records.here place a inside'
  obtain ⟨b, initial, same, recorded⟩ := records.argument place a' there
  obtain rfl : a = b := Option.some.inj (inside'.symm.trans initial)
  have recorded := recorded [] (described.fresh place a inside).recorded
  refine ⟨a', there, same, recorded, fun name found no_default once => ?_⟩
  have found' : p'.find name = some place := by
    rw [records.find, find]
    exact found
  apply validate_complete recorded (valid name place a' found' there)
  · rw [same.default]
    exact no_default
  · rw [same.repeatable]
    exact once

end Described

/-- For every parser and every command line the parse ends.  When it returns, the words are
    a sequence of occurrences, every argument has kept its settings and holds what its own
    occurrences make of it, and every argument that is still found under one of its names and
    has neither a default nor leave to occur again is complete. -/
theorem parseArgs_complete (aProgramName : Bytes) (arguments : List (Argument V))
    (fresh : ∀ a ∈ arguments, a.Fresh) (aArguments : List Bytes) :
    (build aProgramName arguments).parseArgs aArguments ≠ .error .unfinished ∧
      ∀ p', (build aProgramName arguments).parseArgs aArguments = .ok p' →
        ∃ occurrences, (build aProgramName arguments).Layout 0 aArguments.tail occurrences ∧
          ∀ place a, (build aProgramName arguments).argument place = some a →
            ∃ a', p'.argument place = some a' ∧ SameSettings a a' ∧
              a'.Recorded (own place occurrences) ∧
              ∀ name, (build aProgramName arguments).find name = some place →
                a.mDefaultValue.hasValue = false → a.mIsRepeatable = false → Complete a' := by
  have described := Described.build aProgramName arguments fresh
  constructor
  · exact described.finishes aArguments
  · intro p' parsed
    exact described.complete aArguments parsed

/-- Options of every kind, and a positional argument for the rest. -/
def sampleArguments : List (Argument Nat) :=
  [(Argument.make [utf8 "-p", utf8 "--port"]).required,
    (Argument.make [utf8 "-q"]).implicitValue (.other 1) |>.defaultValue (.other 0),
    (Argument.make [utf8 "-x"]).append.action (.valued fun w => .ok (.other w.length)),
    (Argument.make [utf8 "files"]).remaining]

def sampleWords : List Bytes :=
  [utf8 "sample", utf8 "-x", utf8 "abc", utf8 "-qp", utf8 "8080", utf8 "-x", utf8 "de", utf8 "f",
    utf8 "g"]

theorem parseArgs_complete_sample : ∃ p' port x occurrences,
    (build (utf8 "sample") sampleArguments).parseArgs sampleWords = .ok p' ∧
    (build (utf8 "sample") sampleArguments).Layout 0 sampleWords.tail occurrences ∧
    p'.argument (.optional 2) = some port ∧ port.mValues = [.string (utf8 "8080")] ∧ Complete port ∧
    p'.argument (.optional 4) = some x ∧ x.mValues = [.other 3, .other 2] ∧
    x.Recorded (own (.optional 4) occurrences) := by
  obtain ⟨p', parsed⟩ : ∃ p',
      (build (utf8 "sample") sampleArguments).parseArgs sampleWords = .ok p' := ⟨_, rfl⟩
  have values : (p'.argument (.optional 2)).map Argument.mValues = some [.string (utf8 "8080")] ∧
      (p'.argument (.optional 4)).map Argument.mValues = some [.other 3, .other 2] := by
    cases parsed
    exact ⟨rfl, rfl⟩
  have fresh : ∀ a ∈ sampleArguments, a.Fresh := by
    intro a member
    simp only [sampleArguments, List.mem_cons, List.not_mem_nil, or_false] at member
    rcases member with rfl | rfl | rfl | rfl <;> exact ⟨rfl, rfl⟩
  obtain ⟨occurrences, layout, all⟩ := (parseArgs_complete _ _ fresh _).2 p' parsed
  obtain ⟨port, here, -, -, complete⟩ := all (.optional 2) _ rfl
  obtain ⟨x, there, -, recorded, -⟩ := all (.optional 4) _ rfl
  rw [here, there] at values
  exact ⟨p', port, x, occurrences, parsed, layout, here, Option.some.inj values.1,
    complete (utf8 "--port") rfl rfl rfl, there, Option.some.inj values.2, recorded⟩

end ArgumentParser

end RpiFanServe.Cli
