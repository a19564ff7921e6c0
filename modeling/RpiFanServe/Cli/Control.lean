import RpiFanServe.Cli.Options
import RpiFanServe.Dbus.Message

/-! # The control program

`main` of rpi-fan-serve-ctrl.cc.  It reads one number from the command line, checks
its range and sets the property of the D-Bus object to it.  Its range lies within
that of the object, so the object refuses none of its calls.
-/

namespace RpiFanServe.Cli

open CString Dbus

namespace Control

/-- The parser of `main`. -/
def program : ArgumentParser Empty :=
  (ArgumentParser.make (utf8 "rpi-fan-serve-ctrl")).addArgument
    (Argument.make [utf8 "-c", utf8 "--set-cache-life-expectancy"])

inductive Outcome where
  | exit (status : Nat)
  | terminated
  /-- The call of `Set` with this value. -/
  | set (cle : CLong)
  deriving DecidableEq

/-- `main` up to the call on the bus; `isConnected` tells whether the system bus was reached. -/
def main (isConnected : Bool) (argv : List Bytes) : Outcome :=
  match program.parseArgs argv with
  | .error .help | .error .version => .exit 0
  | .error (.runtimeError _) => .exit 1
  | .error _ => .terminated
  | .ok program =>
      match program.present (utf8 "-c") with
      | .error _ => .terminated
      | .ok cleStr =>
          match stoul (cleStr.getD []) with
          | .error _ => .exit 1
          | .ok cle =>
              if cle < 100 ∨ cle > 100000 then .exit 1
              else if !isConnected then .exit 1
              else .set cle

theorem program_flat : program.Flat := by
  unfold program
  refine (ArgumentParser.Flat.make _).addArgument ?_ ?_ ?_
  all_goals decide

def short : Bytes := utf8 "-c"

def long : Bytes := utf8 "--set-cache-life-expectancy"

theorem find_short : program.find short = some (.optional 2) := by decide

theorem find_long : program.find long = some (.optional 2) := by decide

theorem find_name {spelled : Bytes} (named : spelled = short ∨ spelled = long) :
    program.find spelled = some (.optional 2) := by
  rcases named with rfl | rfl
  · exact find_short
  · exact find_long

theorem names_iff {name : Bytes} : Group.Names program name ↔ name = short ∨ name = long := by
  constructor
  · rintro ⟨i, large, found⟩
    have member : (name, Place.optional i) ∈ program.mArgumentMap :=
      ArgumentParser.mem_of_lookup found
    have map : program.mArgumentMap =
        [(utf8 "--help", .optional 0), (long, .optional 2), (utf8 "--version", .optional 1),
          (short, .optional 2), (utf8 "-h", .optional 0), (utf8 "-v", .optional 1)] := by
      decide
    rw [map] at member
    simp only [List.mem_cons, Prod.mk.injEq, Place.optional.injEq, List.not_mem_nil, or_false]
      at member
    rcases member with ⟨-, zero⟩ | ⟨rfl, -⟩ | ⟨-, one⟩ | ⟨rfl, -⟩ | ⟨-, zero⟩ | ⟨-, one⟩
    · omega
    · exact .inr rfl
    · omega
    · exact .inl rfl
    · omega
    · omega
  · intro named
    exact ⟨2, Nat.le_refl 2, find_name named⟩

/-- A valid group is one name and its value: two letters would be one option twice. -/
theorem group_shape {group : Group} (valid : group.Valid program)
    (once : ((group.assignments program).map Prod.fst).Nodup) :
    ∃ name value, group = .named name value ∧ (name = short ∨ name = long) ∧
      Argument.isPositional value = true := by
  cases group with
  | named name value => exact ⟨name, value, rfl, names_iff.mp valid.2.1, valid.2.2⟩
  | compound letters =>
      obtain ⟨option, unknown, -, valid⟩ := valid
      have found (entry : UInt8 × Bytes) (member : entry ∈ letters) :
          program.find ['-'.toUInt8, entry.1] = some (.optional 2) := by
        have two : long.length ≠ 2 := by decide
        rcases names_iff.mp (valid entry member).1 with same | same
        · rw [same, find_short]
        · exact absurd (congrArg List.length same).symm two
      cases letters with
      | nil => exact absurd option (by decide)
      | cons first letters =>
          have here := found first List.mem_cons_self
          cases letters with
          | nil =>
              rw [List.map_singleton, here] at unknown
              cases unknown
          | cons second letters =>
              have next := found second (by simp)
              simp [Group.assignments, here, next] at once

/-- The command lines that are accepted: nothing, or the option once under either name. -/
theorem parsed_iff {name : Bytes} {words : List Bytes} {answer : Option Bytes} :
    (∃ q, program.parseArgs (name :: words) = .ok q ∧ q.present short = .ok answer) ↔
      words = [] ∧ answer = none ∨
        ∃ spelled text, (spelled = short ∨ spelled = long) ∧
          Argument.isPositional text = true ∧ words = [spelled, text] ∧ answer = some text := by
  constructor
  · rintro ⟨q, parsed, present⟩
    obtain ⟨groups, valid, once, rfl, presents⟩ := program_flat.parseArgs_ok parsed
    have same := Except.ok.inj (present.symm.trans (presents short _ find_short))
    cases groups with
    | nil => exact .inl ⟨rfl, same⟩
    | cons group groups =>
        rw [List.flatMap_cons, List.map_append, List.nodup_append] at once
        obtain ⟨spelled, text, rfl, named, positional⟩ :=
          group_shape (valid group List.mem_cons_self) once.1
        have found := find_name named
        cases groups with
        | nil =>
            refine .inr ⟨spelled, text, named, positional, rfl, ?_⟩
            simpa [Group.assignments, found] using same
        | cons other groups =>
            rw [List.flatMap_cons, List.map_append] at once
            obtain ⟨spelled', text', rfl, named', -⟩ := group_shape (valid other (by simp))
              (List.nodup_append.mp once.2.1).1
            have found' := find_name named'
            have twice := once.2.2 (some (.optional 2)) (by simp [Group.assignments, found])
              (some (.optional 2)) (by simp [Group.assignments, found'])
            exact absurd rfl twice
  · rintro (⟨rfl, rfl⟩ | ⟨spelled, text, named, positional, rfl, rfl⟩)
    · obtain ⟨q, parsed, presents⟩ :=
        program_flat.parseArgs_of name [] (by simp) (by simp)
      exact ⟨q, parsed, presents short _ find_short⟩
    · have option : Argument.isPositional spelled = false := by
        rcases named with rfl | rfl <;> decide
      have found := find_name named
      obtain ⟨q, parsed, presents⟩ := program_flat.parseArgs_of name [.named spelled text]
        (by simpa [Group.Valid] using ⟨option, names_iff.mpr named, positional⟩)
        (by simp [Group.assignments])
      refine ⟨q, parsed, ?_⟩
      rw [presents short _ find_short]
      simp [Group.assignments, found]

theorem range_iff {v : CULong} :
    ¬ (v < 100 ∨ v > 100000) ↔ 100 ≤ v.toNat ∧ v.toNat ≤ 100000 := by
  have low : v < 100 ↔ v.toNat < 100 := BitVec.lt_def
  have high : v > 100000 ↔ 100000 < v.toNat := BitVec.lt_def
  rw [low, high]
  omega

theorem main_eq_set {isConnected : Bool} {argv : List Bytes} {v : CLong} :
    main isConnected argv = .set v ↔ isConnected = true ∧
      ∃ answer, (∃ q, program.parseArgs argv = .ok q ∧ q.present short = .ok answer) ∧
        stoul (answer.getD []) = .ok v ∧ 100 ≤ v.toNat ∧ v.toNat ≤ 100000 := by
  constructor
  · intro set
    unfold main at set
    split at set
    · cases set
    · cases set
    · cases set
    · cases set
    · rename_i q parsed
      split at set
      · cases set
      · rename_i answer present
        split at set
        · cases set
        · rename_i cle read
          split_ifs at set with outside reached
          cases set
          exact ⟨by simpa using reached, answer, ⟨q, parsed, present⟩, read, range_iff.mp outside⟩
  · rintro ⟨rfl, answer, ⟨q, parsed, present⟩, read, range⟩
    have present : q.present (utf8 "-c") = .ok answer := present
    unfold main
    rw [parsed]
    simp only [present, read, if_neg (range_iff.mpr range), Bool.not_true, Bool.false_eq_true,
      if_false]

theorem main_valid {isConnected : Bool} {argv : List Bytes} {v : CLong}
    (set : main isConnected argv = .set v) :
    invalidCacheLifeExpectancy v = false ∧ v.toInt = v.toNat := by
  obtain ⟨-, -, -, -, range⟩ := main_eq_set.mp set
  have number : v.toInt = v.toNat := BitVec.toInt_eq_toNat_of_lt (by omega)
  refine ⟨?_, number⟩
  rw [valid_iff, number]
  omega

/-- The program sets the property exactly when the bus is there and it is given one option
    with a number from 100 to 100000, and what it sets the object never refuses: it reaches
    the server as the same number. -/
theorem main_sets_admitted (isConnected : Bool) (name : Bytes) (words : List Bytes) (v : CLong) :
    (main isConnected (name :: words) = .set v ↔ isConnected = true ∧
      ∃ spelled text, (spelled = short ∨ spelled = long) ∧ Argument.isPositional text = true ∧
        words = [spelled, text] ∧ stoul text = .ok v ∧ 100 ≤ v.toNat ∧ v.toNat ≤ 100000) ∧
    (main isConnected (name :: words) = .set v → invalidCacheLifeExpectancy v = false ∧
      ∃ narrow, receiveCallback (cacheLifeExpectancyMessage v) = some narrow ∧
        narrow.toInt = v.toNat) := by
  have sets : main isConnected (name :: words) = .set v ↔ isConnected = true ∧
      ∃ spelled text, (spelled = short ∨ spelled = long) ∧ Argument.isPositional text = true ∧
        words = [spelled, text] ∧ stoul text = .ok v ∧ 100 ≤ v.toNat ∧ v.toNat ≤ 100000 := by
    rw [main_eq_set]
    apply and_congr_right
    intro _
    constructor
    · rintro ⟨answer, parsed, read, range⟩
      rcases parsed_iff.mp parsed with ⟨-, rfl⟩ | ⟨spelled, text, named, positional, rfl, rfl⟩
      · cases read
      · exact ⟨spelled, text, named, positional, rfl, read, range⟩
    · rintro ⟨spelled, text, named, positional, rfl, read, range⟩
      exact ⟨some text, parsed_iff.mpr (.inr ⟨spelled, text, named, positional, rfl, rfl⟩), read,
        range⟩
  refine ⟨sets, ?_⟩
  intro set
  obtain ⟨valid, number⟩ := main_valid set
  obtain ⟨narrow, received, same⟩ := receiveCallback_message valid
  exact ⟨valid, narrow, received, same.trans number⟩

end Control

end RpiFanServe.Cli
