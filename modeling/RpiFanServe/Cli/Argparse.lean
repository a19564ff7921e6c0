import RpiFanServe.Cli.DecimalLiteral
import Mathlib.Data.List.Sort

/-! # The command line parser

`Argument` and `ArgumentParser` of argparse.hpp, which both programs read their
command line with.  An iterator into one of the two lists of arguments is the
list and a position in it, and the two iterators into the words are the words
between them.  A parse that throws has no state left: the programs print the
error and end.
-/

namespace RpiFanServe.Cli

open CString

/-- `std::any`: nothing, a string, or a value of one of the caller's other types. -/
inductive Any (V : Type) where
  | empty
  | string (s : Bytes)
  | other (v : V)
  deriving DecidableEq

def Any.hasValue {V : Type} : Any V → Bool
  | .empty => false
  | _ => true

/-- How a parse ends without a return. -/
inductive Stop where
  | runtimeError (what : Bytes)
  /-- An exception of the caller's action. -/
  | action (fault : Fault)
  /-- The help text is printed and the process exits with status 0. -/
  | help
  /-- The version is printed and the process exits with status 0. -/
  | version
  /-- The bound of the model's loop is used up, which `Described.finishes` excludes. -/
  | unfinished
  deriving DecidableEq

/-- `mAction`. -/
inductive Action (V : Type) where
  | valued (f : Bytes → Except Fault (Any V))
  | void (f : Bytes → Except Fault Unit)

structure Argument (V : Type) where
  mNames : List Bytes
  mUsedName : Bytes := []
  mDefaultValue : Any V := .empty
  mImplicitValue : Any V := .empty
  mAction : Action V := .valued fun aValue => .ok (.string aValue)
  mValues : List (Any V) := []
  mNumArgs : Int := 1
  mIsOptional : Bool
  mIsRequired : Bool := false
  mIsRepeatable : Bool := false
  mIsUsed : Bool := false

namespace Argument

variable {V : Type}

/-- The order of the names: the shorter first, names of one length as strings. -/
def nameLe (lhs rhs : Bytes) : Prop :=
  if lhs.length = rhs.length then lhs ≤ rhs else lhs.length < rhs.length

instance : DecidableRel nameLe := fun lhs rhs => by
  unfold nameLe
  infer_instance

/-- The constructor. -/
def make (names : List Bytes) : Argument V where
  mNames := names.insertionSort nameLe
  mIsOptional := names.any isOptional

/-! The calls that are chained to `add_argument`. -/

def defaultValue (self : Argument V) (aDefaultValue : Any V) : Argument V :=
  { self with mDefaultValue := aDefaultValue }

def required (self : Argument V) : Argument V := { self with mIsRequired := true }

def implicitValue (self : Argument V) (aImplicitValue : Any V) : Argument V :=
  { self with mImplicitValue := aImplicitValue, mNumArgs := 0 }

def action (self : Argument V) (aAction : Action V) : Argument V :=
  { self with mAction := aAction }

def append (self : Argument V) : Argument V := { self with mIsRepeatable := true }

def nargs (self : Argument V) (aNumArgs : Nat) : Argument V := { self with mNumArgs := aNumArgs }

def remaining (self : Argument V) : Argument V := { self with mNumArgs := -1 }

def maybeNargs (self : Argument V) : Option Nat :=
  if self.mNumArgs < 0 then none else some self.mNumArgs.toNat

/-- `std::vector::resize`; new elements are empty. -/
def resize (values : List (Any V)) (n : Nat) : List (Any V) :=
  values.take n ++ List.replicate (n - values.length) .empty

/-- `action_apply` on the words of one occurrence. -/
def applyAction (self : Argument V) (range : List Bytes) : Except Stop (Argument V) :=
  match self.mAction with
  | .valued f =>
      match range.mapM f with
      | .error fault => .error (.action fault)
      | .ok values => .ok { self with mValues := self.mValues ++ values }
  | .void f =>
      match range.mapM f with
      | .error fault => .error (.action fault)
      | .ok _ =>
          if self.mDefaultValue.hasValue then .ok self
          else
            match self.maybeNargs with
            | none => .ok self
            | some expected => .ok { self with mValues := resize self.mValues expected }

/-- `consume`: the words from `start` on are left to read, and those behind the ones that
    the argument takes are returned. -/
def consume (self : Argument V) (start : List Bytes) (usedName : Bytes) :
    Except Stop (Argument V × List Bytes) :=
  if !self.mIsRepeatable && self.mIsUsed then
    .error (.runtimeError (utf8 "Duplicate argument"))
  else
    let self := { self with mIsUsed := true, mUsedName := usedName }
    if self.mNumArgs = 0 then
      .ok ({ self with mValues := self.mValues ++ [self.mImplicitValue] }, start)
    else if self.mNumArgs ≤ (start.length : Int) then
      match self.maybeNargs with
      | some expected =>
          if (start.take expected).any isOptional then
            .error (.runtimeError (utf8 "optional argument in parameter sequence"))
          else
            match self.applyAction (start.take expected) with
            | .error stop => .error stop
            | .ok self => .ok (self, start.drop expected)
      | none =>
          match self.applyAction start with
          | .error stop => .error stop
          | .ok self => .ok (self, [])
    else if self.mDefaultValue.hasValue then .ok (self, start)
    else .error (.runtimeError (utf8 "Too few arguments"))

def validate (self : Argument V) : Except Stop Unit :=
  match self.maybeNargs with
  | none => .ok ()
  | some expected =>
      if self.mIsOptional then
        if self.mIsUsed && self.mValues.length != expected && !self.mIsRepeatable &&
            !self.mDefaultValue.hasValue then
          .error (.runtimeError (self.mUsedName ++ utf8 ": expected " ++ decimal expected ++
            utf8 " argument(s). " ++ decimal self.mValues.length ++ utf8 " provided."))
        else if !self.mIsUsed && !self.mDefaultValue.hasValue && self.mIsRequired then
          .error (.runtimeError (self.mNames.headD [] ++ utf8 ": required."))
        else if self.mIsUsed && self.mIsRequired && self.mValues.length == 0 then
          .error (.runtimeError (self.mUsedName ++ utf8 ": no value provided."))
        else .ok ()
      else if self.mValues.length != expected && !self.mDefaultValue.hasValue then
        .error (.runtimeError ((if self.mUsedName = [] then [] else self.mUsedName ++ utf8 ": ") ++
          decimal expected ++ utf8 " argument(s) expected. " ++ decimal self.mValues.length ++
          utf8 " provided."))
      else .ok ()

end Argument

/-- An iterator into `mPositionalArguments` or `mOptionalArguments`. -/
inductive Place where
  | positional (i : Nat)
  | optional (i : Nat)
  deriving DecidableEq

/-- `std::map::insert_or_assign` on the entries in the order of their keys. -/
def insertOrAssign (entries : List (Bytes × Place)) (key : Bytes) (place : Place) :
    List (Bytes × Place) :=
  match entries with
  | [] => [(key, place)]
  | (k, old) :: rest =>
      if key = k then (key, place) :: rest
      else if key < k then (key, place) :: (k, old) :: rest
      else (k, old) :: insertOrAssign rest key place

structure ArgumentParser (V : Type) where
  mProgramName : Bytes
  mVersion : Bytes
  mPositionalArguments : List (Argument V) := []
  mOptionalArguments : List (Argument V) := []
  mArgumentMap : List (Bytes × Place) := []

namespace ArgumentParser

variable {V : Type}

/-- `mArgumentMap.find`. -/
def find (self : ArgumentParser V) (name : Bytes) : Option Place := self.mArgumentMap.lookup name

/-- What an iterator points at. -/
def argument (self : ArgumentParser V) : Place → Option (Argument V)
  | .positional i => self.mPositionalArguments[i]?
  | .optional i => self.mOptionalArguments[i]?

/-- The argument behind an iterator, changed. -/
def store (self : ArgumentParser V) (place : Place) (a : Argument V) : ArgumentParser V :=
  match place with
  | .positional i => { self with mPositionalArguments := self.mPositionalArguments.set i a }
  | .optional i => { self with mOptionalArguments := self.mOptionalArguments.set i a }

def indexArgument (self : ArgumentParser V) (names : List Bytes) (place : Place) :
    ArgumentParser V :=
  { self with
    mArgumentMap := names.foldl (fun entries name => insertOrAssign entries name place)
      self.mArgumentMap }

/-- `add_argument` and the calls chained to it. -/
def addArgument (self : ArgumentParser V) (tArgument : Argument V) : ArgumentParser V :=
  if tArgument.mIsOptional then
    { self with mOptionalArguments := self.mOptionalArguments ++ [tArgument] }.indexArgument
      tArgument.mNames (.optional self.mOptionalArguments.length)
  else
    { self with mPositionalArguments := self.mPositionalArguments ++ [tArgument] }.indexArgument
      tArgument.mNames (.positional self.mPositionalArguments.length)

/-- The constructor: `--help` and `--version` are the first two optional arguments. -/
def make (aProgramName : Bytes) (aVersion : Bytes := utf8 "1.0") : ArgumentParser V :=
  (({ mProgramName := aProgramName, mVersion := aVersion } : ArgumentParser V).addArgument
    ((Argument.make [utf8 "-h", utf8 "--help"]).nargs 0)).addArgument
    ((Argument.make [utf8 "-v", utf8 "--version"]).nargs 0)

/-- `consume` on the argument behind an iterator. -/
def consumeAt (self : ArgumentParser V) (place : Place) (it : List Bytes) (usedName : Bytes) :
    Except Stop (ArgumentParser V × List Bytes) :=
  match self.argument place with
  | none => .error .unfinished
  | some tArgument =>
      match tArgument.consume it usedName with
      | .error stop => .error stop
      | .ok (tArgument, it) => .ok (self.store place tArgument, it)

/-- The letters of a compound argument. -/
def consumeLetters (self : ArgumentParser V) : Bytes → List Bytes →
    Except Stop (ArgumentParser V × List Bytes)
  | [], it => .ok (self, it)
  | letter :: letters, it =>
      match self.find ['-'.toUInt8, letter] with
      | none => .error (.runtimeError (utf8 "Unknown argument"))
      | some tArgument =>
          match self.consumeAt tArgument it ['-'.toUInt8, letter] with
          | .error stop => .error stop
          | .ok (self, it) => consumeLetters self letters it

/-- A pass of the loop of `parse_args_internal` at the word `tCurrentArgument`, with the
    position of the next positional argument. -/
def parseWord (self : ArgumentParser V) (positionalArgumentIt : Nat) (tCurrentArgument : Bytes)
    (rest : List Bytes) : Except Stop (ArgumentParser V × Nat × List Bytes) :=
  if Argument.isPositional tCurrentArgument then
    if positionalArgumentIt = self.mPositionalArguments.length then
      .error (.runtimeError (utf8 "Maximum number of positional arguments exceeded"))
    else
      match self.consumeAt (.positional positionalArgumentIt) (tCurrentArgument :: rest) [] with
      | .error stop => .error stop
      | .ok (self, it) => .ok (self, positionalArgumentIt + 1, it)
  else
    match self.find tCurrentArgument with
    | some tArgument =>
        if tArgument = .optional 0 then .error .help
        else if tArgument = .optional 1 then .error .version
        else
          match self.consumeAt tArgument rest tCurrentArgument with
          | .error stop => .error stop
          | .ok (self, it) => .ok (self, positionalArgumentIt, it)
    | none =>
        match tCurrentArgument with
        | dash :: letter :: letters =>
            if dash = '-'.toUInt8 ∧ letter ≠ '-'.toUInt8 then
              match self.consumeLetters (letter :: letters) rest with
              | .error stop => .error stop
              | .ok (self, it) => .ok (self, positionalArgumentIt, it)
            else .error (.runtimeError (utf8 "Unknown argument"))
        | _ => .error (.runtimeError (utf8 "Unknown argument"))

/-- The loop of `parse_args_internal`. -/
def parseWords (self : ArgumentParser V) : Nat → Nat → List Bytes →
    Except Stop (ArgumentParser V)
  | _, _, [] => .ok self
  | 0, _, _ :: _ => .error .unfinished
  | bound + 1, positionalArgumentIt, tCurrentArgument :: rest =>
      match self.parseWord positionalArgumentIt tCurrentArgument rest with
      | .error stop => .error stop
      | .ok (self, positionalArgumentIt, it) => parseWords self bound positionalArgumentIt it

/-- `parse_args_internal`.  Every pass takes a word or a positional argument. -/
def parseArgsInternal (self : ArgumentParser V) (aArguments : List Bytes) :
    Except Stop (ArgumentParser V) :=
  let self :=
    if self.mProgramName = [] then { self with mProgramName := aArguments.headD [] } else self
  self.parseWords (aArguments.length + self.mPositionalArguments.length) 0 aArguments.tail

/-- `parse_args_validate`, in the order of the names. -/
def parseArgsValidate (self : ArgumentParser V) : Except Stop Unit :=
  self.mArgumentMap.forM fun argPair =>
    match self.argument argPair.2 with
    | none => .ok ()
    | some tArgument => tArgument.validate

def parseArgs (self : ArgumentParser V) (aArguments : List Bytes) :
    Except Stop (ArgumentParser V) :=
  match self.parseArgsInternal aArguments with
  | .error stop => .error stop
  | .ok self =>
      match self.parseArgsValidate with
      | .error stop => .error stop
      | .ok () => .ok self

/-- How a question about an argument ends without an answer. -/
inductive Refusal where
  | noSuchArgument
  | defaultAlwaysPresents
  | badAnyCast
  deriving DecidableEq

/-- `present<std::string>`. -/
def present (self : ArgumentParser V) (aArgumentName : Bytes) :
    Except Refusal (Option Bytes) :=
  match (self.find aArgumentName).bind self.argument with
  | none => .error .noSuchArgument
  | some tArgument =>
      if tArgument.mDefaultValue.hasValue then .error .defaultAlwaysPresents
      else
        match tArgument.mValues with
        | [] => .ok none
        | .string s :: _ => .ok (some s)
        | _ :: _ => .error .badAnyCast

end ArgumentParser

/-! ## What one occurrence does to its argument -/

namespace Argument

variable {V : Type} {a a' a'' : Argument V} {start rest range : List Bytes} {usedName : Bytes}

/-- The argument with the name that it is used under. -/
def used (self : Argument V) (usedName : Bytes) : Argument V :=
  { self with mIsUsed := true, mUsedName := usedName }

@[simp] theorem maybeNargs_eq_some {n : Nat} : a.maybeNargs = some n ↔ a.mNumArgs = n := by
  unfold maybeNargs
  split_ifs with negative
  · simp only [false_iff]
    omega
  · rw [Option.some.injEq]
    omega

@[simp] theorem maybeNargs_eq_none : a.maybeNargs = none ↔ a.mNumArgs < 0 := by
  unfold maybeNargs
  split_ifs with negative <;> simp [negative]

/-- What one occurrence of an argument under the name `usedName` takes from the words, and
    what it leaves. -/
inductive Takes (a : Argument V) (start : List Bytes) (usedName : Bytes) :
    Argument V → List Bytes → Prop where
  | implicit (flag : a.mNumArgs = 0) :
      Takes a start usedName { a.used usedName with mValues := a.mValues ++ [a.mImplicitValue] }
        start
  | values (n : Nat) (expected : a.mNumArgs = n) (pos : 0 < n) (enough : n ≤ start.length)
      (positional : ∀ w ∈ start.take n, isPositional w = true) {left : Argument V}
      (applied : (a.used usedName).applyAction (start.take n) = .ok left) :
      Takes a start usedName left (start.drop n)
  | remaining (unbounded : a.mNumArgs < 0) {left : Argument V}
      (applied : (a.used usedName).applyAction start = .ok left) :
      Takes a start usedName left []
  | default (few : (start.length : Int) < a.mNumArgs) (given : a.mDefaultValue.hasValue = true) :
      Takes a start usedName (a.used usedName) start

theorem consume_ok (consumed : a.consume start usedName = .ok (a', rest)) :
    (a.mIsRepeatable = true ∨ a.mIsUsed = false) ∧ Takes a start usedName a' rest := by
  unfold consume at consumed
  split at consumed
  · cases consumed
  · rename_i fresh
    constructor
    · cases repeatable : a.mIsRepeatable <;> simp_all
    · dsimp only at consumed
      split at consumed
      · rename_i flag
        cases consumed
        exact .implicit flag
      · rename_i counted
        split at consumed
        · rename_i enough
          split at consumed
          · rename_i n expected
            have number : a.mNumArgs = n := maybeNargs_eq_some.mp expected
            split at consumed
            · cases consumed
            · rename_i positional
              split at consumed
              · cases consumed
              · rename_i applied
                cases consumed
                apply Takes.values n number (by omega) (by omega) _ applied
                intro w member
                by_contra other
                apply positional
                exact List.any_eq_true.mpr ⟨w, member, by simpa [isOptional] using other⟩
          · rename_i unbounded
            split at consumed
            · cases consumed
            · rename_i applied
              have negative : a.mNumArgs < 0 := maybeNargs_eq_none.mp unbounded
              cases consumed
              exact .remaining negative applied
        · rename_i few
          split at consumed
          · rename_i given
            cases consumed
            exact .default (by omega) given
          · cases consumed

theorem Takes.suffix (taken : Takes a start usedName a' rest) : rest <:+ start := by
  cases taken with
  | implicit | default => exact List.suffix_refl _
  | values n => exact List.drop_suffix n start
  | remaining => exact List.nil_suffix

/-- What no parse changes in an argument. -/
structure SameSettings (a b : Argument V) : Prop where
  names : b.mNames = a.mNames
  default : b.mDefaultValue = a.mDefaultValue
  implicit : b.mImplicitValue = a.mImplicitValue
  action : b.mAction = a.mAction
  nargs : b.mNumArgs = a.mNumArgs
  optional : b.mIsOptional = a.mIsOptional
  required : b.mIsRequired = a.mIsRequired
  repeatable : b.mIsRepeatable = a.mIsRepeatable

theorem SameSettings.refl (a : Argument V) : SameSettings a a :=
  ⟨rfl, rfl, rfl, rfl, rfl, rfl, rfl, rfl⟩

theorem SameSettings.trans (h : SameSettings a a') (h' : SameSettings a' a'') :
    SameSettings a a'' where
  names := h'.names.trans h.names
  default := h'.default.trans h.default
  implicit := h'.implicit.trans h.implicit
  action := h'.action.trans h.action
  nargs := h'.nargs.trans h.nargs
  optional := h'.optional.trans h.optional
  required := h'.required.trans h.required
  repeatable := h'.repeatable.trans h.repeatable

/-- The action only adds values. -/
theorem applyAction_eq (applied : a.applyAction range = .ok a') :
    ∃ values, a' = { a with mValues := values } := by
  unfold applyAction at applied
  split at applied
  · split at applied
    · cases applied
    · cases applied
      exact ⟨_, rfl⟩
  · split at applied
    · cases applied
    · split_ifs at applied
      · cases applied
        exact ⟨a.mValues, rfl⟩
      · split at applied
        · cases applied
          exact ⟨a.mValues, rfl⟩
        · cases applied
          exact ⟨_, rfl⟩

theorem Takes.sameSettings (taken : Takes a start usedName a' rest) : SameSettings a a' := by
  cases taken with
  | implicit | default => exact ⟨rfl, rfl, rfl, rfl, rfl, rfl, rfl, rfl⟩
  | values _ _ _ _ _ applied | remaining _ applied =>
      obtain ⟨values, rfl⟩ := applyAction_eq applied
      exact ⟨rfl, rfl, rfl, rfl, rfl, rfl, rfl, rfl⟩

theorem Takes.isUsed (taken : Takes a start usedName a' rest) :
    a'.mIsUsed = true ∧ a'.mUsedName = usedName := by
  cases taken with
  | implicit | default => exact ⟨rfl, rfl⟩
  | values _ _ _ _ _ applied | remaining _ applied =>
      obtain ⟨values, rfl⟩ := applyAction_eq applied
      exact ⟨rfl, rfl⟩

end Argument

end RpiFanServe.Cli
