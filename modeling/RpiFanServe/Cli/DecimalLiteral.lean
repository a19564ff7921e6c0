import RpiFanServe.Foundation.CString
import RpiFanServe.Foundation.Regex

/-! # Which words of a command line are positional

`is_positional` of argparse.hpp tells a value from the name of an option by its
first bytes: a word behind a minus sign is a value only when it is a decimal
literal.  The header gives both as grammars, in the comments before
`is_decimal_literal` and `is_positional`, and the code reads them with a byte of
lookahead and jumps between labels.  The grammars are the regular expressions
below, the labels are the functions after them.
-/

namespace RpiFanServe.Cli

open CString Regex

/-! ## The grammars of the comments -/

namespace Grammar

def digitSequence : Regex UInt8 := plus (.cls isDigit)

def sign : Regex UInt8 := .cls fun c => c == '+'.toUInt8 || c == '-'.toUInt8

/-- `post-e: sign_opt digit-sequence` -/
def postE : Regex UInt8 := .seq (.opt sign) digitSequence

/-- `exponent-part: 'e' post-e | 'E' post-e` -/
def exponentPart : Regex UInt8 :=
  .alt (.seq (lit (utf8 "e")) postE) (.seq (lit (utf8 "E")) postE)

/-- `post-decimal-point: digit-sequence exponent-part_opt` -/
def postDecimalPoint : Regex UInt8 := .seq digitSequence (.opt exponentPart)

/-- `fractional-part: '.' post-decimal-point` -/
def fractionalPart : Regex UInt8 := .seq (lit (utf8 ".")) postDecimalPoint

def integerPart : Regex UInt8 := digitSequence

def nonzeroDigit : Regex UInt8 := .cls fun c => isDigit c && c != '0'.toUInt8

def decimalLiteral : Regex UInt8 :=
  .alt (lit (utf8 "0")) <|
  .alt (.seq nonzeroDigit (.opt digitSequence)) <|
  .alt (.seq integerPart fractionalPart) <|
  .alt fractionalPart <|
  .alt (.seq integerPart (.seq (lit (utf8 ".")) (.opt exponentPart))) <|
  .seq integerPart exponentPart

/-- `positional: _empty_ | '-' | '-' decimal-literal | !'-' anything` -/
def positional : Regex UInt8 :=
  .alt .empty <|
  .alt (lit (utf8 "-")) <|
  .alt (.seq (lit (utf8 "-")) decimalLiteral) <|
  .seq (.cls fun c => c != '-'.toUInt8) (.star (.cls fun _ => true))

end Grammar

/-! ## The code -/

namespace Argument

/-- `lookahead`; `none` is `eof`. -/
def lookahead (s : Bytes) : Option UInt8 := s.head?

def consumeDigits (s : Bytes) : Bytes := s.dropWhile isDigit

def digitAhead (s : Bytes) : Bool := (lookahead s).any isDigit

/-- The label `post_e`. -/
def postE (s : Bytes) : Bool :=
  let s := if lookahead s = some '-'.toUInt8 ∨ lookahead s = some '+'.toUInt8 then s.tail else s
  if digitAhead s then (consumeDigits s).isEmpty else false

/-- The label `exponent_part_opt`. -/
def exponentPartOpt (s : Bytes) : Bool :=
  match lookahead s with
  | none => true
  | some c => if c = 'e'.toUInt8 ∨ c = 'E'.toUInt8 then postE s.tail else false

/-- The label `post_decimal_point`. -/
def postDecimalPoint (s : Bytes) : Bool :=
  if digitAhead s then exponentPartOpt (consumeDigits s) else false

/-- The label `integer_part_consumed`. -/
def integerPartConsumed (s : Bytes) : Bool :=
  match lookahead s with
  | none => false
  | some c =>
      if c = '.'.toUInt8 then
        if digitAhead s.tail then postDecimalPoint s.tail else exponentPartOpt s.tail
      else if c = 'e'.toUInt8 ∨ c = 'E'.toUInt8 then postE s.tail
      else false

/-- The label `integer_part`. -/
def integerPart (s : Bytes) : Bool := integerPartConsumed (consumeDigits s)

def isDecimalLiteral (s : Bytes) : Bool :=
  match lookahead s with
  | none => false
  | some c =>
      if c = '0'.toUInt8 then
        if s.tail.isEmpty then true else integerPart s.tail
      else if isDigit c then
        if (consumeDigits s).isEmpty then true else integerPartConsumed (consumeDigits s)
      else if c = '.'.toUInt8 then postDecimalPoint s.tail
      else false

def isPositional (aName : Bytes) : Bool :=
  match lookahead aName with
  | none => true
  | some c =>
      if c = '-'.toUInt8 then
        if aName.tail.isEmpty then true else isDecimalLiteral aName.tail
      else true

def isOptional (aName : Bytes) : Bool := !isPositional aName

/-! ## Every label reads its nonterminal -/

theorem consumeDigits_eq_nil {s : Bytes} : (consumeDigits s).isEmpty = true ↔ s.dropWhile isDigit = [] := by
  rw [List.isEmpty_iff, consumeDigits]

theorem digitSequence_iff {s : Bytes} :
    Grammar.digitSequence.Lang s ↔ digitAhead s = true ∧ (consumeDigits s).isEmpty = true := by
  rw [Grammar.digitSequence, lang_plus_cls, consumeDigits_eq_nil]
  rfl

theorem digitSequence_seq_iff {r : Regex UInt8}
    (apart : ∀ w, r.Lang w → ∀ x ∈ w.head?, isDigit x = false) {s : Bytes} :
    (seq Grammar.digitSequence r).Lang s ↔ digitAhead s = true ∧ r.Lang (consumeDigits s) :=
  lang_plus_cls_seq apart

theorem postE_iff (s : Bytes) : postE s = true ↔ Grammar.postE.Lang s := by
  have grammar : Grammar.postE.Lang s ↔
      (∃ c t, Grammar.sign.Lang [c] ∧ Grammar.digitSequence.Lang t ∧ s = c :: t) ∨
        Grammar.digitSequence.Lang s := by
    constructor
    · rintro ⟨_, t, ⟨c, hc, rfl⟩ | rfl, digits, rfl⟩
      · exact .inl ⟨c, t, ⟨c, hc, rfl⟩, digits, rfl⟩
      · exact .inr digits
    · rintro (⟨c, t, hc, digits, rfl⟩ | digits)
      · exact ⟨[c], t, .inl hc, digits, rfl⟩
      · exact ⟨[], s, .inr rfl, digits, rfl⟩
  rw [grammar]
  cases s with
  | nil => simp [postE, lookahead, digitAhead, digitSequence_iff]
  | cons c t =>
      have sign : Grammar.sign.Lang [c] ↔ c = '-'.toUInt8 ∨ c = '+'.toUInt8 := by
        simp [Grammar.sign, Lang, or_comm]
      by_cases signed : c = '-'.toUInt8 ∨ c = '+'.toUInt8
      · have no_digit : isDigit c = false := by
          rcases signed with rfl | rfl <;> decide
        have not_digits : ¬ Grammar.digitSequence.Lang (c :: t) := by
          rw [digitSequence_iff]
          simp [digitAhead, lookahead, no_digit]
        simp [postE, lookahead, sign, signed, not_digits, digitSequence_iff]
      · simp [postE, lookahead, sign, signed, digitSequence_iff]

theorem exponentPart_iff (s : Bytes) :
    Grammar.exponentPart.Lang s ↔
      ∃ c t, (c = 'e'.toUInt8 ∨ c = 'E'.toUInt8) ∧ postE t = true ∧ s = c :: t := by
  have lower : utf8 "e" = ['e'.toUInt8] := by decide
  have upper : utf8 "E" = ['E'.toUInt8] := by decide
  rw [Grammar.exponentPart, Lang, lang_lit_seq, lang_lit_seq, lower, upper]
  simp only [← postE_iff]
  constructor
  · rintro (⟨t, accepted, rfl⟩ | ⟨t, accepted, rfl⟩)
    · exact ⟨_, t, .inl rfl, accepted, rfl⟩
    · exact ⟨_, t, .inr rfl, accepted, rfl⟩
  · rintro ⟨c, t, rfl | rfl, accepted, rfl⟩
    · exact .inl ⟨t, accepted, rfl⟩
    · exact .inr ⟨t, accepted, rfl⟩

theorem exponentPart_cons {c : UInt8} {t : Bytes} :
    Grammar.exponentPart.Lang (c :: t) ↔ (c = 'e'.toUInt8 ∨ c = 'E'.toUInt8) ∧ postE t = true := by
  rw [exponentPart_iff]
  constructor
  · rintro ⟨_, _, letter, accepted, same⟩
    obtain ⟨rfl, rfl⟩ := List.cons.inj same
    exact ⟨letter, accepted⟩
  · rintro ⟨letter, accepted⟩
    exact ⟨c, t, letter, accepted, rfl⟩

theorem exponentPart_nil : ¬ Grammar.exponentPart.Lang [] := by
  rw [exponentPart_iff]
  rintro ⟨_, _, -, -, same⟩
  cases same

theorem exponentPartOpt_iff (s : Bytes) :
    exponentPartOpt s = true ↔ (Regex.opt Grammar.exponentPart).Lang s := by
  rw [Lang]
  cases s with
  | nil => simp [exponentPartOpt, lookahead]
  | cons c t =>
      rw [exponentPart_cons]
      by_cases letter : c = 'e'.toUInt8 ∨ c = 'E'.toUInt8 <;>
        simp [exponentPartOpt, lookahead, letter]

theorem exponentPart_apart (w : Bytes) (lang : Grammar.exponentPart.Lang w) :
    ∀ x ∈ w.head?, isDigit x = false := by
  obtain ⟨c, t, letter, -, rfl⟩ := (exponentPart_iff w).mp lang
  intro x first
  obtain rfl := Option.some.inj first
  rcases letter with rfl | rfl <;> decide

theorem exponentPartOpt_apart (w : Bytes) (lang : (Regex.opt Grammar.exponentPart).Lang w) :
    ∀ x ∈ w.head?, isDigit x = false := by
  rcases lang with lang | rfl
  · exact exponentPart_apart w lang
  · simp

theorem postDecimalPoint_iff (s : Bytes) :
    postDecimalPoint s = true ↔ Grammar.postDecimalPoint.Lang s := by
  rw [Grammar.postDecimalPoint, digitSequence_seq_iff exponentPartOpt_apart, ← exponentPartOpt_iff,
    postDecimalPoint]
  cases digitAhead s <;> simp

theorem lang_point_seq {r : Regex UInt8} {s : Bytes} :
    (seq (lit (utf8 ".")) r).Lang s ↔ ∃ t, r.Lang t ∧ s = '.'.toUInt8 :: t := by
  have point : utf8 "." = ['.'.toUInt8] := by decide
  rw [lang_lit_seq, point]
  rfl

/-- What may follow the integer part of a literal that is not a whole number. -/
def afterInteger : Regex UInt8 :=
  .alt Grammar.fractionalPart <|
  .alt (.seq (lit (utf8 ".")) (.opt Grammar.exponentPart)) Grammar.exponentPart

theorem afterInteger_nil : ¬ afterInteger.Lang [] := by
  rintro (fractional | point | exponent)
  · obtain ⟨_, -, same⟩ := lang_point_seq.mp fractional
    cases same
  · obtain ⟨_, -, same⟩ := lang_point_seq.mp point
    cases same
  · exact exponentPart_nil exponent

/-- The byte behind the point decides between the two alternatives that start with one:
    an exponent part never starts with a digit, a digit sequence always does. -/
theorem afterInteger_point {t : Bytes} :
    afterInteger.Lang ('.'.toUInt8 :: t) ↔
      (if digitAhead t then postDecimalPoint t else exponentPartOpt t) = true := by
  have no_letter : ¬ Grammar.exponentPart.Lang ('.'.toUInt8 :: t) := by
    rw [exponentPart_cons]
    rintro ⟨letter, -⟩
    revert letter
    decide
  have alternatives : afterInteger.Lang ('.'.toUInt8 :: t) ↔
      Grammar.postDecimalPoint.Lang t ∨ (Regex.opt Grammar.exponentPart).Lang t := by
    rw [afterInteger, Lang, Lang, Grammar.fractionalPart, lang_point_seq, lang_point_seq]
    simp [no_letter]
  rw [alternatives, ← postDecimalPoint_iff, ← exponentPartOpt_iff]
  cases ahead : digitAhead t with
  | true =>
      have not_exponent : exponentPartOpt t = false := by
        cases t with
        | nil => simp [digitAhead, lookahead] at ahead
        | cons d t =>
            by_contra exponent
            rw [Bool.not_eq_false, exponentPartOpt_iff] at exponent
            have apart : isDigit d = false := exponentPartOpt_apart _ exponent d rfl
            rw [digitAhead, lookahead, List.head?_cons, Option.any_some, apart] at ahead
            cases ahead
      simp [not_exponent]
  | false => simp [postDecimalPoint, ahead]

theorem afterInteger_letter {c : UInt8} {t : Bytes} (other : c ≠ '.'.toUInt8) :
    afterInteger.Lang (c :: t) ↔ (c = 'e'.toUInt8 ∨ c = 'E'.toUInt8) ∧ postE t = true := by
  rw [afterInteger, Lang, Lang, Grammar.fractionalPart, lang_point_seq, lang_point_seq,
    exponentPart_cons]
  simp [other]

theorem afterInteger_apart (w : Bytes) (lang : afterInteger.Lang w) :
    ∀ x ∈ w.head?, isDigit x = false := by
  intro x first
  obtain ⟨t, rfl⟩ := List.head?_eq_some_iff.mp first
  by_cases point : x = '.'.toUInt8
  · subst point
    decide
  · rcases ((afterInteger_letter point).mp lang).1 with rfl | rfl <;> decide

theorem integerPartConsumed_iff (s : Bytes) :
    integerPartConsumed s = true ↔ afterInteger.Lang s := by
  cases s with
  | nil => simp [integerPartConsumed, lookahead, afterInteger_nil]
  | cons c t =>
      by_cases point : c = '.'.toUInt8
      · subst point
        rw [afterInteger_point]
        cases ahead : digitAhead t <;> simp [integerPartConsumed, lookahead, ahead]
      · rw [afterInteger_letter point]
        by_cases letter : c = 'e'.toUInt8 ∨ c = 'E'.toUInt8 <;>
          simp [integerPartConsumed, lookahead, point, letter]

theorem decimalLiteral_alternatives (s : Bytes) :
    Grammar.decimalLiteral.Lang s ↔
      s = utf8 "0" ∨ (seq Grammar.nonzeroDigit (.opt Grammar.digitSequence)).Lang s ∨
        (seq Grammar.digitSequence afterInteger).Lang s ∨ Grammar.fractionalPart.Lang s := by
  have alternatives : Grammar.decimalLiteral.Lang s ↔
      (lit (utf8 "0")).Lang s ∨ (seq Grammar.nonzeroDigit (.opt Grammar.digitSequence)).Lang s ∨
        (seq Grammar.integerPart Grammar.fractionalPart).Lang s ∨ Grammar.fractionalPart.Lang s ∨
        (seq Grammar.integerPart (.seq (lit (utf8 ".")) (.opt Grammar.exponentPart))).Lang s ∨
        (seq Grammar.integerPart Grammar.exponentPart).Lang s := Iff.rfl
  rw [alternatives, lang_lit, afterInteger, lang_seq_alt, lang_seq_alt, Grammar.integerPart]
  tauto

theorem digitSequence_opt_iff {s : Bytes} :
    (Regex.opt Grammar.digitSequence).Lang s ↔ (consumeDigits s).isEmpty = true := by
  rw [Lang, digitSequence_iff]
  cases s with
  | nil => simp [consumeDigits]
  | cons c t =>
      cases digit : isDigit c <;> simp [digitAhead, lookahead, consumeDigits, digit]

theorem wholeNumber_cons {c : UInt8} {t : Bytes} :
    (seq Grammar.nonzeroDigit (.opt Grammar.digitSequence)).Lang (c :: t) ↔
      (isDigit c = true ∧ c ≠ '0'.toUInt8) ∧ (consumeDigits t).isEmpty = true := by
  constructor
  · rintro ⟨_, rest, ⟨d, nonzero, rfl⟩, digits, same⟩
    obtain ⟨rfl, rfl⟩ := List.cons.inj same
    exact ⟨by simpa using nonzero, digitSequence_opt_iff.mp digits⟩
  · rintro ⟨nonzero, digits⟩
    exact ⟨[c], t, ⟨c, by simpa using nonzero, rfl⟩, digitSequence_opt_iff.mpr digits, rfl⟩

theorem decimalLiteral_cons {c : UInt8} {t : Bytes} :
    Grammar.decimalLiteral.Lang (c :: t) ↔
      (c = '0'.toUInt8 ∧ t = []) ∨
        ((isDigit c = true ∧ c ≠ '0'.toUInt8) ∧ (consumeDigits t).isEmpty = true) ∨
        (isDigit c = true ∧ integerPartConsumed (consumeDigits t) = true) ∨
        (c = '.'.toUInt8 ∧ postDecimalPoint t = true) := by
  have zero : utf8 "0" = ['0'.toUInt8] := by decide
  have integer : (seq Grammar.digitSequence afterInteger).Lang (c :: t) ↔
      isDigit c = true ∧ integerPartConsumed (consumeDigits t) = true := by
    rw [digitSequence_seq_iff afterInteger_apart, integerPartConsumed_iff]
    cases digit : isDigit c <;> simp [digitAhead, lookahead, consumeDigits, digit]
  rw [decimalLiteral_alternatives, wholeNumber_cons, integer, Grammar.fractionalPart,
    lang_point_seq, zero]
  simp [postDecimalPoint_iff, and_comm]

theorem decimalLiteral_nil : ¬ Grammar.decimalLiteral.Lang [] := by
  rw [decimalLiteral_alternatives, digitSequence_seq_iff afterInteger_apart, Grammar.fractionalPart,
    lang_point_seq]
  rintro (zero | ⟨_, _, ⟨_, -, rfl⟩, -, same⟩ | ⟨digit, -⟩ | ⟨_, -, same⟩)
  · revert zero
    decide
  · cases same
  · cases digit
  · cases same

theorem isDecimalLiteral_lang (s : Bytes) :
    isDecimalLiteral s = true ↔ Grammar.decimalLiteral.Lang s := by
  cases s with
  | nil => simp [isDecimalLiteral, lookahead, decimalLiteral_nil]
  | cons c t =>
      rw [decimalLiteral_cons]
      by_cases zero : c = '0'.toUInt8
      · subst zero
        have digit : isDigit '0'.toUInt8 = true := by decide
        have no_point : '0'.toUInt8 ≠ '.'.toUInt8 := by decide
        cases t <;> simp [isDecimalLiteral, lookahead, integerPart, digit, no_point]
      by_cases digit : isDigit c = true
      · have no_point : c ≠ '.'.toUInt8 := by
          rintro rfl
          revert digit
          decide
        have run : consumeDigits (c :: t) = consumeDigits t := List.dropWhile_cons_of_pos digit
        simp [isDecimalLiteral, lookahead, zero, digit, no_point, run]
      · simp [isDecimalLiteral, lookahead, zero, digit]

/-- The two predicates read exactly the grammars of their comments: the recogniser accepts
    a word exactly when the word derives from `decimal-literal`, and a word of the command
    line counts as a value exactly when it derives from `positional`. -/
theorem isPositional_grammar (s : Bytes) :
    (isDecimalLiteral s = true ↔ Grammar.decimalLiteral.Lang s) ∧
      (isPositional s = true ↔ Grammar.positional.Lang s) := by
  refine ⟨isDecimalLiteral_lang s, ?_⟩
  have dash : utf8 "-" = ['-'.toUInt8] := by decide
  have grammar : Grammar.positional.Lang s ↔
      s = [] ∨ s = ['-'.toUInt8] ∨ (∃ t, isDecimalLiteral t = true ∧ s = '-'.toUInt8 :: t) ∨
        ∃ c t, c ≠ '-'.toUInt8 ∧ s = c :: t := by
    have anything (t : Bytes) : (Regex.star (.cls fun _ : UInt8 => true)).Lang t :=
      lang_star_cls.mpr fun _ _ => rfl
    rw [Grammar.positional, Lang, Lang, Lang, lang_lit, Lang, lang_lit_seq, dash]
    simp only [← isDecimalLiteral_lang]
    refine or_congr Iff.rfl (or_congr Iff.rfl (or_congr Iff.rfl ?_))
    constructor
    · rintro ⟨_, t, ⟨c, other, rfl⟩, -, rfl⟩
      exact ⟨c, t, by simpa using other, rfl⟩
    · rintro ⟨c, t, other, rfl⟩
      exact ⟨[c], t, ⟨c, by simpa using other, rfl⟩, anything t, rfl⟩
  rw [grammar]
  cases s with
  | nil => simp [isPositional, lookahead]
  | cons c t =>
      by_cases minus : c = '-'.toUInt8
      · subst minus
        cases t <;> simp [isPositional, lookahead]
      · simp [isPositional, lookahead, minus]

end Argument

end RpiFanServe.Cli
