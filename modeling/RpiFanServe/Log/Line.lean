import RpiFanServe.Foundation.CString
import RpiFanServe.Foundation.Regex

/-! # Log lines

The parser of one line of the rpi-fan log: `getFirstMatch` and `extractMatches`
of TempsCtrl.cc with their four regular expressions.  Lines and expressions are
bytes, as `std::string` and `std::regex` see them, so `°` and `Δ` are two
symbols each.
-/

namespace RpiFanServe.Log

open CString Regex

/-- One data point of the log. -/
structure TempDataPoint where
  date : Bytes
  temp : CInt
  delta : CInt
  level : CInt
  deriving DecidableEq

/-- `[lo-hi]`. -/
def range (lo hi : Char) : Regex UInt8 := .cls fun c => lo.toUInt8 ≤ c && c ≤ hi.toUInt8

def char (c : Char) : Regex UInt8 := .cls (· = c.toUInt8)

/-- `[0-9]`. -/
def digit : Regex UInt8 := .cls isDigit

/-- A regular expression of the program; `anchored` is a leading `^`. -/
structure Pattern where
  anchored : Bool
  body : Regex UInt8

/-- `-?(?:[1-9][0-9]*)?[0-9]{4}` -/
def year : Regex UInt8 :=
  seqs [.opt (char '-'), .opt (.seq (range '1' '9') (.star digit)), digit, digit, digit, digit]

/-- `-(1[0-2]|0[1-9])-(3[01]|0[1-9]|[12][0-9])T(2[0-3]|[01][0-9]):([0-5][0-9]):([0-5][0-9])` -/
def afterYear : Regex UInt8 :=
  seqs [char '-',
    .alt (.seq (char '1') (range '0' '2')) (.seq (char '0') (range '1' '9')),
    char '-',
    .alt (.seq (char '3') (range '0' '1'))
      (.alt (.seq (char '0') (range '1' '9')) (.seq (range '1' '2') digit)),
    char 'T',
    .alt (.seq (char '2') (range '0' '3')) (.seq (range '0' '1') digit),
    char ':', range '0' '5', digit,
    char ':', range '0' '5', digit]

/-- `\.[0-9]+` -/
def fraction : Regex UInt8 := .seq (char '.') (plus digit)

def dateRegex : Pattern where
  anchored := true
  body := seqs [.seq year afterYear, .opt fraction, .opt (char 'Z')]

/-- `with [0-9]*°C` -/
def tempRegex : Pattern := ⟨false, delimited (utf8 "with ") isDigit (utf8 "°C")⟩
/-- `Δ[0-9]*°C` -/
def deltaRegex : Pattern := ⟨false, delimited (utf8 "Δ") isDigit (utf8 "°C")⟩
/-- `level is [0-9]*` -/
def levelRegex : Pattern := ⟨false, headed (utf8 "level is ") isDigit⟩

/-- The text of the first match, or the empty string. -/
def getFirstMatch (line : Bytes) (regex : Pattern) : Bytes :=
  (if regex.anchored then regex.body.matchHere line else regex.body.search line).getD []

/-- The block of `extractMatches` that reads one number: the first match, from
    its byte `start`, `cut` bytes fewer than the match has.  `none` stands for
    `return false`; only `stoi` is under the handlers. -/
def extractField (line : Bytes) (regex : Pattern) (start cut : Nat) : Except Fault (Option CInt) :=
  let text := getFirstMatch line regex
  match substr text start (sizeSub text.length cut) with
  | .error fault => .error fault
  | .ok number =>
      match stoi number with
      | .ok value => .ok (some value)
      | .error .invalidArgument => .ok none
      | .error .outOfRange => .ok none
      | .error fault => .error fault

def extractTemp (line : Bytes) : Except Fault (Option CInt) := extractField line tempRegex 5 8
def extractDelta (line : Bytes) : Except Fault (Option CInt) := extractField line deltaRegex 2 5
def extractLevel (line : Bytes) : Except Fault (Option CInt) := extractField line levelRegex 9 12

/-- `extractMatches`; `none` is the result `false`. -/
def extractMatches (line : Bytes) : Except Fault (Option TempDataPoint) :=
  let date := getFirstMatch line dateRegex
  if date = [] then .ok none
  else
    match extractTemp line with
    | .error fault => .error fault
    | .ok none => .ok none
    | .ok (some temp) =>
        match extractDelta line with
        | .error fault => .error fault
        | .ok none => .ok none
        | .ok (some delta) =>
            match extractLevel line with
            | .error fault => .error fault
            | .ok none => .ok none
            | .ok (some level) => .ok (some { date, temp, delta, level })

/-- A line of the sample log. -/
example : extractMatches
    (utf8 "2021-09-23T18:43:40+02:00 CPU is too high! with 63°C, Δ1°C, level is 4.") =
    .ok (some ⟨utf8 "2021-09-23T18:43:40", 63, 1, 4⟩) := by
  decide

/-! ## What a field reads -/

theorem date_ne_nil {d : Bytes} (lang : dateRegex.body.Lang d) : d ≠ [] := by
  intro empty
  have split := lang
  cases split with
  | intro stamp rest =>
      obtain ⟨tail, ⟨year, after, -, lang_after, rfl⟩, -, rfl⟩ := rest
      have : after.length = 15 := length_of_width rfl lang_after
      have : ((year ++ after) ++ tail).length = 0 := by rw [empty]; rfl
      simp only [List.length_append] at this
      omega

/-- A field block never ends by another fault than the one of `substr`. -/
theorem extractField_eq (line : Bytes) (regex : Pattern) (start cut : Nat) :
    extractField line regex start cut =
      match substr (getFirstMatch line regex) start (sizeSub (getFirstMatch line regex).length cut) with
      | .error fault => .error fault
      | .ok number => .ok (stoi number).toOption := by
  simp only [extractField]
  split
  · rfl
  · rename_i number _
    cases located : stoi number with
    | ok value => rfl
    | error fault => rcases stoi_fault located with rfl | rfl <;> rfl

/-- A field whose pattern is found nowhere raises `out_of_range`: the `substr`
    before the handlers starts past the end of the empty match. -/
theorem extractField_absent {line : Bytes} {regex : Pattern} {start : Nat} (cut : Nat)
    (absent : getFirstMatch line regex = []) (pos : 0 < start) :
    extractField line regex start cut = .error .outOfRange := by
  rw [extractField_eq, absent, substr_nil pos]

theorem extractField_found {line head text : Bytes} {regex : Pattern} (cut : Nat)
    (found : getFirstMatch line regex = head ++ text) :
    extractField line regex head.length cut =
      .ok (stoi (text.take (sizeSub (head.length + text.length) cut))).toOption := by
  rw [extractField_eq, found, substr_append, List.length_append]

end RpiFanServe.Log
