import Mathlib.Data.List.Basic
import RpiFanServe.Log.Malformed
import RpiFanServe.Log.RoundTrip

/-! # What an accepted line says

The record that `extractMatches` returns, against a grammar of its fields that
does not mention regular expressions.  The timestamp part is a matter of the
language of `dateRegex` and of its engine taking the longest way; the numbers
follow from where the leftmost occurrence of their pattern is.
-/

namespace RpiFanServe.Log

open CString Regex

/-! ## The grammar -/

/-- `width` digits that denote a number from `lo` to `hi`. -/
def Numeral (width lo hi : Nat) (w : Bytes) : Prop :=
  w.length = width ∧ (∀ c ∈ w, isDigit c = true) ∧ lo ≤ digitsVal w ∧ digitsVal w ≤ hi

/-- Four digits, or more without a leading zero. -/
def YearDigits (w : Bytes) : Prop :=
  (∀ c ∈ w, isDigit c = true) ∧ 4 ≤ w.length ∧ (4 < w.length → ∀ c ∈ w.head?, c ≠ 48)

/-- `-MM-DDThh:mm:ss` -/
def MonthToSecond (w : Bytes) : Prop :=
  ∃ month day hour minute second, Numeral 2 1 12 month ∧ Numeral 2 1 31 day ∧
    Numeral 2 0 23 hour ∧ Numeral 2 0 59 minute ∧ Numeral 2 0 59 second ∧
    w = utf8 "-" ++ month ++ utf8 "-" ++ day ++ utf8 "T" ++ hour ++ utf8 ":" ++ minute ++
      utf8 ":" ++ second

/-- `[.digits]` -/
def Fraction (w : Bytes) : Prop :=
  w = [] ∨ ∃ ds, ds ≠ [] ∧ (∀ c ∈ ds, isDigit c = true) ∧ w = utf8 "." ++ ds

/-- `[-]year-MM-DDThh:mm:ss[.digits][Z]` -/
def Timestamp (w : Bytes) : Prop :=
  ∃ sign year time fraction zone, (sign = [] ∨ sign = utf8 "-") ∧ YearDigits year ∧
    MonthToSecond time ∧ Fraction fraction ∧ (zone = [] ∨ zone = utf8 "Z") ∧
    w = sign ++ year ++ time ++ fraction ++ zone

/-- `d` is the longest prefix of the line that is a timestamp. -/
def LongestTimestamp (line d : Bytes) : Prop :=
  Timestamp d ∧ d <+: line ∧ ∀ w, Timestamp w → w <+: line → w.length ≤ d.length

/-- `v` is the value of the run of digits in the leftmost occurrence of
    `head digits* tail`; that run is not empty. -/
def LeftmostValue (head tail line : Bytes) (v : CInt) : Prop :=
  ∃ pre ds post, line = pre ++ head ++ ds ++ tail ++ post ∧ (∀ c ∈ ds, isDigit c = true) ∧
    (∀ pre' es post', line = pre' ++ head ++ es ++ tail ++ post' →
      (∀ c ∈ es, isDigit c = true) → pre.length ≤ pre'.length) ∧
    ds ≠ [] ∧ v.toInt = digitsVal ds

/-! ## The language of the timestamp pattern -/

theorem isDigit_toNat {c : UInt8} : isDigit c = true ↔ 48 ≤ c.toNat ∧ c.toNat ≤ 57 := by
  simp only [isDigit, Bool.and_eq_true, decide_eq_true_eq, UInt8.le_iff_toNat_le, UInt8.reduceToNat]

theorem lang_char {c : Char} {w : Bytes} : (char c).Lang w ↔ w = [c.toUInt8] := by
  simp only [char, Lang, decide_eq_true_eq, exists_eq_left]

theorem codes : '0'.toUInt8.toNat = 48 ∧ '1'.toUInt8.toNat = 49 ∧ '2'.toUInt8.toNat = 50 ∧
    '3'.toUInt8.toNat = 51 ∧ '5'.toUInt8.toNat = 53 ∧ '9'.toUInt8.toNat = 57 := by
  decide

theorem lang_alt {r s : Regex UInt8} {w : Bytes} : (r.alt s).Lang w ↔ r.Lang w ∨ s.Lang w := Iff.rfl

theorem lang_two {p q : UInt8 → Bool} {w : Bytes} :
    (Regex.seq (.cls p) (.cls q)).Lang w ↔ ∃ a b, (p a = true ∧ q b = true) ∧ w = [a, b] := by
  constructor
  · intro split
    obtain ⟨_, _, ⟨a, ha, rfl⟩, ⟨b, hb, rfl⟩, rfl⟩ := split
    exact ⟨a, b, ⟨ha, hb⟩, rfl⟩
  · intro spelled
    obtain ⟨a, b, ⟨ha, hb⟩, rfl⟩ := spelled
    exact ⟨[a], [b], ⟨a, ha, rfl⟩, ⟨b, hb, rfl⟩, rfl⟩

theorem lang_numeral {r : Regex UInt8} {q : Nat → Nat → Prop} {lo hi : Nat}
    (lang : ∀ w, r.Lang w ↔ ∃ a b : UInt8, q a.toNat b.toNat ∧ w = [a, b])
    (numbers : ∀ a b, q a b ↔ (48 ≤ a ∧ a ≤ 57) ∧ (48 ≤ b ∧ b ≤ 57) ∧
      lo ≤ 10 * (a - 48) + (b - 48) ∧ 10 * (a - 48) + (b - 48) ≤ hi) (w : Bytes) :
    r.Lang w ↔ Numeral 2 lo hi w := by
  have value : ∀ a b : UInt8, digitsVal [a, b] = 10 * (a.toNat - 48) + (b.toNat - 48) := by
    intro a b
    simp [digitsVal]
  rw [lang]
  constructor
  · intro spelled
    obtain ⟨a, b, codes, rfl⟩ := spelled
    obtain ⟨digit_a, digit_b, low, high⟩ := (numbers _ _).mp codes
    rw [← value] at low high
    refine ⟨rfl, ?_, low, high⟩
    intro c member
    simp only [List.mem_cons, List.not_mem_nil, or_false] at member
    rcases member with rfl | rfl
    · exact isDigit_toNat.mpr digit_a
    · exact isDigit_toNat.mpr digit_b
  · intro numeral
    obtain ⟨length, digits, low, high⟩ := numeral
    obtain ⟨a, b, rfl⟩ := List.length_eq_two.mp length
    rw [value] at low high
    exact ⟨a, b, (numbers _ _).mpr ⟨isDigit_toNat.mp (digits a (by simp)),
      isDigit_toNat.mp (digits b (by simp)), low, high⟩, rfl⟩

theorem lang_month (w : Bytes) :
    (Regex.alt (.seq (char '1') (range '0' '2')) (.seq (char '0') (range '1' '9'))).Lang w ↔
      Numeral 2 1 12 w := by
  apply lang_numeral (q := fun a b => (a = 49 ∧ 48 ≤ b ∧ b ≤ 50) ∨ (a = 48 ∧ 49 ≤ b ∧ b ≤ 57))
  · intro w
    simp only [char, range, lang_alt, lang_two, Bool.and_eq_true, decide_eq_true_eq, UInt8.le_iff_toNat_le,
      ← UInt8.toNat_inj, codes, or_and_right, exists_or]
  · intro a b
    omega

theorem lang_day (w : Bytes) :
    (Regex.alt (.seq (char '3') (range '0' '1'))
      (.alt (.seq (char '0') (range '1' '9')) (.seq (range '1' '2') digit))).Lang w ↔
      Numeral 2 1 31 w := by
  apply lang_numeral (q := fun a b => (a = 51 ∧ 48 ≤ b ∧ b ≤ 49) ∨ (a = 48 ∧ 49 ≤ b ∧ b ≤ 57) ∨
    ((49 ≤ a ∧ a ≤ 50) ∧ 48 ≤ b ∧ b ≤ 57))
  · intro w
    simp only [char, range, digit, lang_alt, lang_two, Bool.and_eq_true, decide_eq_true_eq,
      UInt8.le_iff_toNat_le, ← UInt8.toNat_inj, codes, isDigit_toNat, or_and_right, exists_or]
  · intro a b
    omega

theorem lang_hour (w : Bytes) :
    (Regex.alt (.seq (char '2') (range '0' '3')) (.seq (range '0' '1') digit)).Lang w ↔
      Numeral 2 0 23 w := by
  apply lang_numeral (q := fun a b => (a = 50 ∧ 48 ≤ b ∧ b ≤ 51) ∨
    ((48 ≤ a ∧ a ≤ 49) ∧ 48 ≤ b ∧ b ≤ 57))
  · intro w
    simp only [char, range, digit, lang_alt, lang_two, Bool.and_eq_true, decide_eq_true_eq,
      UInt8.le_iff_toNat_le, ← UInt8.toNat_inj, codes, isDigit_toNat, or_and_right, exists_or]
  · intro a b
    omega

theorem lang_sixty (w : Bytes) :
    (Regex.seq (range '0' '5') digit).Lang w ↔ Numeral 2 0 59 w := by
  apply lang_numeral (q := fun a b => (48 ≤ a ∧ a ≤ 53) ∧ 48 ≤ b ∧ b ≤ 57)
  · intro w
    simp only [range, digit, lang_two, Bool.and_eq_true, decide_eq_true_eq, UInt8.le_iff_toNat_le,
      codes, isDigit_toNat]
  · intro a b
    omega

theorem lang_afterYear_iff {w : Bytes} : afterYear.Lang w ↔ MonthToSecond w := by
  constructor
  · intro lang
    obtain ⟨_, _, dash, ⟨month, _, hmonth, ⟨_, _, dash', ⟨day, _, hday, ⟨_, _, mark, ⟨hour, _, hhour,
      ⟨_, _, colon, ⟨m, _, hm, ⟨n, _, hn, ⟨_, _, colon', ⟨x, y, hx, hy, rfl⟩, rfl⟩, rfl⟩, rfl⟩,
      rfl⟩, rfl⟩, rfl⟩, rfl⟩, rfl⟩, rfl⟩, rfl⟩ := lang
    obtain rfl := lang_char.mp dash
    obtain rfl := lang_char.mp dash'
    obtain rfl := lang_char.mp mark
    obtain rfl := lang_char.mp colon
    obtain rfl := lang_char.mp colon'
    refine ⟨month, day, hour, m ++ n, x ++ y, (lang_month month).mp hmonth, (lang_day day).mp hday,
      (lang_hour hour).mp hhour, (lang_sixty _).mp ⟨m, n, hm, hn, rfl⟩,
      (lang_sixty _).mp ⟨x, y, hx, hy, rfl⟩, ?_⟩
    simp only [List.append_assoc]
    rfl
  · intro spelled
    obtain ⟨month, day, hour, minute, second, hmonth, hday, hhour, hminute, hsecond, rfl⟩ := spelled
    obtain ⟨m, n, hm, hn, rfl⟩ := (lang_sixty minute).mpr hminute
    obtain ⟨x, y, hx, hy, rfl⟩ := (lang_sixty second).mpr hsecond
    simp only [List.append_assoc]
    exact ⟨_, _, lang_char.mpr rfl, ⟨month, _, (lang_month month).mpr hmonth,
      ⟨_, _, lang_char.mpr rfl, ⟨day, _, (lang_day day).mpr hday, ⟨_, _, lang_char.mpr rfl,
      ⟨hour, _, (lang_hour hour).mpr hhour, ⟨_, _, lang_char.mpr rfl, ⟨m, _, hm, ⟨n, _, hn,
      ⟨_, _, lang_char.mpr rfl, ⟨x, y, hx, hy, rfl⟩, rfl⟩, rfl⟩, rfl⟩, rfl⟩, rfl⟩, rfl⟩, rfl⟩,
      rfl⟩, rfl⟩, rfl⟩

theorem lang_nonzero {w : Bytes} :
    (range '1' '9').Lang w ↔ ∃ c, isDigit c = true ∧ c ≠ 48 ∧ w = [c] := by
  simp only [range, Lang, Bool.and_eq_true, decide_eq_true_eq, UInt8.le_iff_toNat_le, codes,
    isDigit_toNat, Ne, ← UInt8.toNat_inj, UInt8.reduceToNat]
  apply exists_congr
  intro c
  constructor
  · intro spelled
    exact ⟨⟨by omega, spelled.1.2⟩, by omega, spelled.2⟩
  · intro spelled
    exact ⟨⟨by omega, spelled.1.2⟩, spelled.2.2⟩

theorem lang_four {w : Bytes} :
    (seqs [digit, digit, digit, digit]).Lang w ↔ w.length = 4 ∧ ∀ c ∈ w, isDigit c = true := by
  constructor
  · intro lang
    have covers : (seqs [digit, digit, digit, digit]).Over isDigit :=
      ⟨fun _ hc => hc, fun _ hc => hc, fun _ hc => hc, fun _ hc => hc⟩
    exact ⟨length_of_width rfl lang, covers.mem lang⟩
  · intro spelled
    obtain ⟨length, digits⟩ := spelled
    match w, length with
    | [a, b, c, d], _ =>
        simp only [List.mem_cons, List.not_mem_nil, or_false, forall_eq_or_imp, forall_eq] at digits
        obtain ⟨ha, hb, hc, hd⟩ := digits
        exact ⟨[a], _, ⟨a, ha, rfl⟩, ⟨[b], _, ⟨b, hb, rfl⟩, ⟨[c], _, ⟨c, hc, rfl⟩, ⟨d, hd, rfl⟩, rfl⟩,
          rfl⟩, rfl⟩

theorem lang_yearDigits {w : Bytes} :
    (seqs [.opt (.seq (range '1' '9') (.star digit)), digit, digit, digit, digit]).Lang w ↔
      YearDigits w := by
  constructor
  · intro lang
    obtain ⟨lead, four, hlead, hfour, rfl⟩ := lang
    obtain ⟨length, digits⟩ := lang_four.mp hfour
    cases hlead with
    | inl hlead =>
        obtain ⟨_, more, first, hmore, rfl⟩ := hlead
        obtain ⟨c, digit_c, nonzero, rfl⟩ := lang_nonzero.mp first
        have digits_more := lang_star_cls.mp hmore
        refine ⟨?_, by simp only [List.length_append]; omega, ?_⟩
        · intro d member
          simp only [List.cons_append, List.nil_append, List.mem_cons, List.mem_append] at member
          grind
        · intro _ d head
          cases head
          exact nonzero
    | inr hlead =>
        subst hlead
        exact ⟨digits, le_of_eq length.symm, fun longer => absurd longer (by simp [length])⟩
  · intro spelled
    obtain ⟨digits, least, nonzero⟩ := spelled
    have split : w = w.take (w.length - 4) ++ w.drop (w.length - 4) := (List.take_append_drop _ w).symm
    refine ⟨w.take (w.length - 4), w.drop (w.length - 4), ?_, ?_, split⟩
    · cases lead : w.take (w.length - 4) with
      | nil => exact .inr rfl
      | cons c more =>
          have longer : 4 < w.length := by
            have := congrArg List.length lead
            simp only [List.length_take, List.length_cons] at this
            omega
          have inside : ∀ d ∈ c :: more, isDigit d = true := by
            intro d member
            rw [← lead] at member
            exact digits d (List.mem_of_mem_take member)
          have head : w.head? = some c := by
            rw [split, lead]
            rfl
          exact .inl ⟨[c], more, lang_nonzero.mpr ⟨c, inside c List.mem_cons_self,
            nonzero longer c head, rfl⟩,
            lang_star_cls.mpr fun d member => inside d (List.mem_cons_of_mem c member), rfl⟩
    · apply lang_four.mpr
      exact ⟨by simp only [List.length_drop]; omega, fun c member => digits c (List.mem_of_mem_drop member)⟩

theorem lang_fraction {w : Bytes} : (Regex.opt fraction).Lang w ↔ Fraction w := by
  constructor
  · intro lang
    cases lang with
    | inl lang =>
        obtain ⟨_, _, dot, ⟨_, more, ⟨d, digit_d, rfl⟩, hmore, rfl⟩, rfl⟩ := lang
        obtain rfl := lang_char.mp dot
        refine .inr ⟨d :: more, List.cons_ne_nil d more, ?_, rfl⟩
        intro c member
        cases member with
        | head => exact digit_d
        | tail _ member => exact lang_star_cls.mp hmore c member
    | inr lang => exact .inl lang
  · intro spelled
    rcases spelled with rfl | ⟨ds, some_digit, digits, rfl⟩
    · exact .inr rfl
    · obtain ⟨d, more, rfl⟩ := List.exists_cons_of_ne_nil some_digit
      exact .inl ⟨_, _, lang_char.mpr rfl, ⟨[d], more, ⟨d, digits d List.mem_cons_self, rfl⟩,
        lang_star_cls.mpr fun c member => digits c (List.mem_cons_of_mem d member), rfl⟩, rfl⟩

theorem lang_opt_char {c : Char} {w : Bytes} :
    (Regex.opt (char c)).Lang w ↔ w = [] ∨ w = [c.toUInt8] := by
  rw [Lang, lang_char, or_comm]

theorem lang_date_iff {w : Bytes} : dateRegex.body.Lang w ↔ Timestamp w := by
  constructor
  · intro lang
    obtain ⟨_, _, ⟨_, time, ⟨sign, ds, hsign, hds, rfl⟩, htime, rfl⟩, ⟨f, z, hf, hz, rfl⟩, rfl⟩ := lang
    exact ⟨sign, ds, time, f, z, lang_opt_char.mp hsign, lang_yearDigits.mp hds,
      lang_afterYear_iff.mp htime, lang_fraction.mp hf, lang_opt_char.mp hz,
      by simp only [List.append_assoc]⟩
  · intro spelled
    obtain ⟨sign, ds, time, f, z, hsign, hds, htime, hf, hz, rfl⟩ := spelled
    exact ⟨sign ++ ds ++ time, f ++ z, ⟨sign ++ ds, time, ⟨sign, ds, lang_opt_char.mpr hsign,
      lang_yearDigits.mpr hds, rfl⟩, lang_afterYear_iff.mpr htime, rfl⟩,
      ⟨f, z, lang_fraction.mpr hf, lang_opt_char.mpr hz, rfl⟩, by simp only [List.append_assoc]⟩

/-! ## The longest timestamp -/

theorem head_fraction {d : UInt8} (digit_d : isDigit d = true) (ys : Bytes) :
    ((Regex.opt fraction).rests (46 :: d :: ys)).head? = some (ys.dropWhile isDigit) := by
  have one : (digit.rests (d :: ys)).head? = some ys := by
    simp [digit, rests, digit_d]
  have digits : ((plus digit).rests (d :: ys)).head? = some (ys.dropWhile isDigit) :=
    head_seq one (head_star_cls isDigit ys)
  exact head_opt (head_seq (head_char '.' _) digits)

theorem head_no_fraction {ys : Bytes} (h : ∀ c ∈ ys.head?, c ≠ 46) :
    ((Regex.opt fraction).rests ys).head? = some ys := by
  apply head_opt_none
  have none : (char '.').rests ys = [] := rests_char_none h
  rw [fraction, rests, none, List.flatMap_nil]

theorem greedy_zone : (Regex.opt (char 'Z')).Greedy := by
  apply greedy_iff.mpr
  intro w rest lang
  rcases lang_opt_char.mp lang with rfl | rfl
  · exact head_of_lang_nil lang rest
  · exact ⟨rest, head_opt (head_char 'Z' rest), le_rfl⟩

/-- The longest run of fraction digits leaves a `Z` behind the fraction in reach. -/
theorem greedy_fraction_zone : (Regex.seq (.opt fraction) (.opt (char 'Z'))).Greedy := by
  apply greedy_iff.mpr
  intro w rest lang
  obtain ⟨f, z, hf, hz, rfl⟩ := lang
  rw [List.append_assoc]
  rcases lang_fraction.mp hf with rfl | ⟨ds, some_digit, digits, rfl⟩
  · rcases lang_opt_char.mp hz with rfl | rfl
    · have empty : (Regex.seq (.opt fraction) (.opt (char 'Z'))).Lang [] := ⟨[], [], hf, hz, rfl⟩
      exact head_of_lang_nil empty rest
    · have first : ((Regex.opt fraction).rests (90 :: rest)).head? = some (90 :: rest) := by
        apply head_no_fraction
        intro c head
        cases head
        decide
      obtain ⟨zs, second, short⟩ := greedy_iff.mp greedy_zone [90] rest hz
      exact ⟨zs, head_seq first second, short⟩
  · obtain ⟨d, more, rfl⟩ := List.exists_cons_of_ne_nil some_digit
    have run : ∀ c ∈ more, isDigit c = true := fun c member => digits c (List.mem_cons_of_mem d member)
    have first := head_fraction (digits d List.mem_cons_self) (more ++ (z ++ rest))
    rw [List.dropWhile_append_of_pos run] at first
    rcases lang_opt_char.mp hz with rfl | rfl
    · obtain ⟨zs, second, short⟩ := head_of_lang_nil hz (rest.dropWhile isDigit)
      exact ⟨zs, head_seq first second, short.trans (List.length_dropWhile_le _ _)⟩
    · obtain ⟨zs, second, short⟩ := greedy_iff.mp greedy_zone [90] rest hz
      exact ⟨zs, head_seq first second, short⟩

theorem greedy_date : dateRegex.body.Greedy :=
  greedy_seq (fun _ _ _ _ ha hb fits => dateTime_unique ha hb fits) greedy_fraction_zone

/-- What the search for the timestamp reports is the longest timestamp. -/
theorem getFirstMatch_date_longest {line : Bytes} (dated : Dated line) :
    LongestTimestamp line (getFirstMatch line dateRegex) := by
  have nonempty : getFirstMatch line dateRegex ≠ [] :=
    fun empty => getFirstMatch_date_eq_nil.mp empty dated
  unfold getFirstMatch at nonempty ⊢
  rw [if_pos (show dateRegex.anchored = true from rfl)] at nonempty ⊢
  cases located : dateRegex.body.matchHere line with
  | none => exact absurd (by rw [located]; rfl) nonempty
  | some d =>
      obtain ⟨lang, ahead⟩ := matchHere_sound located
      refine ⟨lang_date_iff.mp lang, ahead, ?_⟩
      intro w spelled prefixed
      exact greedy_date line d w located (lang_date_iff.mpr spelled) prefixed

theorem dated_iff {line : Bytes} : Dated line ↔ ∃ d, Timestamp d ∧ d <+: line := by
  unfold Dated
  simp only [lang_date_iff]

/-! ## The numbers -/

theorem extractField_delimited {head tail line : Bytes} {v : CInt}
    (block : NumberBlock ⟨false, delimited head isDigit tail⟩ head.length (head.length + tail.length))
    (size_lt : line.length < 2 ^ 64)
    (read : extractField line ⟨false, delimited head isDigit tail⟩ head.length
      (head.length + tail.length) = .ok (some v)) :
    LeftmostValue head tail line v := by
  cases located : (delimited head isDigit tail).search line with
  | none =>
      rw [block.absent (search_eq_none.mp located)] at read
      cases read
  | some m =>
      have found := (search_eq_some block.greedy).mp located
      rw [block.present found] at read
      obtain ⟨pre, post, rfl, lang, leftmost, -⟩ := found
      obtain ⟨ds, digits, rfl⟩ := lang_delimited.mp lang
      have size : sizeSub (head ++ ds ++ tail).length (head.length + tail.length) = ds.length := by
        simp only [List.length_append] at size_lt
        rw [sizeSub_eq] <;> simp only [List.length_append] <;> omega
      have text : ((head ++ ds ++ tail).drop head.length).take ds.length = ds := by
        rw [List.append_assoc, List.drop_left, List.take_left]
      rw [size, text, stoi_digits digits] at read
      split_ifs at read with empty small
      · cases read
      · cases read
        refine ⟨pre, ds, post, by simp only [List.append_assoc], digits, ?_, empty,
          CInt.toInt_ofNat small⟩
        intro pre' es post' same run
        apply leftmost pre' (head ++ es ++ tail) post' (by simpa only [List.append_assoc] using same)
        exact lang_delimited.mpr ⟨es, run, rfl⟩
      · cases read

theorem LeftmostValue.bounds {head tail line : Bytes} {v : CInt}
    (value : LeftmostValue head tail line v) : 0 ≤ v.toInt ∧ v.toInt ≤ 2 ^ 31 - 1 := by
  obtain ⟨_, ds, _, _, _, _, _, number⟩ := value
  have high : v.toInt < 2 ^ 31 := BitVec.toInt_lt
  omega

/-- The record of an accepted line says what the line says: its date is the longest
    timestamp at the start, and the two numbers are those of the leftmost
    occurrences.  A line without timestamp is not accepted. -/
theorem extractMatches_sound (line : StdString) :
    (∀ r, extractMatches line.bytes = .ok (some r) →
      LongestTimestamp line.bytes r.date ∧
      LeftmostValue (utf8 "with ") (utf8 "°C") line.bytes r.temp ∧
      LeftmostValue (utf8 "Δ") (utf8 "°C") line.bytes r.delta ∧
      (0 ≤ r.temp.toInt ∧ r.temp.toInt ≤ 2 ^ 31 - 1) ∧
      (0 ≤ r.delta.toInt ∧ r.delta.toInt ≤ 2 ^ 31 - 1)) ∧
    ((¬ ∃ d, Timestamp d ∧ d <+: line.bytes) → extractMatches line.bytes = .ok none) := by
  constructor
  · intro r returned
    simp only [extractMatches] at returned
    split at returned
    · cases returned
    · rename_i stamped
      have dated : Dated line.bytes := by
        by_contra none_found
        exact stamped (getFirstMatch_date_eq_nil.mpr none_found)
      split at returned
      · cases returned
      · cases returned
      rename_i temp read_temp
      split at returned
      · cases returned
      · cases returned
      rename_i delta read_delta
      split at returned
      · cases returned
      · cases returned
      cases returned
      have temp_value : LeftmostValue (utf8 "with ") (utf8 "°C") line.bytes temp :=
        extractField_delimited tempBlock line.size_lt read_temp
      have delta_value : LeftmostValue (utf8 "Δ") (utf8 "°C") line.bytes delta :=
        extractField_delimited deltaBlock line.size_lt read_delta
      exact ⟨getFirstMatch_date_longest dated, temp_value, delta_value, temp_value.bounds,
        delta_value.bounds⟩
  · intro undated
    exact extractMatches_undated fun dated => undated (dated_iff.mp dated)

/-- The leftmost occurrence decides, although a later one has a number. -/
example : extractMatches (utf8 "2021-09-23T18:43:40 with °C, with 63°C, Δ1°C, level is 4.") =
    .ok none := by
  decide +kernel

end RpiFanServe.Log
