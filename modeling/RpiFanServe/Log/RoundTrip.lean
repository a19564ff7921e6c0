import RpiFanServe.Log.Line

/-! # Reading back a log line

The logger writes `<timestamp><offset> CPU is <text> with T°C, ΔD°C, level is L.`
This module follows each of the four searches of `extractMatches` through such a
line.  The first three fields come back whatever their length.  The level block
cuts three bytes that its match does not have, and its search stops at the first
`level is `, so it reads back only levels of one or two digits behind a text that
does not end in `level is`.
-/

namespace RpiFanServe.Log

open CString Regex

/-! ## The date -/

theorem isDigit_range {lo hi : Char} (low : 48 ≤ lo.toUInt8) (high : hi.toUInt8 ≤ 57) :
    (range lo hi).Over isDigit := by
  intro c hc
  simp only [Bool.and_eq_true, decide_eq_true_eq, isDigit] at hc ⊢
  exact ⟨UInt8.le_trans low hc.1, UInt8.le_trans hc.2 high⟩

theorem lang_year {w : Bytes} (h : year.Lang w) :
    ∃ sign ds, w = sign ++ ds ∧ (sign = [] ∨ sign = [45]) ∧ ds ≠ [] ∧
      ∀ c ∈ ds, isDigit c = true := by
  obtain ⟨sign, ds, hsign, hds, rfl⟩ := h
  refine ⟨sign, ds, rfl, ?_, ?_, ?_⟩
  · cases hsign with
    | inl hsign =>
        obtain ⟨c, hc, rfl⟩ := hsign
        obtain rfl := of_decide_eq_true hc
        exact .inr rfl
    | inr hsign => exact .inl hsign
  · obtain ⟨lead, four, -, hfour, rfl⟩ := hds
    have four_digits : four.length = 4 := length_of_width rfl hfour
    intro empty
    obtain ⟨-, rfl⟩ := List.append_eq_nil_iff.mp empty
    cases four_digits
  · have covers : (seqs [.opt (.seq (range '1' '9') (.star digit)), digit, digit, digit, digit]).Over
        isDigit :=
      ⟨⟨isDigit_range (by decide) (by decide), fun _ hc => hc⟩,
        fun _ hc => hc, fun _ hc => hc, fun _ hc => hc, fun _ hc => hc⟩
    exact covers.mem hds

theorem lang_afterYear {w : Bytes} (h : afterYear.Lang w) : ∃ t, w = 45 :: t ∧ t.length = 14 := by
  have length : w.length = 15 := length_of_width rfl h
  obtain ⟨dash, t, ⟨c, hc, rfl⟩, -, rfl⟩ := h
  obtain rfl := of_decide_eq_true hc
  exact ⟨t, rfl, by simpa using length⟩

theorem digits_dash_inj {ds es x y : Bytes} (hds : ∀ c ∈ ds, isDigit c = true)
    (hes : ∀ c ∈ es, isDigit c = true) (h : ds ++ 45 :: x = es ++ 45 :: y) : x = y := by
  have run : ∀ (cs z : Bytes), (∀ c ∈ cs, isDigit c = true) →
      (cs ++ 45 :: z).dropWhile isDigit = 45 :: z := by
    intro cs z digits
    rw [List.dropWhile_append_of_pos digits, List.dropWhile_cons_of_neg (by decide)]
  have same := congrArg (List.dropWhile isDigit) h
  rw [run ds x hds, run es y hes] at same
  exact (List.cons.inj same).2

theorem dateTime_unique {a b y z : Bytes} (ha : (Regex.seq year afterYear).Lang a)
    (hb : (Regex.seq year afterYear).Lang b) (h : a ++ y = b ++ z) : z = y := by
  obtain ⟨year₁, rest₁, hyear₁, hrest₁, rfl⟩ := ha
  obtain ⟨year₂, rest₂, hyear₂, hrest₂, rfl⟩ := hb
  obtain ⟨sign₁, ds₁, rfl, hsign₁, ne₁, digits₁⟩ := lang_year hyear₁
  obtain ⟨sign₂, ds₂, rfl, hsign₂, ne₂, digits₂⟩ := lang_year hyear₂
  obtain ⟨t₁, rfl, len₁⟩ := lang_afterYear hrest₁
  obtain ⟨t₂, rfl, len₂⟩ := lang_afterYear hrest₂
  simp only [List.append_assoc, List.cons_append] at h
  have unsigned : ds₁ ++ 45 :: (t₁ ++ y) = ds₂ ++ 45 :: (t₂ ++ z) := by
    obtain ⟨c₁, cs₁, rfl⟩ := List.exists_cons_of_ne_nil ne₁
    obtain ⟨c₂, cs₂, rfl⟩ := List.exists_cons_of_ne_nil ne₂
    have dash₁ := (isDigit_not_sign (digits₁ c₁ List.mem_cons_self)).1
    have dash₂ := (isDigit_not_sign (digits₂ c₂ List.mem_cons_self)).1
    rcases hsign₁ with rfl | rfl <;> rcases hsign₂ with rfl | rfl
    · exact h
    · exact absurd (List.cons.inj h).1 dash₁
    · exact absurd (List.cons.inj h).1.symm dash₂
    · exact (List.cons.inj h).2
  have tails := digits_dash_inj digits₁ digits₂ unsigned
  exact (List.append_inj tails (len₁.trans len₂.symm)).2.symm

/-- A byte that cannot continue a timestamp. -/
def EndsDate (rest : Bytes) : Prop :=
  ∀ c ∈ rest.head?, isDigit c = false ∧ c ≠ 46 ∧ c ≠ 90

theorem head_char (c : Char) (xs : Bytes) : ((char c).rests (c.toUInt8 :: xs)).head? = some xs := by
  simp [char, rests]

theorem rests_char_none {c : Char} {xs : Bytes} (h : ∀ x ∈ xs.head?, x ≠ c.toUInt8) :
    (char c).rests xs = [] := by
  cases xs with
  | nil => rfl
  | cons x xs => simp [char, rests, h x rfl]

theorem head_opt_fraction {f rest : Bytes} (hf : (Regex.opt fraction).Lang f)
    (stop : ∀ c ∈ rest.head?, isDigit c = false ∧ c ≠ 46) :
    ((Regex.opt fraction).rests (f ++ rest)).head? = some rest := by
  cases hf with
  | inl hf =>
      obtain ⟨dot, ds, ⟨c, hc, rfl⟩, ⟨first, more, ⟨d, hd, rfl⟩, hmore, rfl⟩, rfl⟩ := hf
      obtain rfl := of_decide_eq_true hc
      have run : (more ++ rest).dropWhile isDigit = rest :=
        dropWhile_run (lang_star_cls.mp hmore) fun c hc => (stop c hc).1
      have one : (digit.rests (d :: (more ++ rest))).head? = some (more ++ rest) := by
        simp [digit, rests, hd]
      have digits : ((plus digit).rests (d :: (more ++ rest))).head? = some rest :=
        head_seq one (by rw [digit, head_star_cls, run])
      exact head_opt (head_seq (head_char '.' _) digits)
  | inr hf =>
      subst hf
      apply head_opt_none
      have none : (char '.').rests rest = [] := rests_char_none fun c hc => (stop c hc).2
      rw [List.nil_append, fraction, rests, none, List.flatMap_nil]

theorem head_opt_Z {z rest : Bytes} (hz : (Regex.opt (char 'Z')).Lang z)
    (stop : ∀ c ∈ rest.head?, c ≠ 90) :
    ((Regex.opt (char 'Z')).rests (z ++ rest)).head? = some rest := by
  cases hz with
  | inl hz =>
      obtain ⟨c, hc, rfl⟩ := hz
      obtain rfl := of_decide_eq_true hc
      exact head_opt (head_char 'Z' rest)
  | inr hz =>
      subst hz
      apply head_opt_none
      exact rests_char_none stop

/-- A timestamp is read whole when nothing after it continues it. -/
theorem getFirstMatch_date {s rest : Bytes} (hs : dateRegex.body.Lang s) (stop : EndsDate rest) :
    getFirstMatch (s ++ rest) dateRegex = s := by
  obtain ⟨core, tail, hcore, ⟨f, z, hf, hz, rfl⟩, rfl⟩ := hs
  have stopZ : ∀ c ∈ (z ++ rest).head?, isDigit c = false ∧ c ≠ 46 := by
    intro c hc
    cases hz with
    | inl hz =>
        obtain ⟨d, hd, rfl⟩ := hz
        obtain rfl := of_decide_eq_true hd
        cases hc
        decide
    | inr hz =>
        subst hz
        exact ⟨(stop c hc).1, (stop c hc).2.1⟩
  have first : ((Regex.seq year afterYear).rests (core ++ (f ++ (z ++ rest)))).head? =
      some (f ++ (z ++ rest)) :=
    head_of_unique hcore fun v zs hv h => dateTime_unique hcore hv h
  have second : ((seqs [.opt fraction, .opt (char 'Z')]).rests (f ++ (z ++ rest))).head? =
      some rest :=
    head_seq (head_opt_fraction hf stopZ) (head_opt_Z hz fun c hc => (stop c hc).2.2)
  have found : dateRegex.body.matchHere ((core ++ (f ++ z)) ++ rest) = some (core ++ (f ++ z)) := by
    apply matchHere_of_head
    simp only [List.append_assoc]
    exact head_seq first second
  simp only [getFirstMatch, dateRegex, if_true] at found ⊢
  rw [found]
  rfl

/-! ## The line -/

/-- A numeric zone offset: a sign, then digits and colons. -/
def ZoneOffset (offset : Bytes) : Prop :=
  ∃ sign ds, (sign = 43 ∨ sign = 45) ∧ (∀ c ∈ ds, isDigit c = true ∨ c = 58) ∧ offset = sign :: ds

/-- What the logger writes. -/
def logLine (s offset w : Bytes) (T D L : Nat) : Bytes :=
  s ++ offset ++ utf8 " CPU is " ++ w ++ utf8 " with " ++ decimal T ++ utf8 "°C, Δ" ++ decimal D ++
    utf8 "°C, level is " ++ decimal L ++ utf8 "."

/-- `extractMatches` returns true and the record holds the written values. -/
def ReadsBack (line s : Bytes) (T D L : Nat) : Prop :=
  ∃ r, extractMatches line = .ok (some r) ∧ r.date = s ∧ r.temp.toInt = T ∧ r.delta.toInt = D ∧
    r.level.toInt = L

/-- Bytes that start none of the three words that the searches look for. -/
def plain (c : UInt8) : Bool := c ≤ 90 || c == 105 || c == 115

theorem plain_digit {c : UInt8} (h : isDigit c = true) : plain c = true := by
  simp only [isDigit, plain, Bool.and_eq_true, decide_eq_true_eq, Bool.or_eq_true] at h ⊢
  exact .inl (.inl (UInt8.le_trans h.2 (by decide)))

theorem plain_date {s : Bytes} (hs : dateRegex.body.Lang s) : ∀ c ∈ s, plain c = true := by
  have symbol : ∀ c : Char, plain c.toUInt8 = true → (char c).Over plain := by
    intro c hc x hx
    obtain rfl := of_decide_eq_true hx
    exact hc
  have run : ∀ lo hi : Char, 48 ≤ lo.toUInt8 → hi.toUInt8 ≤ 57 → (range lo hi).Over plain :=
    fun lo hi low high c hc => plain_digit (isDigit_range low high c hc)
  have covers : dateRegex.body.Over plain := by
    have digits : digit.Over plain := fun c hc => plain_digit hc
    simp only [dateRegex, seqs, Over, year, afterYear, fraction, plus]
    repeat' apply And.intro
    all_goals first
      | exact digits
      | exact symbol _ rfl
      | exact run _ _ (by decide) (by decide)
  exact covers.mem hs

theorem plain_head {s offset : Bytes} (hs : dateRegex.body.Lang s)
    (hoffset : offset = [] ∨ ZoneOffset offset) :
    ∀ c ∈ s ++ offset ++ utf8 " CPU is ", plain c = true := by
  intro c member
  rcases List.mem_append.mp member with member | member
  · rcases List.mem_append.mp member with member | member
    · exact plain_date hs c member
    · rcases hoffset with rfl | ⟨sign, ds, hsign, hds, rfl⟩
      · simp at member
      · rcases List.mem_cons.mp member with rfl | member
        · rcases hsign with rfl | rfl <;> rfl
        · rcases hds c member with h | rfl
          · exact plain_digit h
          · rfl
  · exact (by decide +kernel : ∀ c ∈ utf8 " CPU is ", plain c = true) c member

theorem endsDate_rest {offset : Bytes} (hoffset : offset = [] ∨ ZoneOffset offset) (rest : Bytes) :
    EndsDate (offset ++ (utf8 " CPU is " ++ rest)) := by
  rcases hoffset with rfl | ⟨sign, ds, hsign, -, rfl⟩
  · intro c hc
    obtain rfl : (32 : UInt8) = c := Option.some.inj hc
    decide
  · intro c hc
    obtain rfl : sign = c := Option.some.inj hc
    rcases hsign with rfl | rfl <;> decide

/-- A search for a word that starts with `k` passes over the head of the line,
    the text, and everything before the field that it is for. -/
theorem search_field {r : Regex UInt8} (k : UInt8) {word head w between found : Bytes}
    (starts : ∀ xs, ¬ word <+: xs → r.matchHere xs = none) (hk : k ∈ word.head?)
    (hhead : ∀ c ∈ head, plain c = true) (notPlain : plain k = false) (absent : ¬ word <:+: w)
    (straddle : ∀ a b, a ≠ [] → b ≠ [] → word = a ++ b → a <:+ w → b <+: between ++ found →
      r.matchHere (a ++ (between ++ found)) = none)
    (hbetween : k ∉ between) :
    r.search (head ++ (w ++ (between ++ found))) = r.search found := by
  have outside : k ∉ head := by
    intro member
    simp [hhead k member] at notPlain
  rw [search_skip_symbol starts ⟨k, hk, outside⟩, search_skip_text starts absent straddle,
    search_skip_symbol starts ⟨k, hk, hbetween⟩]

theorem split_word {k a b : Bytes} (h : k = a ++ b) : a = k.take a.length ∧ b = k.drop a.length := by
  subst h
  simp

/-- Where a word that a search looks for is cut by the end of the text, its
    second part stands at the blank behind the text. -/
theorem straddle_blank {k a b rest : Bytes} (h : k = a ++ b) (hb : b ≠ []) (hp : b <+: 32 :: rest) :
    a.length < k.length ∧ (k.drop a.length).head? = some 32 := by
  obtain ⟨c, b, rfl⟩ := List.exists_cons_of_ne_nil hb
  constructor
  · rw [h, List.length_append, List.length_cons]
    omega
  · rw [← (split_word h).2, (List.cons_prefix_cons.mp hp).1]
    rfl

theorem not_mem_decimal {c : UInt8} (h : isDigit c = false) (n : Nat) : c ∉ decimal n := by
  intro member
  simp [decimal_isDigit n c member] at h

section Fields

variable {s offset w : Bytes} (T D L : Nat)

theorem temp_found (hs : dateRegex.body.Lang s) (hoffset : offset = [] ∨ ZoneOffset offset)
    (absent : ¬ utf8 "with " <:+: w) :
    getFirstMatch (logLine s offset w T D L) tempRegex =
      utf8 "with " ++ (decimal T ++ utf8 "°C") := by
  let post := utf8 ", Δ" ++ decimal D ++ utf8 "°C, level is " ++ decimal L ++ utf8 "."
  let found := utf8 "with " ++ decimal T ++ utf8 "°C" ++ post
  have line : logLine s offset w T D L =
      s ++ offset ++ utf8 " CPU is " ++ (w ++ ([32] ++ found)) := by
    simp [logLine, found, post, show utf8 " with " = 32 :: utf8 "with " from rfl,
      show utf8 "°C, Δ" = utf8 "°C" ++ utf8 ", Δ" from rfl]
  have straddle : ∀ a b, a ≠ [] → b ≠ [] → utf8 "with " = a ++ b → a <:+ w → b <+: [32] ++ found →
      tempRegex.body.matchHere (a ++ ([32] ++ found)) = none := by
    intro a b _ hb h _ hp
    have cut : ∀ n < 5, ((utf8 "with ").drop n).head? = some 32 → n = 4 := by decide
    obtain ⟨short, blank⟩ := straddle_blank h hb hp
    obtain rfl : a = utf8 "with" := by
      rw [(split_word h).1, cut a.length short blank]
      rfl
    -- the blank of ` with ` completes the word, but no digit or `°` follows it
    have open_ : ¬ utf8 "°C" <+: found.dropWhile isDigit := by
      rw [show found = 119 :: (utf8 "ith " ++ decimal T ++ utf8 "°C" ++ post) from rfl,
        List.dropWhile_cons_of_neg (by decide)]
      exact fun h => absurd (List.cons_prefix_cons.mp h).1 (by decide)
    exact matchHere_delimited_open (by decide +kernel) (by decide) open_
  have matched : tempRegex.body.matchHere found = some (utf8 "with " ++ decimal T ++ utf8 "°C") :=
    matchHere_delimited (by decide +kernel) (by decide) (decimal_isDigit T) post
  simp only [getFirstMatch, tempRegex, Bool.false_eq_true, if_false] at matched straddle ⊢
  rw [line, search_field 119 (fun xs => matchHere_delimited_none) (by decide)
    (plain_head hs hoffset) (by decide) absent straddle (by decide), search_of_matchHere matched]
  simp

theorem delta_found (hs : dateRegex.body.Lang s) (hoffset : offset = [] ∨ ZoneOffset offset)
    (absent : ¬ utf8 "Δ" <:+: w) :
    getFirstMatch (logLine s offset w T D L) deltaRegex =
      utf8 "Δ" ++ (decimal D ++ utf8 "°C") := by
  let between := utf8 " with " ++ decimal T ++ utf8 "°C, "
  let post := utf8 ", level is " ++ decimal L ++ utf8 "."
  let found := utf8 "Δ" ++ decimal D ++ utf8 "°C" ++ post
  have line : logLine s offset w T D L =
      s ++ offset ++ utf8 " CPU is " ++ (w ++ (between ++ found)) := by
    simp [logLine, between, found, post, show utf8 "°C, Δ" = utf8 "°C, " ++ utf8 "Δ" from rfl,
      show utf8 "°C, level is " = utf8 "°C" ++ utf8 ", level is " from rfl]
  have straddle : ∀ a b, a ≠ [] → b ≠ [] → utf8 "Δ" = a ++ b → a <:+ w → b <+: between ++ found →
      deltaRegex.body.matchHere (a ++ (between ++ found)) = none := by
    intro a b ha hb h _ hp
    have cut : ∀ n < 2, ((utf8 "Δ").drop n).head? ≠ some 32 := by decide
    obtain ⟨short, blank⟩ := straddle_blank h hb hp
    exact absurd blank (cut a.length short)
  have outside : (206 : UInt8) ∉ between := by
    simp only [between, List.mem_append, not_or]
    exact ⟨⟨by decide, not_mem_decimal (by decide) T⟩, by decide⟩
  have matched : deltaRegex.body.matchHere found = some (utf8 "Δ" ++ decimal D ++ utf8 "°C") :=
    matchHere_delimited (by decide +kernel) (by decide) (decimal_isDigit D) post
  simp only [getFirstMatch, deltaRegex, Bool.false_eq_true, if_false] at matched straddle ⊢
  rw [line, search_field 206 (fun xs => matchHere_delimited_none) (by decide)
    (plain_head hs hoffset) (by decide) absent straddle outside, search_of_matchHere matched]
  simp

theorem level_found (hs : dateRegex.body.Lang s) (hoffset : offset = [] ∨ ZoneOffset offset)
    (absent : ¬ utf8 "level is " <:+: w) (ends : ¬ utf8 "level is" <:+ w) :
    getFirstMatch (logLine s offset w T D L) levelRegex = utf8 "level is " ++ decimal L := by
  let between := utf8 " with " ++ decimal T ++ utf8 "°C, Δ" ++ decimal D ++ utf8 "°C, "
  let found := utf8 "level is " ++ decimal L ++ utf8 "."
  have line : logLine s offset w T D L =
      s ++ offset ++ utf8 " CPU is " ++ (w ++ (between ++ found)) := by
    simp [logLine, between, found,
      show utf8 "°C, level is " = utf8 "°C, " ++ utf8 "level is " from rfl]
  have straddle : ∀ a b, a ≠ [] → b ≠ [] → utf8 "level is " = a ++ b → a <:+ w →
      b <+: between ++ found → levelRegex.body.matchHere (a ++ (between ++ found)) = none := by
    intro a b _ hb h suffix hp
    -- only `level is` leaves a blank, and ` is ` is not the start of ` with `
    have cut : ∀ n < 9, ((utf8 "level is ").drop n).head? = some 32 → n = 5 ∨ n = 8 := by decide
    obtain ⟨short, blank⟩ := straddle_blank h hb hp
    rcases cut a.length short blank with five | eight
    · rw [(split_word h).2, five, show (utf8 "level is ").drop 5 = [32, 105, 115, 32] from rfl] at hp
      exact absurd (List.cons_prefix_cons.mp (List.cons_prefix_cons.mp hp).2).1 (by decide)
    · rw [(split_word h).1, eight] at suffix
      exact absurd suffix ends
  have outside : (108 : UInt8) ∉ between := by
    simp only [between, List.mem_append, not_or]
    exact ⟨⟨⟨⟨by decide, not_mem_decimal (by decide) T⟩, by decide⟩,
      not_mem_decimal (by decide) D⟩, by decide⟩
  have matched : levelRegex.body.matchHere found = some (utf8 "level is " ++ decimal L) :=
    matchHere_headed (decimal_isDigit L) (by decide +kernel)
  simp only [getFirstMatch, levelRegex, Bool.false_eq_true, if_false] at matched straddle ⊢
  rw [line, search_field 108 (fun xs => matchHere_headed_none) (by decide)
    (plain_head hs hoffset) (by decide) absent straddle outside, search_of_matchHere matched]
  rfl

/-- A text that ends in `level is` makes the search stop there, in front of no
    digit. -/
theorem level_found_early (hs : dateRegex.body.Lang s)
    (hoffset : offset = [] ∨ ZoneOffset offset) (absent : ¬ utf8 "level is " <:+: w)
    (ends : utf8 "level is" <:+ w) :
    getFirstMatch (logLine s offset w T D L) levelRegex = utf8 "level is " := by
  obtain ⟨text, rfl⟩ := ends
  let post := utf8 "with " ++ decimal T ++ utf8 "°C, Δ" ++ decimal D ++ utf8 "°C, level is " ++
    decimal L ++ utf8 "."
  let found := utf8 "level is " ++ [] ++ post
  have line : logLine s offset (text ++ utf8 "level is") T D L =
      s ++ offset ++ utf8 " CPU is " ++ (text ++ ([] ++ found)) := by
    simp [logLine, found, post, show utf8 " with " = 32 :: utf8 "with " from rfl,
      show utf8 "level is " = utf8 "level is" ++ [32] from rfl]
  have absent_text : ¬ utf8 "level is " <:+: text :=
    fun h => absent (h.trans (List.prefix_append text _).isInfix)
  have straddle : ∀ a b, a ≠ [] → b ≠ [] → utf8 "level is " = a ++ b → a <:+ text →
      b <+: [] ++ found → levelRegex.body.matchHere (a ++ ([] ++ found)) = none := by
    intro a b ha hb h suffix hp
    -- a word that starts before `level is` would end inside the text
    apply absurd _ absent
    have length : a.length + b.length = 9 := by rw [← List.length_append, ← h]; rfl
    have pos : 0 < a.length := List.length_pos_iff.mpr ha
    have inside : b <+: utf8 "level is" := by
      apply List.prefix_of_prefix_length_le hp
      · exact ⟨32 :: post, rfl⟩
      · rw [show (utf8 "level is").length = 8 from rfl]
        omega
    obtain ⟨x, rfl⟩ := suffix
    obtain ⟨y, hy⟩ := inside
    exact ⟨x, y, by rw [h, ← hy]; simp⟩
  have matched : levelRegex.body.matchHere found = some (utf8 "level is " ++ []) :=
    matchHere_headed (by simp) (by simp [post, utf8]; decide +kernel)
  simp only [getFirstMatch, levelRegex, Bool.false_eq_true, if_false] at matched straddle ⊢
  rw [line, search_field 108 (fun xs => matchHere_headed_none) (by decide)
    (plain_head hs hoffset) (by decide) absent_text straddle (by simp), search_of_matchHere matched]
  rfl

/-! ## The values -/

theorem extractField_decimal {line head closing : Bytes} {regex : Pattern} {n cut : Nat}
    (found : getFirstMatch line regex = head ++ (decimal n ++ closing))
    (hcut : cut = head.length + closing.length) (small : n < 2 ^ 31) :
    extractField line regex head.length cut = .ok (some (BitVec.ofNat 32 n)) := by
  have short : (decimal n).length ≤ 10 := (decimal_length_le (by decide)).mpr (by omega)
  have size : sizeSub (head.length + (decimal n ++ closing).length) cut = (decimal n).length := by
    rw [List.length_append, hcut]
    simp only [sizeSub]
    omega
  rw [extractField_found cut found, size, List.take_left, stoi_decimal small]
  rfl

/-- What the level block makes of a level: the three bytes that it cuts wrap for
    one and two digits, and are the last three digits of a longer level. -/
theorem extractField_level {line head : Bytes} {regex : Pattern}
    (found : getFirstMatch line regex = head ++ decimal L) (small : L < 2 ^ 31) :
    extractField line regex head.length (head.length + 3) =
      .ok (if L < 100 then some (BitVec.ofNat 32 L)
        else if L < 1000 then none else some (BitVec.ofNat 32 (L / 1000))) := by
  have short : (decimal L).length ≤ 10 := (decimal_length_le (by decide)).mpr (by omega)
  have two : (decimal L).length ≤ 2 ↔ L < 100 := decimal_length_le (by decide)
  have three : (decimal L).length ≤ 3 ↔ L < 1000 := decimal_length_le (by decide)
  rw [extractField_found _ found]
  by_cases h100 : L < 100
  · have wraps : (decimal L).length ≤ sizeSub (head.length + (decimal L).length) (head.length + 3) := by
      have := two.mpr h100
      simp only [sizeSub]
      omega
    rw [if_pos h100, List.take_of_length_le wraps, stoi_decimal small]
    rfl
  · have cut : sizeSub (head.length + (decimal L).length) (head.length + 3) =
        (decimal L).length - 3 := by
      have : ¬ (decimal L).length ≤ 2 := fun h => h100 (two.mp h)
      simp only [sizeSub]
      omega
    have digits : ∀ c ∈ (decimal L).take ((decimal L).length - 3), isDigit c = true :=
      fun c hc => decimal_isDigit L c (List.mem_of_mem_take hc)
    rw [if_neg h100, cut, stoi_digits digits, digitsVal_take_decimal]
    by_cases h1000 : L < 1000
    · rw [if_pos h1000, show (decimal L).length - 3 = 0 by have := three.mpr h1000; omega]
      rfl
    · have kept : (decimal L).take ((decimal L).length - 3) ≠ [] := by
        have : ¬ (decimal L).length ≤ 3 := fun h => h1000 (three.mp h)
        rw [← List.length_pos_iff, List.length_take]
        omega
      rw [if_neg h1000, if_neg kept, if_pos (by omega)]
      rfl

variable {T D L}

theorem extractLevel_logLine (hs : dateRegex.body.Lang s)
    (hoffset : offset = [] ∨ ZoneOffset offset) (absent : ¬ utf8 "level is " <:+: w)
    (hL : L < 2 ^ 31) :
    extractLevel (logLine s offset w T D L) =
      .ok (if utf8 "level is" <:+ w then none
        else if L < 100 then some (BitVec.ofNat 32 L)
        else if L < 1000 then none else some (BitVec.ofNat 32 (L / 1000))) := by
  by_cases ends : utf8 "level is" <:+ w
  · have found : getFirstMatch (logLine s offset w T D L) levelRegex = utf8 "level is " ++ [] :=
      level_found_early T D L hs hoffset absent ends
    have early := extractField_found 12 found
    rw [List.take_nil, stoi_nil] at early
    rw [if_pos ends]
    exact early
  · rw [if_neg ends]
    exact extractField_level L (level_found T D L hs hoffset absent ends) hL

/-- The level comes back exactly when it has at most two digits and no other
    `level is ` stands in front of it; the other fields always do. -/
theorem readsBack_logLine_iff (hs : dateRegex.body.Lang s)
    (hoffset : offset = [] ∨ ZoneOffset offset) (hwith : ¬ utf8 "with " <:+: w)
    (hdelta : ¬ utf8 "Δ" <:+: w) (hlevel : ¬ utf8 "level is " <:+: w)
    (hT : T ≤ 2 ^ 31 - 1) (hD : D ≤ 2 ^ 31 - 1) (hL : L ≤ 2 ^ 31 - 1) :
    ReadsBack (logLine s offset w T D L) s T D L ↔ L < 100 ∧ ¬ utf8 "level is" <:+ w := by
  have date : getFirstMatch (logLine s offset w T D L) dateRegex = s := by
    have line : ∃ rest, logLine s offset w T D L = s ++ (offset ++ (utf8 " CPU is " ++ rest)) :=
      ⟨_, by simp only [logLine, List.append_assoc]; rfl⟩
    obtain ⟨rest, line⟩ := line
    rw [line]
    exact getFirstMatch_date hs (endsDate_rest hoffset rest)
  have temp : extractTemp (logLine s offset w T D L) = .ok (some (BitVec.ofNat 32 T)) :=
    extractField_decimal (temp_found T D L hs hoffset hwith) rfl (by omega)
  have delta : extractDelta (logLine s offset w T D L) = .ok (some (BitVec.ofNat 32 D)) :=
    extractField_decimal (delta_found T D L hs hoffset hdelta) rfl (by omega)
  have level : extractLevel (logLine s offset w T D L) = _ :=
    extractLevel_logLine hs hoffset hlevel (by omega)
  simp only [ReadsBack, extractMatches, date, date_ne_nil hs, if_false, temp, delta, level]
  by_cases ends : utf8 "level is" <:+ w
  · simp [ends]
  by_cases h100 : L < 100
  · simp only [ends, h100, if_false, if_true, not_false_eq_true, and_self, iff_true]
    exact ⟨_, rfl, rfl, CInt.toInt_ofNat (by omega), CInt.toInt_ofNat (by omega),
      CInt.toInt_ofNat (by omega)⟩
  · simp only [ends, h100, if_false, not_false_eq_true, and_true, iff_false]
    rintro ⟨r, found, -, -, -, same⟩
    by_cases h1000 : L < 1000
    · simp [h1000] at found
    · simp only [h1000, if_false] at found
      obtain rfl := Option.some.inj (Except.ok.inj found)
      rw [CInt.toInt_ofNat (by omega)] at same
      omega

end Fields

theorem readsBack_logLine_iff_sample :
    ReadsBack (logLine (utf8 "2021-09-23T18:43:40") (utf8 "+02:00") (utf8 "fine") 54 0 3)
      (utf8 "2021-09-23T18:43:40") 54 0 3 ↔ 3 < 100 ∧ ¬ utf8 "level is" <:+ utf8 "fine" :=
  readsBack_logLine_iff
    (matchHere_sound (by decide +kernel :
      dateRegex.body.matchHere (utf8 "2021-09-23T18:43:40") = some (utf8 "2021-09-23T18:43:40"))).1
    (.inr ⟨43, utf8 "02:00", .inl rfl, by decide +kernel, rfl⟩) (by decide) (by decide) (by decide)
    (by decide) (by decide) (by decide)

/-- A line of the format with level 100 is dropped. -/
theorem level_100_dropped :
    dateRegex.body.Lang (utf8 "2021-09-23T18:43:40") ∧ ZoneOffset (utf8 "+02:00") ∧
      ¬ utf8 "with " <:+: utf8 "fine" ∧ ¬ utf8 "Δ" <:+: utf8 "fine" ∧
      ¬ utf8 "level is " <:+: utf8 "fine" ∧
      ¬ ReadsBack (logLine (utf8 "2021-09-23T18:43:40") (utf8 "+02:00") (utf8 "fine") 54 0 100)
        (utf8 "2021-09-23T18:43:40") 54 0 100 := by
  have matched : dateRegex.body.matchHere (utf8 "2021-09-23T18:43:40") =
      some (utf8 "2021-09-23T18:43:40") := by decide +kernel
  have line : logLine (utf8 "2021-09-23T18:43:40") (utf8 "+02:00") (utf8 "fine") 54 0 100 =
      utf8 "2021-09-23T18:43:40+02:00 CPU is fine with 54°C, Δ0°C, level is 100." := by
    decide +kernel
  have dropped : extractMatches
      (utf8 "2021-09-23T18:43:40+02:00 CPU is fine with 54°C, Δ0°C, level is 100.") =
        .ok none := by decide +kernel
  refine ⟨(matchHere_sound matched).1, ⟨43, utf8 "02:00", .inl rfl, by decide +kernel, rfl⟩, by decide,
    by decide, by decide, ?_⟩
  rintro ⟨r, found, -⟩
  rw [line, dropped] at found
  cases found

end RpiFanServe.Log
