import Mathlib.Data.List.TakeWhile

/-! # Backtracking regular expressions

`rests r xs` lists what is left of the input after each way of matching `r` at
its start, in the order in which an ECMAScript engine tries them: alternatives
left to right, optional and repeated parts greedily, and an iteration that
consumes nothing fails.  The first entry is the match that the engine reports.

`mem_rests` says that backtracking is sound and complete for the language of the
expression, so existence of a match is a question about `Lang` alone; the lemmas
on `matchHere` and `search` settle which match comes first.
-/

universe u

inductive Regex (α : Type u) where
  | empty
  /-- One symbol of a class. -/
  | cls (p : α → Bool)
  | seq (r s : Regex α)
  | alt (r s : Regex α)
  /-- Greedy `r?`. -/
  | opt (r : Regex α)
  /-- Greedy `r*`. -/
  | star (r : Regex α)

namespace Regex

variable {α : Type u}

/-- Repeat `step` greedily, at most `fuel` times, refusing empty iterations. -/
def iterate (step : List α → List (List α)) : Nat → List α → List (List α)
  | 0, xs => [xs]
  | fuel + 1, xs =>
      ((step xs).filter (fun ys => ys.length < xs.length)).flatMap (iterate step fuel) ++ [xs]

/-- What is left after each way of matching, in backtracking order. -/
def rests : Regex α → List α → List (List α)
  | .empty, xs => [xs]
  | .cls _, [] => []
  | .cls p, x :: xs => if p x then [xs] else []
  | .seq r s, xs => (r.rests xs).flatMap s.rests
  | .alt r s, xs => r.rests xs ++ s.rests xs
  | .opt r, xs => r.rests xs ++ [xs]
  | .star r, xs => iterate r.rests xs.length xs

/-- The text of the match that the engine finds at the start of the input. -/
def matchHere (r : Regex α) (xs : List α) : Option (List α) :=
  (r.rests xs).head?.map fun ys => xs.take (xs.length - ys.length)

/-- The text of the leftmost match. -/
def search (r : Regex α) : List α → Option (List α)
  | [] => r.matchHere []
  | x :: xs =>
      match r.matchHere (x :: xs) with
      | some w => some w
      | none => r.search xs

/-- A fixed word. -/
def lit [DecidableEq α] : List α → Regex α
  | [] => .empty
  | x :: xs => .seq (.cls (· = x)) (lit xs)

/-- Greedy `r+`. -/
def plus (r : Regex α) : Regex α := .seq r (.star r)

/-- The parts one after the other. -/
def seqs : List (Regex α) → Regex α
  | [] => .empty
  | [r] => r
  | r :: rs => .seq r (seqs rs)

/-! ## The language -/

def Lang : Regex α → List α → Prop
  | .empty, w => w = []
  | .cls p, w => ∃ x, p x = true ∧ w = [x]
  | .seq r s, w => ∃ a b, r.Lang a ∧ s.Lang b ∧ w = a ++ b
  | .alt r s, w => r.Lang w ∨ s.Lang w
  | .opt r, w => r.Lang w ∨ w = []
  | .star r, w => ∃ ws : List (List α), (∀ a ∈ ws, r.Lang a) ∧ w = ws.flatten

theorem iterate_sound {step : List α → List (List α)} {L : List α → Prop}
    (sound : ∀ xs ys, ys ∈ step xs → ∃ w, L w ∧ xs = w ++ ys) :
    ∀ fuel xs ys, ys ∈ iterate step fuel xs →
      ∃ ws : List (List α), (∀ a ∈ ws, L a) ∧ xs = ws.flatten ++ ys := by
  intro fuel
  induction fuel with
  | zero =>
      intro xs ys member
      obtain rfl := List.mem_singleton.mp member
      exact ⟨[], by simp, rfl⟩
  | succ fuel ih =>
      intro xs ys member
      rcases List.mem_append.mp member with member | member
      · obtain ⟨zs, hz, rest⟩ := List.mem_flatMap.mp member
        obtain ⟨w, hw, rfl⟩ := sound xs zs (List.mem_filter.mp hz).1
        obtain ⟨ws, hws, rfl⟩ := ih zs ys rest
        refine ⟨w :: ws, ?_, by simp⟩
        intro a ha
        rcases List.mem_cons.mp ha with rfl | ha
        · exact hw
        · exact hws a ha
      · obtain rfl := List.mem_singleton.mp member
        exact ⟨[], by simp, rfl⟩

theorem iterate_complete {step : List α → List (List α)} {L : List α → Prop}
    (complete : ∀ w ys, L w → ys ∈ step (w ++ ys)) (ws : List (List α)) :
    ∀ fuel ys, (∀ a ∈ ws, L a) → ws.flatten.length ≤ fuel →
      ys ∈ iterate step fuel (ws.flatten ++ ys) := by
  induction ws with
  | nil =>
      intro fuel ys _ _
      cases fuel <;> simp [iterate]
  | cons w ws ih =>
      intro fuel ys hws enough
      have rest : ∀ a ∈ ws, L a := fun a ha => hws a (List.mem_cons_of_mem w ha)
      rw [List.flatten_cons, List.append_assoc]
      by_cases hw : w = []
      · subst hw
        exact ih fuel ys rest (by simpa using enough)
      · have pos : 0 < w.length := List.length_pos_iff.mpr hw
        rw [List.flatten_cons, List.length_append] at enough
        cases fuel with
        | zero => omega
        | succ fuel =>
            refine List.mem_append_left _ (List.mem_flatMap.mpr ⟨ws.flatten ++ ys, ?_, ?_⟩)
            · refine List.mem_filter.mpr ⟨complete w _ (hws w List.mem_cons_self), ?_⟩
              simp only [decide_eq_true_eq, List.length_append]
              omega
            · exact ih fuel ys rest (by omega)

/-- Backtracking finds exactly the ways of splitting a word of the language off
    the input. -/
theorem mem_rests {r : Regex α} {xs ys : List α} :
    ys ∈ r.rests xs ↔ ∃ w, r.Lang w ∧ xs = w ++ ys := by
  induction r generalizing xs ys with
  | empty => simp [rests, Lang, eq_comm]
  | cls p =>
      cases xs with
      | nil =>
          simp only [rests, List.not_mem_nil, false_iff]
          rintro ⟨w, ⟨x, -, rfl⟩, h⟩
          exact absurd h (by simp)
      | cons x xs =>
          simp only [rests, Lang]
          constructor
          · intro member
            split at member
            · rename_i hp
              obtain rfl := List.mem_singleton.mp member
              exact ⟨[x], ⟨x, hp, rfl⟩, rfl⟩
            · simp at member
          · rintro ⟨w, ⟨y, hp, rfl⟩, h⟩
            obtain ⟨rfl, rfl⟩ := List.cons.inj h
            simp [hp]
  | seq r s ihr ihs =>
      simp only [rests, List.mem_flatMap, ihr, ihs, Lang]
      constructor
      · rintro ⟨zs, ⟨a, ha, rfl⟩, ⟨b, hb, rfl⟩⟩
        exact ⟨a ++ b, ⟨a, b, ha, hb, rfl⟩, (List.append_assoc a b ys).symm⟩
      · rintro ⟨w, ⟨a, b, ha, hb, rfl⟩, rfl⟩
        exact ⟨b ++ ys, ⟨a, ha, List.append_assoc a b ys⟩, ⟨b, hb, rfl⟩⟩
  | alt r s ihr ihs =>
      simp only [rests, List.mem_append, ihr, ihs, Lang, or_and_right, exists_or]
  | opt r ih =>
      simp only [rests, List.mem_append, ih, Lang, or_and_right, exists_or, exists_eq_left,
        List.nil_append, List.mem_singleton, eq_comm]
  | star r ih =>
      simp only [rests, Lang]
      constructor
      · intro member
        obtain ⟨ws, hws, h⟩ := iterate_sound (fun xs ys => ih.mp) xs.length xs ys member
        exact ⟨ws.flatten, ⟨ws, hws, rfl⟩, h⟩
      · rintro ⟨w, ⟨ws, hws, rfl⟩, rfl⟩
        exact iterate_complete (fun w ys hw => ih.mpr ⟨w, hw, rfl⟩) ws _ ys hws (by simp)

/-! ## The first match -/

theorem matchHere_of_head {r : Regex α} {w ys : List α}
    (h : (r.rests (w ++ ys)).head? = some ys) : r.matchHere (w ++ ys) = some w := by
  simp [matchHere, h]

theorem matchHere_eq_none {r : Regex α} {xs : List α} : r.matchHere xs = none ↔ r.rests xs = [] := by
  simp [matchHere]

/-- A reported match is a word of the language at the start of the input. -/
theorem matchHere_sound {r : Regex α} {xs w : List α} (h : r.matchHere xs = some w) :
    r.Lang w ∧ w <+: xs := by
  obtain ⟨ys, head, rfl⟩ := Option.map_eq_some_iff.mp h
  obtain ⟨w, hw, rfl⟩ := mem_rests.mp (List.mem_of_head? head)
  simpa using hw

theorem search_of_matchHere {r : Regex α} {xs w : List α} (h : r.matchHere xs = some w) :
    r.search xs = some w := by
  cases xs <;> simp [search, h]

theorem search_skip {r : Regex α} (pre : List α) {xs : List α}
    (h : ∀ v, v ≠ [] → v <:+ pre → r.matchHere (v ++ xs) = none) :
    r.search (pre ++ xs) = r.search xs := by
  induction pre with
  | nil => rfl
  | cons x pre ih =>
      have here : r.matchHere (x :: (pre ++ xs)) = none :=
        h (x :: pre) (List.cons_ne_nil x pre) List.suffix_rfl
      rw [List.cons_append, search, here]
      exact ih (fun v hv suffix => h v hv (suffix.trans (List.suffix_cons x pre)))

theorem search_skip_symbol {r : Regex α} {w pre : List α}
    (starts : ∀ xs, ¬ w <+: xs → r.matchHere xs = none) (h : ∃ k ∈ w.head?, k ∉ pre)
    (xs : List α) : r.search (pre ++ xs) = r.search xs := by
  obtain ⟨k, hk, outside⟩ := h
  obtain ⟨ks, rfl⟩ := List.head?_eq_some_iff.mp hk
  refine search_skip pre fun v hv suffix => starts _ ?_
  obtain ⟨x, v, rfl⟩ := List.exists_cons_of_ne_nil hv
  rw [List.cons_append, List.cons_prefix_cons]
  rintro ⟨rfl, -⟩
  exact outside (suffix.subset List.mem_cons_self)

/-- Where every match starts with the word `w`, a text that does not hold `w` is
    skipped, unless a match starts in the text and ends behind it. -/
theorem search_skip_text {r : Regex α} {w text rest : List α}
    (starts : ∀ xs, ¬ w <+: xs → r.matchHere xs = none) (absent : ¬ w <:+: text)
    (straddle : ∀ a b, a ≠ [] → b ≠ [] → w = a ++ b → a <:+ text → b <+: rest →
      r.matchHere (a ++ rest) = none) :
    r.search (text ++ rest) = r.search rest := by
  refine search_skip text fun v hv suffix => ?_
  by_cases here : w <+: v ++ rest
  · rcases List.prefix_or_prefix_of_prefix here (List.prefix_append v rest) with inside | ⟨b, rfl⟩
    · exact absurd (inside.isInfix.trans suffix.isInfix) absent
    · apply straddle v b hv _ rfl suffix ((List.prefix_append_right_inj v).mp here)
      rintro rfl
      exact absent (by simpa using suffix.isInfix)
  · exact starts _ here

theorem matchHere_ne_none {r : Regex α} {w ys : List α} (hw : r.Lang w) :
    r.matchHere (w ++ ys) ≠ none := by
  rw [Ne, matchHere_eq_none]
  exact List.ne_nil_of_mem (mem_rests.mpr ⟨w, hw, rfl⟩)

theorem search_split {r : Regex α} {xs m : List α} (h : r.search xs = some m) :
    ∃ pre rest, xs = pre ++ rest ∧ r.matchHere rest = some m ∧
      ∀ v, v ≠ [] → v <:+ pre → r.matchHere (v ++ rest) = none := by
  induction xs with
  | nil => exact ⟨[], [], rfl, h, fun v hv suffix => absurd (List.suffix_nil.mp suffix) hv⟩
  | cons x xs ih =>
      rw [search] at h
      split at h
      · rename_i here
        exact ⟨[], x :: xs, rfl, here.trans h,
          fun v hv suffix => absurd (List.suffix_nil.mp suffix) hv⟩
      · rename_i here
        obtain ⟨pre, rest, rfl, found, before⟩ := ih h
        refine ⟨x :: pre, rest, rfl, found, fun v hv suffix => ?_⟩
        rcases List.suffix_cons_iff.mp suffix with rfl | suffix
        · exact here
        · exact before v hv suffix

/-- A word that occurs in the input. -/
def Occurs (r : Regex α) (xs : List α) : Prop := ∃ w, r.Lang w ∧ w <:+: xs

theorem search_eq_none {r : Regex α} {xs : List α} : r.search xs = none ↔ ¬ r.Occurs xs := by
  constructor
  · rintro h ⟨w, hw, pre, post, rfl⟩
    induction pre with
    | nil =>
        have some : r.matchHere (w ++ post) ≠ none := matchHere_ne_none hw
        obtain ⟨m, here⟩ := Option.ne_none_iff_exists'.mp some
        simp [search_of_matchHere here] at h
    | cons x pre ih =>
        simp only [List.cons_append, search] at h
        split at h
        · cases h
        · exact ih h
  · intro absent
    cases located : r.search xs with
    | none => rfl
    | some m =>
        obtain ⟨pre, rest, rfl, found, -⟩ := search_split located
        obtain ⟨hm, ahead⟩ := matchHere_sound found
        exact absurd ⟨m, hm, ahead.isInfix.trans (List.suffix_append pre rest).isInfix⟩ absent

/-- `m` starts as far left as any word of the language in the input does, and no
    word that starts there is longer. -/
def LeftmostLongest (r : Regex α) (xs m : List α) : Prop :=
  ∃ pre post, xs = pre ++ (m ++ post) ∧ r.Lang m ∧
    (∀ pre' w post', xs = pre' ++ (w ++ post') → r.Lang w → pre.length ≤ pre'.length) ∧
    (∀ w, r.Lang w → w <+: m ++ post → w.length ≤ m.length)

theorem LeftmostLongest.lang {r : Regex α} {xs m : List α} (h : r.LeftmostLongest xs m) :
    r.Lang m := by
  obtain ⟨_, _, -, lang, -⟩ := h
  exact lang

theorem LeftmostLongest.unique {r : Regex α} {xs m n : List α} (hm : r.LeftmostLongest xs m)
    (hn : r.LeftmostLongest xs n) : m = n := by
  obtain ⟨pre, post, rfl, langm, leftm, longm⟩ := hm
  obtain ⟨pre', post', same, langn, leftn, longn⟩ := hn
  have start : pre.length = pre'.length :=
    Nat.le_antisymm (leftm pre' n post' same langn) (leftn pre m post rfl langm)
  have tails := (List.append_inj same start).2
  have length : m.length = n.length :=
    Nat.le_antisymm (longn m langm (tails ▸ List.prefix_append m post))
      (longm n langn (tails ▸ List.prefix_append n post'))
  exact (List.append_inj tails length).1

/-- The engine's first match is the longest. -/
def Greedy (r : Regex α) : Prop :=
  ∀ xs m w, r.matchHere xs = some m → r.Lang w → w <+: xs → w.length ≤ m.length

/-- For a greedy expression, searching finds the leftmost longest match. -/
theorem search_eq_some {r : Regex α} (greedy : r.Greedy) {xs m : List α} :
    r.search xs = some m ↔ r.LeftmostLongest xs m := by
  have sound : ∀ n, r.search xs = some n → r.LeftmostLongest xs n := by
    intro n h
    obtain ⟨pre, rest, rfl, found, before⟩ := search_split h
    obtain ⟨hn, post, rfl⟩ := matchHere_sound found
    refine ⟨pre, post, rfl, hn, ?_, fun w hw ahead => greedy _ _ w found hw ahead⟩
    intro pre' w post' same hw
    by_contra earlier
    obtain ⟨v, rfl⟩ : pre' <+: pre := by
      apply List.prefix_of_prefix_length_le ⟨w ++ post', same.symm⟩ ⟨n ++ post, rfl⟩
      omega
    have hv : v ≠ [] := by
      rintro rfl
      simp at earlier
    have rest : v ++ (n ++ post) = w ++ post' := by simpa using same
    exact matchHere_ne_none hw (rest ▸ before v hv (List.suffix_append pre' v))
  refine ⟨sound m, fun h => ?_⟩
  cases located : r.search xs with
  | none =>
      obtain ⟨pre, post, rfl, hm, -⟩ := h
      exact absurd ⟨m, hm, pre, post, by simp⟩ (search_eq_none.mp located)
  | some n => rw [(sound n located).unique h]

/-- The first match of a sequence starts with the first match of its first part,
    when the second part matches after that. -/
theorem head_seq {r s : Regex α} {xs ys zs : List α} (hr : (r.rests xs).head? = some ys)
    (hs : (s.rests ys).head? = some zs) : ((seq r s).rests xs).head? = some zs := by
  obtain ⟨more, hr⟩ := List.head?_eq_some_iff.mp hr
  obtain ⟨more', hs⟩ := List.head?_eq_some_iff.mp hs
  simp [rests, hr, hs]

theorem head_opt {r : Regex α} {xs ys : List α} (hr : (r.rests xs).head? = some ys) :
    ((opt r).rests xs).head? = some ys := by
  rw [rests, List.head?_append, hr]
  rfl

theorem head_opt_none {r : Regex α} {xs : List α} (hr : r.rests xs = []) :
    ((opt r).rests xs).head? = some xs := by
  rw [rests, hr]
  rfl

theorem head_of_unique {r : Regex α} {w ys : List α} (hw : r.Lang w)
    (unique : ∀ v zs, r.Lang v → w ++ ys = v ++ zs → zs = ys) :
    (r.rests (w ++ ys)).head? = some ys := by
  have member : ys ∈ r.rests (w ++ ys) := mem_rests.mpr ⟨w, hw, rfl⟩
  cases located : r.rests (w ++ ys) with
  | nil => simp [located] at member
  | cons zs more =>
      obtain ⟨v, hv, h⟩ := mem_rests.mp (located ▸ List.mem_cons_self : zs ∈ r.rests (w ++ ys))
      rw [List.head?_cons, unique v zs hv h]

theorem head_of_lang_nil {r : Regex α} (hr : r.Lang []) (xs : List α) :
    ∃ zs, (r.rests xs).head? = some zs ∧ zs.length ≤ xs.length := by
  have member : xs ∈ r.rests xs := mem_rests.mpr ⟨[], hr, rfl⟩
  cases located : r.rests xs with
  | nil => simp [located] at member
  | cons zs more =>
      obtain ⟨v, -, rfl⟩ := mem_rests.mp (located ▸ List.mem_cons_self : zs ∈ r.rests xs)
      exact ⟨zs, rfl, by simp⟩

/-- Greediness, said with what the first way of matching leaves. -/
theorem greedy_iff {r : Regex α} : r.Greedy ↔
    ∀ w rest, r.Lang w → ∃ zs, (r.rests (w ++ rest)).head? = some zs ∧ zs.length ≤ rest.length := by
  constructor
  · intro greedy w rest hw
    have matches_here : r.matchHere (w ++ rest) ≠ none := matchHere_ne_none hw
    obtain ⟨m, found⟩ := Option.ne_none_iff_exists'.mp matches_here
    have longest := greedy (w ++ rest) m w found hw (List.prefix_append w rest)
    obtain ⟨zs, head, cut⟩ := Option.map_eq_some_iff.mp found
    refine ⟨zs, head, ?_⟩
    obtain ⟨v, -, same⟩ := mem_rests.mp (List.mem_of_head? head)
    have lengths := congrArg List.length same
    have cut_length := congrArg List.length cut
    simp only [List.length_append, List.length_take] at lengths cut_length
    omega
  · intro leaves xs m w found hw ahead
    obtain ⟨rest, rfl⟩ := ahead
    obtain ⟨zs, head, short⟩ := leaves w rest hw
    unfold matchHere at found
    rw [head, Option.map_some] at found
    cases found
    simp only [List.length_append, List.length_take]
    omega

/-- Where all words of the first part that fit end at the same place, a sequence is
    as greedy as its second part. -/
theorem greedy_seq {r s : Regex α}
    (ends : ∀ a b y z, r.Lang a → r.Lang b → a ++ y = b ++ z → z = y) (greedy : s.Greedy) :
    (seq r s).Greedy := by
  apply greedy_iff.mpr
  intro w rest hw
  obtain ⟨a, b, ha, hb, rfl⟩ := hw
  obtain ⟨zs, tail, short⟩ := greedy_iff.mp greedy b rest hb
  have first : (r.rests (a ++ (b ++ rest))).head? = some (b ++ rest) :=
    head_of_unique ha fun v zs hv fits => ends a v _ zs ha hv fits
  rw [List.append_assoc]
  exact ⟨zs, head_seq first tail, short⟩

/-! ## Words and classes -/

theorem lang_lit [DecidableEq α] {w v : List α} : (lit w).Lang v ↔ v = w := by
  induction w generalizing v with
  | nil => rfl
  | cons x w ih =>
      simp only [lit, Lang, ih, decide_eq_true_eq]
      constructor
      · rintro ⟨a, b, ⟨y, rfl, rfl⟩, rfl, rfl⟩
        rfl
      · rintro rfl
        exact ⟨[x], w, ⟨x, rfl, rfl⟩, rfl, rfl⟩

theorem rests_lit [DecidableEq α] (w xs : List α) :
    (lit w).rests xs = if w <+: xs then [xs.drop w.length] else [] := by
  induction w generalizing xs with
  | nil => simp [lit, rests]
  | cons x w ih =>
      cases xs with
      | nil => simp [lit, rests]
      | cons y ys =>
          by_cases h : y = x
          · subst h
            simp [lit, rests, ih, List.cons_prefix_cons]
          · simp [lit, rests, h, List.cons_prefix_cons, Ne.symm h]

theorem rests_star_cls_cons (p : α → Bool) (x : α) (xs : List α) :
    (star (cls p)).rests (x :: xs) =
      if p x then (star (cls p)).rests xs ++ [x :: xs] else [x :: xs] := by
  simp only [rests, List.length_cons, iterate]
  split <;> simp

theorem dropWhile_run {p : α → Bool} {ds rest : List α} (hds : ∀ x ∈ ds, p x = true)
    (stop : ∀ x ∈ rest.head?, p x = false) : (ds ++ rest).dropWhile p = rest := by
  rw [List.dropWhile_append_of_pos hds]
  cases rest with
  | nil => rfl
  | cons x rest => rw [List.dropWhile_cons_of_neg (by simp [stop x rfl])]

theorem head_star_cls (p : α → Bool) (xs : List α) :
    ((star (cls p)).rests xs).head? = some (xs.dropWhile p) := by
  induction xs with
  | nil => rfl
  | cons x xs ih =>
      rw [rests_star_cls_cons]
      split
      · rename_i hp
        rw [List.head?_append, ih, List.dropWhile_cons_of_pos hp]
        rfl
      · rename_i hp
        rw [List.dropWhile_cons_of_neg hp]
        rfl

/-- After a starred class, a part that cannot start in the class is only matched
    behind the whole run. -/
theorem rests_star_cls_seq {p : α → Bool} {s : Regex α}
    (apart : ∀ x xs, p x = true → s.rests (x :: xs) = []) (xs : List α) :
    (seq (star (cls p)) s).rests xs = s.rests (xs.dropWhile p) := by
  induction xs with
  | nil => simp [rests, iterate]
  | cons x xs ih =>
      rw [rests] at ih ⊢
      rw [rests_star_cls_cons]
      split
      · rename_i hp
        rw [List.flatMap_append, ih, List.dropWhile_cons_of_pos hp]
        simp [apart x xs hp]
      · rename_i hp
        rw [List.dropWhile_cons_of_neg hp]
        simp

theorem lang_star_cls {p : α → Bool} {w : List α} :
    (star (cls p)).Lang w ↔ ∀ x ∈ w, p x = true := by
  simp only [Lang]
  constructor
  · rintro ⟨ws, hws, rfl⟩ x hx
    obtain ⟨a, ha, hx⟩ := List.mem_flatten.mp hx
    obtain ⟨y, hy, rfl⟩ := hws a ha
    obtain rfl := List.mem_singleton.mp hx
    exact hy
  · intro h
    refine ⟨w.map fun x => [x], ?_, by rw [← List.flatMap_def, List.flatMap_singleton']⟩
    intro a ha
    obtain ⟨x, hx, rfl⟩ := List.mem_map.mp ha
    exact ⟨x, h x hx, rfl⟩

theorem lang_star_cls_seq {p : α → Bool} {r : Regex α}
    (apart : ∀ w, r.Lang w → ∀ x ∈ w.head?, p x = false) {w : List α} :
    (seq (star (cls p)) r).Lang w ↔ r.Lang (w.dropWhile p) := by
  constructor
  · rintro ⟨run, rest, hrun, hrest, rfl⟩
    rw [dropWhile_run (lang_star_cls.mp hrun) (apart rest hrest)]
    exact hrest
  · intro hrest
    refine ⟨w.takeWhile p, w.dropWhile p, ?_, hrest, List.takeWhile_append_dropWhile.symm⟩
    exact lang_star_cls.mpr fun x hx => List.mem_takeWhile_imp hx

theorem lang_plus_cls_seq {p : α → Bool} {r : Regex α}
    (apart : ∀ w, r.Lang w → ∀ x ∈ w.head?, p x = false) {w : List α} :
    (seq (plus (cls p)) r).Lang w ↔ w.head?.any p = true ∧ r.Lang (w.dropWhile p) := by
  constructor
  · rintro ⟨_, rest, ⟨_, run, ⟨x, hx, rfl⟩, hrun, rfl⟩, hrest, rfl⟩
    have tail : (seq (star (cls p)) r).Lang (run ++ rest) := ⟨run, rest, hrun, hrest, rfl⟩
    rw [List.append_assoc, List.singleton_append, List.dropWhile_cons_of_pos hx]
    exact ⟨hx, (lang_star_cls_seq apart).mp tail⟩
  · rintro ⟨first, hrest⟩
    cases w with
    | nil => simp at first
    | cons x w =>
        have hx : p x = true := first
        rw [List.dropWhile_cons_of_pos hx] at hrest
        obtain ⟨run, rest, hrun, tail, rfl⟩ := (lang_star_cls_seq apart).mpr hrest
        exact ⟨x :: run, rest, ⟨[x], run, ⟨x, hx, rfl⟩, hrun, rfl⟩, tail, rfl⟩

theorem lang_lit_seq [DecidableEq α] {w v : List α} {r : Regex α} :
    (seq (lit w) r).Lang v ↔ ∃ rest, r.Lang rest ∧ v = w ++ rest := by
  simp [Lang, lang_lit]

theorem lang_seq_alt {r s t : Regex α} {w : List α} :
    (seq r (alt s t)).Lang w ↔ (seq r s).Lang w ∨ (seq r t).Lang w := by
  simp only [Lang, or_and_right, and_or_left, exists_or]

theorem lang_seq_empty {r : Regex α} {w : List α} : (seq r empty).Lang w ↔ r.Lang w := by
  simp [Lang]

theorem lang_plus_cls {p : α → Bool} {w : List α} :
    (plus (cls p)).Lang w ↔ w.head?.any p = true ∧ w.dropWhile p = [] := by
  have apart : ∀ v, (empty : Regex α).Lang v → ∀ x ∈ v.head?, p x = false := by
    rintro _ rfl
    simp
  exact lang_seq_empty.symm.trans (lang_plus_cls_seq apart)

/-! ## A run between delimiters -/

/-- The word `w` and a run in the class `p`. -/
def headed [DecidableEq α] (w : List α) (p : α → Bool) : Regex α := .seq (lit w) (.star (.cls p))

/-- A run in the class `p` between the words `w` and `u`. -/
def delimited [DecidableEq α] (w : List α) (p : α → Bool) (u : List α) : Regex α :=
  .seq (lit w) (.seq (.star (.cls p)) (lit u))

section Delimited

variable [DecidableEq α] {w u : List α} {p : α → Bool}

theorem matchHere_headed {ds rest : List α} (hds : ∀ x ∈ ds, p x = true)
    (stop : ∀ x ∈ rest.head?, p x = false) :
    (headed w p).matchHere (w ++ ds ++ rest) = some (w ++ ds) := by
  have word : ((lit w).rests (w ++ ds ++ rest)).head? = some (ds ++ rest) := by
    rw [rests_lit, List.append_assoc, if_pos (List.prefix_append w _), List.drop_left]
    rfl
  exact matchHere_of_head (head_seq word (by rw [head_star_cls, dropWhile_run hds stop]))

theorem matchHere_headed_none {xs : List α} (h : ¬ w <+: xs) :
    (headed w p).matchHere xs = none := by
  rw [matchHere_eq_none, headed, rests, rests_lit, if_neg h, List.flatMap_nil]

theorem rests_delimited (apart : ∀ x ∈ u.head?, p x = false) (hu : u ≠ []) (xs : List α) :
    (delimited w p u).rests (w ++ xs) =
      if u <+: xs.dropWhile p then [(xs.dropWhile p).drop u.length] else [] := by
  rw [delimited, rests, rests_lit, if_pos (List.prefix_append w xs), List.drop_left,
    List.flatMap_cons, List.flatMap_nil, List.append_nil, rests_star_cls_seq, rests_lit]
  intro x ys hx
  obtain ⟨y, u, rfl⟩ := List.exists_cons_of_ne_nil hu
  have : p y = false := apart y rfl
  rw [rests_lit, if_neg]
  rw [List.cons_prefix_cons]
  rintro ⟨rfl, -⟩
  simp [hx] at this

omit [DecidableEq α] in
theorem dropWhile_closed (apart : ∀ x ∈ u.head?, p x = false) (hu : u ≠ []) {ds rest : List α}
    (hds : ∀ x ∈ ds, p x = true) : (ds ++ (u ++ rest)).dropWhile p = u ++ rest := by
  apply dropWhile_run hds
  obtain ⟨y, u, rfl⟩ := List.exists_cons_of_ne_nil hu
  exact apart

theorem matchHere_delimited (apart : ∀ x ∈ u.head?, p x = false) (hu : u ≠ []) {ds : List α}
    (hds : ∀ x ∈ ds, p x = true) (rest : List α) :
    (delimited w p u).matchHere (w ++ ds ++ u ++ rest) = some (w ++ ds ++ u) := by
  have run : (ds ++ (u ++ rest)).dropWhile p = u ++ rest := dropWhile_closed apart hu hds
  refine matchHere_of_head ?_
  simp only [List.append_assoc]
  rw [rests_delimited apart hu, run, if_pos (List.prefix_append u rest), List.drop_left]
  rfl

theorem matchHere_delimited_none {xs : List α} (h : ¬ w <+: xs) :
    (delimited w p u).matchHere xs = none := by
  rw [matchHere_eq_none, delimited, rests, rests_lit, if_neg h, List.flatMap_nil]

theorem matchHere_delimited_open (apart : ∀ x ∈ u.head?, p x = false) (hu : u ≠ [])
    {xs : List α} (h : ¬ u <+: xs.dropWhile p) : (delimited w p u).matchHere (w ++ xs) = none := by
  rw [matchHere_eq_none, rests_delimited apart hu, if_neg h]

theorem lang_headed {v : List α} :
    (headed w p).Lang v ↔ ∃ ds, (∀ x ∈ ds, p x = true) ∧ v = w ++ ds := by
  simp only [headed, Lang, lang_lit]
  constructor
  · rintro ⟨a, ds, rfl, run, rfl⟩
    exact ⟨ds, lang_star_cls.mp run, rfl⟩
  · rintro ⟨ds, run, rfl⟩
    exact ⟨w, ds, rfl, lang_star_cls.mpr run, rfl⟩

theorem lang_delimited {v : List α} :
    (delimited w p u).Lang v ↔ ∃ ds, (∀ x ∈ ds, p x = true) ∧ v = w ++ ds ++ u := by
  simp only [delimited, Lang, lang_lit]
  constructor
  · rintro ⟨a, b, rfl, ⟨ds, c, run, rfl, rfl⟩, rfl⟩
    exact ⟨ds, lang_star_cls.mp run, (List.append_assoc _ _ _).symm⟩
  · rintro ⟨ds, run, rfl⟩
    exact ⟨w, ds ++ u, rfl, ⟨ds, u, lang_star_cls.mpr run, rfl, rfl⟩, List.append_assoc _ _ _⟩

theorem greedy_headed : (headed w p).Greedy := by
  intro xs m v found hv ahead
  obtain ⟨es, runv, rfl⟩ := lang_headed.mp hv
  obtain ⟨zs, rfl⟩ := ahead
  have longest : (headed w p).matchHere
      (w ++ (es ++ zs.takeWhile p) ++ zs.dropWhile p) = some (w ++ (es ++ zs.takeWhile p)) := by
    apply matchHere_headed
    · intro x hx
      exact (List.mem_append.mp hx).elim (runv x) List.mem_takeWhile_imp
    · intro x hx
      have := List.head?_dropWhile_not p zs
      rw [hx] at this
      simpa using this
  rw [show w ++ (es ++ zs.takeWhile p) ++ zs.dropWhile p = w ++ es ++ zs by simp] at longest
  rw [longest] at found
  obtain rfl := Option.some.inj found
  simp

theorem greedy_delimited (apart : ∀ x ∈ u.head?, p x = false) (hu : u ≠ []) :
    (delimited w p u).Greedy := by
  intro xs m v found hv ahead
  obtain ⟨hm, post, rfl⟩ := matchHere_sound found
  obtain ⟨ds, run, rfl⟩ := lang_delimited.mp hm
  obtain ⟨es, runv, rfl⟩ := lang_delimited.mp hv
  obtain ⟨post', same⟩ := ahead
  simp only [List.append_assoc, List.append_cancel_left_eq] at same
  have tails : u ++ post' = u ++ post := by
    rw [← dropWhile_closed apart hu runv, same, dropWhile_closed apart hu run]
  rw [List.append_cancel_left tails, List.append_left_inj] at same
  rw [same]

end Delimited

/-! ## Shapes of whole languages -/

/-- Every symbol of the expression lies in the class `q`. -/
def Over (q : α → Bool) : Regex α → Prop
  | .empty => True
  | .cls p => ∀ x, p x = true → q x = true
  | .seq r s | .alt r s => r.Over q ∧ s.Over q
  | .opt r | .star r => r.Over q

theorem Over.mem {q : α → Bool} {r : Regex α} (covers : r.Over q) {w : List α} (hw : r.Lang w) :
    ∀ x ∈ w, q x = true := by
  induction r generalizing w with
  | empty => simp only [Lang] at hw; simp [hw]
  | cls p =>
      obtain ⟨y, hy, rfl⟩ := hw
      intro x hx
      obtain rfl := List.mem_singleton.mp hx
      exact covers x hy
  | seq r s ihr ihs =>
      obtain ⟨a, b, ha, hb, rfl⟩ := hw
      intro x hx
      exact (List.mem_append.mp hx).elim (ihr covers.1 ha x) (ihs covers.2 hb x)
  | alt r s ihr ihs => exact hw.elim (ihr covers.1) (ihs covers.2)
  | opt r ih =>
      rcases hw with hw | rfl
      · exact ih covers hw
      · simp
  | star r ih =>
      obtain ⟨ws, hws, rfl⟩ := hw
      intro x hx
      obtain ⟨a, ha, hx⟩ := List.mem_flatten.mp hx
      exact ih covers (hws a ha) x hx

/-- The length that all words of the expression have, where the shape shows it. -/
def width : Regex α → Option Nat
  | .empty => some 0
  | .cls _ => some 1
  | .seq r s =>
      match r.width, s.width with
      | some m, some n => some (m + n)
      | _, _ => none
  | .alt r s => if r.width = s.width then r.width else none
  | .opt _ | .star _ => none

theorem length_of_width {r : Regex α} {n : Nat} (h : r.width = some n) {w : List α}
    (hw : r.Lang w) : w.length = n := by
  induction r generalizing n w with
  | empty => simp only [Lang] at hw; simp only [width] at h; simp_all
  | cls p =>
      obtain ⟨x, -, rfl⟩ := hw
      simpa [width] using h
  | seq r s ihr ihs =>
      obtain ⟨a, b, ha, hb, rfl⟩ := hw
      simp only [width] at h
      split at h
      · rename_i m k hm hk
        rw [List.length_append, ihr hm ha, ihs hk hb]
        exact Option.some.inj h
      · cases h
  | alt r s ihr ihs =>
      simp only [width] at h
      split at h
      · rename_i same
        exact hw.elim (ihr h) (ihs (same ▸ h))
      · cases h
  | opt r _ => simp [width] at h
  | star r _ => simp [width] at h

end Regex
