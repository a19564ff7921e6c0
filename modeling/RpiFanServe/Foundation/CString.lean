import Mathlib.Algebra.Order.Group.Nat
import Mathlib.Data.List.TakeWhile
import Mathlib.Tactic.Ring

/-! # Byte strings and machine integers of C++

`std::string` is a list of bytes.  The library functions follow their documented
behaviour: `substr` clamps its length and raises past the end, `stoi` reads as
`strtol` does and checks the range of `int`, `getline` drops the newline and
reports a last line without one only when it is not empty.
-/

/-- `std::string`, byte by byte. -/
abbrev Bytes := List UInt8

/-- A string whose length is a `size_t`, as that of every `std::string` is. -/
structure StdString where
  bytes : Bytes
  size_lt : bytes.length < 2 ^ 64

/-- The bytes of a literal in a UTF-8 source file. -/
def utf8 (s : String) : Bytes := s.toList.flatMap String.utf8EncodeChar

/-- What ends a call other than a return. -/
inductive Fault where
  | outOfRange
  | invalidArgument
  | runtimeError
  /-- Integer division by zero: no exception, the process is killed. -/
  | divisionByZero
  deriving Repr, DecidableEq

/-- `int`. -/
abbrev CInt := BitVec 32
/-- `long`. -/
abbrev CLong := BitVec 64
/-- `unsigned long`. -/
abbrev CULong := BitVec 64

/-- Conversion of `int` to `unsigned long`. -/
def CInt.toULong (v : CInt) : CULong := v.signExtend 64

/-- Conversion of `unsigned long` to `int`. -/
def CULong.toCInt (v : CULong) : CInt := v.setWidth 32

@[simp] theorem CInt.toULong_toCInt (v : CInt) : CULong.toCInt (CInt.toULong v) = v := by
  apply BitVec.eq_of_getElem_eq
  intro i hi
  rw [CULong.toCInt, BitVec.getElem_setWidth, toULong, BitVec.getLsbD_signExtend]
  simp [hi, show i < 64 by omega]

/-- A non-negative `int` keeps its value, a negative one is counted from the top. -/
theorem CInt.toULong_toNat (v : CInt) :
    ((toULong v).toNat : Int) = if 0 ≤ v.toInt then v.toInt else 2 ^ 64 + v.toInt := by
  have same : (toULong v).toInt = v.toInt := BitVec.toInt_signExtend_of_le (by decide)
  have bound := (toULong v).isLt
  rw [BitVec.toInt_eq_toNat_cond] at same
  split at same <;> split <;> omega

theorem CInt.toInt_ofNat {n : Nat} (small : n < 2 ^ 31) : (BitVec.ofNat 32 n).toInt = n := by
  rw [BitVec.toInt_eq_toNat_of_lt] <;> rw [BitVec.toNat_ofNat] <;> omega

namespace CString

/-- `a - b` in `size_t`. -/
def sizeSub (a b : Nat) : Nat := (a + 2 ^ 64 - b) % 2 ^ 64

theorem sizeSub_eq {a b : Nat} (le : b ≤ a) (lt : a < 2 ^ 64) : sizeSub a b = a - b := by
  unfold sizeSub
  rw [show a + 2 ^ 64 - b = a - b + 2 ^ 64 by omega, Nat.add_mod_right, Nat.mod_eq_of_lt (by omega)]

/-- `s.substr(pos, n)`. -/
def substr (s : Bytes) (pos n : Nat) : Except Fault Bytes :=
  if pos ≤ s.length then .ok ((s.drop pos).take n) else .error .outOfRange

theorem substr_append (a b : Bytes) (n : Nat) : substr (a ++ b) a.length n = .ok (b.take n) := by
  simp [substr]

theorem substr_nil {pos : Nat} (h : 0 < pos) (n : Nat) : substr [] pos n = .error .outOfRange := by
  simp [substr, show pos ≠ 0 by omega]

/-! ## Numbers -/

def isDigit (c : UInt8) : Bool := 48 ≤ c && c ≤ 57

/-- `isspace` in the C locale. -/
def isSpace (c : UInt8) : Bool := c == 32 || (9 ≤ c && c ≤ 13)

/-- The value of a run of decimal digits. -/
def digitsVal (ds : Bytes) : Nat := ds.foldl (fun v c => 10 * v + (c.toNat - 48)) 0

/-- `std::to_string` of a number that is not negative. -/
def decimal (n : Nat) : Bytes := (Nat.toDigits 10 n).map Char.toUInt8

/-- `std::to_string` of a signed number. -/
def toString (v : Int) : Bytes := if v < 0 then 45 :: decimal v.natAbs else decimal v.natAbs

/-- The sign and the digits that `strtol` reads in base 10: white space, one
    optional sign, then digits up to the first other byte. -/
def scanInteger (s : Bytes) : Bool × Bytes :=
  match s.dropWhile isSpace with
  | [] => (false, [])
  | c :: cs =>
      if c = 45 then (true, cs.takeWhile isDigit)
      else if c = 43 then (false, cs.takeWhile isDigit)
      else (false, (c :: cs).takeWhile isDigit)

/-- The range check of `std::stoi`. -/
def narrow (v : Int) : Except Fault CInt :=
  if -2 ^ 31 ≤ v ∧ v < 2 ^ 31 then .ok (BitVec.ofInt 32 v) else .error .outOfRange

/-- `std::stoi` in base 10. -/
def stoi (s : Bytes) : Except Fault CInt :=
  let (negative, digits) := scanInteger s
  if digits = [] then .error .invalidArgument
  else narrow (if negative then -(digitsVal digits : Int) else digitsVal digits)

/-- `std::stoul` in base 10; a number in range is negated modulo `2 ^ 64` behind a minus
    sign. -/
def stoul (s : Bytes) : Except Fault CULong :=
  let (negative, digits) := scanInteger s
  if digits = [] then .error .invalidArgument
  else if digitsVal digits < 2 ^ 64 then
    .ok (if negative then -BitVec.ofNat 64 (digitsVal digits) else BitVec.ofNat 64 (digitsVal digits))
  else .error .outOfRange

theorem digitsVal_append_one (ds : Bytes) (c : UInt8) :
    digitsVal (ds ++ [c]) = 10 * digitsVal ds + (c.toNat - 48) := by
  simp only [digitsVal, List.foldl_append, List.foldl_cons, List.foldl_nil]

theorem decimal_eq (n : Nat) :
    decimal n = if n < 10 then [n.digitChar.toUInt8]
      else decimal (n / 10) ++ [(n % 10).digitChar.toUInt8] := by
  simp only [decimal]
  rw [Nat.toDigits_eq_if (by decide)]
  split <;> simp

theorem digitChar_toUInt8 :
    ∀ d < 10, d.digitChar.toUInt8.toNat = 48 + d ∧ isDigit d.digitChar.toUInt8 = true := by
  decide

theorem decimal_isDigit (n : Nat) : ∀ c ∈ decimal n, isDigit c = true := by
  induction n using Nat.strong_induction_on with
  | _ n ih =>
      intro c member
      rw [decimal_eq] at member
      split at member
      · rename_i small
        obtain rfl := List.mem_singleton.mp member
        exact (digitChar_toUInt8 n small).2
      · rcases List.mem_append.mp member with member | member
        · exact ih (n / 10) (by omega) c member
        · obtain rfl := List.mem_singleton.mp member
          exact (digitChar_toUInt8 (n % 10) (by omega)).2

@[simp] theorem digitsVal_decimal (n : Nat) : digitsVal (decimal n) = n := by
  induction n using Nat.strong_induction_on with
  | _ n ih =>
      rw [decimal_eq]
      split
      · rename_i small
        simp [digitsVal, (digitChar_toUInt8 n small).1]
      · rename_i large
        rw [digitsVal_append_one, ih (n / 10) (by omega),
          (digitChar_toUInt8 (n % 10) (by omega)).1]
        omega

theorem decimal_ne_nil (n : Nat) : decimal n ≠ [] := by
  simp [decimal, Nat.toDigits_ne_nil]

theorem decimal_length_le {n k : Nat} (pos : 0 < k) : (decimal n).length ≤ k ↔ n < 10 ^ k := by
  simpa only [decimal, List.length_map] using Nat.length_toDigits_le_iff (by decide) pos

theorem digitsVal_take_decimal (n k : Nat) :
    digitsVal ((decimal n).take ((decimal n).length - k)) = n / 10 ^ k := by
  induction k generalizing n with
  | zero => simp
  | succ k ih =>
      rw [decimal_eq]
      split
      · rename_i small
        have : n / 10 ^ (k + 1) = 0 :=
          Nat.div_eq_of_lt (small.trans_le (Nat.le_self_pow (by omega) 10))
        simp [this, digitsVal]
      · have shorter : (decimal (n / 10)).length - k ≤ (decimal (n / 10)).length := Nat.sub_le _ _
        rw [List.length_append, List.length_singleton,
          show (decimal (n / 10)).length + 1 - (k + 1) = (decimal (n / 10)).length - k by omega,
          List.take_append_of_le_length shorter, ih, Nat.div_div_eq_div_mul, pow_succ']

/-! ## Reading numbers -/

theorem isDigit_not_isSpace {c : UInt8} (h : isDigit c = true) : isSpace c = false := by
  simp only [isDigit, isSpace, Bool.and_eq_true, decide_eq_true_eq, Bool.or_eq_false_iff,
    beq_eq_false_iff_ne, Bool.and_eq_false_iff, decide_eq_false_iff_not, UInt8.le_iff_toNat_le,
    ne_eq, ← UInt8.toNat_inj, UInt8.reduceToNat] at *
  omega

theorem isDigit_not_sign {c : UInt8} (h : isDigit c = true) : c ≠ 45 ∧ c ≠ 43 := by
  constructor <;> rintro rfl <;> simp [isDigit] at h

theorem scanInteger_digits {ds : Bytes} (digits : ∀ c ∈ ds, isDigit c = true) :
    scanInteger ds = (false, ds) := by
  cases ds with
  | nil => rfl
  | cons c cs =>
      have head := digits c List.mem_cons_self
      have all : (c :: cs).takeWhile isDigit = c :: cs := List.takeWhile_eq_self_iff.mpr digits
      rw [scanInteger, List.dropWhile_cons_of_neg (by simp [isDigit_not_isSpace head])]
      simp only [(isDigit_not_sign head).1, (isDigit_not_sign head).2, if_false, all]

/-- `s` starts with an integer as `strtol` reads it, which leaves `rest`. -/
structure IntegerPrefix (s space sign digits rest : Bytes) : Prop where
  split : s = space ++ sign ++ digits ++ rest
  blank : ∀ c ∈ space, isSpace c = true
  signed : sign = [] ∨ sign = [43] ∨ sign = [45]
  some_digit : digits ≠ []
  run : ∀ c ∈ digits, isDigit c = true
  maximal : ∀ c ∈ rest.head?, isDigit c = false

/-- The number that a sign and a run of digits denote. -/
def signedVal (sign digits : Bytes) : Int :=
  if sign = [45] then -(digitsVal digits : Int) else digitsVal digits

section Scan

variable {s space sign digits rest : Bytes}

theorem takeWhile_run {p : UInt8 → Bool} {ds rest : Bytes} (run : ∀ c ∈ ds, p c = true)
    (stop : ∀ c ∈ rest.head?, p c = false) : (ds ++ rest).takeWhile p = ds := by
  rw [List.takeWhile_append_of_pos run]
  cases rest with
  | nil => simp
  | cons c rest => rw [List.takeWhile_cons_of_neg (by simp [stop c rfl]), List.append_nil]

theorem IntegerPrefix.dropWhile (h : IntegerPrefix s space sign digits rest) :
    s.dropWhile isSpace = sign ++ digits ++ rest := by
  obtain ⟨d, ds, rfl⟩ := List.exists_cons_of_ne_nil h.some_digit
  have digit_d := isDigit_not_isSpace (h.run d List.mem_cons_self)
  rw [h.split, List.append_assoc, List.append_assoc, List.dropWhile_append_of_pos h.blank,
    List.append_assoc]
  rcases h.signed with rfl | rfl | rfl
  · exact List.dropWhile_cons_of_neg (by simp [digit_d])
  · rfl
  · rfl

theorem IntegerPrefix.scanInteger (h : IntegerPrefix s space sign digits rest) :
    CString.scanInteger s = (decide (sign = [45]), digits) := by
  obtain ⟨d, ds, rfl⟩ := List.exists_cons_of_ne_nil h.some_digit
  have not_sign := isDigit_not_sign (h.run d List.mem_cons_self)
  have read : (d :: (ds ++ rest)).takeWhile isDigit = d :: ds := takeWhile_run h.run h.maximal
  unfold CString.scanInteger
  rw [h.dropWhile]
  rcases h.signed with rfl | rfl | rfl
  · simp only [List.nil_append, List.cons_append, not_sign.1, not_sign.2, if_false, read]
    rfl
  · simp only [List.cons_append, List.nil_append, read]
    rfl
  · simp only [List.cons_append, List.nil_append, read]
    rfl

theorem exists_integerPrefix (found : (scanInteger s).2 ≠ []) :
    ∃ space sign rest, IntegerPrefix s space sign (scanInteger s).2 rest := by
  have split : s = s.takeWhile isSpace ++ s.dropWhile isSpace := (List.takeWhile_append_dropWhile).symm
  have blank : ∀ c ∈ s.takeWhile isSpace, isSpace c = true := fun c member => List.mem_takeWhile_imp member
  have run : ∀ xs : Bytes, ∀ c ∈ xs.takeWhile isDigit, isDigit c = true :=
    fun xs c member => List.mem_takeWhile_imp member
  have maximal : ∀ xs : Bytes, ∀ c ∈ (xs.dropWhile isDigit).head?, isDigit c = false := by
    intro xs c head
    have := List.head?_dropWhile_not isDigit xs
    rw [head] at this
    simpa using this
  unfold scanInteger at found ⊢
  cases tail : s.dropWhile isSpace with
  | nil => simp [tail] at found
  | cons c cs =>
      simp only [tail] at found ⊢
      have whole : s = s.takeWhile isSpace ++ c :: cs := by rw [← tail]; exact split
      split_ifs at found ⊢ with minus plus
      · subst minus
        refine ⟨s.takeWhile isSpace, [45], cs.dropWhile isDigit, ?_, blank, .inr (.inr rfl), found,
          run cs, maximal cs⟩
        simpa using whole
      · subst plus
        refine ⟨s.takeWhile isSpace, [43], cs.dropWhile isDigit, ?_, blank, .inr (.inl rfl), found,
          run cs, maximal cs⟩
        simpa using whole
      · refine ⟨s.takeWhile isSpace, [], (c :: cs).dropWhile isDigit, ?_, blank, .inl rfl, found,
          run _, maximal _⟩
        rw [List.append_nil, List.append_assoc, List.takeWhile_append_dropWhile]
        exact whole

theorem IntegerPrefix.space_eq (h : IntegerPrefix s space sign digits rest) :
    space = s.takeWhile isSpace := by
  have split : s.takeWhile isSpace ++ s.dropWhile isSpace = space ++ (sign ++ digits ++ rest) := by
    rw [List.takeWhile_append_dropWhile, ← List.append_assoc, ← List.append_assoc]
    exact h.split
  rw [h.dropWhile] at split
  exact (List.append_cancel_right split).symm

theorem IntegerPrefix.unique {space' sign' digits' rest' : Bytes}
    (h : IntegerPrefix s space sign digits rest) (h' : IntegerPrefix s space' sign' digits' rest') :
    space = space' ∧ sign = sign' ∧ digits = digits' ∧ rest = rest' := by
  have same_digits : digits = digits' :=
    (Prod.mk.inj (h.scanInteger.symm.trans h'.scanInteger)).2
  subst same_digits
  have tails : sign ++ digits ++ rest = sign' ++ digits ++ rest' := h.dropWhile.symm.trans h'.dropWhile
  have same_sign : sign = sign' := by
    obtain ⟨d, ds, rfl⟩ := List.exists_cons_of_ne_nil h.some_digit
    have not_sign := isDigit_not_sign (h.run d List.mem_cons_self)
    rcases h.signed with rfl | rfl | rfl <;> rcases h'.signed with rfl | rfl | rfl <;>
      simp_all [eq_comm]
  subst same_sign
  exact ⟨h.space_eq.trans h'.space_eq.symm, rfl, rfl, List.append_cancel_left tails⟩

end Scan

theorem narrow_ofNat (n : Nat) :
    narrow n = if n < 2 ^ 31 then .ok (BitVec.ofNat 32 n) else .error .outOfRange := by
  simp only [narrow]
  by_cases small : n < 2 ^ 31
  · rw [if_pos small, if_pos ⟨by omega, by omega⟩, BitVec.ofInt_natCast]
  · rw [if_neg small, if_neg (by omega)]

theorem stoi_fault {s : Bytes} {fault : Fault} (h : stoi s = .error fault) :
    fault = .invalidArgument ∨ fault = .outOfRange := by
  simp only [stoi, narrow] at h
  split at h
  · exact .inl (Except.error.inj h).symm
  · split_ifs at h <;> exact .inr (Except.error.inj h).symm

theorem narrow_eq_ok {n : Int} {v : CInt} : narrow n = .ok v ↔ v.toInt = n := by
  have low : -2 ^ 31 ≤ v.toInt := BitVec.le_toInt v
  have high : v.toInt < 2 ^ 31 := BitVec.toInt_lt
  unfold narrow
  constructor
  · intro converted
    split_ifs at converted with range
    cases converted
    rw [BitVec.toInt_ofInt, Int.bmod_eq_of_le] <;> omega
  · intro value
    subst value
    rw [if_pos ⟨low, high⟩, BitVec.ofInt_toInt]

/-- What `stoi` reads: the number at the start, when it fits. -/
theorem stoi_eq_ok {s : Bytes} {v : CInt} : stoi s = .ok v ↔
    ∃ space sign digits rest, IntegerPrefix s space sign digits rest ∧
      v.toInt = signedVal sign digits := by
  constructor
  · intro read
    simp only [stoi] at read
    split_ifs at read with none_found minus
    all_goals
      obtain ⟨space, sign, rest, found⟩ := exists_integerPrefix none_found
      refine ⟨space, sign, _, rest, found, ?_⟩
      have negative := congrArg Prod.fst found.scanInteger
      rw [narrow_eq_ok.mp read]
      simp_all [signedVal]
  · intro number
    obtain ⟨space, sign, digits, rest, found, value⟩ := number
    simp only [stoi, found.scanInteger, if_neg found.some_digit, narrow_eq_ok, decide_eq_true_eq]
    exact value

theorem stoul_fault {s : Bytes} {fault : Fault} (h : stoul s = .error fault) :
    fault = .invalidArgument ∨ fault = .outOfRange := by
  simp only [stoul] at h
  split_ifs at h
  · exact .inl (Except.error.inj h).symm
  · exact .inr (Except.error.inj h).symm

/-- What `stoul` reads: a number in range, negated behind a minus sign. -/
theorem stoul_eq_ok {s : Bytes} {n : CULong} : stoul s = .ok n ↔
    ∃ space sign digits rest, IntegerPrefix s space sign digits rest ∧ digitsVal digits < 2 ^ 64 ∧
      n = BitVec.ofInt 64 (signedVal sign digits) := by
  constructor
  · intro read
    simp only [stoul] at read
    split_ifs at read with none_found range minus
    all_goals
      obtain ⟨space, sign, rest, found⟩ := exists_integerPrefix none_found
      refine ⟨space, sign, _, rest, found, range, ?_⟩
      have negative := congrArg Prod.fst found.scanInteger
      cases read
      simp_all [signedVal, BitVec.ofInt_neg]
  · intro number
    obtain ⟨space, sign, digits, rest, found, range, rfl⟩ := number
    simp only [stoul, found.scanInteger, if_neg found.some_digit, if_pos range, decide_eq_true_eq]
    by_cases minus : sign = [45]
    · simp [signedVal, minus, BitVec.ofInt_neg]
    · simp [signedVal, minus]

theorem stoi_digits {ds : Bytes} (digits : ∀ c ∈ ds, isDigit c = true) :
    stoi ds = if ds = [] then .error .invalidArgument
      else if digitsVal ds < 2 ^ 31 then .ok (BitVec.ofNat 32 (digitsVal ds))
      else .error .outOfRange := by
  simp only [stoi, scanInteger_digits digits, Bool.false_eq_true, if_false, narrow_ofNat]

theorem stoi_nil : stoi [] = .error .invalidArgument := rfl

theorem stoi_decimal {n : Nat} (small : n < 2 ^ 31) :
    stoi (decimal n) = .ok (BitVec.ofNat 32 n) := by
  rw [stoi_digits (decimal_isDigit n), if_neg (decimal_ne_nil n), digitsVal_decimal, if_pos small]

/-! ## Lines -/

/-- `'\n'`. -/
def newline : UInt8 := 10

/-- The lines that successive calls of `getline` return. -/
def getlines : Bytes → List Bytes
  | [] => []
  | c :: cs =>
      if c = newline then [] :: getlines cs
      else
        match getlines cs with
        | [] => [[c]]
        | line :: lines => (c :: line) :: lines

/-- A last line without newline is reported unless it is empty. -/
theorem getlines_last {line : Bytes} (h : newline ∉ line) :
    getlines line = if line = [] then [] else [line] := by
  induction line with
  | nil => rfl
  | cons c cs ih =>
      have hc : c ≠ newline := fun e => h (e ▸ List.mem_cons_self)
      rw [getlines, if_neg hc, ih (fun m => h (List.mem_cons_of_mem c m))]
      cases cs <;> rfl

end CString
