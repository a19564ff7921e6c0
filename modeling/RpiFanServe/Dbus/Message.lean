import RpiFanServe.Foundation.CString

/-! # Messages of the D-Bus helper

The text in which the helper hands a new life expectancy to the server:
`onCacheLifeExpectancyChanged` of dbus_server.cpp writes it and `parse_message` of
zmq_dbus_server.hpp reads it.  What the D-Bus object admits comes through unchanged,
over the narrowing from 64 to 32 bits.
-/

namespace RpiFanServe.Dbus

open CString

/-- `ZmqConstants::NEW_CACHE_LIFE_EXPECTANCY_KEY` -/
def newCacheLifeExpectancyKey : Bytes := utf8 "NCLE"

/-- The test of `RpiFanServeObject::setCacheLifeExpectancy`. -/
def invalidCacheLifeExpectancy (value : CLong) : Bool := value.toInt < 60 || value.toInt > 100000

/-- The message that `onCacheLifeExpectancyChanged` queues. -/
def cacheLifeExpectancyMessage (newValue : CLong) : Bytes :=
  newCacheLifeExpectancyKey ++ utf8 ":" ++ CString.toString newValue.toInt

/-- `ZmqDbusServer::ParseMessageResult` -/
inductive ParseMessageResult where
  | cacheLifeExpectancyMessage (value : CInt)
  | none
  deriving DecidableEq

/-- `ZmqDbusServer::parse_message`; the handler takes both exceptions of `stoi`. -/
def parseMessage (msg : Bytes) : ParseMessageResult :=
  if msg.take 5 = utf8 "NCLE:" then
    let valueStr := msg.drop 5
    match stoi valueStr with
    | .ok value => .cacheLifeExpectancyMessage value
    | .error _ => .none
  else .none

/-- The argument with which `CtrlDbusServer::receiveCallback` calls
    `TempsCtrl::setCacheLifeExpectancy`, if it does. -/
def receiveCallback (msg : Bytes) : Option CInt :=
  match parseMessage msg with
  | .cacheLifeExpectancyMessage value => some value
  | .none => none

/-- The text of the greeting that the client sends when it has connected. -/
def greeting : Bytes := utf8 "hello world from client!"

theorem receiveCallback_greeting : receiveCallback greeting = none := by
  decide

theorem valid_iff {value : CLong} :
    invalidCacheLifeExpectancy value = false ↔ 60 ≤ value.toInt ∧ value.toInt ≤ 100000 := by
  unfold invalidCacheLifeExpectancy
  rw [Bool.or_eq_false_iff, decide_eq_false_iff_not, decide_eq_false_iff_not]
  omega

theorem receiveCallback_message {value : CLong} (valid : invalidCacheLifeExpectancy value = false) :
    ∃ narrow, receiveCallback (cacheLifeExpectancyMessage value) = some narrow ∧
      narrow.toInt = value.toInt := by
  have range := valid_iff.mp valid
  obtain ⟨n, natural⟩ : ∃ n : Nat, value.toInt = n := ⟨value.toInt.toNat, by omega⟩
  have text : CString.toString value.toInt = decimal n := by
    unfold CString.toString
    rw [natural, if_neg (by omega), Int.natAbs_natCast]
  have small : n < 2 ^ 31 := by omega
  refine ⟨BitVec.ofNat 32 n, ?_, by rw [CInt.toInt_ofNat small, natural]⟩
  have parsed : parseMessage (cacheLifeExpectancyMessage value) =
      .cacheLifeExpectancyMessage (BitVec.ofNat 32 n) := by
    unfold parseMessage cacheLifeExpectancyMessage
    have key : newCacheLifeExpectancyKey ++ utf8 ":" = utf8 "NCLE:" := by decide
    have five : (utf8 "NCLE:").length = 5 := by decide
    rw [key, text, List.take_left' five, if_pos rfl, List.drop_left' five]
    simp only [stoi_decimal small]
  unfold receiveCallback
  rw [parsed]

/-! ## Which messages are read -/

/-- The message format: the key, an optional minus sign and a number in `int`. -/
def Formatted (msg : Bytes) (value : CInt) : Prop :=
  ∃ sign digits, msg = utf8 "NCLE:" ++ sign ++ digits ∧ (sign = [] ∨ sign = [45]) ∧ digits ≠ [] ∧
    (∀ c ∈ digits, isDigit c = true) ∧ value.toInt = signedVal sign digits

/-- A number in `int` behind the key, with something that `stoi` passes over: white
    space before it, a plus sign, or anything that follows it. -/
def Loose (msg : Bytes) : Prop :=
  ∃ space sign digits rest, IntegerPrefix (msg.drop 5) space sign digits rest ∧
    msg.take 5 = utf8 "NCLE:" ∧ (-2 ^ 31 ≤ signedVal sign digits ∧ signedVal sign digits < 2 ^ 31) ∧
    (space ≠ [] ∨ sign = [43] ∨ rest ≠ [])

/-- `parse_message` reads the message as the format says. -/
def ParsesExactly (msg : Bytes) : Prop :=
  (∀ value, parseMessage msg = .cacheLifeExpectancyMessage value ↔ Formatted msg value) ∧
  ((¬ ∃ value, Formatted msg value) → parseMessage msg = .none)

/-- Every message is answered: by the number at the start of what follows the key,
    or by `NONE`. -/
theorem parseMessage_eq_some {msg : Bytes} {value : CInt} :
    parseMessage msg = .cacheLifeExpectancyMessage value ↔
      msg.take 5 = utf8 "NCLE:" ∧ ∃ space sign digits rest,
        IntegerPrefix (msg.drop 5) space sign digits rest ∧ value.toInt = signedVal sign digits := by
  rw [← stoi_eq_ok]
  simp only [parseMessage]
  split_ifs with key
  · cases stoi (msg.drop 5) with
    | ok read => simp [key]
    | error fault => simp
  · simp [key]

theorem Formatted.split {msg : Bytes} {value : CInt} (formatted : Formatted msg value) :
    ∃ sign digits, (sign = [] ∨ sign = [45]) ∧ msg.take 5 = utf8 "NCLE:" ∧
      IntegerPrefix (msg.drop 5) [] sign digits [] ∧ value.toInt = signedVal sign digits := by
  obtain ⟨sign, digits, rfl, signed, some_digit, run, number⟩ := formatted
  have five : (utf8 "NCLE:").length = 5 := by decide
  refine ⟨sign, digits, signed, ?_, ?_, number⟩
  · rw [List.append_assoc, List.take_left' five]
  · rw [List.append_assoc, List.drop_left' five]
    exact {
      split := by simp
      blank := by simp
      signed := by rcases signed with rfl | rfl <;> simp
      some_digit := some_digit
      run := run
      maximal := by simp }

theorem formatted_of_split {msg sign digits : Bytes} {value : CInt}
    (key : msg.take 5 = utf8 "NCLE:") (found : IntegerPrefix (msg.drop 5) [] sign digits [])
    (unplussed : sign ≠ [43]) (number : value.toInt = signedVal sign digits) :
    Formatted msg value := by
  refine ⟨sign, digits, ?_, ?_, found.some_digit, found.run, number⟩
  · have split := found.split
    rw [List.append_nil, List.nil_append] at split
    rw [List.append_assoc, ← split, ← key, List.take_append_drop]
  · rcases found.signed with empty | plus | minus
    · exact .inl empty
    · exact absurd plus unplussed
    · exact .inr minus

theorem Loose.misread {msg : Bytes} (loose : Loose msg) :
    ∃ value, parseMessage msg = .cacheLifeExpectancyMessage value ∧ ¬ Formatted msg value := by
  obtain ⟨space, sign, digits, rest, found, key, range, extra⟩ := loose
  have value : (BitVec.ofInt 32 (signedVal sign digits)).toInt = signedVal sign digits :=
    narrow_eq_ok.mp (by rw [narrow, if_pos range])
  refine ⟨_, parseMessage_eq_some.mpr ⟨key, space, sign, digits, rest, found, value⟩, ?_⟩
  intro formatted
  obtain ⟨sign', digits', signed, -, found', -⟩ := formatted.split
  obtain ⟨rfl, rfl, rfl, rfl⟩ := found.unique found'
  rcases extra with blank | plus | trailing
  · exact blank rfl
  · rcases signed with rfl | rfl <;> cases plus
  · exact trailing rfl

theorem formatted_of_strict {msg : Bytes} {value : CInt} (strict : ¬ Loose msg)
    (read : parseMessage msg = .cacheLifeExpectancyMessage value) : Formatted msg value := by
  obtain ⟨key, space, sign, digits, rest, found, number⟩ := parseMessage_eq_some.mp read
  have low : -2 ^ 31 ≤ value.toInt := BitVec.le_toInt value
  have high : value.toInt < 2 ^ 31 := BitVec.toInt_lt
  by_contra unformatted
  apply strict
  refine ⟨space, sign, digits, rest, found, key, by omega, ?_⟩
  by_contra plain
  push Not at plain
  obtain ⟨rfl, unplussed, rfl⟩ := plain
  exact unformatted (formatted_of_split key found unplussed number)

theorem Formatted.read {msg : Bytes} {value : CInt} (formatted : Formatted msg value) :
    parseMessage msg = .cacheLifeExpectancyMessage value := by
  obtain ⟨sign, digits, -, key, found, number⟩ := formatted.split
  exact parseMessage_eq_some.mpr ⟨key, [], sign, digits, [], found, number⟩

/-- A message is read as the format says exactly when it is not a number with
    something that `stoi` passes over. -/
theorem parsesExactly_iff (msg : Bytes) : ParsesExactly msg ↔ ¬ Loose msg := by
  constructor
  · intro exactly loose
    obtain ⟨value, read, unformatted⟩ := loose.misread
    exact unformatted ((exactly.1 value).mp read)
  · intro strict
    refine ⟨fun value => ⟨formatted_of_strict strict, Formatted.read⟩, ?_⟩
    intro other
    cases answer : parseMessage msg with
    | none => rfl
    | cacheLifeExpectancyMessage value =>
        exact absurd ⟨value, formatted_of_strict strict answer⟩ other

/-- What follows the number is passed over. -/
theorem not_parsesExactly_trailing : ¬ ParsesExactly (utf8 "NCLE:60abc") := by
  intro exactly
  have read : parseMessage (utf8 "NCLE:60abc") = .cacheLifeExpectancyMessage 60 := by decide
  obtain ⟨sign, digits, split, signed, -, run, -⟩ := (exactly.1 60).mp read
  have letter : (97 : UInt8) ∈ utf8 "NCLE:" ++ sign ++ digits := by
    rw [← split]
    decide
  simp only [List.mem_append] at letter
  rcases letter with (key | inside) | inside
  · exact absurd key (by decide)
  · rcases signed with rfl | rfl <;> simp at inside
  · exact absurd (run 97 inside) (by decide)

end RpiFanServe.Dbus
