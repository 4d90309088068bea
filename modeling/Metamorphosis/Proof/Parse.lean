import Mathlib.Algebra.Group.Int.Defs
import Mathlib.Tactic.Common
import Metamorphosis.Construction.Parse

/-!
What the texts of endpoints, durations and intervals stand for. A duration is exact as long as it fits into 63
bits, and an endpoint is read back from its own text.
-/

namespace Metamorphosis
open TextStream

/-- A numeral: decimal digits and at least one of them. -/
structure Numeral (digits : List Char) : Prop where
  all : ∀ c ∈ digits, c.isDigit = true
  any : digits ≠ []

/-- The number that a numeral stands for. -/
abbrev numeralValue (digits : List Char) : Nat := Nat.ofDigitChars 10 digits 0

/-- A printed number is a numeral. -/
theorem numeral_decimal (value : Nat) : Numeral (Nat.toDigits 10 value) where
  all _ member := Nat.isDigit_of_mem_toDigits (by decide) (by decide) member
  any := Nat.toDigits_ne_nil

/-- It has the value of the number. -/
theorem numeralValue_decimal (value : Nat) : numeralValue (Nat.toDigits 10 value) = value :=
  Nat.ofDigitChars_ten_toDigits

section Durations

/-- A product wraps around into the negative numbers. -/
theorem toInt64_toInt (x : UInt64) :
    x.toInt64.toInt = if x.toNat < 2 ^ 63 then (x.toNat : Int) else x.toNat - 2 ^ 64 := by
  change x.toBitVec.toInt = _
  rw [BitVec.toInt_eq_toNat_cond]
  change (if 2 * x.toNat < 2 ^ 64 then _ else _) = _
  by_cases small : x.toNat < 2 ^ 63
  · rw [if_pos small, if_pos (by omega)]
    rfl
  · rw [if_neg small, if_neg (by omega)]
    rfl

/-- A product is exact only below 2 ^ 63. -/
theorem toInt64_toInt_eq (x : UInt64) (count : Nat) :
    x.toInt64.toInt = count ↔ x.toNat = count ∧ count < 2 ^ 63 := by
  rw [toInt64_toInt]
  have bounded := x.toNat_lt
  by_cases small : x.toNat < 2 ^ 63
  · rw [if_pos small]
    omega
  · rw [if_neg small]
    omega

/-- A suffix is a word of letters. -/
theorem suffix_letters {suffix : List Char} {unit : UInt64} (known : (suffix, unit) ∈ suffixes) :
    suffixes.lookup suffix = some unit ∧ 0 < unit.toNat ∧ suffix ≠ [] ∧
      ∀ c ∈ suffix, c.isDigit = false ∧ c.isBlank = false := by
  have all : ∀ entry ∈ suffixes, suffixes.lookup entry.1 = some entry.2 ∧ 0 < entry.2.toNat ∧ entry.1 ≠ [] ∧
      (entry.1.all fun c => !c.isDigit && !c.isBlank) = true := by decide
  obtain ⟨found, positive, nonempty, letters⟩ := all _ known
  refine ⟨found, positive, nonempty, fun c member => ?_⟩
  simpa using List.all_eq_true.mp letters c member

/-- No suffix contains a dash. -/
theorem suffix_dash {suffix : List Char} {unit : UInt64} (known : (suffix, unit) ∈ suffixes) : '-' ∉ suffix := by
  have absent : ∀ entry ∈ suffixes, '-' ∉ entry.1 := by decide
  exact absent _ known

/-- A text with a numeral and a unit. Blanks and a sign may stand before the numeral, blanks before the unit,
and anything behind it that begins with a blank. -/
structure DurationText where
  blanks : List Char
  sign : Sign
  digits : List Char
  gap : List Char
  suffix : List Char
  rest : List Char
  unit : UInt64
  numeral : Numeral digits
  known : (suffix, unit) ∈ suffixes
  blanks_blank : ∀ c ∈ blanks, c.isBlank = true
  gap_blank : ∀ c ∈ gap, c.isBlank = true
  rest_blank : ∀ c ∈ rest.head?, c.isBlank = true

namespace DurationText

/-- A numeral that is followed by its unit and nothing else. -/
def plain (digits suffix : List Char) (unit : UInt64) (numeral : Numeral digits)
    (known : (suffix, unit) ∈ suffixes) : DurationText :=
  ⟨[], .none, digits, [], suffix, [], unit, numeral, known, by simp, by simp, by simp⟩

def text (duration : DurationText) : List Char :=
  duration.blanks ++ (duration.sign.text ++
    (duration.digits ++ (duration.gap ++ duration.suffix ++ duration.rest)))

/-- A plain duration is its digits and its suffix. -/
theorem plain_text (digits suffix : List Char) (unit : UInt64) (numeral : Numeral digits)
    (known : (suffix, unit) ∈ suffixes) : (plain digits suffix unit numeral known).text = digits ++ suffix := by
  simp [plain, text, Sign.text]

/-- A plain duration contains no dash. -/
theorem plain_dash (digits suffix : List Char) (unit : UInt64) (numeral : Numeral digits)
    (known : (suffix, unit) ∈ suffixes) : '-' ∉ (plain digits suffix unit numeral known).text := by
  rw [plain_text, List.mem_append]
  rintro (member | member)
  · cases numeral.all _ member
  · exact suffix_dash known member

abbrev value (duration : DurationText) : Nat := numeralValue duration.digits

/-- The unsigned value that is read. -/
abbrev unsigned (duration : DurationText) : Nat :=
  if duration.sign.negative then (2 ^ 64 - duration.value) % 2 ^ 64 else duration.value

/-- What the text stands for. -/
def microseconds (duration : DurationText) : Nat := duration.value * duration.unit.toNat

/-- The numeral can be read and the number of microseconds fits into the signed type. -/
def InRange (duration : DurationText) : Prop :=
  (duration.sign = .minus → duration.value = 0) ∧ duration.microseconds < 2 ^ 63

variable (duration : DurationText)

/-- Every unit is positive. -/
theorem unit_pos : 0 < duration.unit.toNat := (suffix_letters duration.known).2.1

/-- What comes after the digits does not start with a digit. -/
theorem tail_not_digit : ∀ c ∈ (duration.gap ++ duration.suffix ++ duration.rest).head?, c.isDigit = false := by
  obtain ⟨_, _, any, letters⟩ := suffix_letters duration.known
  intro c first
  cases gap : duration.gap with
  | nil =>
      obtain ⟨letter, word, shape⟩ := List.exists_cons_of_ne_nil any
      rw [gap, shape] at first
      cases first
      exact (letters c (by simp [shape])).1
  | cons blank others =>
      rw [gap] at first
      cases first
      have spaces := duration.gap_blank c (by simp [gap])
      by_contra digit
      rw [isBlank_of_isDigit (by simpa using digit)] at spaces
      cases spaces

/-- The text of a duration is a numeral with something behind it. -/
theorem shape : NumeralText duration.text duration.blanks duration.sign duration.digits
    (duration.gap ++ duration.suffix ++ duration.rest) :=
  ⟨rfl, duration.blanks_blank, duration.numeral.all, duration.numeral.any, duration.tail_not_digit⟩

/-- The product wraps around, and a numeral that is too long takes the unit with it. -/
theorem readDuration_text (old : Duration) :
    readDuration (.ofText duration.text) old =
      if duration.value < 2 ^ 64 then
        (.ok ⟨duration.rest, duration.rest.isEmpty, false⟩, (UInt64.ofNat duration.unsigned * duration.unit).toInt64)
      else (.error (.invalidArgument "invalid duration suffix: ".toList), old) := by
  obtain ⟨found, _, any, letters⟩ := suffix_letters duration.known
  have number := readUnsigned_numeral 64 0 duration.shape
  by_cases fits : duration.value < 2 ^ 64
  · rw [if_pos fits] at number
    rw [if_pos fits]
    obtain ⟨letter, word, shape⟩ := List.exists_cons_of_ne_nil any
    have named := readWord_block duration.gap_blank (fun c member => (letters c (shape ▸ member)).2)
      duration.rest_blank
    have more : (duration.gap ++ duration.suffix ++ duration.rest).isEmpty = false := by simp [shape]
    rw [← shape] at named
    simp only [readDuration, number, more]
    rw [← ofText, named]
    simp only [found]
  · rw [if_neg fits] at number
    rw [if_neg fits]
    simp only [readDuration, number]
    rw [readWord_failed rfl]
    rfl

/-- A read that throws or that yields the value of the text. -/
def Exact (result : Except ParseException TextStream × Duration) : Prop :=
  (∃ exception, result.1 = .error exception) ∨
    (∃ stream, result.1 = .ok stream) ∧ result.2.toInt = duration.microseconds

/-- The product is the duration exactly if it fits into 64 bits with a sign. -/
theorem product_exact (fits : duration.value < 2 ^ 64) :
    (UInt64.ofNat duration.unsigned * duration.unit).toInt64.toInt = duration.microseconds ↔ duration.InRange := by
  have positive := duration.unit_pos
  have wraps : (UInt64.ofNat duration.unsigned * duration.unit).toNat =
      duration.unsigned * duration.unit.toNat % 2 ^ 64 := by
    rw [UInt64.toNat_mul, UInt64.toNat_ofNat', Nat.mod_mul_mod]
  rw [toInt64_toInt_eq, wraps, InRange]
  cases sign : duration.sign with
  | minus =>
      by_cases zero : duration.value = 0
      · simp [unsigned, sign, Sign.negative, zero, microseconds]
      · have unsigned_eq : duration.unsigned = 2 ^ 64 - duration.value := by
          rw [unsigned, sign]
          exact Nat.mod_eq_of_lt (by omega)
        -- The wrapped product and the exact one add up to a multiple of `2 ^ 64`, so they cannot be equal.
        have sum : (2 ^ 64 - duration.value) * duration.unit.toNat + duration.microseconds =
            2 ^ 64 * duration.unit.toNat := by
          rw [microseconds, ← Nat.add_mul, Nat.sub_add_cancel (Nat.le_of_lt fits)]
        have some : 0 < duration.microseconds := Nat.mul_pos (Nat.pos_of_ne_zero zero) positive
        simp only [unsigned_eq, zero, imp_false, not_true, false_and, iff_false, not_and]
        omega
  | _ =>
      have unsigned_eq : duration.unsigned = duration.value := by
        rw [unsigned, sign, if_neg (by decide)]
      rw [unsigned_eq]
      simp only [reduceCtorEq, false_implies, true_and, and_iff_right_iff_imp]
      intro small
      exact Nat.mod_eq_of_lt (Nat.lt_trans small (by decide))

/-- The parser is exact if the numeral is out of range, which is an error, or the product fits. -/
theorem exact_iff (old : Duration) :
    duration.Exact (readDuration (.ofText duration.text) old) ↔ 2 ^ 64 ≤ duration.value ∨ duration.InRange := by
  rw [readDuration_text]
  by_cases fits : duration.value < 2 ^ 64
  · rw [if_pos fits, ← product_exact duration fits]
    simp only [Exact, reduceCtorEq, exists_false, false_or, Nat.not_le.mpr fits, Except.ok.injEq, exists_eq', true_and]
  · rw [if_neg fits]
    simp only [Exact, Nat.le_of_not_lt fits, Except.error.injEq, exists_eq', true_or]

/-- Every text that is accepted is such a text. -/
theorem of_accepted {text : List Char} {old : Duration} {stream : TextStream}
    (accepted : (readDuration (.ofText text) old).1 = .ok stream) : ∃ duration : DurationText, duration.text = text := by
  cases number : (ofText text).readUnsigned 64 0 with
  | mk value behind =>
  cases found : suffixes.lookup behind.readWord.1 with
  | none => simp [readDuration, number, found] at accepted
  | some unit =>
      have any : behind.readWord.1 ≠ [] := by
        intro empty
        rw [empty] at found
        cases found
      obtain ⟨gap, word, rest, rfl, named, gap_blank, _, rest_blank⟩ := readWord_succeeded any
      have success : ((ofText text).readUnsigned 64 0).2.fail = false := by rw [number]; rfl
      obtain ⟨blanks, sign, digits, tail, shape⟩ := readUnsigned_succeeded success
      rw [readUnsigned_numeral 64 0 shape] at number
      have same : tail = gap ++ word ++ rest := by
        split at number
        · exact congrArg (fun result => result.2.rest) number
        · exact congrArg (fun result => result.2.rest) number
      rw [named] at found
      have known : (word, unit) ∈ suffixes := by
        obtain ⟨front, back, split, _⟩ := List.lookup_eq_some_iff.mp found
        rw [split]
        simp
      have numeral : Numeral digits := ⟨shape.numeral, shape.any⟩
      exact ⟨⟨blanks, sign, digits, gap, word, rest, unit, numeral, known, shape.spaces, gap_blank, rest_blank⟩,
        same ▸ shape.text_eq.symm⟩

end DurationText

/-- A read that throws or that yields the values of both texts. -/
def IntervalExact (first second : DurationText) (result : Except ParseException Unit × Interval) : Prop :=
  (∃ exception, result.1 = .error exception) ∨
    result.1 = .ok () ∧ result.2.start.toInt = first.microseconds ∧ result.2.stop.toInt = second.microseconds

/-- An interval is read exactly if both of its ends are. -/
theorem intervalExact_iff {first second : DurationText} (split : '-' ∉ first.text) (old : Interval) :
    IntervalExact first second (readInterval (first.text ++ '-' :: second.text) old) ↔
      2 ^ 64 ≤ first.value ∨ 2 ^ 64 ≤ second.value ∨ first.InRange ∧ second.InRange := by
  rw [readInterval, List.splitFirst_append split]
  simp only [DurationText.readDuration_text]
  by_cases fits : first.value < 2 ^ 64
  · rw [if_pos fits]
    by_cases fits' : second.value < 2 ^ 64
    · rw [if_pos fits', ← first.product_exact fits, ← second.product_exact fits']
      simp only [IntervalExact, reduceCtorEq, exists_false, false_or, Nat.not_le.mpr fits, Nat.not_le.mpr fits',
        true_and]
    · rw [if_neg fits']
      simp only [IntervalExact, Nat.le_of_not_lt fits', Except.error.injEq, exists_eq', true_or, or_true]
  · rw [if_neg fits]
    simp only [IntervalExact, Nat.le_of_not_lt fits, Except.error.injEq, exists_eq', true_or]

/-- An accepted interval has two durations with a dash between them. -/
theorem readInterval_accepted {text : List Char} {old : Interval} (accepted : (readInterval text old).1 = .ok ()) :
    ∃ first second : DurationText, '-' ∉ first.text ∧ text = first.text ++ '-' :: second.text := by
  unfold readInterval at accepted
  split at accepted
  · cases accepted
  · rename_i front back split
    obtain ⟨rfl, absent⟩ := List.splitFirst_some.mp split
    split at accepted
    · cases accepted
    · rename_i start first_read
      split at accepted
      · cases accepted
      · rename_i stop second_read
        obtain ⟨first, rfl⟩ := DurationText.of_accepted (congrArg Prod.fst first_read)
        obtain ⟨second, rfl⟩ := DurationText.of_accepted (congrArg Prod.fst second_read)
        exact ⟨first, second, absent, rfl⟩

/-- Durations and intervals are exact as long as they fit into the signed type. The texts of the statement are
all the texts that are accepted. -/
theorem duration_exact (duration other : DurationText) (old : Duration) (oldInterval : Interval) :
    (duration.Exact (readDuration (.ofText duration.text) old) ↔ 2 ^ 64 ≤ duration.value ∨ duration.InRange) ∧
    (∀ (text : List Char) (stream : TextStream), (readDuration (.ofText text) old).1 = .ok stream →
      ∃ accepted : DurationText, accepted.text = text) ∧
    ('-' ∉ duration.text →
      (IntervalExact duration other (readInterval (duration.text ++ '-' :: other.text) oldInterval) ↔
        2 ^ 64 ≤ duration.value ∨ 2 ^ 64 ≤ other.value ∨ duration.InRange ∧ other.InRange)) ∧
    (∀ text : List Char, (readInterval text oldInterval).1 = .ok () →
      ∃ first second : DurationText, '-' ∉ first.text ∧ text = first.text ++ '-' :: second.text) ∧
    ∀ (digits suffix : List Char) (unit : UInt64) (numeral : Numeral digits) (known : (suffix, unit) ∈ suffixes),
      (DurationText.plain digits suffix unit numeral known).text = digits ++ suffix ∧
        '-' ∉ (DurationText.plain digits suffix unit numeral known).text :=
  ⟨duration.exact_iff old, fun _ _ => DurationText.of_accepted, fun split => intervalExact_iff split oldInterval,
    fun _ => readInterval_accepted,
    fun digits suffix unit numeral known => ⟨DurationText.plain_text digits suffix unit numeral known,
      DurationText.plain_dash digits suffix unit numeral known⟩⟩

theorem numeral_of_decide {digits : List Char} (all : digits.all Char.isDigit = true) (any : digits ≠ []) :
    Numeral digits := ⟨List.all_eq_true.mp all, any⟩

/-- The largest numeral that can be read stands for minus one microsecond. -/
theorem duration_wraps :
    ¬ ∀ (digits suffix : List Char) (unit : UInt64) (numeral : Numeral digits) (known : (suffix, unit) ∈ suffixes)
      (old : Duration), (DurationText.plain digits suffix unit numeral known).Exact
        (readDuration (.ofText (digits ++ suffix)) old) := by
  intro exact
  have numeral : Numeral "18446744073709551615".toList := numeral_of_decide (by decide) (by decide)
  rcases exact _ "us".toList 1 numeral (by decide) 0 with ⟨exception, thrown⟩ | ⟨_, same⟩
  · have accepted : (readDuration (.ofText ("18446744073709551615".toList ++ "us".toList)) 0).1 =
        .ok ⟨[], true, false⟩ := by decide +kernel
    rw [accepted] at thrown
    cases thrown
  · have wrapped : (readDuration (.ofText ("18446744073709551615".toList ++ "us".toList)) 0).2 = -1 := by
      decide +kernel
    have negative : (-1 : Int64).toInt < 0 := by decide
    rw [wrapped] at same
    omega

end Durations

section Endpoints

/-- The number that a signed numeral stands for. -/
def signedValue (sign : Sign) (digits : List Char) : Int :=
  if sign.negative then -(numeralValue digits) else numeralValue digits

/-- `std::stoi` gives the value of a numeral that fits into 32 bits. -/
theorem stoi_numeral {text blanks digits junk : List Char} {sign : Sign}
    (shape : NumeralText text blanks sign digits junk) :
    stoi text =
      if signedValue sign digits < -2147483648 ∨ 2147483647 < signedValue sign digits then
        .error (.outOfRange "stoi".toList)
      else .ok (signedValue sign digits) := by
  obtain ⟨first, others, solid, rfl, signed⟩ := shape.skipped
  have skipped : (blanks ++ first :: others).dropWhile Char.isBlank = first :: others :=
    List.dropWhile_block shape.spaces (by simp [solid])
  have taken := List.takeWhile_block shape.numeral shape.stops
  simp only [stoi, skipped, signed, taken, if_neg shape.any]
  rfl

/-- `std::stoi` accepts only texts that start with a numeral. -/
theorem stoi_accepted {text : List Char} {value : Int} (accepted : stoi text = .ok value) :
    ∃ blanks sign digits junk, NumeralText text blanks sign digits junk := by
  rcases NumeralText.exists_or text with shape | bare
  · exact shape
  · simp [stoi, bare] at accepted

/-- An address, a colon and a numeral for the port. -/
def EndpointText (text : List Char) (endpoint : Endpoint) : Prop :=
  ∃ digits, Numeral digits ∧ text = endpoint.address ++ ':' :: digits ∧ numeralValue digits = endpoint.port.toNat

/-- A port with something around its numeral: blanks or a sign before it or anything behind it. -/
def LoosePort (portText : List Char) : Prop :=
  ∃ blanks sign digits junk, NumeralText portText blanks sign digits junk ∧
    ¬(blanks = [] ∧ sign = .none ∧ junk = []) ∧ 0 ≤ signedValue sign digits ∧ signedValue sign digits ≤ 65535

/-- A port that fits is the number that was read. -/
theorem port_toNat {value : Int} (low : 0 ≤ value) (high : value ≤ 65535) :
    (UInt16.ofInt value).toNat = value.toNat := by
  obtain ⟨port, rfl⟩ := Int.eq_ofNat_of_zero_le low
  rw [UInt16.ofInt, UInt16.toNat_ofNat']
  omega

/-- What the parser accepts, and what it makes of it. -/
theorem readEndpoint_iff {text : List Char} {old endpoint : Endpoint} :
    readEndpoint text old = (.ok (), endpoint) ↔
      ∃ portText value, text = endpoint.address ++ ':' :: portText ∧ ':' ∉ portText ∧ stoi portText = .ok value ∧
        0 ≤ value ∧ value ≤ 65535 ∧ endpoint.port.toNat = value.toNat := by
  constructor
  · intro accepted
    unfold readEndpoint at accepted
    split at accepted
    · cases accepted
    · rename_i address portText split
      obtain ⟨rfl, last⟩ := List.splitLast_some.mp split
      split at accepted
      · cases accepted
      · rename_i value number
        split at accepted
        · cases accepted
        · rename_i range
          cases accepted
          exact ⟨portText, value, rfl, last, number, by omega, by omega, port_toNat (by omega) (by omega)⟩
  · rintro ⟨portText, value, rfl, last, number, low, high, port⟩
    have same : UInt16.ofInt value = endpoint.port := by
      apply UInt16.toNat_inj.mp
      rw [port_toNat low high, port]
    have range : ¬(value < 0 ∨ 65535 < value) := by omega
    simp only [readEndpoint, List.splitLast_some.mpr ⟨rfl, last⟩, number, if_neg range, same]

/-- A text is accepted, or an exception leaves the endpoint as it was. -/
theorem readEndpoint_rejected (text : List Char) (old : Endpoint) :
    (∃ endpoint, readEndpoint text old = (.ok (), endpoint)) ∨
      ∃ exception, readEndpoint text old = (.error exception, old) := by
  unfold readEndpoint
  split
  · exact Or.inr ⟨_, rfl⟩
  · split
    · exact Or.inr ⟨_, rfl⟩
    · split
      · exact Or.inr ⟨_, rfl⟩
      · exact Or.inl ⟨_, rfl⟩

/-- No numeral contains a colon. -/
theorem Numeral.colon {digits : List Char} (numeral : Numeral digits) : ':' ∉ digits := by
  intro member
  cases numeral.all _ member

theorem Numeral.shape {digits : List Char} (numeral : Numeral digits) : NumeralText digits [] .none digits [] :=
  ⟨by simp [Sign.text], by simp, numeral.all, numeral.any, by simp⟩

/-- A port in range without anything around its numeral is read. -/
theorem stoi_port {digits : List Char} (numeral : Numeral digits) (range : numeralValue digits ≤ 65535) :
    stoi digits = .ok (numeralValue digits) := by
  rw [stoi_numeral numeral.shape, if_neg]
  · rfl
  · change ¬((numeralValue digits : Int) < -2147483648 ∨ 2147483647 < (numeralValue digits : Int))
    omega

/-- A well-formed text is accepted. -/
theorem EndpointText.accepted {text : List Char} {endpoint : Endpoint} (format : EndpointText text endpoint)
    (old : Endpoint) : readEndpoint text old = (.ok (), endpoint) := by
  obtain ⟨digits, numeral, rfl, port⟩ := format
  have range : numeralValue digits ≤ 65535 := by
    rw [port]
    exact Nat.le_of_lt_succ endpoint.port.toNat_lt
  exact readEndpoint_iff.mpr ⟨digits, numeralValue digits, rfl, numeral.colon, stoi_port numeral range, by omega,
    by omega, port.symm⟩

/-- A printed endpoint is well-formed. -/
theorem Endpoint.toText_format (endpoint : Endpoint) : EndpointText endpoint.toText endpoint :=
  ⟨_, numeral_decimal _, rfl, numeralValue_decimal _⟩

/-- A text whose port has something around its numeral. -/
def LooseText (text : List Char) : Prop :=
  ∃ address portText, text = address ++ ':' :: portText ∧ ':' ∉ portText ∧ LoosePort portText

/-- An accepted text is well-formed or loose. -/
theorem accepted_or_loose {text : List Char} {old endpoint : Endpoint}
    (accepted : readEndpoint text old = (.ok (), endpoint)) : EndpointText text endpoint ∨ LooseText text := by
  obtain ⟨portText, value, rfl, last, number, low, high, port⟩ := readEndpoint_iff.mp accepted
  obtain ⟨blanks, sign, digits, junk, shape⟩ := stoi_accepted number
  rw [stoi_numeral shape] at number
  have same : signedValue sign digits = value := by
    split at number
    · cases number
    · exact Except.ok.inj number
  by_cases bare : blanks = [] ∧ sign = .none ∧ junk = []
  · obtain ⟨rfl, rfl, rfl⟩ := bare
    refine Or.inl ⟨digits, ⟨shape.numeral, shape.any⟩, ?_, ?_⟩
    · rw [shape.text_eq]
      simp [Sign.text]
    · rw [port, ← same]
      rfl
  · exact Or.inr ⟨endpoint.address, portText, rfl, last, blanks, sign, digits, junk, shape, bare, same ▸ low,
      same ▸ high⟩

/-- Nothing stands around a numeral in a text of digits. -/
theorem bare_of_digits {text blanks digits junk : List Char} {sign : Sign}
    (shape : NumeralText text blanks sign digits junk) (all : ∀ c ∈ text, c.isDigit = true) :
    blanks = [] ∧ sign = .none ∧ junk = [] := by
  rw [shape.text_eq] at all
  simp only [List.mem_append] at all
  refine ⟨?_, ?_, ?_⟩
  · apply List.eq_nil_iff_forall_not_mem.mpr
    intro c member
    have solid := isBlank_of_isDigit (all c (Or.inl member))
    rw [shape.spaces c member] at solid
    cases solid
  · cases sign with
    | none => rfl
    | plus => cases all '+' (by simp [Sign.text])
    | minus => cases all '-' (by simp [Sign.text])
  · cases junk with
    | nil => rfl
    | cons c rest =>
        have digit := all c (by simp)
        rw [shape.stops c rfl] at digit
        cases digit

/-- A loose text is accepted although it is not well-formed. -/
theorem LooseText.not_format {text : List Char} (loose : LooseText text) (old : Endpoint) :
    ∃ endpoint, readEndpoint text old = (.ok (), endpoint) ∧ ¬EndpointText text endpoint := by
  obtain ⟨address, portText, rfl, last, blanks, sign, digits, junk, shape, around, low, high⟩ := loose
  refine ⟨⟨address, UInt16.ofInt (signedValue sign digits)⟩, ?_, ?_⟩
  · have range : ¬(signedValue sign digits < -2147483648 ∨ 2147483647 < signedValue sign digits) := by omega
    have number : stoi portText = .ok (signedValue sign digits) := by rw [stoi_numeral shape, if_neg range]
    exact readEndpoint_iff.mpr ⟨portText, _, rfl, last, number, low, high, port_toNat low high⟩
  · rintro ⟨plain, numeral, same, _⟩
    have tail := (List.cons.inj (List.append_cancel_left same)).2
    exact around (bare_of_digits shape fun c member => numeral.all c (tail ▸ member))

/-- Endpoints are read back from their texts, and other texts are accepted only if something stands around the
numeral of the port. -/
theorem endpoint_text (text : List Char) (endpoint old : Endpoint) :
    readEndpoint endpoint.toText old = (.ok (), endpoint) ∧
    ((∀ accepted, readEndpoint text old = (.ok (), accepted) ↔ EndpointText text accepted) ↔ ¬LooseText text) ∧
    ((∃ accepted, readEndpoint text old = (.ok (), accepted)) ∨
      ∃ exception, readEndpoint text old = (.error exception, old)) := by
  refine ⟨endpoint.toText_format.accepted old, ?_, readEndpoint_rejected text old⟩
  constructor
  · intro exact loose
    obtain ⟨endpoint, accepted, other⟩ := loose.not_format old
    exact other ((exact endpoint).mp accepted)
  · intro plain endpoint
    constructor
    · intro accepted
      exact (accepted_or_loose accepted).resolve_right plain
    · intro format
      exact format.accepted old

/-- A blank, a sign and a letter around the port are accepted. -/
theorem endpoint_loose :
    ¬ ∀ (text : List Char) (old endpoint : Endpoint),
      readEndpoint text old = (.ok (), endpoint) → EndpointText text endpoint := by
  intro exact
  have accepted : readEndpoint "a: +80x".toList ⟨[], 0⟩ = (.ok (), ⟨['a'], 80⟩) := by decide +kernel
  obtain ⟨digits, numeral, shape, _⟩ := exact _ _ _ accepted
  have digits_eq : " +80x".toList = digits := by simpa using shape
  rw [← digits_eq] at numeral
  cases numeral.all ' ' (by decide)

end Endpoints

end Metamorphosis
