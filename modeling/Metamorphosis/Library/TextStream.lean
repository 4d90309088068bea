import Mathlib.Algebra.Group.Nat.Defs
import Mathlib.Data.List.Basic

/-!
Text input as the standard streams of C++ do it. A formatted read skips blanks first, a read takes the longest
run of characters that fit, and nothing can be read from a stream that has failed or reached its end.
-/

/-- The blanks of the C locale. -/
def Char.isBlank (c : Char) : Bool :=
  c = ' ' || c = '\t' || c = '\n' || c = '\x0b' || c = '\x0c' || c = '\r'

namespace List
variable {p : Char → Bool} {block rest : List Char}

/-- A block of fitting characters that ends before one that does not fit. -/
theorem takeWhile_block (all : ∀ c ∈ block, p c = true) (stops : ∀ c ∈ rest.head?, p c = false) :
    (block ++ rest).takeWhile p = block := by
  rw [takeWhile_append_of_pos all]
  cases rest with
  | nil => rw [takeWhile_nil, append_nil]
  | cons c rest => rw [takeWhile_cons_of_neg (by simp [stops c rfl]), append_nil]

/-- A block is dropped as a whole. -/
theorem dropWhile_block (all : ∀ c ∈ block, p c = true) (stops : ∀ c ∈ rest.head?, p c = false) :
    (block ++ rest).dropWhile p = rest := by
  rw [dropWhile_append_of_pos all]
  cases rest with
  | nil => rfl
  | cons c rest => exact dropWhile_cons_of_neg (by simp [stops c rfl])

/-- Every text begins with such a block, which may be empty. -/
theorem exists_block (p : Char → Bool) (text : List Char) :
    ∃ block rest, text = block ++ rest ∧ (∀ c ∈ block, p c = true) ∧ ∀ c ∈ rest.head?, p c = false := by
  induction text with
  | nil => exact ⟨[], [], rfl, by simp, by simp⟩
  | cons c text ih =>
      by_cases fits : p c = true
      · obtain ⟨block, rest, rfl, all, stops⟩ := ih
        exact ⟨c :: block, rest, rfl, by simpa [fits] using all, stops⟩
      · exact ⟨[], c :: text, rfl, by simp, by simpa using fits⟩

/-- The parts of a text before and behind the last occurrence of a character. -/
def splitLast (mark : Char) : List Char → Option (List Char × List Char)
  | [] => none
  | c :: rest =>
      match splitLast mark rest with
      | some (before, after) => some (c :: before, after)
      | none => if c = mark then some ([], rest) else none

/-- Only a text without the mark cannot be split. -/
theorem splitLast_none {mark : Char} {text : List Char} : splitLast mark text = none ↔ mark ∉ text := by
  induction text with
  | nil => simp [splitLast]
  | cons c rest ih =>
      rw [splitLast]
      cases found : splitLast mark rest with
      | some parts =>
          have there : mark ∈ rest := by
            by_contra absent
            rw [ih.mpr absent] at found
            cases found
          simp [there]
      | none =>
          have absent := ih.mp found
          by_cases same : c = mark
          · simp [same]
          · simp [same, absent, Ne.symm same]

/-- The text is split at its last mark. -/
theorem splitLast_some {mark : Char} {text before after : List Char} :
    splitLast mark text = some (before, after) ↔ text = before ++ mark :: after ∧ mark ∉ after := by
  induction text generalizing before after with
  | nil => simp [splitLast]
  | cons c rest ih =>
      rw [splitLast]
      cases found : splitLast mark rest with
      | some parts =>
          obtain ⟨front, back⟩ := parts
          obtain ⟨same, absent⟩ := ih.mp found
          constructor
          · rintro ⟨⟩
            exact ⟨by rw [same]; rfl, absent⟩
          · rintro ⟨shape, last⟩
            cases before with
            | nil =>
                obtain ⟨_, tail⟩ := cons.inj shape
                rw [tail] at same
                exact absurd (same ▸ mem_append_right _ mem_cons_self) last
            | cons d before =>
                obtain ⟨rfl, tail⟩ := cons.inj shape
                have again := ih.mpr ⟨tail, last⟩
                rw [found] at again
                cases again
                rfl
      | none =>
          have absent := splitLast_none.mp found
          constructor
          · intro split
            by_cases same : c = mark
            · rw [if_pos same] at split
              cases split
              exact ⟨by rw [same]; rfl, absent⟩
            · rw [if_neg same] at split
              cases split
          · rintro ⟨shape, last⟩
            cases before with
            | nil =>
                obtain ⟨rfl, rfl⟩ := cons.inj shape
                rw [if_pos rfl]
            | cons d before =>
                obtain ⟨_, tail⟩ := cons.inj shape
                rw [tail] at absent
                exact absurd (mem_append_right _ mem_cons_self) absent

/-- The parts of a text before and behind the first occurrence of a character. -/
def splitFirst (mark : Char) (text : List Char) : Option (List Char × List Char) :=
  match text.dropWhile (· ≠ mark) with
  | [] => none
  | _ :: after => some (text.takeWhile (· ≠ mark), after)

/-- A text is split behind a part without the mark. -/
theorem splitFirst_append {mark : Char} {before : List Char} (absent : mark ∉ before) (after : List Char) :
    splitFirst mark (before ++ mark :: after) = some (before, after) := by
  have all : ∀ c ∈ before, decide (c ≠ mark) = true := by
    intro c member
    apply decide_eq_true
    rintro rfl
    exact absent member
  have stops : ∀ c ∈ (mark :: after).head?, decide (c ≠ mark) = false := by simp
  rw [splitFirst, dropWhile_block all stops, takeWhile_block all stops]

/-- The text is split at its first mark. -/
theorem splitFirst_some {mark : Char} {text before after : List Char} :
    splitFirst mark text = some (before, after) ↔ text = before ++ mark :: after ∧ mark ∉ before := by
  constructor
  · intro split
    obtain ⟨block, rest, rfl, all, stops⟩ := exists_block (· ≠ mark) text
    have absent : mark ∉ block := by
      intro member
      simpa using all mark member
    cases rest with
    | nil =>
        rw [splitFirst, dropWhile_block all stops] at split
        cases split
    | cons c rest =>
        have same : c = mark := by simpa using stops c rfl
        rw [same, splitFirst_append absent] at split
        cases split
        exact ⟨by rw [same], absent⟩
  · rintro ⟨rfl, absent⟩
    exact splitFirst_append absent after

end List

/-- A stream with the characters that are left and its `eofbit` and `failbit`. -/
structure TextStream where
  rest : List Char
  eof : Bool
  fail : Bool
deriving DecidableEq

namespace TextStream

/-- A stream that has just been opened. -/
def ofText (text : List Char) : TextStream := ⟨text, false, false⟩

def good (stream : TextStream) : Bool := !stream.eof && !stream.fail

@[simp] theorem ofText_good (text : List Char) : (ofText text).good = true := rfl

@[simp] theorem ofText_rest (text : List Char) : (ofText text).rest = text := rfl

/-- What every formatted read does first. -/
def skipBlanks (stream : TextStream) : TextStream :=
  if stream.good then
    match stream.rest.dropWhile Char.isBlank with
    | [] => ⟨[], true, true⟩
    | rest => ofText rest
  else { stream with fail := true }

/-- `>>` into an empty `std::string`. -/
def readWord (stream : TextStream) : List Char × TextStream :=
  let stream := stream.skipBlanks
  if stream.good then
    let rest := stream.rest.dropWhile fun c => !c.isBlank
    (stream.rest.takeWhile fun c => !c.isBlank, ⟨rest, rest.isEmpty, false⟩)
  else ([], stream)

/-- `>>` into a `char`, which keeps its value if there is nothing to read. -/
def readChar (old : Char) (stream : TextStream) : Char × TextStream :=
  let stream := stream.skipBlanks
  match stream.good, stream.rest with
  | true, c :: rest => (c, ofText rest)
  | _, _ => (old, stream)

/-- The sign of a numeral, if it has one. -/
inductive Sign where
  | none | plus | minus
deriving DecidableEq

def Sign.text : Sign → List Char
  | none => []
  | plus => ['+']
  | minus => ['-']

def Sign.negative : Sign → Bool
  | none => false
  | plus => false
  | minus => true

/-- Whether a numeral is negative, and what is left of it behind its sign. -/
def splitSign : List Char → Bool × List Char
  | '-' :: rest => (true, rest)
  | '+' :: rest => (false, rest)
  | rest => (false, rest)

/-- `>>` into an unsigned integer of some width. A minus sign negates the value within that width. -/
def readUnsigned (width old : Nat) (stream : TextStream) : Nat × TextStream :=
  let stream := stream.skipBlanks
  if stream.good then
    let (negative, numeral) := splitSign stream.rest
    let digits := numeral.takeWhile Char.isDigit
    let rest := numeral.dropWhile Char.isDigit
    let value := Nat.ofDigitChars 10 digits 0
    if digits = [] then (0, ⟨rest, rest.isEmpty, true⟩)
    else if 2 ^ width ≤ value then (2 ^ width - 1, ⟨rest, rest.isEmpty, true⟩)
    else (if negative then (2 ^ width - value) % 2 ^ width else value, ⟨rest, rest.isEmpty, false⟩)
  else (old, stream)

/-- `std::getline` into an empty string. -/
def readLine (stream : TextStream) : List Char × TextStream :=
  if stream.good then
    let line := stream.rest.takeWhile (· ≠ '\n')
    match stream.rest.dropWhile (· ≠ '\n') with
    | [] => (line, ⟨[], true, line.isEmpty⟩)
    | _ :: rest => (line, ofText rest)
  else ([], { stream with fail := true })

section Reading
variable {blanks rest : List Char}

/-- All blanks before a letter are skipped. -/
theorem skipBlanks_block {c : Char} (spaces : ∀ blank ∈ blanks, blank.isBlank = true) (solid : c.isBlank = false) :
    (ofText (blanks ++ c :: rest)).skipBlanks = ofText (c :: rest) := by
  have skipped : (blanks ++ c :: rest).dropWhile Char.isBlank = c :: rest :=
    List.dropWhile_block spaces (by simp [solid])
  simp only [skipBlanks, ofText_good, ofText_rest, skipped, if_true]

/-- Nothing is left but blanks. -/
theorem skipBlanks_end (spaces : ∀ blank ∈ blanks, blank.isBlank = true) :
    (ofText blanks).skipBlanks = ⟨[], true, true⟩ := by
  have skipped : blanks.dropWhile Char.isBlank = [] := by
    rw [← List.append_nil blanks]
    exact List.dropWhile_block spaces (by simp)
  simp only [skipBlanks, ofText_good, ofText_rest, skipped, if_true]

/-- A stream that is not good fails. -/
theorem skipBlanks_bad {stream : TextStream} (bad : stream.good = false) :
    stream.skipBlanks = { stream with fail := true } := by
  rw [skipBlanks, bad]
  rfl

theorem skipBlanks_failed {stream : TextStream} (failed : stream.fail = true) : stream.skipBlanks = stream := by
  obtain ⟨text, eof, fail⟩ := stream
  cases failed
  simp [skipBlanks, good]

/-- A word ends at the next blank. -/
theorem readWord_block {c : Char} {word : List Char} (spaces : ∀ blank ∈ blanks, blank.isBlank = true)
    (solid : ∀ letter ∈ c :: word, letter.isBlank = false) (stops : ∀ blank ∈ rest.head?, blank.isBlank = true) :
    (ofText (blanks ++ (c :: word) ++ rest)).readWord = (c :: word, ⟨rest, rest.isEmpty, false⟩) := by
  have all : ∀ letter ∈ c :: word, (!letter.isBlank) = true := by
    intro letter member
    rw [solid letter member]
    rfl
  have ends : ∀ blank ∈ rest.head?, (!blank.isBlank) = false := by
    intro blank first
    rw [stops blank first]
    rfl
  have skipped : (ofText (blanks ++ (c :: word) ++ rest)).skipBlanks = ofText ((c :: word) ++ rest) := by
    rw [List.append_assoc]
    exact skipBlanks_block spaces (solid c List.mem_cons_self)
  have taken := List.takeWhile_block all ends
  have left := List.dropWhile_block all ends
  simp only [readWord, skipped, ofText_good, ofText_rest, taken, left, if_true]

theorem readWord_failed {stream : TextStream} (failed : stream.fail = true) : stream.readWord = ([], stream) := by
  have bad : stream.good = false := by simp [good, failed]
  simp [readWord, skipBlanks_failed failed, bad]

/-- The first letter behind the blanks is read. -/
theorem readChar_block (old : Char) {c : Char} (spaces : ∀ blank ∈ blanks, blank.isBlank = true)
    (solid : c.isBlank = false) : (ofText (blanks ++ c :: rest)).readChar old = (c, ofText rest) := by
  simp only [readChar, skipBlanks_block spaces solid, ofText_good, ofText_rest]

/-- A digit is no sign. -/
theorem splitSign_digit {c : Char} (digit : c.isDigit = true) : splitSign (c :: rest) = (false, c :: rest) := by
  unfold splitSign
  split
  · rename_i same
    cases same
    cases digit
  · rename_i same
    cases same
    cases digit
  · rfl

/-- A sign in front of a digit is split off. -/
theorem splitSign_text (sign : Sign) {c : Char} (digit : c.isDigit = true) :
    splitSign (sign.text ++ c :: rest) = (sign.negative, c :: rest) := by
  cases sign with
  | none => exact splitSign_digit digit
  | plus => rfl
  | minus => rfl

/-- Every text starts with one of the signs or with none. -/
theorem exists_sign (text : List Char) :
    ∃ (sign : Sign) (rest : List Char), text = sign.text ++ rest ∧ splitSign text = (sign.negative, rest) := by
  unfold splitSign
  split
  · exact ⟨.minus, _, rfl, rfl⟩
  · exact ⟨.plus, _, rfl, rfl⟩
  · exact ⟨.none, _, rfl, rfl⟩

theorem isBlank_of_isDigit {c : Char} (digit : c.isDigit = true) : c.isBlank = false := by
  by_contra blank
  simp only [Char.isBlank, Bool.not_eq_false, Bool.or_eq_true, decide_eq_true_eq] at blank
  rcases blank with ((((rfl | rfl) | rfl) | rfl) | rfl) | rfl
  all_goals cases digit

/-- A sign and a numeral do not begin with a blank. -/
theorem Sign.text_solid (sign : Sign) {c : Char} (digit : c.isDigit = true) (tail : List Char) :
    ∃ first others, sign.text ++ c :: tail = first :: others ∧ first.isBlank = false := by
  cases sign with
  | none => exact ⟨c, tail, rfl, isBlank_of_isDigit digit⟩
  | plus => exact ⟨'+', c :: tail, rfl, rfl⟩
  | minus => exact ⟨'-', c :: tail, rfl, rfl⟩

/-- A numeral with what may stand around it, and how it is found. -/
structure NumeralText (text blanks : List Char) (sign : Sign) (digits rest : List Char) : Prop where
  text_eq : text = blanks ++ (sign.text ++ (digits ++ rest))
  spaces : ∀ blank ∈ blanks, blank.isBlank = true
  numeral : ∀ c ∈ digits, c.isDigit = true
  any : digits ≠ []
  stops : ∀ c ∈ rest.head?, c.isDigit = false

namespace NumeralText
variable {text digits : List Char} {sign : Sign}

/-- The blanks of a numeral are skipped, and its sign is split off. -/
theorem skipped (shape : NumeralText text blanks sign digits rest) :
    ∃ first others, first.isBlank = false ∧ text = blanks ++ first :: others ∧
      splitSign (first :: others) = (sign.negative, digits ++ rest) := by
  obtain ⟨first, others, rfl⟩ := List.exists_cons_of_ne_nil shape.any
  have digit := shape.numeral first List.mem_cons_self
  obtain ⟨c, tail, signed, solid⟩ := sign.text_solid digit (others ++ rest)
  refine ⟨c, tail, solid, ?_, ?_⟩
  · rw [← signed]
    exact shape.text_eq
  · rw [← signed]
    exact splitSign_text sign digit

/-- A text without a numeral at its front has no digits behind its blanks and its sign. -/
theorem exists_or (text : List Char) :
    (∃ blanks sign digits rest, NumeralText text blanks sign digits rest) ∨
      (splitSign (text.dropWhile Char.isBlank)).2.takeWhile Char.isDigit = [] := by
  obtain ⟨blanks, signed, rfl, spaces, solid⟩ := List.exists_block Char.isBlank text
  obtain ⟨sign, numeral, rfl, split⟩ := exists_sign signed
  obtain ⟨digits, rest, rfl, all, stops⟩ := List.exists_block Char.isDigit numeral
  by_cases any : digits = []
  · apply Or.inr
    rw [List.dropWhile_block spaces solid, split, ← any]
    exact List.takeWhile_block all stops
  · exact Or.inl ⟨blanks, sign, digits, rest, rfl, spaces, all, any, stops⟩

end NumeralText

/-- The longest run of digits is the value, unless it is too large. -/
theorem readUnsigned_numeral (width old : Nat) {text digits : List Char} {sign : Sign}
    (shape : NumeralText text blanks sign digits rest) :
    (ofText text).readUnsigned width old =
      if Nat.ofDigitChars 10 digits 0 < 2 ^ width then
        (if sign.negative then (2 ^ width - Nat.ofDigitChars 10 digits 0) % 2 ^ width
          else Nat.ofDigitChars 10 digits 0, ⟨rest, rest.isEmpty, false⟩)
      else (2 ^ width - 1, ⟨rest, rest.isEmpty, true⟩) := by
  obtain ⟨first, others, solid, rfl, signed⟩ := shape.skipped
  have taken := List.takeWhile_block shape.numeral shape.stops
  have left := List.dropWhile_block shape.numeral shape.stops
  simp only [readUnsigned, skipBlanks_block shape.spaces solid, ofText_good, ofText_rest, signed, taken, left, if_true,
    if_neg shape.any]
  by_cases fits : Nat.ofDigitChars 10 digits 0 < 2 ^ width
  · rw [if_pos fits, if_neg (Nat.not_le_of_lt fits)]
  · rw [if_neg fits, if_pos (Nat.le_of_not_lt fits)]

/-- The digits up to the next other letter are read. -/
theorem readUnsigned_block (width old : Nat) {digits : List Char} (spaces : ∀ blank ∈ blanks, blank.isBlank = true)
    (numeral : ∀ c ∈ digits, c.isDigit = true) (any : digits ≠ []) (stops : ∀ c ∈ rest.head?, c.isDigit = false) :
    (ofText (blanks ++ (digits ++ rest))).readUnsigned width old =
      if Nat.ofDigitChars 10 digits 0 < 2 ^ width then
        (Nat.ofDigitChars 10 digits 0, ⟨rest, rest.isEmpty, false⟩)
      else (2 ^ width - 1, ⟨rest, rest.isEmpty, true⟩) := by
  have shape : NumeralText (blanks ++ (digits ++ rest)) blanks .none digits rest :=
    ⟨rfl, spaces, numeral, any, stops⟩
  exact readUnsigned_numeral width old shape

/-- A number is read only where a numeral stands. -/
theorem readUnsigned_succeeded {width old : Nat} {text : List Char}
    (success : ((ofText text).readUnsigned width old).2.fail = false) :
    ∃ blanks sign digits rest, NumeralText text blanks sign digits rest := by
  rcases NumeralText.exists_or text with shape | bare
  · exact shape
  · unfold readUnsigned skipBlanks at success
    cases skipped : text.dropWhile Char.isBlank with
    | nil =>
        rw [if_pos (ofText_good text), ofText_rest, skipped] at success
        cases success
    | cons c others =>
        rw [skipped] at bare
        simp [skipped, bare] at success

/-- What stands at the front of a stream from which a word was read. -/
theorem readWord_succeeded {stream : TextStream} (success : stream.readWord.1 ≠ []) :
    ∃ gap word rest, stream = ofText (gap ++ word ++ rest) ∧ stream.readWord = (word, ⟨rest, rest.isEmpty, false⟩) ∧
      (∀ blank ∈ gap, blank.isBlank = true) ∧ (∀ letter ∈ word, letter.isBlank = false) ∧
      ∀ blank ∈ rest.head?, blank.isBlank = true := by
  obtain ⟨text, eof, fail⟩ := stream
  by_cases bad : (⟨text, eof, fail⟩ : TextStream).good = false
  · have failed : (⟨text, eof, fail⟩ : TextStream).skipBlanks.good = false := by
      rw [skipBlanks_bad bad]
      simp [good]
    exact absurd (by simp [readWord, failed]) success
  · simp only [good, Bool.not_eq_false, Bool.and_eq_true, Bool.not_eq_true'] at bad
    obtain ⟨rfl, rfl⟩ := bad
    obtain ⟨gap, words, rfl, spaces, solid⟩ := List.exists_block Char.isBlank text
    obtain ⟨word, rest, rfl, all, stops⟩ := List.exists_block (fun c => !c.isBlank) words
    simp only [Bool.not_eq_true', Bool.not_eq_false'] at all stops
    cases word with
    | nil =>
        cases rest with
        | nil =>
            have ended := skipBlanks_end spaces
            rw [List.append_nil, List.append_nil] at success
            rw [show (⟨gap, false, false⟩ : TextStream) = ofText gap from rfl, readWord, ended] at success
            exact absurd rfl success
        | cons c rest =>
            have blank := stops c rfl
            rw [solid c rfl] at blank
            cases blank
    | cons c word =>
        refine ⟨gap, c :: word, rest, ?_, ?_, spaces, all, stops⟩
        · rw [List.append_assoc]
          rfl
        · rw [← List.append_assoc]
          exact readWord_block spaces all stops

/-- A line ends at its line break. -/
theorem readLine_block {line : List Char} (within : '\n' ∉ line) :
    (ofText (line ++ '\n' :: rest)).readLine = (line, ofText rest) := by
  have all : ∀ c ∈ line, decide (c ≠ '\n') = true := by
    intro c member
    apply decide_eq_true
    rintro rfl
    exact within member
  have stops : ∀ c ∈ ('\n' :: rest).head?, decide (c ≠ '\n') = false := by simp
  have taken := List.takeWhile_block all stops
  have left := List.dropWhile_block all stops
  simp only [readLine, ofText_good, ofText_rest, taken, left, if_true]

end Reading

end TextStream
