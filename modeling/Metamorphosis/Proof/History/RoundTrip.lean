import Mathlib.Tactic.Common
import Metamorphosis.Construction.History
import Metamorphosis.Proof.Parse

/-!
The history checker reads what the client prints: the requests that succeeded, in order, and nothing else.
-/

namespace Metamorphosis
open TextStream

section Numbers

/-- A number, followed by a character that ends it. -/
theorem readUnsigned_decimal {value : Nat} (fits : value < 2 ^ 64) (old : Nat) {blanks : List Char}
    (spaces : ∀ blank ∈ blanks, blank.isBlank = true) {c : Char} (stops : c.isDigit = false) (rest : List Char) :
    (ofText (blanks ++ (Nat.toDigits 10 value ++ c :: rest))).readUnsigned 64 old = (value, ofText (c :: rest)) := by
  have numeral := numeral_decimal value
  rw [readUnsigned_block 64 old spaces numeral.all numeral.any (by simp [stops]), Nat.ofDigitChars_ten_toDigits,
    if_pos fits]
  rfl

/-- The numbers of the format stand between single blanks. -/
theorem readUnsigned_spaced {value : Nat} (fits : value < 2 ^ 64) (old : Nat) (rest : List Char) :
    (ofText (' ' :: (Nat.toDigits 10 value ++ ' ' :: rest))).readUnsigned 64 old = (value, ofText (' ' :: rest)) :=
  readUnsigned_decimal fits old (List.forall_mem_singleton.mpr rfl) (by decide) rest

variable {time : Int64}

/-- A time that is not negative is printed without a sign. -/
theorem formatSigned_time (future : 0 ≤ time.toInt) : formatSigned time = Nat.toDigits 10 time.toInt.toNat := by
  rw [formatSigned, if_neg (by omega), show time.toInt.natAbs = time.toInt.toNat by omega]

theorem time_lt (future : 0 ≤ time.toInt) : time.toInt.toNat < 2 ^ 63 := by
  have bounded := time.toInt_lt
  omega

/-- Such a time is read back through an unsigned number. -/
theorem time_read (future : 0 ≤ time.toInt) : (UInt64.ofNat time.toInt.toNat).toInt64 = time := by
  have bounded := time_lt future
  apply Int64.toInt_inj.mp
  have exact : (UInt64.ofNat time.toInt.toNat).toInt64.toInt = (time.toInt.toNat : Int) := by
    apply (toInt64_toInt_eq _ _).mpr
    rw [UInt64.toNat_ofNat']
    exact ⟨Nat.mod_eq_of_lt (by omega), bounded⟩
  rw [exact]
  omega

end Numbers

section Logs

/-- The entries of a log with a blank before each of them. -/
def spacedEntries (log : List UInt64) : List Char := log.flatMap fun entry => ' ' :: formatUnsigned entry

theorem spacedEntries_cons (entry : UInt64) (log : List UInt64) :
    spacedEntries (entry :: log) = ' ' :: (formatUnsigned entry ++ spacedEntries log) := rfl

/-- The printed log with a blank in front is the list of its entries, each with a blank in front. -/
theorem intercalate_spaced (entry : UInt64) (log : List UInt64) :
    ' ' :: [' '].intercalate ((entry :: log).map formatUnsigned) = spacedEntries (entry :: log) := by
  induction log generalizing entry with
  | nil => simp [spacedEntries, List.intercalate]
  | cons next log ih =>
      rw [spacedEntries_cons, ← ih next]
      simp only [List.map_cons, List.intercalate_cons_cons, List.append_assoc]
      rfl

/-- Every entry is followed by a blank. -/
theorem spacedEntries_blank (log : List UInt64) (rest : List Char) :
    ∃ tail, spacedEntries log ++ ' ' :: rest = ' ' :: tail := by
  cases log with
  | nil => exact ⟨rest, rfl⟩
  | cons entry log => exact ⟨_, rfl⟩

/-- The inner loop reads as many entries as there are and stops before the blank behind them. -/
theorem readEntries_spaced (log : List UInt64) (rest : List Char) :
    readEntries log.length (ofText (spacedEntries log ++ ' ' :: rest)) = (log, ofText (' ' :: rest)) := by
  induction log with
  | nil => rfl
  | cons entry log ih =>
      obtain ⟨tail, shape⟩ := spacedEntries_blank log rest
      have read := readUnsigned_spaced entry.toNat_lt 0 tail
      rw [← shape] at read
      rw [spacedEntries_cons, List.cons_append, List.append_assoc, List.length_cons, readEntries]
      simp only [formatUnsigned, read, ih, UInt64.ofNat_toNat]
      rfl

/-- What stands behind the size of a log. An empty log leaves two blanks. -/
theorem joined_text (log : List UInt64) (rest : List Char) :
    ∃ blanks : List Char, (∀ blank ∈ blanks, blank.isBlank = true) ∧
      ' ' :: ([' '].intercalate (log.map formatUnsigned) ++ (' ' :: ']' :: rest)) =
        spacedEntries log ++ ' ' :: (blanks ++ ']' :: rest) := by
  cases log with
  | nil => exact ⟨[' '], List.forall_mem_singleton.mpr rfl, rfl⟩
  | cons entry log =>
      refine ⟨[], List.forall_mem_nil _, ?_⟩
      rw [← List.cons_append, intercalate_spaced]
      rfl

end Logs

section Requests

/-- What the client prints in one line. `log_entries_size()` is an `int`, and a clock shows no negative time. -/
def ClientOutcome.Printable : ClientOutcome → Prop
  | ok request => 0 ≤ request.invocationTime.toInt ∧ 0 ≤ request.completionTime.toInt ∧
      request.result.length < 2 ^ 31
  | error message => '\n' ∉ message

instance ClientOutcome.Printable.decidable (outcome : ClientOutcome) : Decidable outcome.Printable :=
  match outcome with
  | ok request => inferInstanceAs (Decidable (0 ≤ request.invocationTime.toInt ∧
      0 ≤ request.completionTime.toInt ∧ request.result.length < 2 ^ 31))
  | error message => inferInstanceAs (Decidable ('\n' ∉ message))

/-- The request of an outcome, if it succeeded. -/
def ClientOutcome.request? : ClientOutcome → Option RequestInfo
  | ok request => some request
  | error _ => none

theorem okTag_solid : ∀ letter ∈ okTag, letter.isBlank = false := by simp [okTag, Char.isBlank]

theorem errorTag_solid : ∀ letter ∈ errorTag, letter.isBlank = false := by simp [errorTag, Char.isBlank]

/-- The line of a request behind its tag. -/
def requestText (request : RequestInfo) (rest : List Char) : List Char :=
  ' ' :: (Nat.toDigits 10 request.invocationTime.toInt.toNat ++
    ' ' :: (Nat.toDigits 10 request.completionTime.toInt.toNat ++
      ' ' :: (Nat.toDigits 10 request.command.toNat ++
        ' ' :: '[' :: ' ' :: (Nat.toDigits 10 request.result.length ++
          ' ' :: ([' '].intercalate (request.result.map formatUnsigned) ++ (' ' :: ']' :: rest))))))

/-- A printed line is its tag and its fields. -/
theorem requestLine_append {request : RequestInfo} (printable : (ClientOutcome.ok request).Printable) (rest : List Char) :
    requestLine request ++ rest = okTag ++ requestText request ('\n' :: rest) := by
  simp only [requestLine, formatSigned_time printable.1, formatSigned_time printable.2.1, requestText, formatUnsigned,
    List.append_assoc, List.cons_append, List.nil_append]

/-- The fields of a request are read back. -/
theorem readRequest_text {request : RequestInfo} (printable : (ClientOutcome.ok request).Printable) (rest : List Char) :
    readRequest (ofText (requestText request rest)) = some (request, ofText rest) := by
  obtain ⟨future, future', short⟩ := printable
  obtain ⟨blanks, spaces, joined⟩ := joined_text request.result rest
  have invocation := fun text =>
    readUnsigned_spaced (Nat.lt_trans (time_lt future) (by decide : 2 ^ 63 < 2 ^ 64)) 0 text
  have completion := fun text =>
    readUnsigned_spaced (Nat.lt_trans (time_lt future') (by decide : 2 ^ 63 < 2 ^ 64)) 0 text
  have command := fun text => readUnsigned_spaced request.command.toNat_lt 0 text
  have size := fun text => readUnsigned_spaced (Nat.lt_trans short (by decide : 2 ^ 31 < 2 ^ 64)) 0 text
  have opening (text) : (ofText (' ' :: '[' :: text)).readChar '\x00' = ('[', ofText text) :=
    readChar_block '\x00' (List.forall_mem_singleton.mpr rfl) (by decide)
  have gap : ∀ blank ∈ ' ' :: blanks, blank.isBlank = true := List.forall_mem_cons.mpr ⟨rfl, spaces⟩
  have closing : (ofText (' ' :: blanks ++ ']' :: rest)).readChar '[' = (']', ofText rest) :=
    readChar_block '[' gap (by decide)
  simp only [readRequest, requestText, invocation, completion, command, opening, size]
  rw [joined, readEntries_spaced]
  rw [List.cons_append] at closing
  simp only [closing, time_read future, time_read future', UInt64.ofNat_toNat]
  rfl

end Requests

section Histories
variable {blanks : List Char}

/-- The first word of a line is its tag. -/
theorem readWord_request {request : RequestInfo} (printable : (ClientOutcome.ok request).Printable)
    (spaces : ∀ blank ∈ blanks, blank.isBlank = true) (rest : List Char) :
    (ofText (blanks ++ (requestLine request ++ rest))).readWord =
      (okTag, ofText (requestText request ('\n' :: rest))) := by
  rw [requestLine_append printable, ← List.append_assoc]
  exact readWord_block spaces okTag_solid (by simp [requestText, Char.isBlank])

/-- The line of an error is skipped. -/
theorem readLine_error {message : List Char} (within : '\n' ∉ message)
    (spaces : ∀ blank ∈ blanks, blank.isBlank = true) (rest : List Char) :
    ∃ stream, (ofText (blanks ++ (errorLine message ++ rest))).readWord = (errorTag, stream) ∧
      stream.readLine.2 = ofText rest := by
  have shape : errorLine message ++ rest = errorTag ++ (' ' :: message ++ '\n' :: rest) := by
    simp only [errorLine, List.append_assoc, List.cons_append, List.nil_append]
  refine ⟨ofText (' ' :: message ++ '\n' :: rest), ?_, ?_⟩
  · rw [shape, ← List.append_assoc]
    exact readWord_block spaces errorTag_solid (by simp [Char.isBlank])
  · rw [readLine_block (by simpa using within)]

/-- One round of the loop. -/
theorem parseRequests_succ (fuel : Nat) (stream : TextStream) (result : List RequestInfo) :
    parseRequests (fuel + 1) stream result =
      if stream.fail then some result
      else if stream.readWord.1 ≠ okTag then parseRequests fuel stream.readWord.2.readLine.2 result
      else
        match readRequest stream.readWord.2 with
        | none => some result
        | some (request, stream) => parseRequests fuel stream (result ++ [request]) := by
  with_unfolding_all rfl

/-- The end of the text is noticed by a read that fails. -/
theorem parseRequests_end (fuel : Nat) (spaces : ∀ blank ∈ blanks, blank.isBlank = true)
    (result : List RequestInfo) : parseRequests (fuel + 2) (ofText blanks) result = some result := by
  have word : (ofText blanks).readWord = ([], ⟨[], true, true⟩) := by
    simp [readWord, skipBlanks_end spaces, good]
  rw [parseRequests_succ, word]
  exact parseRequests_succ fuel ⟨[], true, true⟩ result

/-- Every round of the loop reads one line. -/
theorem parseRequests_printed {outcomes : List ClientOutcome} (printable : ∀ outcome ∈ outcomes, outcome.Printable)
    {fuel : Nat} (enough : outcomes.length + 2 ≤ fuel) (spaces : ∀ blank ∈ blanks, blank.isBlank = true)
    (result : List RequestInfo) :
    parseRequests fuel (ofText (blanks ++ printHistory outcomes)) result =
      some (result ++ outcomes.filterMap ClientOutcome.request?) := by
  induction outcomes generalizing fuel blanks result with
  | nil =>
      obtain ⟨fuel, rfl⟩ := Nat.exists_eq_add_of_le' enough
      simpa [printHistory] using parseRequests_end fuel spaces result
  | cons outcome outcomes ih =>
      obtain ⟨fuel, rfl⟩ := Nat.exists_eq_add_of_le' (Nat.le_trans (Nat.le_add_left 1 _) enough)
      obtain ⟨first, others⟩ := List.forall_mem_cons.mp printable
      have enough' : outcomes.length + 2 ≤ fuel := by simpa using enough
      cases outcome with
      | ok request =>
          have word := readWord_request first spaces (printHistory outcomes)
          have line := readRequest_text first ('\n' :: printHistory outcomes)
          have next := ih others enough' (List.forall_mem_singleton.mpr (rfl : '\n'.isBlank = true))
            (result ++ [request])
          have text : printHistory (.ok request :: outcomes) = requestLine request ++ printHistory outcomes := rfl
          have kept : (ClientOutcome.ok request :: outcomes).filterMap ClientOutcome.request? =
              request :: outcomes.filterMap ClientOutcome.request? := List.filterMap_cons_some rfl
          rw [parseRequests_succ, if_neg (by simp [ofText]), text, word, if_neg (by simp), line, kept,
            List.append_cons]
          exact next
      | error message =>
          obtain ⟨stream, word, line⟩ := readLine_error first spaces (printHistory outcomes)
          have next := ih others enough' (List.forall_mem_nil _) result
          have text : printHistory (.error message :: outcomes) = errorLine message ++ printHistory outcomes := rfl
          rw [parseRequests_succ, if_neg (by simp [ofText]), text, word, if_pos (show errorTag ≠ okTag by decide),
            line, List.filterMap_cons_none rfl]
          exact next

/-- Every outcome takes at least one letter, so the bound of the parser is enough. -/
theorem length_le_printHistory (outcomes : List ClientOutcome) : outcomes.length ≤ (printHistory outcomes).length := by
  induction outcomes with
  | nil => simp
  | cons outcome outcomes ih =>
      have some : 0 < outcome.text.length := by
        cases outcome with
        | ok request => simp [ClientOutcome.text, requestLine, okTag]
        | error message => simp [ClientOutcome.text, errorLine, errorTag]
      simp only [printHistory, List.flatMap_cons, List.length_append, List.length_cons] at ih ⊢
      omega

/-- The history checker gets the requests that succeeded, in order. -/
theorem history_round_trip (outcomes : List ClientOutcome) (printable : ∀ outcome ∈ outcomes, outcome.Printable) :
    parseHistory (printHistory outcomes) = some (outcomes.filterMap ClientOutcome.request?) := by
  have enough : outcomes.length + 2 ≤ (printHistory outcomes).length + 2 :=
    Nat.add_le_add_right (length_le_printHistory outcomes) 2
  exact parseRequests_printed printable enough (List.forall_mem_nil _) []

/-- An error between two requests, one of them with an empty log. -/
def sampleOutcomes : List ClientOutcome :=
  [.ok ⟨3, 9223372036854775807, 18446744073709551615, [1, 0, 18446744073709551615]⟩, .error "OK: 1 ]".toList,
    .ok ⟨0, 0, 5, []⟩]

/-- A history with the greatest numbers and an empty log is read back, without its error line. -/
theorem history_round_trip_sample :
    parseHistory (printHistory sampleOutcomes) =
      some [⟨3, 9223372036854775807, 18446744073709551615, [1, 0, 18446744073709551615]⟩, ⟨0, 0, 5, []⟩] :=
  history_round_trip sampleOutcomes (by decide)

end Histories

end Metamorphosis
