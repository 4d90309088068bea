import Metamorphosis.Library.TextStream
import Mathlib.Data.List.Sort

/-!
The history of client requests: how the test client prints it, how the history checker reads it back, and how
it decides whether the history is linearizable.
-/

namespace Metamorphosis

/-- A request that succeeded, with the log that the state machine returned for it. -/
structure RequestInfo where
  invocationTime : Int64
  completionTime : Int64
  command : UInt64
  result : List UInt64
deriving DecidableEq

/-- What a call of the client ends with. -/
inductive ClientOutcome where
  | ok (request : RequestInfo)
  | error (message : List Char)
deriving DecidableEq

/-- A signed number as `fmt::print` writes it. -/
def formatSigned (number : Int64) : List Char :=
  if number.toInt < 0 then '-' :: Nat.toDigits 10 number.toInt.natAbs else Nat.toDigits 10 number.toInt.natAbs

def formatUnsigned (number : UInt64) : List Char := Nat.toDigits 10 number.toNat

def okTag : List Char := ['O', 'K', ':']

def errorTag : List Char := ['E', 'R', 'R', 'O', 'R', ':']

/-- The line that the random mode of the client prints for a request that succeeded:
`OK: <invocation_time> <completion_time> <command> [ <cnt> <cmd0> <cmd1> ... ]`. -/
def requestLine (request : RequestInfo) : List Char :=
  okTag ++ ' ' :: (formatSigned request.invocationTime ++ ' ' :: (formatSigned request.completionTime ++
    ' ' :: (formatUnsigned request.command ++ ' ' :: '[' :: ' ' :: (Nat.toDigits 10 request.result.length ++
      ' ' :: ([' '].intercalate (request.result.map formatUnsigned) ++ [' ', ']', '\n'])))))

def errorLine (message : List Char) : List Char := errorTag ++ ' ' :: (message ++ ['\n'])

def ClientOutcome.text : ClientOutcome → List Char
  | ok request => requestLine request
  | error message => errorLine message

def printHistory (outcomes : List ClientOutcome) : List Char := outcomes.flatMap ClientOutcome.text

/-- The inner loop of `ParseHistory`, which ends early if the stream fails. -/
def readEntries : Nat → TextStream → List UInt64 × TextStream
  | 0, stream => ([], stream)
  | count + 1, stream =>
      if stream.fail then ([], stream)
      else
        let (data, stream) := stream.readUnsigned 64 0
        let (log, stream) := readEntries count stream
        (UInt64.ofNat data :: log, stream)

/-- What `ParseHistory` reads behind a tag. It gives up if a bracket is missing. -/
def readRequest (stream : TextStream) : Option (RequestInfo × TextStream) :=
  let (invocationTime, stream) := stream.readUnsigned 64 0
  let (completionTime, stream) := stream.readUnsigned 64 0
  let (command, stream) := stream.readUnsigned 64 0
  let (bracket, stream) := stream.readChar '\x00'
  if bracket ≠ '[' then none
  else
    let (count, stream) := stream.readUnsigned 64 0
    let (log, stream) := readEntries count stream
    let (bracket, stream) := stream.readChar bracket
    if bracket ≠ ']' then none
    else some (⟨(UInt64.ofNat invocationTime).toInt64, (UInt64.ofNat completionTime).toInt64, UInt64.ofNat command,
      log⟩, stream)

/-- The loop of `ParseHistory`. There is no result if the fuel does not suffice. -/
def parseRequests : Nat → TextStream → List RequestInfo → Option (List RequestInfo)
  | 0, _, _ => none
  | fuel + 1, stream, result =>
      if stream.fail then some result
      else
        let (tag, stream) := stream.readWord
        if tag ≠ okTag then parseRequests fuel stream.readLine.2 result
        else
          match readRequest stream with
          | none => some result
          | some (request, stream) => parseRequests fuel stream (result ++ [request])

/-- `ParseHistory`. Every round takes a character from the text or is the last but one. -/
def parseHistory (text : List Char) : Option (List RequestInfo) :=
  parseRequests (text.length + 2) (.ofText text) []

/-- A result of `std::sort` by the size of the results, which orders requests of the same size arbitrarily. -/
structure Arrangement (history : List RequestInfo) where
  sorted : List RequestInfo
  perm : sorted.Perm history
  ordered : sorted.Pairwise fun left right => left.result.length ≤ right.result.length

/-- The state machine appended the command of every request to its log. -/
def appendsCommands (history : List RequestInfo) : Bool :=
  history.all fun data => data.result.getLast? = some data.command

/-- Every log agrees with the log of the last request. -/
def commonPrefixes (history : List RequestInfo) : Bool :=
  match history.getLast? with
  | none => true
  | some back =>
      history.dropLast.all fun command =>
        (List.range command.result.length).all fun index => command.result[index]? = back.result[index]?

/-- No request stands behind one that was invoked after it had completed. -/
def respectsTime (history : List RequestInfo) : Bool :=
  history.zipIdx.all fun (command, commandIndex) =>
    history.zipIdx.all fun (other, index) =>
      !(command.completionTime < other.invocationTime && index ≤ commandIndex)

/-- `CheckLinearizability`. -/
def checkLinearizability {history : List RequestInfo} (order : Arrangement history) : Except String Unit :=
  if !appendsCommands order.sorted then .error "RSM did not append client command to log"
  else if !commonPrefixes order.sorted then .error "Not all received logs have common prefix"
  else if !respectsTime order.sorted then .error "History is not linearizable"
  else .ok ()

end Metamorphosis
