import Metamorphosis.Library.TextStream

/-!
The texts of endpoints, durations and intervals. The operators read a string stream that holds the whole
text, and they throw.
-/

namespace Metamorphosis

/-- The exceptions with their texts. -/
inductive ParseException where
  | invalidArgument (what : List Char)
  | outOfRange (what : List Char)
deriving DecidableEq

structure Endpoint where
  address : List Char
  port : UInt16
deriving DecidableEq

/-- `Endpoint::ToString`. -/
def Endpoint.toText (endpoint : Endpoint) : List Char :=
  endpoint.address ++ ':' :: Nat.toDigits 10 endpoint.port.toNat

/-- `std::stoi`: blanks and a sign may stand before the digits, and anything may follow them. -/
def stoi (text : List Char) : Except ParseException Int :=
  let (negative, numeral) := TextStream.splitSign (text.dropWhile Char.isBlank)
  let digits := numeral.takeWhile Char.isDigit
  let value : Int := if negative then -(Nat.ofDigitChars 10 digits 0) else Nat.ofDigitChars 10 digits 0
  if digits = [] then .error (.invalidArgument "stoi".toList)
  else if value < -2147483648 ∨ 2147483647 < value then .error (.outOfRange "stoi".toList)
  else .ok value

/-- `operator>>` for `Endpoint`, with the endpoint that it leaves. -/
def readEndpoint (text : List Char) (endpoint : Endpoint) : Except ParseException Unit × Endpoint :=
  match text.splitLast ':' with
  | none => (.error (.invalidArgument "invalid endpoint format".toList), endpoint)
  | some (address, portText) =>
      match stoi portText with
      | .error exception => (.error exception, endpoint)
      | .ok port =>
          if port < 0 ∨ 65535 < port then (.error (.invalidArgument ("invalid port: ".toList ++ portText)), endpoint)
          else (.ok (), ⟨address, UInt16.ofInt port⟩)

/-- `std::chrono::microseconds`. -/
abbrev Duration := Int64

structure Interval where
  start : Duration
  stop : Duration
deriving DecidableEq

/-- `kSuffix`: the units in microseconds. -/
def suffixes : List (List Char × UInt64) :=
  [("us".toList, 1), ("ms".toList, 1000), ("s".toList, 1000000), ("m".toList, 60 * 1000000),
    ("h".toList, 60 * 60 * 1000000)]

/-- `operator>>` for `Duration`. The product is unsigned and is then converted to the signed duration. -/
def readDuration (stream : TextStream) (duration : Duration) : Except ParseException TextStream × Duration :=
  let (value, stream) := stream.readUnsigned 64 0
  let (suffix, stream) := stream.readWord
  match suffixes.lookup suffix with
  | none => (.error (.invalidArgument ("invalid duration suffix: ".toList ++ suffix)), duration)
  | some unit => (.ok stream, (UInt64.ofNat value * unit).toInt64)

/-- `operator>>` for `Interval`. The second part is read after the first one was assigned. -/
def readInterval (text : List Char) (interval : Interval) : Except ParseException Unit × Interval :=
  match text.splitFirst '-' with
  | none => (.error (.invalidArgument "invalid duration interval format".toList), interval)
  | some (first, second) =>
      match readDuration (.ofText first) interval.start with
      | (.error exception, _) => (.error exception, interval)
      | (.ok _, start) =>
          match readDuration (.ofText second) interval.stop with
          | (.error exception, _) => (.error exception, { interval with start := start })
          | (.ok _, stop) => (.ok (), ⟨start, stop⟩)

end Metamorphosis
