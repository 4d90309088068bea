import Mathlib.Algebra.Group.Int.Defs
import Metamorphosis.Construction.Simulator.World

/-!
The clock of a host with an exact drift. The conversions of times are computed in 64 bits, and an overflow is
`none`.
-/

namespace Metamorphosis.Simulator

/-- The result of an operation on `Duration::rep`. -/
def int64 (value : Int) : Option Int := if -2 ^ 63 ≤ value ∧ value < 2 ^ 63 then some value else none

/-- `BinarySearch` with a predicate that may fail. -/
def search? (predicate : Nat → Option Bool) : (rounds first last : Nat) → Option Nat
  | 0, first, _ => some first
  | rounds + 1, first, last =>
      if first < last then do
        let middle := first + (last - first) / 2
        if ← predicate middle then search? predicate rounds first middle
        else search? predicate rounds (middle + 1) last
      else some first

/-- A clock whose drift is a fraction between minus one and one. -/
structure DriftClock where
  numerator : Int
  denominator : Nat
  startTime : Int
  maxSleepLag : Nat
  slow : -(denominator : Int) < numerator
  fast : numerator < denominator
  started : 0 ≤ startTime

namespace DriftClock

/-- `drift_ * global_time`. The cast truncates toward zero. -/
def drifted (clock : DriftClock) (globalTime : Nat) : Int :=
  (clock.numerator * globalTime).tdiv clock.denominator

def toClock (clock : DriftClock) : Clock := ⟨clock.startTime, clock.drifted, clock.maxSleepLag⟩

/-- `Host::ToLocalTime`. -/
def toLocalTime? (clock : DriftClock) (globalTime : Nat) : Option Int := do
  let drifted ← int64 (clock.drifted globalTime)
  let shift ← int64 (drifted + clock.startTime)
  int64 (globalTime + shift)

/-- `Host::ToGlobalTime`. There is no result if its `VERIFY` fails. -/
def toGlobalTime? (clock : DriftClock) (localTime : Int) : Option Nat := do
  let globalTime ← search? (fun value => (clock.toLocalTime? value).map fun time => localTime ≤ time)
    maxDuration 0 maxDuration
  if localTime ≤ (← clock.toLocalTime? globalTime) then some globalTime else none

end DriftClock

end Metamorphosis.Simulator
