import Metamorphosis.Library.LinkedList

/-!
`StopState` with the callbacks that are registered in it. A null pointer that is followed, or one that dangles, has
no result.
-/

namespace Metamorphosis
open LinkedList

/-- `StopState` and the `StopCallback` objects that are alive. A callback is the number of its construction, and
`runs` records the calls of the callbacks. -/
structure StopState where
  nodes : Heap Nat
  callbacks : Option Nat
  cancelled : Bool
  constructed : Nat
  runs : List Nat

/-- What happens to a `StopState`. Objects are at addresses, which may be used again. -/
inductive StopEvent where
  | construct (address : Nat)
  | destroy (address : Nat)
  | stop
deriving DecidableEq

namespace StopState

def new : StopState := ⟨fun _ => none, none, false, 0, []⟩

/-- `StopCallback::Unlink`. -/
def unlink (state : StopState) (this : Nat) : Option StopState := do
  let node ← state.nodes this
  let callbacks := if state.callbacks = some this then node.next else state.callbacks
  let nodes ← writeNext state.nodes node.prev node.next
  let node ← nodes this
  let nodes ← writePrev nodes node.next node.prev
  let node ← nodes this
  some { state with
    callbacks := callbacks
    nodes := Function.update nodes this (some { node with next := none, prev := none }) }

/-- `StopCallback::Execute`. -/
def execute (state : StopState) (this : Nat) : Option StopState := do
  let node ← state.nodes this
  { state with runs := state.runs ++ [node.value] }.unlink this

/-- The constructor of `StopCallback`. -/
def construct (state : StopState) (this : Nat) : Option StopState :=
  let built : StopState := { state with
    nodes := Function.update state.nodes this (some ⟨none, none, state.constructed⟩)
    constructed := state.constructed + 1 }
  if built.cancelled then built.execute this
  else
    match built.callbacks with
    | none => some { built with callbacks := some this }
    | some head => do
        let nodes ← writePrev built.nodes (some head) (some this)
        let nodes ← writeNext nodes (some this) (some head)
        some { built with nodes := nodes, callbacks := some this }

/-- The destructor of `StopCallback`. -/
def destroy (state : StopState) (this : Nat) : Option StopState := do
  let state ← state.unlink this
  some { state with nodes := Function.update state.nodes this none }

/-- The loop of `StopSource::Stop`. There is no result if the fuel does not suffice. -/
def executeAll : Nat → StopState → Option StopState
  | 0, _ => none
  | fuel + 1, state =>
      match state.callbacks with
      | none => some state
      | some this => do executeAll fuel (← state.execute this)

/-- `StopSource::Stop`. -/
def stop (state : StopState) : Option StopState :=
  executeAll (state.constructed + 1) { state with cancelled := true }

def event (state : StopState) : StopEvent → Option StopState
  | .construct address => state.construct address
  | .destroy address => state.destroy address
  | .stop => state.stop

/-- The state after some events. -/
def events (state : StopState) : List StopEvent → Option StopState
  | [] => some state
  | first :: rest => do (← state.event first).events rest

end StopState

end Metamorphosis
