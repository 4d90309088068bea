import Mathlib.Logic.Function.Basic

/-!
The fibers of the simulator, the scheduler that picks the next one, and the parts of the world that make
a fiber sleep and wake up. Fibers run one at a time and change only when the running one waits, yields or
ends. `C` is the code that a fiber still has to run.
-/

namespace Metamorphosis.Simulator

/-- A `VERIFY` that failed, or something that the language leaves undefined. -/
inductive Failure where
  | dispatcherHasHost
  | mainFiberAwakened
  | noReadyFibers
  | erasedTwice
  | eventTimestamp
  | sleepTimestamp
  | sleepUntil
  | toGlobalTime
  | noCurrentHost
  | fiberEpoch
  | addressUsed
  | hostNotRegistered
  | portUsed
  | serverNotRegistered
  | databaseState
  | database
deriving DecidableEq

/-- `RuntimeSimulationProps`. A host is its address. -/
structure Props where
  isMain : Bool
  hostInitialized : Bool
  currentHost : Option Nat
  hostEpoch : Nat
deriving DecidableEq

/-- The properties of a fiber that the scheduler has not seen. -/
def Props.new : Props := ⟨false, false, none, 0⟩

/-- `RuntimeSimulationProps::SetCurrentHost`. -/
def Props.setCurrentHost (props : Props) (host : Option Nat) (epoch : Nat) : Props :=
  { props with hostInitialized := true, currentHost := host, hostEpoch := epoch }

/-- What a fiber waits for. A sleep is named by its number, and `awake` and `answered` fibers were
signaled but have not run yet. -/
inductive Status where
  | ready
  | asleep (sleep : Nat)
  | awake (sleep : Nat)
  | awaits
  | answered
  | waits
  | finished
deriving DecidableEq

structure Fiber (C : Type) where
  props : Props
  status : Status
  code : C

/-- The test's own fiber, which becomes the main fiber in `RunSimulation`. -/
def mainFiber : Nat := 0

/-- The fiber of the fiber library that picks another one whenever it runs. -/
def dispatcher : Nat := 1

/-- One fiber runs, or the next one is about to be picked. A fiber that yields is put back afterwards. -/
inductive Control where
  | runs (f : Nat)
  | picks (back : Option Nat)
deriving DecidableEq

/-- One call of `World::SleepUntil` and the time at which it went on. -/
structure Sleep where
  fiber : Nat
  begun : Nat
  wakeUpTime : Nat
  token : Option Nat
  resumed : Option Nat
deriving DecidableEq

/-- The host and epoch of a creator and of its new fiber, and whether the creator has changed its own
since it was picked. -/
structure Birth where
  creatorHost : Option Nat
  creatorEpoch : Nat
  childHost : Option Nat
  childEpoch : Nat
  switched : Bool
deriving DecidableEq

structure Runtime (C : Type) where
  fibers : Nat → Fiber C
  nextFiber : Nat
  readyFibers : List Nat
  mainReady : Bool
  lastHost : Option Nat
  lastEpoch : Nat
  control : Control
  switched : Bool
  births : List Birth
  currentTime : Nat
  /-- `events_queue_`: the time and the number of a sleep. -/
  eventsQueue : List (Nat × Nat)
  sleeps : List Sleep
  /-- When a stop source was stopped. -/
  stopTimes : Nat → Option Nat
  /-- The fibers with a callback in a stop source, the newest one first. -/
  callbacks : List (Nat × Nat)
  failed : Option Failure

/-- `std::multimap::insert`: behind the entries of the same time. -/
def insertEvent (event : Nat × Nat) : List (Nat × Nat) → List (Nat × Nat)
  | [] => [event]
  | first :: rest => if first.1 ≤ event.1 then first :: insertEvent event rest else event :: first :: rest

namespace Runtime
variable {C : Type}

def fail (r : Runtime C) (failure : Failure) : Runtime C := { r with failed := some failure }

def setFiber (r : Runtime C) (f : Nat) (fiber : Fiber C) : Runtime C :=
  { r with fibers := Function.update r.fibers f fiber }

def setCode (r : Runtime C) (f : Nat) (code : C) : Runtime C := r.setFiber f { r.fibers f with code := code }

def setStatus (r : Runtime C) (f : Nat) (status : Status) : Runtime C :=
  r.setFiber f { r.fibers f with status := status }

/-- `RuntimeSimulationScheduler::awakened`. -/
def awakened (r : Runtime C) (f : Nat) : Runtime C :=
  let old := (r.fibers f).props
  let props := if old.hostInitialized then old else old.setCurrentHost r.lastHost r.lastEpoch
  { r.setFiber f { r.fibers f with props := props } with
    readyFibers := if props.isMain then r.readyFibers else r.readyFibers ++ [f]
    mainReady := props.isMain || r.mainReady
    failed :=
      if f = dispatcher ∧ props.currentHost ≠ none then some .dispatcherHasHost
      else if props.isMain ∧ r.mainReady then some .mainFiberAwakened
      else r.failed }

/-- The fiber that `pick_next` takes: any ready one, and the main fiber when there is none. -/
def chosen (r : Runtime C) (choice : Nat) : Option Nat :=
  if r.readyFibers = [] then (if r.mainReady then some mainFiber else none) else r.readyFibers[choice]?

/-- `RuntimeSimulationScheduler::pick_next`. -/
def pickNext (r : Runtime C) (f choice : Nat) : Runtime C :=
  let props := (r.fibers f).props
  let noted := props.currentHost.isSome || props.isMain
  { r with
    readyFibers := r.readyFibers.eraseIdx choice
    mainReady := if r.readyFibers = [] then false else r.mainReady
    lastHost := if noted then props.currentHost else r.lastHost
    lastEpoch := if noted then props.hostEpoch else r.lastEpoch
    control := .runs f
    switched := false }

/-- A signaled fiber leaves `Await` and destroys its `StopCallback`. -/
def resume (r : Runtime C) (f : Nat) : Runtime C :=
  match (r.fibers f).status with
  | .awake sleep =>
      { r.setStatus f .ready with
        callbacks := r.callbacks.filter fun callback => callback.2 ≠ f
        sleeps := r.sleeps.modify sleep fun sleep => { sleep with resumed := some r.currentTime } }
  | .answered => { r.setStatus f .ready with callbacks := r.callbacks.filter fun callback => callback.2 ≠ f }
  | _ => r

/-- A fiber that yielded is put back when the next one was picked. -/
def putBack (r : Runtime C) : Option Nat → Runtime C
  | none => r
  | some f => r.awakened f

/-- The switch to the next fiber. -/
def pick (r : Runtime C) (back : Option Nat) (choice : Nat) : Option (Runtime C) :=
  if r.readyFibers = [] ∧ r.mainReady = false then some (r.fail .noReadyFibers)
  else (r.chosen choice).map fun f => ((r.pickNext f choice).putBack back).resume f

/-- `boost::this_fiber::yield`. -/
def yield (r : Runtime C) (f : Nat) : Runtime C := { r with control := .picks (some f) }

/-- A fiber waits or ends. -/
def suspend (r : Runtime C) (f : Nat) (status : Status) (code : C) : Runtime C :=
  { r.setFiber f { r.fibers f with status := status, code := code } with control := .picks none }

/-- A waiting fiber is notified. -/
def wake (r : Runtime C) (f : Nat) (status : Status) : Runtime C := (r.setStatus f status).awakened f

/-- A fiber with its own properties that was not started yet. -/
def birth (r : Runtime C) (code : C) : Runtime C :=
  { r.setFiber r.nextFiber ⟨Props.new, .ready, code⟩ with nextFiber := r.nextFiber + 1 }

/-- A fiber is created with `launch::post`: the scheduler sees it while its creator `f` runs. -/
def spawn (r : Runtime C) (f : Nat) (code : C) : Runtime C :=
  let creator := (r.fibers f).props
  let next := (r.birth code).awakened r.nextFiber
  let child := (next.fibers r.nextFiber).props
  { next with births :=
      ⟨creator.currentHost, creator.hostEpoch, child.currentHost, child.hostEpoch, r.switched⟩ :: r.births }

/-- A fiber is created with `launch::dispatch`: it runs at once and its creator is put back. -/
def dispatch (r : Runtime C) (f : Nat) (code : C) : Runtime C :=
  { (r.birth code).awakened f with control := .runs r.nextFiber, switched := false }

/-- The running fiber changes its own host. -/
def setCurrentHost (r : Runtime C) (f host epoch : Nat) : Runtime C :=
  let fiber := r.fibers f
  { r.setFiber f { fiber with props := fiber.props.setCurrentHost (some host) epoch } with
    switched := r.switched || fiber.props.currentHost ≠ some host || fiber.props.hostEpoch ≠ epoch }

/-- `StopToken::StopRequested`. -/
def stopRequested (r : Runtime C) (token : Option Nat) : Bool := token.any fun source => (r.stopTimes source).isSome

/-- The constructor of `StopCallback` for a source that is not stopped. -/
def register (r : Runtime C) (token : Option Nat) (f : Nat) : List (Nat × Nat) :=
  match token with
  | none => r.callbacks
  | some source => (source, f) :: r.callbacks

/-- `World::SleepUntil`. With a stopped token the constructor of `StopCallback` erases the new entry and
signals the event, so that the fiber goes on. -/
def sleepUntil (r : Runtime C) (f wakeUpTime : Nat) (token : Option Nat) (next : C) : Runtime C :=
  if r.stopRequested token then
    { r.setCode f next with sleeps := r.sleeps ++ [⟨f, r.currentTime, wakeUpTime, token, some r.currentTime⟩] }
  else
    { r.suspend f (.asleep r.sleeps.length) next with
      sleeps := r.sleeps ++ [⟨f, r.currentTime, wakeUpTime, token, none⟩]
      eventsQueue := insertEvent (wakeUpTime, r.sleeps.length) r.eventsQueue
      callbacks := r.register token f }

/-- The end of `World::MakeRequest`: the caller awaits an event that its token signals too. -/
def awaitReply (r : Runtime C) (f : Nat) (token : Option Nat) (next : C) : Runtime C :=
  if r.stopRequested token then r.setCode f next
  else { r.suspend f .awaits next with callbacks := r.register token f }

/-- `StopCallback::Execute` with the callback of a fiber. The callback of a sleep erases its entry. -/
def execute (r : Runtime C) (f : Nat) : Runtime C :=
  match (r.fibers f).status with
  | .asleep sleep | .awake sleep =>
      if r.eventsQueue.any fun event => event.2 = sleep then
        { r with eventsQueue := r.eventsQueue.filter fun event => event.2 ≠ sleep }.wake f (.awake sleep)
      else r.fail .erasedTwice
  | .awaits => r.wake f .answered
  | _ => r

/-- `StopSource::Stop`. -/
def stop (r : Runtime C) (source : Nat) : Runtime C :=
  let called := (r.callbacks.filter fun callback => callback.1 = source).map Prod.snd
  called.foldl execute
    { r with
      stopTimes := Function.update r.stopTimes source (some ((r.stopTimes source).getD r.currentTime))
      callbacks := r.callbacks.filter fun callback => callback.1 ≠ source }

/-- `Event::Signal` for the event of a sleep. -/
def signal (r : Runtime C) (sleep : Nat) : Runtime C :=
  match r.sleeps[sleep]? with
  | none => r
  | some entry =>
      if (r.fibers entry.fiber).status = .asleep sleep then r.wake entry.fiber (.awake sleep) else r

/-- One round of the loop of `RunSimulation`, up to its `yield`. -/
def popEvent (r : Runtime C) (event : Nat × Nat) : Runtime C :=
  if event.1 < r.currentTime then r.fail .eventTimestamp
  else { r with eventsQueue := r.eventsQueue.tail, currentTime := event.1 }.signal event.2

end Runtime

end Metamorphosis.Simulator
