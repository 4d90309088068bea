import Mathlib.Logic.Function.Basic
import Mathlib.Logic.Relation
import Metamorphosis.Construction.Errors
import Metamorphosis.Library.Monitor

/-!
The rpc server of the simulator. Calls of its methods run on fibers that change only where a call waits: on an event, on
a latch, in the handler of a service, or because the host is paused.
-/

namespace Metamorphosis.Simulator

/-- `Event`; the calls that wait on it are named by their numbers. -/
abbrev Event := Monitor Nat Bool

/-- `Event::Signal`. -/
def Event.signal (event : Event) : Event := event.notifyAll true

/-- `Latch`. -/
abbrev Latch := Monitor Nat Nat

/-- The constructor of `LatchGuard`. -/
def Latch.enter (latch : Latch) : Latch := latch.assign (latch.value + 1)

/-- The destructor of `LatchGuard`. -/
def Latch.leave (latch : Latch) : Latch :=
  if latch.value - 1 = 0 then latch.notifyAll (latch.value - 1) else latch.assign (latch.value - 1)

/-- The arguments of `ProcessRequest`. -/
structure ServerRequest where
  data : List UInt8
  serviceName : String
  handlerName : String
deriving DecidableEq

/-- The result of `ProcessRequest`. -/
abbrev ServerResult := Except RpcError (List UInt8)

/-- Where a call of the server waits. -/
inductive ServerCall where
  /-- `Start`, in `StopFiberIfNecessary` of the host. -/
  | starting
  /-- `Run`, for the end of the server. -/
  | running
  /-- `ShutDown`, in `StopFiberIfNecessary` of the host. -/
  | unregistering
  /-- `ShutDown`, for the end of all requests. -/
  | draining
  /-- `ProcessRequest`, for a worker. -/
  | entered (request : ServerRequest)
  /-- `ProcessRequest`, in the handler of a service. -/
  | handling (request : ServerRequest)
deriving DecidableEq

/-- What a call returned. -/
inductive ServerReturn where
  | start
  | run
  | shutDown
  | processRequest (request : ServerRequest) (result : ServerResult)

/-- A `VERIFY` that failed. -/
inductive ServerFailure where
  | serviceRegistered
  | alreadyRunning
  | notRunning
  | alreadyFinished
  | portUsed
  | serverNotRegistered
deriving DecidableEq

/-- `ServerImpl`, and whether its host has it at its port. -/
structure RpcServer where
  services : List String
  running : Bool
  finished : Bool
  requestsLatch : Latch
  workerStarted : Event
  shutdownEvent : Event
  registered : Bool
  /-- The host was killed. The fibers of the killed host block for good in `StopFiberIfNecessary`. -/
  killed : Bool
  calls : Nat → Option ServerCall
  returned : List ServerReturn
  failed : Option ServerFailure

/-- What may happen to a server. A new call has a number that no other call has. -/
inductive ServerAction where
  | register (service : String)
  | start (call : Nat)
  | registerServer (call : Nat)
  | run (call : Nat)
  | shutDown (call : Nat)
  | unregisterServer (call : Nat)
  | processRequest (call : Nat) (request : ServerRequest)
  /-- A call that is not blocked looks at its condition again. -/
  | wake (call : Nat)
  /-- The handler of a service ends. -/
  | handled (call : Nat) (result : ServerResult)
  | killHost

namespace RpcServer

def new : RpcServer := ⟨[], false, false, ⟨0, []⟩, ⟨false, []⟩, ⟨false, []⟩, false, false, fun _ => none, [], none⟩

def fail (s : RpcServer) (failure : ServerFailure) : RpcServer := { s with failed := some failure }

def setCall (s : RpcServer) (f : Nat) (call : ServerCall) : RpcServer :=
  { s with calls := Function.update s.calls f (some call) }

/-- A call returns. -/
def endCall (s : RpcServer) (f : Nat) (value : ServerReturn) : RpcServer :=
  { s with calls := Function.update s.calls f none, returned := s.returned ++ [value] }

/-- `Run` at `shutdown_event_.Await`. -/
def awaitShutdown (s : RpcServer) (f : Nat) : RpcServer :=
  match s.shutdownEvent.await id f with
  | (true, _) => s.endCall f .run
  | (false, event) => { s with shutdownEvent := event }.setCall f .running

/-- `ShutDown` from `requests_latch_.AwaitZero` on. -/
def awaitZero (s : RpcServer) (f : Nat) : RpcServer :=
  match s.requestsLatch.await (· == 0) f with
  | (true, _) => { s with shutdownEvent := s.shutdownEvent.signal }.endCall f .shutDown
  | (false, latch) => { s with requestsLatch := latch }.setCall f .draining

/-- The end of `ProcessRequest` with its guard. -/
def endRequest (s : RpcServer) (f : Nat) (request : ServerRequest) (result : ServerResult) : RpcServer :=
  { s with requestsLatch := s.requestsLatch.leave }.endCall f (.processRequest request result)

/-- `ProcessRequest` once a worker has started. -/
def dispatch (s : RpcServer) (f : Nat) (request : ServerRequest) : RpcServer :=
  if request.serviceName ∈ s.services then s.setCall f (.handling request)
  else s.endRequest f request (.error ⟨.handlerNotFound, "Unknown service: " ++ request.serviceName⟩)

/-- `ProcessRequest` at `worker_started_.Await`. -/
def awaitWorker (s : RpcServer) (f : Nat) (request : ServerRequest) : RpcServer :=
  match s.workerStarted.await id f with
  | (true, _) => s.dispatch f request
  | (false, event) => { s with workerStarted := event }.setCall f (.entered request)

/-- A call that is not blocked looks at its condition again. -/
def wake (s : RpcServer) (f : Nat) : Option RpcServer :=
  match s.calls f with
  | some .running => if f ∈ s.shutdownEvent.waiting then none else some (s.awaitShutdown f)
  | some .draining => if f ∈ s.requestsLatch.waiting then none else some (s.awaitZero f)
  | some (.entered request) => if f ∈ s.workerStarted.waiting then none else some (s.awaitWorker f request)
  | _ => none

/-- One step; `none` where it is not possible. -/
def act (s : RpcServer) : ServerAction → Option RpcServer
  | .register service =>
      some (if service ∈ s.services then s.fail .serviceRegistered else { s with services := service :: s.services })
  | .start f =>
      if s.calls f = none then
        some (if s.running then s.fail .alreadyRunning else { s with running := true }.setCall f .starting)
      else none
  | .registerServer f =>
      if s.calls f = some .starting ∧ s.killed = false then
        some (if s.registered then s.fail .portUsed else { s with registered := true }.endCall f .start)
      else none
  | .run f =>
      if s.calls f = none then some ({ s with workerStarted := s.workerStarted.signal }.awaitShutdown f) else none
  | .shutDown f =>
      if s.calls f = none then
        some (if s.running = false then s.fail .notRunning
          else if s.finished then s.fail .alreadyFinished
          else { s with finished := true }.setCall f .unregistering)
      else none
  | .unregisterServer f =>
      if s.calls f = some .unregistering ∧ s.killed = false then
        some (if s.registered then { s with registered := false }.awaitZero f else s.fail .serverNotRegistered)
      else none
  | .processRequest f request =>
      if s.calls f = none then
        some (if s.registered then { s with requestsLatch := s.requestsLatch.enter }.awaitWorker f request
          else { s with returned := s.returned ++ [.processRequest request (.error ⟨.connectionRefused, ""⟩)] })
      else none
  | .wake f => s.wake f
  | .handled f result =>
      match s.calls f with
      | some (.handling request) => some (s.endRequest f request result)
      | _ => none
  | .killHost => some { s with registered := false, killed := true }

/-- A step of a server none of whose `VERIFY`s has failed. -/
def step (s : RpcServer) (action : ServerAction) : Option RpcServer := if s.failed = none then s.act action else none

/-- A run whose steps all meet a condition. -/
abbrev Run (allowed : ServerAction → Prop) : RpcServer → RpcServer → Prop :=
  Relation.ReflTransGen fun s t => ∃ action, allowed action ∧ s.step action = some t

end RpcServer

end Metamorphosis.Simulator
