import Metamorphosis.Construction.Errors
import Metamorphosis.Construction.Simulator.Database
import Metamorphosis.Construction.Simulator.Runtime
import Metamorphosis.Library.Script

/-!
The hosts and the world of the simulator. What the simulated programs do between two calls of the
simulator is not fixed: a running fiber may make any call. Random values are part of a move.
-/

namespace Metamorphosis.Simulator

/-- `IComparator`. -/
structure Comparator where
  name : String
  compare : Data → Data → Option Int

structure HostDatabase where
  comparator : Comparator
  data : DataMap
  epoch : Nat

/-- `Duration::max()`. -/
def maxDuration : Nat := 2 ^ 63 - 1

/-- `BinarySearch`. Every round shortens the interval, so `rounds` bounds their number. -/
def binarySearch (predicate : Nat → Bool) : (rounds first last : Nat) → Nat
  | 0, first, _ => first
  | rounds + 1, first, last =>
      if first < last then
        let middle := first + (last - first) / 2
        if predicate middle then binarySearch predicate rounds first middle
        else binarySearch predicate rounds (middle + 1) last
      else first

/-- The clock of a host. `drifted` is `drift_ * global_time`, rounded to a duration. -/
structure Clock where
  startTime : Int
  drifted : Nat → Int
  maxSleepLag : Nat

namespace Clock

/-- `Host::ToLocalTime`. -/
def toLocalTime (clock : Clock) (globalTime : Nat) : Int := globalTime + (clock.drifted globalTime + clock.startTime)

/-- `Host::ToGlobalTime` before its `VERIFY`. -/
def toGlobalTime (clock : Clock) (localTime : Int) : Nat :=
  binarySearch (fun value => localTime ≤ clock.toLocalTime value) maxDuration 0 maxDuration

end Clock

/-- `Host`. `mainFiber` is the main fiber as long as it is joinable. -/
structure Host where
  clock : Clock
  servers : Nat → Option Nat
  databases : String → Option HostDatabase
  paused : Bool
  epoch : Nat
  mainFiber : Option Nat

namespace Host

/-- A host before its constructor calls `StartHost`. -/
def new (clock : Clock) : Host := ⟨clock, fun _ => none, fun _ => none, false, 0, none⟩

/-- `Host::KillHost`. -/
def killHost (host : Host) : Host :=
  match host.mainFiber with
  | none => host
  | some _ => { host with servers := fun _ => none, mainFiber := none, epoch := host.epoch + 1 }

end Host

/-- The result of an rpc. -/
abbrev RpcResult := Except RpcErrorType Data

/-- What the delivery fiber of `World::MakeRequest` keeps. `state` is the number of its `State`. -/
structure Delivery where
  sender : Nat
  target : Nat
  port : Nat
  token : Option Nat
  state : Nat
  networkError : Bool

/-- What follows a call of `StopFiberIfNecessary`. -/
inductive Operation where
  | openDatabase (path : String) (createIfMissing : Bool) (comparator : Comparator)
  | execute (owner : Nat) (path : String) (command : Command Data Data) (rest : List (Command Data Data))
  | read
  | registerServer (server port : Nat)
  | unregisterServer (port : Nat)
  | makeRequest (target port : Nat) (token : Option Nat)
  | requestMade
  | processRequest (delivery : Delivery)
  | requestProcessed (delivery : Delivery) (result : RpcResult)
  | slept

/-- The operations that programs call. `execute` is `Put`, `Delete` and `DeleteRange` with no commands
left and `Write` otherwise. `read` stands for `Get`, `NewIterator` and the iterators. -/
def Operation.isCall : Operation → Bool
  | openDatabase .. | execute .. | read | registerServer .. | unregisterServer _ | makeRequest .. => true
  | requestMade | processRequest _ | requestProcessed .. | slept => false

/-- What a fiber does when it runs next. In `user` it runs a program, which is the handler of a request
if there is a delivery. -/
inductive Code where
  | user (handles : Option Delivery)
  | operation (operation : Operation) (handles : Option Delivery)
  | blocked
  | slept (wakeUpTime : Nat) (token : Option Nat) (handles : Option Delivery)
  | replied (state : Nat) (handles : Option Delivery)
  | runMain
  | deliver (delivery : Delivery)
  | delivered (delivery : Delivery)
  | answer (delivery : Delivery) (result : RpcResult)
  | answered (delivery : Delivery) (result : RpcResult)
  | addHost (address : Nat) (handles : Option Delivery)
  | runSimulation (duration iterationCount : Nat)
  | endSimulation
  | returned
  | dispatcher
  | finished

/-- `State` of `World::MakeRequest`. -/
structure RpcState where
  caller : Nat
  result : RpcResult

/-- The fiber that did something, with its host and epoch. -/
structure Trace where
  fiber : Nat
  host : Nat
  epoch : Nat
deriving DecidableEq

structure World extends Runtime Code where
  hosts : Nat → Option Host
  /-- The keys of `hosts_`. -/
  added : List Nat
  states : List RpcState
  closedLinks : List (Nat × Nat)
  /-- The calls of `World::MakeRequest`. -/
  requests : List Trace
  /-- The returns of `Host::ProcessRequest`. -/
  replies : List Trace

/-- The random values that code of the simulator may draw. -/
structure Choice where
  delay : Nat
  lag : Nat
  networkError : Bool
  lost : Bool

/-- What a program may do. -/
inductive UserAction where
  | spawn
  | dispatch
  | yield
  | wait
  | wake (f : Nat)
  | finish
  | reply (result : RpcResult)
  | call (operation : Operation)
  | sleepUntil (localTime : Int) (token : Option Nat)
  | stop (source : Nat)
  | pauseHost (address : Nat)
  | resumeHost (address : Nat)
  | killHost (address : Nat)
  | startHost (address : Nat)
  | closeLink (sender target : Nat)
  | restoreLink (sender target : Nat)
  | addHost (address : Nat) (clock : Clock)
  | runSimulation (duration iterationCount : Nat)

inductive Move where
  | pick (choice : Nat)
  | user (action : UserAction) (choice : Choice)
  | go (choice : Choice)

namespace World

/-- A change of the fibers. -/
def onRuntime (w : World) (change : Runtime Code → Runtime Code) : World :=
  { w with toRuntime := change w.toRuntime }

def modifyHost (w : World) (address : Nat) (change : Host → Host) : World :=
  { w with hosts := Function.update w.hosts address ((w.hosts address).map change) }

/-- `Host::ResumeHost` notifies the fibers that wait for the end of a pause. -/
def notifyPaused (address : Nat) (r : Runtime Code) (f : Nat) : Runtime Code :=
  match (r.fibers f).status, (r.fibers f).code with
  | .waits, .operation _ _ => if (r.fibers f).props.currentHost = some address then r.wake f .ready else r
  | _, _ => r

/-- `Host::ResumeHost`. -/
def resumeHost (w : World) (address : Nat) : World :=
  let resumed := w.modifyHost address fun host => { host with paused := false }
  resumed.onRuntime fun r => (List.range r.nextFiber).foldl (notifyPaused address) r

/-- `Host::StartHost`, which yields when it started the main fiber. -/
def startHost (w : World) (f address : Nat) : World :=
  match w.hosts address with
  | none => w
  | some host =>
      match host.mainFiber with
      | some _ => w
      | none =>
          let started := w.modifyHost address fun host => { host with mainFiber := some w.nextFiber }
          started.onRuntime fun r =>
            let r := r.spawn f .runMain
            let main := r.fibers w.nextFiber
            (r.setFiber w.nextFiber
              { main with props := main.props.setCurrentHost (some address) host.epoch }).yield f

/-- `Host::SleepUntil` up to the end of `World::SleepUntil`. -/
def sleepUntil (w : World) (f : Nat) (host : Host) (localTime : Int) (token : Option Nat) (lag : Nat)
    (handles : Option Delivery) : Option World :=
  if host.clock.maxSleepLag < lag then none
  else
    let globalTime := host.clock.toGlobalTime (localTime + lag)
    some <| w.onRuntime fun r =>
      if host.clock.toLocalTime globalTime < localTime + lag then r.fail .toGlobalTime
      else if globalTime < r.currentTime then r.fail .sleepTimestamp
      else r.sleepUntil f globalTime token (.slept globalTime token handles)

/-- `World::MakeRequest` up to its `Await`. -/
def makeRequest (w : World) (f host epoch target port : Nat) (token : Option Nat) (handles : Option Delivery) :
    World :=
  let state := w.states.length
  { w with
    toRuntime := (w.toRuntime.spawn f (.deliver ⟨host, target, port, token, state, false⟩)).awaitReply f token
      (.replied state handles)
    states := w.states ++ [⟨f, .error .cancelled⟩]
    requests := ⟨f, host, epoch⟩ :: w.requests }

/-- `Host::ProcessRequest` returns. -/
def returnReply (w : World) (f host epoch : Nat) (delivery : Delivery) (result : RpcResult) : World :=
  { w.onRuntime fun r => r.setCode f (.answer delivery result) with replies := ⟨f, host, epoch⟩ :: w.replies }

/-- The delivery fiber sets the result, signals the caller and ends. -/
def respond (w : World) (f : Nat) (delivery : Delivery) (result : RpcResult) : World :=
  let caller := (w.states[delivery.state]?).map RpcState.caller
  { w with
    states := w.states.modify delivery.state fun state => { state with result := result }
    toRuntime :=
      let r := match caller with
        | none => w.toRuntime
        | some g =>
            match (w.fibers g).status, (w.fibers g).code with
            | .awaits, .replied state _ => if state = delivery.state then w.toRuntime.wake g .answered else w.toRuntime
            | _, _ => w.toRuntime
      r.suspend f .finished .finished }

/-- The delivery fiber after its first sleep. -/
def deliver (w : World) (f : Nat) (delivery : Delivery) (choice : Choice) : World :=
  if choice.networkError ∧ choice.lost then w.respond f delivery (.error .networkError)
  else if delivery.target ∉ w.added then w.respond f delivery (.error .connectionRefused)
  else if (delivery.sender, delivery.target) ∈ w.closedLinks then w.respond f delivery (.error .networkError)
  else
    match w.hosts delivery.target with
    | none => w
    | some host =>
        w.onRuntime fun r =>
          let r := r.setCurrentHost f delivery.target host.epoch
          if r.stopRequested delivery.token then r.suspend f .finished .finished
          else
            r.setCode f
              (.operation (.processRequest { delivery with networkError := choice.networkError }) none)

/-- The delivery fiber after its second sleep. -/
def answer (w : World) (f : Nat) (delivery : Delivery) (result : RpcResult) : World :=
  if (delivery.sender, delivery.target) ∈ w.closedLinks then w.respond f delivery (.error .networkError)
  else if delivery.networkError then w.respond f delivery (.error .networkError)
  else w.respond f delivery result

/-- `Database::Open`. Only its result depends on the name of the comparator. -/
def openDatabase (host : Host) (path : String) (createIfMissing : Bool) (comparator : Comparator) (epoch : Nat) :
    Option Host :=
  match host.databases path with
  | none =>
      if createIfMissing then
        some { host with databases := Function.update host.databases path (some ⟨comparator, [], epoch⟩) }
      else some host
  | some database =>
      if epoch < database.epoch then none
      else some { host with databases := Function.update host.databases path (some { database with epoch := epoch }) }

/-- The effect of an operation after `StopFiberIfNecessary` let the fiber pass. -/
def perform (w : World) (f address : Nat) (host : Host) (epoch : Nat) (handles : Option Delivery) :
    Operation → World
  | .openDatabase path createIfMissing comparator =>
      match openDatabase host path createIfMissing comparator epoch with
      | none => w.onRuntime fun r => r.fail .databaseState
      | some opened => (w.modifyHost address fun _ => opened).onRuntime fun r => r.setCode f (.user handles)
  | .execute owner path command rest =>
      match (w.hosts owner).bind fun host => host.databases path with
      | none => w.onRuntime fun r => r.fail .database
      | some database =>
          match executeData (lessKeys database.comparator.compare) database.data command with
          | none => w.onRuntime fun r => r.fail .database
          | some data =>
              let written := w.modifyHost owner fun host =>
                { host with databases := Function.update host.databases path (some { database with data := data }) }
              match rest with
              | [] => written.onRuntime fun r => r.setCode f (.user handles)
              | next :: rest =>
                  written.onRuntime fun r => r.setCode f (.operation (.execute owner path next rest) handles)
  | .registerServer server port =>
      match host.servers port with
      | some _ => w.onRuntime fun r => r.fail .portUsed
      | none =>
          (w.modifyHost address fun host =>
            { host with servers := Function.update host.servers port (some server) }).onRuntime fun r =>
              r.setCode f (.user handles)
  | .unregisterServer port =>
      match host.servers port with
      | none => w.onRuntime fun r => r.fail .serverNotRegistered
      | some _ =>
          (w.modifyHost address fun host =>
            { host with servers := Function.update host.servers port none }).onRuntime fun r =>
              r.setCode f (.user handles)
  | .makeRequest target port token => w.makeRequest f address epoch target port token handles
  | .processRequest delivery =>
      match host.servers delivery.port with
      | none => w.returnReply f address epoch delivery (.error .connectionRefused)
      | some _ => w.onRuntime fun r => r.setCode f (.user (some delivery))
  | .requestProcessed delivery result => w.returnReply f address epoch delivery result
  | .read | .requestMade | .slept => w.onRuntime fun r => r.setCode f (.user handles)

/-- `Host::StopFiberIfNecessary` on the current host of a fiber. -/
def stopFiberIfNecessary (w : World) (f : Nat) (operation : Operation) (handles : Option Delivery) : World :=
  let props := (w.fibers f).props
  match props.currentHost with
  | none => w.onRuntime fun r => r.fail .noCurrentHost
  | some address =>
      match w.hosts address with
      | none => w.onRuntime fun r => r.fail .noCurrentHost
      | some host =>
          if host.paused then w.onRuntime fun r => r.suspend f .waits (.operation operation handles)
          else if host.epoch < props.hostEpoch then w.onRuntime fun r => r.fail .fiberEpoch
          else if props.hostEpoch ≠ host.epoch then w.onRuntime fun r => r.suspend f .waits .blocked
          else w.perform f address host props.hostEpoch handles operation

/-- `World::GetHost`. -/
def onHost (w : World) (address : Nat) (next : World → World) : World :=
  if address ∈ w.added then next w else w.onRuntime fun r => r.fail .hostNotRegistered

/-- A call by a running program. A fiber that the scheduler has not seen yet has to yield before it can
read its properties, and `GetCurrentHost` needs a host. -/
def act (w : World) (f : Nat) (handles : Option Delivery) (choice : Choice) : UserAction → Option World
  | .spawn => some (w.onRuntime fun r => r.spawn f (.user none))
  | .dispatch => some (w.onRuntime fun r => r.dispatch f (.user none))
  | .yield => some (w.onRuntime fun r => r.yield f)
  | .wait => some (w.onRuntime fun r => r.suspend f .waits (.user handles))
  | .wake g =>
      match (w.fibers g).status, (w.fibers g).code with
      | .waits, .user _ => some (w.onRuntime fun r => r.wake g .ready)
      | _, _ => none
  | .finish =>
      if f = mainFiber ∨ handles.isSome then none else some (w.onRuntime fun r => r.suspend f .finished .finished)
  | .reply result =>
      match handles with
      | none => none
      | some delivery => some (w.onRuntime fun r => r.setCode f (.operation (.requestProcessed delivery result) none))
  | .call operation =>
      if (w.fibers f).props.hostInitialized ∧ operation.isCall then
        match (w.fibers f).props.currentHost with
        | none => some (w.onRuntime fun r => r.fail .noCurrentHost)
        | some _ => some (w.onRuntime fun r => r.setCode f (.operation operation handles))
      else none
  | .sleepUntil localTime token =>
      if (w.fibers f).props.hostInitialized then
        match (w.fibers f).props.currentHost.bind w.hosts with
        | none => some (w.onRuntime fun r => r.fail .noCurrentHost)
        | some host => w.sleepUntil f host localTime token choice.lag handles
      else none
  | .stop source => some (w.onRuntime fun r => r.stop source)
  | .pauseHost address =>
      some (w.onHost address fun w => w.modifyHost address fun host => { host with paused := true })
  | .resumeHost address => some (w.onHost address fun w => w.resumeHost address)
  | .killHost address => some (w.onHost address fun w => w.modifyHost address Host.killHost)
  | .startHost address => some (w.onHost address fun w => w.startHost f address)
  | .closeLink sender target => some { w with closedLinks := (sender, target) :: w.closedLinks }
  | .restoreLink sender target =>
      some { w with closedLinks := w.closedLinks.filter fun link => link ≠ (sender, target) }
  | .addHost address clock =>
      match w.hosts address with
      | some _ => some (w.onRuntime fun r => r.fail .addressUsed)
      | none =>
          let built := { w with hosts := Function.update w.hosts address (some (Host.new clock)) }
          some ((built.onRuntime fun r => r.setCode f (.addHost address handles)).startHost f address)
  | .runSimulation duration iterationCount =>
      if f = mainFiber ∧ (w.fibers f).props.hostInitialized then
        some (w.onRuntime fun r =>
          (r.setFiber f { r.fibers f with
            props := { (r.fibers f).props with isMain := true }
            code := .runSimulation duration iterationCount }).yield f)
      else none

/-- Every host is killed and resumed, so that its fibers block. -/
def killAll (w : World) : World :=
  w.added.foldl (fun w address => (w.modifyHost address Host.killHost).resumeHost address) w

/-- The end of `RunSimulation` up to its last `yield`. -/
def endSimulation (w : World) (f : Nat) : World :=
  (w.onRuntime fun r => r.setCode f .endSimulation).killAll.onRuntime fun r => r.yield f

/-- The end of `RunSimulation` behind its last `yield`. -/
def clear (w : World) (f : Nat) : World :=
  { w.onRuntime fun r => { r.setCode f .returned with eventsQueue := [], currentTime := 0 } with
    hosts := fun _ => none
    added := []
    closedLinks := [] }

/-- The code of the simulator that a running fiber goes on with. -/
def go (w : World) (f : Nat) (choice : Choice) : Option World :=
  match (w.fibers f).code with
  | .operation operation handles => some (w.stopFiberIfNecessary f operation handles)
  | .slept wakeUpTime token handles =>
      some (w.onRuntime fun r =>
        if r.currentTime = wakeUpTime ∨ r.stopRequested token then r.setCode f (.operation .slept handles)
        else r.fail .sleepUntil)
  | .replied _ handles => some (w.onRuntime fun r => r.setCode f (.operation .requestMade handles))
  | .runMain =>
      match (w.fibers f).props.currentHost.bind w.hosts with
      | none => some (w.onRuntime fun r => r.fail .noCurrentHost)
      | some host =>
          if host.epoch = 0 then w.sleepUntil f host host.clock.startTime none choice.lag none
          else some (w.onRuntime fun r => r.setCode f (.user none))
  | .deliver delivery =>
      some (w.onRuntime fun r => r.sleepUntil f (r.currentTime + choice.delay) delivery.token (.delivered delivery))
  | .delivered delivery => some (w.deliver f delivery choice)
  | .answer delivery result =>
      some (w.onRuntime fun r =>
        r.sleepUntil f (r.currentTime + choice.delay) delivery.token (.answered delivery result))
  | .answered delivery result => some (w.answer f delivery result)
  | .addHost address handles =>
      some { w.onRuntime fun r => r.setCode f (.user handles) with added := address :: w.added }
  | .runSimulation duration iterationCount =>
      match w.eventsQueue, iterationCount with
      | event :: _, left + 1 =>
          if event.1 ≤ duration then
            some (w.onRuntime fun r => ((r.setCode f (.runSimulation duration left)).popEvent event).yield f)
          else some (w.endSimulation f)
      | _, _ => some (w.endSimulation f)
  | .endSimulation => some (w.clear f)
  | .dispatcher => some (w.onRuntime fun r => r.yield f)
  | .user _ | .blocked | .returned | .finished => none

/-- One step of the simulator. Nothing happens after a failure. -/
def step (w : World) (move : Move) : Option World :=
  if w.failed.isSome then none
  else
    match w.control, move with
    | .picks back, .pick choice => (w.toRuntime.pick back choice).map fun r => { w with toRuntime := r }
    | .runs f, .user action choice =>
        match (w.fibers f).code with
        | .user handles => w.act f handles choice action
        | _ => none
    | .runs f, .go choice => w.go f choice
    | _, _ => none

/-- The world after `Initialize`, while the test's own fiber runs for the first time. -/
def initial : World where
  fibers f :=
    if f = mainFiber then ⟨Props.new, .ready, .user none⟩
    else if f = dispatcher then ⟨Props.new.setCurrentHost none 0, .ready, .dispatcher⟩
    else ⟨Props.new, .finished, .finished⟩
  nextFiber := 2
  readyFibers := [dispatcher]
  mainReady := false
  lastHost := none
  lastEpoch := 0
  control := .runs mainFiber
  switched := false
  births := []
  currentTime := 0
  eventsQueue := []
  sleeps := []
  stopTimes _ := none
  callbacks := []
  failed := none
  hosts _ := none
  added := []
  states := []
  closedLinks := []
  requests := []
  replies := []

/-- Any step. -/
def Any (_ : World) (_ : Move) : Prop := True

instance (w : World) (move : Move) : Decidable (w.Any move) := isTrue trivial

/-- The worlds that the simulator reaches by steps that meet a condition. -/
def Reached (allowed : World → Move → Prop) : World → Prop :=
  Relation.ReflTransGen (Script.Next step allowed) initial

end World

end Metamorphosis.Simulator
