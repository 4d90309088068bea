import Metamorphosis.Construction.Simulator.World

/-!
What every move of the simulator needs and what it does. The proofs about steps split the moves here.
-/

namespace Metamorphosis.Simulator.World

/-- The calls of a program that are possible, and the worlds that they lead to. -/
inductive Called (w : World) (f : Nat) (handles : Option Delivery) (choice : Choice) : UserAction → World → Prop where
  | spawn : Called w f handles choice .spawn (w.onRuntime fun r => r.spawn f (.user none))
  | dispatch : Called w f handles choice .dispatch (w.onRuntime fun r => r.dispatch f (.user none))
  | yield : Called w f handles choice .yield (w.onRuntime fun r => r.yield f)
  | wait : Called w f handles choice .wait (w.onRuntime fun r => r.suspend f .waits (.user handles))
  | wake {g : Nat} {other : Option Delivery} (waits : (w.fibers g).status = .waits)
      (code : (w.fibers g).code = .user other) :
      Called w f handles choice (.wake g) (w.onRuntime fun r => r.wake g .ready)
  | finish (joined : f ≠ mainFiber) (own : handles = none) :
      Called w f handles choice .finish (w.onRuntime fun r => r.suspend f .finished .finished)
  | reply {delivery : Delivery} (result : RpcResult) (own : handles = some delivery) :
      Called w f handles choice (.reply result)
        (w.onRuntime fun r => r.setCode f (.operation (.requestProcessed delivery result) none))
  | callNowhere (operation : Operation) (nowhere : (w.fibers f).props.currentHost = none) :
      Called w f handles choice (.call operation) (w.onRuntime fun r => r.fail .noCurrentHost)
  | call {operation : Operation} {address : Nat} (initialized : (w.fibers f).props.hostInitialized = true)
      (callable : operation.isCall = true) (current : (w.fibers f).props.currentHost = some address) :
      Called w f handles choice (.call operation) (w.onRuntime fun r => r.setCode f (.operation operation handles))
  | sleepNowhere (localTime : Int) (token : Option Nat)
      (nowhere : (w.fibers f).props.currentHost.bind w.hosts = none) :
      Called w f handles choice (.sleepUntil localTime token) (w.onRuntime fun r => r.fail .noCurrentHost)
  | sleepUntil {localTime : Int} {token : Option Nat} {host : Host} {d : World}
      (initialized : (w.fibers f).props.hostInitialized = true)
      (current : (w.fibers f).props.currentHost.bind w.hosts = some host)
      (sleeps : w.sleepUntil f host localTime token choice.lag handles = some d) :
      Called w f handles choice (.sleepUntil localTime token) d
  | stop (source : Nat) : Called w f handles choice (.stop source) (w.onRuntime fun r => r.stop source)
  | pauseHost (address : Nat) :
      Called w f handles choice (.pauseHost address)
        (w.onHost address fun w => w.modifyHost address fun host => { host with paused := true })
  | resumeHost (address : Nat) :
      Called w f handles choice (.resumeHost address) (w.onHost address fun w => w.resumeHost address)
  | killHost (address : Nat) :
      Called w f handles choice (.killHost address) (w.onHost address fun w => w.modifyHost address Host.killHost)
  | startHost (address : Nat) :
      Called w f handles choice (.startHost address) (w.onHost address fun w => w.startHost f address)
  | closeLink (sender target : Nat) :
      Called w f handles choice (.closeLink sender target)
        { w with closedLinks := (sender, target) :: w.closedLinks }
  | restoreLink (sender target : Nat) :
      Called w f handles choice (.restoreLink sender target)
        { w with closedLinks := w.closedLinks.filter fun link => link ≠ (sender, target) }
  | addressUsed {address : Nat} (clock : Clock) {host : Host} (used : w.hosts address = some host) :
      Called w f handles choice (.addHost address clock) (w.onRuntime fun r => r.fail .addressUsed)
  | addHost {address : Nat} (clock : Clock) (free : w.hosts address = none) :
      Called w f handles choice (.addHost address clock)
        ((onRuntime { w with hosts := Function.update w.hosts address (some (Host.new clock)) } fun r =>
          r.setCode f (.addHost address handles)).startHost f address)
  | runSimulation (duration iterationCount : Nat) (main : f = mainFiber)
      (initialized : (w.fibers f).props.hostInitialized = true) :
      Called w f handles choice (.runSimulation duration iterationCount)
        (w.onRuntime fun r =>
          (r.setFiber f { r.fibers f with
            props := { (r.fibers f).props with isMain := true }
            code := .runSimulation duration iterationCount }).yield f)

/-- Every call of the api that is possible is one of those above. -/
theorem act_called {w d : World} {f : Nat} {handles : Option Delivery} {choice : Choice} {action : UserAction}
    (acted : w.act f handles choice action = some d) : w.Called f handles choice action d := by
  cases action with
  | wake g =>
      simp only [act] at acted
      split at acted
      · rename_i waits code
        cases acted
        exact .wake waits code
      · cases acted
  | finish =>
      simp only [act] at acted
      split at acted
      · cases acted
      · rename_i allowed
        cases acted
        exact .finish (fun main => allowed (Or.inl main)) (Option.not_isSome_iff_eq_none.mp fun own => allowed (Or.inr own))
  | reply result =>
      cases handles with
      | none => cases acted
      | some delivery =>
          cases acted
          exact .reply result rfl
  | call operation =>
      simp only [act] at acted
      split at acted
      swap
      · cases acted
      rename_i allowed
      split at acted
      · rename_i nowhere
        cases acted
        exact .callNowhere operation nowhere
      · rename_i current
        cases acted
        exact .call allowed.1 allowed.2 current
  | sleepUntil localTime token =>
      simp only [act] at acted
      split at acted
      swap
      · cases acted
      rename_i initialized
      split at acted
      · rename_i nowhere
        cases acted
        exact .sleepNowhere localTime token nowhere
      · rename_i current
        exact .sleepUntil initialized current acted
  | addHost address clock =>
      simp only [act] at acted
      split at acted
      · rename_i used
        cases acted
        exact .addressUsed clock used
      · rename_i free
        cases acted
        exact .addHost clock free
  | runSimulation duration iterationCount =>
      simp only [act] at acted
      split at acted
      · rename_i main
        cases acted
        exact .runSimulation duration iterationCount main.1 main.2
      · cases acted
  | spawn | dispatch | yield | wait | stop | pauseHost | resumeHost | killHost | startHost | closeLink | restoreLink =>
      cases acted
      constructor

/-- What the simulator's own code does on a fiber. -/
inductive Went (w : World) (f : Nat) (choice : Choice) : World → Prop where
  | operation {operation : Operation} {handles : Option Delivery}
      (code : (w.fibers f).code = .operation operation handles) :
      Went w f choice (w.stopFiberIfNecessary f operation handles)
  | slept {wakeUpTime : Nat} {token : Option Nat} {handles : Option Delivery}
      (code : (w.fibers f).code = .slept wakeUpTime token handles)
      (due : w.currentTime = wakeUpTime ∨ w.stopRequested token = true) :
      Went w f choice (w.onRuntime fun r => r.setCode f (.operation .slept handles))
  | late {wakeUpTime : Nat} {token : Option Nat} {handles : Option Delivery}
      (code : (w.fibers f).code = .slept wakeUpTime token handles)
      (missed : ¬ (w.currentTime = wakeUpTime ∨ w.stopRequested token = true)) :
      Went w f choice (w.onRuntime fun r => r.fail .sleepUntil)
  | replied {state : Nat} {handles : Option Delivery} (code : (w.fibers f).code = .replied state handles) :
      Went w f choice (w.onRuntime fun r => r.setCode f (.operation .requestMade handles))
  | mainNowhere (code : (w.fibers f).code = .runMain) (nowhere : (w.fibers f).props.currentHost.bind w.hosts = none) :
      Went w f choice (w.onRuntime fun r => r.fail .noCurrentHost)
  | mainSleeps {host : Host} {d : World} (code : (w.fibers f).code = .runMain)
      (current : (w.fibers f).props.currentHost.bind w.hosts = some host) (first : host.epoch = 0)
      (sleeps : w.sleepUntil f host host.clock.startTime none choice.lag none = some d) : Went w f choice d
  | mainStarts {host : Host} (code : (w.fibers f).code = .runMain)
      (current : (w.fibers f).props.currentHost.bind w.hosts = some host) (later : host.epoch ≠ 0) :
      Went w f choice (w.onRuntime fun r => r.setCode f (.user none))
  | deliver {delivery : Delivery} (code : (w.fibers f).code = .deliver delivery) :
      Went w f choice
        (w.onRuntime fun r => r.sleepUntil f (r.currentTime + choice.delay) delivery.token (.delivered delivery))
  | delivered {delivery : Delivery} (code : (w.fibers f).code = .delivered delivery) :
      Went w f choice (w.deliver f delivery choice)
  | answer {delivery : Delivery} {result : RpcResult} (code : (w.fibers f).code = .answer delivery result) :
      Went w f choice
        (w.onRuntime fun r => r.sleepUntil f (r.currentTime + choice.delay) delivery.token (.answered delivery result))
  | answered {delivery : Delivery} {result : RpcResult} (code : (w.fibers f).code = .answered delivery result) :
      Went w f choice (w.answer f delivery result)
  | addHost {address : Nat} {handles : Option Delivery} (code : (w.fibers f).code = .addHost address handles) :
      Went w f choice { w.onRuntime fun r => r.setCode f (.user handles) with added := address :: w.added }
  | popEvent {duration left : Nat} {event : Nat × Nat} {rest : List (Nat × Nat)}
      (code : (w.fibers f).code = .runSimulation duration (left + 1)) (queue : w.eventsQueue = event :: rest)
      (due : event.1 ≤ duration) :
      Went w f choice
        (w.onRuntime fun r => ((r.setCode f (.runSimulation duration left)).popEvent event).yield f)
  | endLoop {duration iterationCount : Nat} (code : (w.fibers f).code = .runSimulation duration iterationCount)
      (done : iterationCount = 0 ∨ ∀ event ∈ w.eventsQueue.head?, duration < event.1) :
      Went w f choice (w.endSimulation f)
  | clear (code : (w.fibers f).code = .endSimulation) : Went w f choice (w.clear f)
  | dispatcher (code : (w.fibers f).code = .dispatcher) : Went w f choice (w.onRuntime fun r => r.yield f)

/-- Every step of the simulator's own code is one of those above. -/
theorem go_went {w d : World} {f : Nat} {choice : Choice} (went : w.go f choice = some d) : w.Went f choice d := by
  cases code : (w.fibers f).code with
  | operation operation handles =>
      rw [go, code] at went
      cases went
      exact .operation code
  | slept wakeUpTime token handles =>
      rw [go, code] at went
      cases went
      by_cases due : w.currentTime = wakeUpTime ∨ w.stopRequested token = true
      · simp only [onRuntime, if_pos due]
        exact .slept code due
      · simp only [onRuntime, if_neg due]
        exact .late code due
  | replied state handles =>
      rw [go, code] at went
      cases went
      exact .replied code
  | runMain =>
      simp only [go, code] at went
      split at went
      · rename_i nowhere
        cases went
        exact .mainNowhere code nowhere
      · rename_i host current
        split at went
        · rename_i first
          exact .mainSleeps code current first went
        · rename_i later
          cases went
          exact .mainStarts code current later
  | deliver delivery =>
      rw [go, code] at went
      cases went
      exact .deliver code
  | delivered delivery =>
      rw [go, code] at went
      cases went
      exact .delivered code
  | answer delivery result =>
      rw [go, code] at went
      cases went
      exact .answer code
  | answered delivery result =>
      rw [go, code] at went
      cases went
      exact .answered code
  | addHost address handles =>
      rw [go, code] at went
      cases went
      exact .addHost code
  | runSimulation duration iterationCount =>
      simp only [go, code] at went
      split at went
      · rename_i event rest left queue
        split at went
        · rename_i due
          cases went
          exact .popEvent code queue due
        · rename_i late
          cases went
          refine .endLoop code (Or.inr fun other first => ?_)
          rw [queue] at first
          cases first
          exact Nat.lt_of_not_le late
      · rename_i rounds _ _ empty
        cases went
        refine .endLoop code ?_
        cases rounds with
        | zero => exact Or.inl rfl
        | succ left =>
            refine Or.inr fun event first => ?_
            cases queue : w.eventsQueue with
            | nil =>
                rw [queue] at first
                cases first
            | cons other rest => exact absurd rfl (empty other rest left queue)
  | endSimulation =>
      rw [go, code] at went
      cases went
      exact .clear code
  | dispatcher =>
      rw [go, code] at went
      cases went
      exact .dispatcher code
  | user | blocked | returned | finished =>
      rw [go, code] at went
      cases went

/-- The scheduler picks a fiber, or the one that runs goes on. -/
inductive Stepped (w : World) : Move → World → Prop where
  | pick {back : Option Nat} {choice : Nat} {r : Runtime Code} (picks : w.control = .picks back)
      (picked : w.toRuntime.pick back choice = some r) : Stepped w (.pick choice) { w with toRuntime := r }
  | user {f : Nat} {handles : Option Delivery} {choice : Choice} {action : UserAction} {d : World}
      (runs : w.control = .runs f) (code : (w.fibers f).code = .user handles)
      (acted : w.act f handles choice action = some d) : Stepped w (.user action choice) d
  | go {f : Nat} {choice : Choice} {d : World} (runs : w.control = .runs f) (went : w.go f choice = some d) :
      Stepped w (.go choice) d

/-- Every step is a pick, a call of the api or a step of the simulator's own code. -/
theorem step_stepped {w d : World} {move : Move} (stepped : w.step move = some d) : w.Stepped move d := by
  unfold step at stepped
  split at stepped
  · cases stepped
  · split at stepped
    · rename_i picks
      obtain ⟨r, picked, rfl⟩ := Option.map_eq_some_iff.mp stepped
      exact .pick picks picked
    · rename_i runs
      split at stepped
      · rename_i code
        exact .user runs code stepped
      · cases stepped
    · rename_i runs
      exact .go runs stepped
    · cases stepped

/-- A fiber that runs no program can only go on with the simulator's code. -/
theorem step_goes {w d : World} {f : Nat} {move : Move} (runs : w.control = .runs f)
    (code : ∀ handles, (w.fibers f).code ≠ .user handles) (stepped : w.step move = some d) :
    ∃ choice, w.go f choice = some d := by
  cases step_stepped stepped with
  | pick picks _ => cases picks.symm.trans runs
  | user now program _ =>
      cases now.symm.trans runs
      exact absurd program (code _)
  | go now went =>
      cases now.symm.trans runs
      exact ⟨_, went⟩

/-- What `Host::StopFiberIfNecessary` does with a fiber before the given operation. -/
inductive Stops (w : World) (f : Nat) (operation : Operation) (handles : Option Delivery) : World → Prop where
  | nowhere (lost : (w.fibers f).props.currentHost.bind w.hosts = none) :
      Stops w f operation handles (w.onRuntime fun r => r.fail .noCurrentHost)
  | paused {address : Nat} {host : Host} (current : (w.fibers f).props.currentHost = some address)
      (found : w.hosts address = some host) (paused : host.paused = true) :
      Stops w f operation handles (w.onRuntime fun r => r.suspend f .waits (.operation operation handles))
  | early {address : Nat} {host : Host} (current : (w.fibers f).props.currentHost = some address)
      (found : w.hosts address = some host) (early : host.epoch < (w.fibers f).props.hostEpoch) :
      Stops w f operation handles (w.onRuntime fun r => r.fail .fiberEpoch)
  | killed {address : Nat} {host : Host} (current : (w.fibers f).props.currentHost = some address)
      (found : w.hosts address = some host) (killed : (w.fibers f).props.hostEpoch ≠ host.epoch) :
      Stops w f operation handles (w.onRuntime fun r => r.suspend f .waits .blocked)
  | passes {address : Nat} {host : Host} (current : (w.fibers f).props.currentHost = some address)
      (found : w.hosts address = some host) (running : host.paused = false)
      (epoch : (w.fibers f).props.hostEpoch = host.epoch) :
      Stops w f operation handles (w.perform f address host host.epoch handles operation)

/-- `StopFiberIfNecessary` does one of these things. -/
theorem stopFiberIfNecessary_stops (w : World) (f : Nat) (operation : Operation) (handles : Option Delivery) :
    w.Stops f operation handles (w.stopFiberIfNecessary f operation handles) := by
  unfold stopFiberIfNecessary
  dsimp only
  split
  · rename_i nowhere
    exact .nowhere (by rw [nowhere]; rfl)
  · rename_i address current
    split
    · rename_i missing
      refine .nowhere ?_
      rw [current]
      exact missing
    · rename_i host found
      split
      · rename_i paused
        exact .paused current found paused
      · rename_i running
        split
        · rename_i early
          exact .early current found early
        · split
          · rename_i killed
            exact .killed current found killed
          · rename_i epoch
            rw [not_not.mp epoch]
            exact .passes current found (eq_false_of_ne_true running) (not_not.mp epoch)

/-- Hosts are killed and resumed one after another. -/
theorem killAll_induction {w : World} (holds : World → Prop) (start : holds w)
    (next : ∀ c address, holds c → holds ((c.modifyHost address Host.killHost).resumeHost address)) : holds w.killAll :=
  List.foldlRecOn w.added _ start fun c kept address _ => next c address kept

end Metamorphosis.Simulator.World

namespace Metamorphosis.Simulator

/-- A clock that shows the global time. -/
def exactClock : Clock := ⟨0, fun _ => 0, 0⟩

/-- Rpcs take some time and nothing goes wrong. -/
def smooth (delay : Nat) : Choice := ⟨delay, 0, false, false⟩

/-- The code of the simulator goes on without a delay. -/
def Move.on : Move := .go (smooth 0)

/-- A program does something. -/
def Move.does (action : UserAction) : Move := .user action (smooth 0)

end Metamorphosis.Simulator
