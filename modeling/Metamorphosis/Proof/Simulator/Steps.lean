import Metamorphosis.Proof.Simulator.Moves

/-!
What one step of the simulator does to the fibers, the scheduler and the sleeps. A step of the world is a
short list of the acts below, and every property of the fibers is shown act by act.
-/

namespace Metamorphosis.Simulator

/-- The failures that a wrong time or a wrong entry of the queue would cause. -/
def Failure.ofTime : Failure → Bool
  | erasedTwice | eventTimestamp | sleepTimestamp | sleepUntil => true
  | _ => false

/-- A fiber that runs programs, the main fiber in the loop of `RunSimulation` and behind it, or the
dispatcher. -/
inductive Role where
  | ordinary
  | main
  | ended
  | dispatcher
deriving DecidableEq

namespace Code

def role : Code → Role
  | runSimulation .. => .main
  | endSimulation | returned => .ended
  | dispatcher => .dispatcher
  | _ => .ordinary

/-- The code right after `World::SleepUntil` in `Host::SleepUntil`. -/
def isSlept : Code → Bool
  | slept .. => true
  | _ => false

end Code

/-- An act of the running fiber, or the choice of the next one. -/
inductive Acts (possible : Failure → Prop) (r : Runtime Code) : Runtime Code → Prop where
  | fail {failure : Failure} (may : possible failure) : Acts possible r (r.fail failure)
  | late {f wakeUpTime : Nat} {token : Option Nat} {handles : Option Delivery} (runs : r.control = .runs f)
      (code : (r.fibers f).code = .slept wakeUpTime token handles)
      (missed : ¬ (r.currentTime = wakeUpTime ∨ r.stopRequested token = true)) :
      Acts possible r (r.fail .sleepUntil)
  | code {f : Nat} {code : Code} (runs : r.control = .runs f) (ordinary : (r.fibers f).code.role = .ordinary)
      (role : code.role = .ordinary) (plain : code.isSlept = false) : Acts possible r (r.setCode f code)
  | close {f : Nat} {code : Code} (runs : r.control = .runs f) (main : (r.fibers f).code.role = .main)
      (role : code.role = .ended) (plain : code.isSlept = false) : Acts possible r (r.setCode f code)
  | switch {f host epoch : Nat} (runs : r.control = .runs f) (ordinary : (r.fibers f).code.role = .ordinary) :
      Acts possible r (r.setCurrentHost f host epoch)
  | suspend {f : Nat} {status : Status} {code : Code} (runs : r.control = .runs f)
      (ordinary : (r.fibers f).code.role = .ordinary) (off : status = .waits ∨ status = .finished)
      (role : code.role = .ordinary) (plain : code.isSlept = false) : Acts possible r (r.suspend f status code)
  | yield {f : Nat} (runs : r.control = .runs f) (plain : (r.fibers f).code.isSlept = false)
      (role : (r.fibers f).code.role ≠ .main) : Acts possible r (r.yield f)
  | wake {f g : Nat} (runs : r.control = .runs f)
      (role : (r.fibers f).code.role = .ordinary ∨ (r.fibers f).code.role = .ended)
      (waits : (r.fibers g).status = .waits) : Acts possible r (r.wake g .ready)
  | answer {f g : Nat} (runs : r.control = .runs f) (ordinary : (r.fibers f).code.role = .ordinary)
      (awaits : (r.fibers g).status = .awaits) : Acts possible r (r.wake g .answered)
  | spawn {f : Nat} {code : Code} (runs : r.control = .runs f) (ordinary : (r.fibers f).code.role = .ordinary)
      (role : code.role = .ordinary) (plain : code.isSlept = false) : Acts possible r (r.spawn f code)
  | dispatch {f : Nat} {code : Code} (runs : r.control = .runs f) (ordinary : (r.fibers f).code.role = .ordinary)
      (unslept : (r.fibers f).code.isSlept = false) (role : code.role = .ordinary) (plain : code.isSlept = false) :
      Acts possible r (r.dispatch f code)
  | start {f host epoch : Nat} {code : Code} (runs : r.control = .runs f)
      (ordinary : (r.fibers f).code.role = .ordinary) (unslept : (r.fibers f).code.isSlept = false)
      (role : code.role = .ordinary) (plain : code.isSlept = false) :
      Acts possible r (((r.spawn f code).setFiber r.nextFiber
        { (r.spawn f code).fibers r.nextFiber with
          props := ((r.spawn f code).fibers r.nextFiber).props.setCurrentHost (some host) epoch }).yield f)
  | request {f : Nat} {code next : Code} {token : Option Nat} (runs : r.control = .runs f)
      (ordinary : (r.fibers f).code.role = .ordinary) (role : code.role = .ordinary) (plain : code.isSlept = false)
      (nextRole : next.role = .ordinary) (nextPlain : next.isSlept = false) :
      Acts possible r ((r.spawn f code).awaitReply f token next)
  | sleep {f wakeUpTime : Nat} {token : Option Nat} {next : Code} (runs : r.control = .runs f)
      (ordinary : (r.fibers f).code.role = .ordinary) (future : r.currentTime ≤ wakeUpTime)
      (role : next.role = .ordinary)
      (slept : ∀ time stop handles, next = .slept time stop handles → time = wakeUpTime ∧ stop = token) :
      Acts possible r (r.sleepUntil f wakeUpTime token next)
  | stop {f source : Nat} (runs : r.control = .runs f) (ordinary : (r.fibers f).code.role = .ordinary) :
      Acts possible r (r.stop source)
  | mark {code : Code} (runs : r.control = .runs mainFiber) (ordinary : (r.fibers mainFiber).code.role = .ordinary)
      (role : code.role = .main) (plain : code.isSlept = false) :
      Acts possible r ((r.setFiber mainFiber { r.fibers mainFiber with
        props := { (r.fibers mainFiber).props with isMain := true }, code := code }).yield mainFiber)
  | pop {f : Nat} {event : Nat × Nat} {rest : List (Nat × Nat)} {code : Code} (runs : r.control = .runs f)
      (main : (r.fibers f).code.role = .main) (role : code.role = .main) (plain : code.isSlept = false)
      (queue : r.eventsQueue = event :: rest) : Acts possible r (((r.setCode f code).popEvent event).yield f)
  | pick {back : Option Nat} {choice : Nat} {d : Runtime Code} (picks : r.control = .picks back)
      (picked : r.pick back choice = some d) : Acts possible r d

/-- Some acts one after another. -/
abbrev Acted (possible : Failure → Prop) : Runtime Code → Runtime Code → Prop :=
  Relation.ReflTransGen (Acts possible)

/-- Some acts of one fiber one after another. -/
abbrev ActedBy (possible : Failure → Prop) (f : Nat) : Runtime Code → Runtime Code → Prop :=
  Relation.ReflTransGen fun r d => r.control = .runs f ∧ Acts possible r d

namespace ActedBy
variable {possible : Failure → Prop} {f : Nat} {r d : Runtime Code}

theorem one (runs : r.control = .runs f) (act : Acts possible r d) : ActedBy possible f r d := .single ⟨runs, act⟩

theorem acted (acted : ActedBy possible f r d) : Acted possible r d :=
  Relation.ReflTransGen.mono (fun _ _ both => both.2) _ _ acted

end ActedBy

theorem Runtime.setCode_code {r : Runtime Code} {f : Nat} {code : Code} :
    ((r.setCode f code).fibers f).code = code := by
  simp [setCode, setFiber]

/-- Waking a fiber leaves what every fiber has to run. -/
theorem Runtime.wake_code (r : Runtime Code) (f g : Nat) (status : Status) :
    ((r.wake g status).fibers f).code = (r.fibers f).code := by
  by_cases same : f = g
  · subst same
    simp [wake, awakened, setStatus, setFiber]
  · simp [wake, awakened, setStatus, setFiber, same]

/-- A call of `Host::SleepUntil`: the clock of the host, the local time, and the lag that is drawn. -/
structure SleepCall where
  clock : Clock
  localTime : Int
  lag : Nat

/-- The time that is passed to `World::SleepUntil`. -/
def SleepCall.wakeUpTime (call : SleepCall) : Nat := call.clock.toGlobalTime (call.localTime + call.lag)

namespace World

/-- The call of `Host::SleepUntil` that a move makes. `Host::RunMain` makes one in the first epoch only. -/
def sleepCall (w : World) (move : Move) : Option SleepCall :=
  match w.control, move with
  | .runs f, .user (.sleepUntil localTime _) choice =>
      ((w.fibers f).props.currentHost.bind w.hosts).map fun host => ⟨host.clock, localTime, choice.lag⟩
  | .runs f, .go choice =>
      match (w.fibers f).code with
      | .runMain =>
          ((w.fibers f).props.currentHost.bind w.hosts).bind fun host =>
            if host.epoch = 0 then some ⟨host.clock, host.clock.startTime, choice.lag⟩ else none
      | _ => none
  | _, _ => none

/-- When the running fiber would wake up if the next move is a call of `Host::SleepUntil`. -/
def wakeUpTime (w : World) (move : Move) : Option Nat := (w.sleepCall move).map SleepCall.wakeUpTime

/-- No fiber sleeps until a time in the past. -/
def NonNegative (w : World) (move : Move) : Prop := ∀ time ∈ w.wakeUpTime move, w.currentTime ≤ time

instance (w : World) (move : Move) : Decidable (w.NonNegative move) :=
  inferInstanceAs (Decidable (∀ time ∈ w.wakeUpTime move, w.currentTime ≤ time))

/-- `RunSimulation` returns. -/
structure Clears (w : World) (f : Nat) (d : World) : Prop where
  runs : w.control = .runs f
  code : (w.fibers f).code = .endSimulation
  cleared : d = w.clear f

/-- No step follows. -/
theorem Clears.stuck {w d : World} {f : Nat} (clears : w.Clears f d) (move : Move) : d.step move = none := by
  obtain ⟨runs, _, rfl⟩ := clears
  have control : (w.clear f).control = .runs f := runs
  have code : ((w.clear f).fibers f).code = .returned := Runtime.setCode_code
  rw [Option.eq_none_iff_forall_ne_some]
  intro e stepped
  obtain ⟨choice, went⟩ := step_goes control (by rw [code]; rintro _ ⟨⟩) stepped
  rw [go, code] at went
  cases went

section Acted
variable (possible : Failure → Prop)

/-- The end of a pause wakes fibers only. -/
theorem notify_acted {r : Runtime Code} {f address : Nat} (runs : r.control = .runs f)
    (role : (r.fibers f).code.role = .ordinary ∨ (r.fibers f).code.role = .ended) (fibers : List Nat) :
    ActedBy possible f r (fibers.foldl (notifyPaused address) r) ∧
    (fibers.foldl (notifyPaused address) r).control = .runs f ∧
    ((fibers.foldl (notifyPaused address) r).fibers f).code = (r.fibers f).code := by
  induction fibers generalizing r with
  | nil => exact ⟨.refl, runs, rfl⟩
  | cons g rest ih =>
      rw [List.foldl_cons]
      have kept : ActedBy possible f r (notifyPaused address r g) ∧ (notifyPaused address r g).control = .runs f ∧
          ((notifyPaused address r g).fibers f).code = (r.fibers f).code := by
        unfold notifyPaused
        split
        · rename_i waits _
          split
          · exact ⟨.one runs (.wake runs role waits), runs, r.wake_code f g .ready⟩
          · exact ⟨.refl, runs, rfl⟩
        · exact ⟨.refl, runs, rfl⟩
      obtain ⟨first, control, code⟩ := kept
      obtain ⟨others, still, same⟩ := ih control (by rw [code]; exact role)
      exact ⟨first.trans others, still, same.trans code⟩

/-- A resumed host wakes fibers one by one. -/
theorem resumeHost_acted {w : World} {f : Nat} (runs : w.control = .runs f)
    (role : (w.fibers f).code.role = .ordinary ∨ (w.fibers f).code.role = .ended) (address : Nat) :
    ActedBy possible f w.toRuntime (w.resumeHost address).toRuntime ∧ (w.resumeHost address).control = .runs f ∧
    ((w.resumeHost address).fibers f).code = (w.fibers f).code :=
  notify_acted possible runs role _

/-- The end of the simulation wakes fibers one by one. -/
theorem killAll_acted {w : World} {f : Nat} (runs : w.control = .runs f)
    (role : (w.fibers f).code.role = .ordinary ∨ (w.fibers f).code.role = .ended) :
    ActedBy possible f w.toRuntime w.killAll.toRuntime ∧ w.killAll.control = .runs f ∧
    (w.killAll.fibers f).code = (w.fibers f).code := by
  refine killAll_induction (fun c => ActedBy possible f w.toRuntime c.toRuntime ∧ c.control = .runs f ∧
    (c.fibers f).code = (w.fibers f).code) ⟨.refl, runs, rfl⟩ fun c address ⟨acted, control, code⟩ => ?_
  have alive : ((c.modifyHost address Host.killHost).fibers f).code.role = .ordinary ∨
      ((c.modifyHost address Host.killHost).fibers f).code.role = .ended := by
    change (c.fibers f).code.role = .ordinary ∨ (c.fibers f).code.role = .ended
    rw [code]
    exact role
  obtain ⟨resumed, still, same⟩ :=
    resumeHost_acted possible (show (c.modifyHost address Host.killHost).control = .runs f from control) alive address
  exact ⟨acted.trans resumed, still, same.trans code⟩

/-- The main fiber leaves its loop and kills all hosts. -/
theorem endSimulation_acted {w : World} {f : Nat} (runs : w.control = .runs f)
    (main : (w.fibers f).code.role = .main) : ActedBy possible f w.toRuntime (w.endSimulation f).toRuntime := by
  let closed : World := w.onRuntime fun r => r.setCode f .endSimulation
  have left : ActedBy possible f w.toRuntime closed.toRuntime := .one runs (.close runs main rfl rfl)
  have code : (closed.fibers f).code = .endSimulation := Runtime.setCode_code
  obtain ⟨killed, control, same⟩ :=
    killAll_acted possible (show closed.control = .runs f from runs) (Or.inr (by rw [code]; rfl))
  refine (left.trans killed).tail ⟨control, .yield control ?_ ?_⟩
  · rw [same, code]
    rfl
  · rw [same, code]
    nofun

/-- A host that is started creates its main fiber, if it has none. -/
theorem startHost_acted {w : World} {f : Nat} (runs : w.control = .runs f)
    (ordinary : (w.fibers f).code.role = .ordinary) (unslept : (w.fibers f).code.isSlept = false) (address : Nat) :
    ActedBy possible f w.toRuntime (w.startHost f address).toRuntime := by
  unfold startHost
  split
  · exact .refl
  · split
    · exact .refl
    · exact .one runs (.start runs ordinary unslept rfl rfl)

/-- The delivery fiber wakes its caller and ends. -/
theorem respond_acted {w : World} {f : Nat} (runs : w.control = .runs f)
    (ordinary : (w.fibers f).code.role = .ordinary) (delivery : Delivery) (result : RpcResult) :
    ActedBy possible f w.toRuntime (w.respond f delivery result).toRuntime := by
  have ends : ∀ {r : Runtime Code}, r.control = .runs f → (r.fibers f).code = (w.fibers f).code →
      ActedBy possible f r (r.suspend f .finished .finished) := fun control code =>
    .one control (.suspend control (by rw [code]; exact ordinary) (Or.inr rfl) rfl rfl)
  simp only [respond]
  split
  · exact ends runs rfl
  · rename_i g _
    split
    · rename_i awaits _
      split
      · have woken : ActedBy possible f w.toRuntime (w.toRuntime.wake g .answered) :=
          .one runs (.answer runs ordinary awaits)
        exact woken.trans (ends runs (w.wake_code f g .answered))
      · exact ends runs rfl
    · exact ends runs rfl

/-- The delivery of a request consists of actions of the runtime. -/
theorem deliver_acted {w : World} {f : Nat} (runs : w.control = .runs f)
    (ordinary : (w.fibers f).code.role = .ordinary) (delivery : Delivery) (choice : Choice) :
    ActedBy possible f w.toRuntime (w.deliver f delivery choice).toRuntime := by
  unfold deliver
  split
  · exact respond_acted possible runs ordinary ..
  · split
    · exact respond_acted possible runs ordinary ..
    · split
      · exact respond_acted possible runs ordinary ..
      · split
        · exact .refl
        · rename_i host _
          have switched : ActedBy possible f w.toRuntime (w.toRuntime.setCurrentHost f delivery.target host.epoch) :=
            .one runs (.switch runs ordinary)
          have same : ((w.toRuntime.setCurrentHost f delivery.target host.epoch).fibers f).code = (w.fibers f).code := by
            simp [Runtime.setCurrentHost, Runtime.setFiber]
          simp only [onRuntime]
          split
          · exact switched.tail ⟨runs, .suspend runs (by rw [same]; exact ordinary) (Or.inr rfl) rfl rfl⟩
          · exact switched.tail ⟨runs, .code runs (by rw [same]; exact ordinary) rfl rfl⟩

/-- The way back of a reply consists of actions of the runtime. -/
theorem answer_acted {w : World} {f : Nat} (runs : w.control = .runs f)
    (ordinary : (w.fibers f).code.role = .ordinary) (delivery : Delivery) (result : RpcResult) :
    ActedBy possible f w.toRuntime (w.answer f delivery result).toRuntime := by
  unfold answer
  split
  · exact respond_acted possible runs ordinary ..
  · split <;> exact respond_acted possible runs ordinary ..

end Acted

section Steps
variable {possible : Failure → Prop} (usual : ∀ failure, failure.ofTime = false → possible failure)
include usual

/-- `Host::SleepUntil` is a sleep if its time is not over, and a failed check otherwise. -/
theorem sleepUntil_acted {w d : World} {f lag : Nat} {host : Host} {localTime : Int} {token : Option Nat}
    {handles : Option Delivery} (slept : w.sleepUntil f host localTime token lag handles = some d)
    (runs : w.control = .runs f) (ordinary : (w.fibers f).code.role = .ordinary)
    (timely : possible .sleepTimestamp ∨ w.currentTime ≤ host.clock.toGlobalTime (localTime + lag)) :
    ActedBy possible f w.toRuntime d.toRuntime := by
  unfold sleepUntil at slept
  split at slept
  · cases slept
  · cases slept
    simp only [onRuntime]
    split
    · exact .one runs (.fail (usual _ rfl))
    · split
      · rename_i past
        exact .one runs (.fail (timely.resolve_right (Nat.not_le_of_lt past)))
      · rename_i future
        refine .one runs (.sleep runs ordinary (Nat.le_of_not_lt future) rfl ?_)
        rintro _ _ _ ⟨⟩
        exact ⟨rfl, rfl⟩

/-- Every operation of a host is one action of the runtime. -/
theorem perform_acted {w : World} {f address epoch : Nat} {host : Host} {handles : Option Delivery}
    (runs : w.control = .runs f) (ordinary : (w.fibers f).code.role = .ordinary) (operation : Operation) :
    ActedBy possible f w.toRuntime (w.perform f address host epoch handles operation).toRuntime := by
  have coded : ∀ {code : Code}, code.role = .ordinary → code.isSlept = false →
      ActedBy possible f w.toRuntime (w.toRuntime.setCode f code) := fun role plain =>
    .one runs (.code runs ordinary role plain)
  cases operation with
  | openDatabase =>
      simp only [perform]
      split
      · exact .one runs (.fail (usual _ rfl))
      · exact coded rfl rfl
  | execute owner path command rest =>
      simp only [perform]
      split
      · exact .one runs (.fail (usual _ rfl))
      · split
        · exact .one runs (.fail (usual _ rfl))
        · cases rest <;> exact coded rfl rfl
  | registerServer | unregisterServer =>
      simp only [perform]
      split
      · exact .one runs (.fail (usual _ rfl))
      · exact coded rfl rfl
  | makeRequest => exact .one runs (.request runs ordinary rfl rfl rfl rfl)
  | processRequest =>
      simp only [perform]
      split <;> exact coded rfl rfl
  | read | requestMade | requestProcessed | slept => exact coded rfl rfl

/-- So is `StopFiberIfNecessary` with the operation that follows it. -/
theorem stopFiberIfNecessary_acted {w : World} {f : Nat} (runs : w.control = .runs f)
    (ordinary : (w.fibers f).code.role = .ordinary) (operation : Operation) (handles : Option Delivery) :
    ActedBy possible f w.toRuntime (w.stopFiberIfNecessary f operation handles).toRuntime := by
  generalize effect : w.stopFiberIfNecessary f operation handles = d
  have stops := w.stopFiberIfNecessary_stops f operation handles
  rw [effect] at stops
  cases stops with
  | nowhere | early => exact .one runs (.fail (usual _ rfl))
  | paused | killed => exact .one runs (.suspend runs ordinary (Or.inl rfl) rfl rfl)
  | passes => exact perform_acted usual runs ordinary operation

/-- A failed look-up of a host is an action of the runtime. -/
theorem onHost_acted {w : World} {f address : Nat} {next : World → World} (runs : w.control = .runs f)
    (acted : ActedBy possible f w.toRuntime (next w).toRuntime) :
    ActedBy possible f w.toRuntime (w.onHost address next).toRuntime := by
  unfold onHost
  split
  · exact acted
  · exact .one runs (.fail (usual _ rfl))

/-- Every call of the api consists of actions of the runtime. -/
theorem act_acted {w d : World} {f : Nat} {handles : Option Delivery} {choice : Choice} {action : UserAction}
    (acted : w.act f handles choice action = some d) (runs : w.control = .runs f)
    (code : (w.fibers f).code = .user handles)
    (timely : possible .sleepTimestamp ∨ w.NonNegative (.user action choice)) :
    ActedBy possible f w.toRuntime d.toRuntime := by
  have ordinary : (w.fibers f).code.role = .ordinary := by rw [code]; rfl
  have unslept : (w.fibers f).code.isSlept = false := by rw [code]; rfl
  cases act_called acted with
  | spawn => exact .one runs (.spawn runs ordinary rfl rfl)
  | dispatch => exact .one runs (.dispatch runs ordinary unslept rfl rfl)
  | yield =>
      refine .one runs (.yield runs unslept ?_)
      rw [ordinary]
      rintro ⟨⟩
  | wait => exact .one runs (.suspend runs ordinary (Or.inl rfl) rfl rfl)
  | wake waits _ => exact .one runs (.wake runs (Or.inl ordinary) waits)
  | finish => exact .one runs (.suspend runs ordinary (Or.inr rfl) rfl rfl)
  | reply => exact .one runs (.code runs ordinary rfl rfl)
  | callNowhere | sleepNowhere | addressUsed => exact .one runs (.fail (usual _ rfl))
  | call => exact .one runs (.code runs ordinary rfl rfl)
  | sleepUntil _ found sleeps =>
      refine sleepUntil_acted usual sleeps runs ordinary (timely.imp_right fun future => future _ ?_)
      simp [wakeUpTime, sleepCall, SleepCall.wakeUpTime, runs, found]
  | stop => exact .one runs (.stop runs ordinary)
  | pauseHost | killHost => exact onHost_acted usual runs .refl
  | resumeHost address => exact onHost_acted usual runs (resumeHost_acted possible runs (Or.inl ordinary) address).1
  | startHost address => exact onHost_acted usual runs (startHost_acted possible runs ordinary unslept address)
  | closeLink | restoreLink => exact .refl
  | @addHost address clock _ =>
      have coded : ActedBy possible f w.toRuntime (w.toRuntime.setCode f (.addHost address handles)) :=
        .one runs (.code runs ordinary rfl rfl)
      let built : World :=
        { w with
          toRuntime := w.toRuntime.setCode f (.addHost address handles)
          hosts := Function.update w.hosts address (some (Host.new clock)) }
      have started : ActedBy possible f built.toRuntime (built.startHost f address).toRuntime :=
        startHost_acted possible (show built.control = .runs f from runs) (congrArg Code.role Runtime.setCode_code)
          (congrArg Code.isSlept Runtime.setCode_code) address
      exact coded.trans started
  | runSimulation duration iterationCount main _ =>
      subst main
      exact .one runs (.mark runs ordinary rfl rfl)

/-- The simulator's own code consists of actions of the runtime as well, apart from its last lines. -/
theorem go_acted {w d : World} {f : Nat} {choice : Choice} (went : w.go f choice = some d)
    (runs : w.control = .runs f) (timely : possible .sleepTimestamp ∨ w.NonNegative (.go choice)) :
    ActedBy possible f w.toRuntime d.toRuntime ∨ w.Clears f d := by
  cases go_went went with
  | operation code => exact Or.inl (stopFiberIfNecessary_acted usual runs (by rw [code]; rfl) ..)
  | slept code _ | replied code | mainStarts code _ _ | addHost code =>
      exact Or.inl (.one runs (.code runs (by rw [code]; rfl) rfl rfl))
  | late code missed => exact Or.inl (.one runs (.late runs code missed))
  | mainNowhere => exact Or.inl (.one runs (.fail (usual _ rfl)))
  | mainSleeps code found first sleeps =>
      refine Or.inl (sleepUntil_acted usual sleeps runs (by rw [code]; rfl) (timely.imp_right fun future => future _ ?_))
      simp [wakeUpTime, sleepCall, SleepCall.wakeUpTime, runs, code, found, first]
  | deliver code | answer code =>
      refine Or.inl (.one runs (.sleep runs (by rw [code]; rfl) (Nat.le_add_right ..) rfl ?_))
      rintro _ _ _ ⟨⟩
  | delivered code => exact Or.inl (deliver_acted possible runs (by rw [code]; rfl) ..)
  | answered code => exact Or.inl (answer_acted possible runs (by rw [code]; rfl) ..)
  | popEvent code queue _ => exact Or.inl (.one runs (.pop runs (by rw [code]; rfl) rfl rfl queue))
  | endLoop code _ => exact Or.inl (endSimulation_acted possible runs (by rw [code]; rfl))
  | clear code => exact Or.inr ⟨runs, code, rfl⟩
  | dispatcher code =>
      refine Or.inl (.one runs (.yield runs (by rw [code]; rfl) ?_))
      rw [code]
      rintro ⟨⟩

/-- A step of the world is some acts of its fibers, or the last one of `RunSimulation`. -/
theorem step_acted {w d : World} {move : Move} (stepped : w.step move = some d)
    (timely : possible .sleepTimestamp ∨ w.NonNegative move) :
    Acted possible w.toRuntime d.toRuntime ∨ ∃ f, w.Clears f d := by
  cases step_stepped stepped with
  | pick picks picked => exact Or.inl (.single (.pick picks picked))
  | user runs code acted => exact Or.inl (act_acted usual acted runs code timely).acted
  | @go f _ _ runs went => exact (go_acted usual went runs timely).imp ActedBy.acted fun clears => ⟨f, clears⟩

end Steps

end World

end Metamorphosis.Simulator
