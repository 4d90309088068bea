import Metamorphosis.Library.RemoteCall
import Metamorphosis.Proof.Simulator.Sleeping
import Metamorphosis.Proof.Simulator.Spares

/-!
What one step of the simulator does to the calls of `World::MakeRequest`. A call is carried by its
delivery fiber, which takes it from phase to phase. Only `MakeRequest` starts a delivery fiber, only the
handler gives an answer, only the delivery fiber or `Stop` signals the caller, and every other step leaves
the callers alone.
-/

namespace Metamorphosis.Simulator

abbrev Phase := RemoteCall.Phase RpcResult

/-- The results that `World::MakeRequest` and `Host::ProcessRequest` make up themselves. -/
def Lost (result : RpcResult) : Prop :=
  result = .error .cancelled ∨ result = .error .networkError ∨ result = .error .connectionRefused

/-- A delivery as the caller made it. -/
def Delivery.call (delivery : Delivery) : Delivery := { delivery with networkError := false }

namespace Code

/-- The call that a fiber carries. A handler runs on the delivery fiber. -/
def carried : Code → Option (Delivery × Phase)
  | deliver delivery | delivered delivery | operation (.processRequest delivery) _ => some (delivery, .sent)
  | operation (.requestProcessed delivery result) _ | answer delivery result | answered delivery result =>
      some (delivery, .answered result)
  | user handles | operation _ handles | slept _ _ handles | replied _ handles | addHost _ handles =>
      handles.map fun delivery => (delivery, .handled)
  | _ => none

/-- A fiber goes on: it carries the same call, which reached the host at most, or it carries none any
more. -/
def Moves (before after : Code) : Prop :=
  after = before ∨ (∀ state handles, after ≠ replied state handles) ∧
    ∀ delivery phase, after.carried = some (delivery, phase) →
      ∃ old earlier, before.carried = some (old, earlier) ∧ delivery.call = old.call ∧
        (phase = earlier ∨ earlier = .sent ∧ RemoteCall.Next Lost .sent phase)

namespace Moves
variable {a b c : Code}

theorem refl (code : Code) : Moves code code := Or.inl rfl

/-- A code that has nothing to do with calls. -/
theorem ends (plain : ∀ state handles, b ≠ replied state handles) (free : b.carried = none) : Moves a b := by
  refine Or.inr ⟨plain, fun delivery phase carries => ?_⟩
  rw [free] at carries
  cases carries

/-- A fiber goes on with its delivery. -/
theorem advances {old new : Delivery} {earlier later : Phase} (plain : ∀ state handles, b ≠ replied state handles)
    (before : a.carried = some (old, earlier)) (after : b.carried = some (new, later)) (same : new.call = old.call)
    (forward : later = earlier ∨ earlier = .sent ∧ RemoteCall.Next Lost .sent later) : Moves a b := by
  refine Or.inr ⟨plain, fun delivery phase carries => ?_⟩
  cases after.symm.trans carries
  exact ⟨old, earlier, before, same, forward⟩

/-- A program goes on, in a handler or elsewhere. -/
theorem handles (own : Option Delivery) (plain : ∀ state handles, b ≠ replied state handles)
    (before : a.carried = own.map fun delivery => (delivery, .handled))
    (after : b.carried = own.map fun delivery => (delivery, .handled)) : Moves a b := by
  cases own with
  | none => exact .ends plain after
  | some delivery => exact .advances plain before after rfl (Or.inl rfl)

/-- A fiber goes on twice. -/
theorem trans (first : Moves a b) (second : Moves b c) : Moves a c := by
  rcases second with rfl | ⟨plain, carries⟩
  · exact first
  refine Or.inr ⟨plain, fun delivery phase after => ?_⟩
  obtain ⟨middle, between, before, same, forward⟩ := carries delivery phase after
  rcases first with rfl | ⟨_, carried⟩
  · exact ⟨middle, between, before, same, forward⟩
  · obtain ⟨old, earlier, started, equal, further⟩ := carried middle between before
    refine ⟨old, earlier, started, same.trans equal, ?_⟩
    rcases forward with rfl | ⟨rfl, next⟩
    · exact further
    · rcases further with rfl | ⟨_, again⟩
      · exact Or.inr ⟨rfl, next⟩
      · exact absurd again.forward (Nat.lt_irrefl _)

end Moves

end Code

/-- A step that leaves the callers alone: who awaits a reply goes on to do so, with the same callbacks. -/
structure Runtime.Relays (r d : Runtime Code) : Prop where
  codes : ∀ f, (r.fibers f).code.Moves (d.fibers f).code
  awaits : ∀ f, r.status f = .awaits → d.status f = .awaits ∧ (d.fibers f).code = (r.fibers f).code
  callbacks : ∀ source f, r.status f = .awaits → (source, f) ∈ d.callbacks → (source, f) ∈ r.callbacks
  stopTimes : d.stopTimes = r.stopTimes
  born : r.nextFiber ≤ d.nextFiber

namespace Runtime.Relays
variable {r d e : Runtime Code} {f g : Nat}

theorem refl (r : Runtime Code) : r.Relays r where
  codes _ := .refl _
  awaits _ waits := ⟨waits, rfl⟩
  callbacks _ _ _ member := member
  stopTimes := rfl
  born := Nat.le_refl _

/-- All deliveries go on through two changes. -/
theorem trans (first : r.Relays d) (second : d.Relays e) : r.Relays e where
  codes f := (first.codes f).trans (second.codes f)
  awaits f waits :=
    have ⟨still, same⟩ := first.awaits f waits
    have ⟨again, equal⟩ := second.awaits f still
    ⟨again, equal.trans same⟩
  callbacks source f waits member :=
    first.callbacks source f waits (second.callbacks source f (first.awaits f waits).1 member)
  stopTimes := second.stopTimes.trans first.stopTimes
  born := Nat.le_trans first.born second.born

/-- Only the scheduler, the clock or the queue of events changed. -/
theorem of_fibers (fibers : d.fibers = r.fibers) (callbacks : d.callbacks = r.callbacks)
    (stopTimes : d.stopTimes = r.stopTimes) (born : r.nextFiber ≤ d.nextFiber) : r.Relays d where
  codes f := by
    rw [fibers]
    exact .refl _
  awaits f waits := by
    rw [status, fibers]
    exact ⟨waits, rfl⟩
  callbacks source f _ member := callbacks ▸ member
  stopTimes := stopTimes
  born := born

/-- One fiber changes that does not await a reply. -/
theorem edit (idle : r.status g ≠ .awaits) (moves : (r.fibers g).code.Moves (d.fibers g).code)
    (others : ∀ f, f ≠ g → d.fibers f = r.fibers f)
    (callbacks : ∀ source f, f ≠ g → (source, f) ∈ d.callbacks → (source, f) ∈ r.callbacks)
    (stopTimes : d.stopTimes = r.stopTimes) (born : r.nextFiber ≤ d.nextFiber) : r.Relays d where
  codes f := by
    by_cases same : f = g
    · subst same
      exact moves
    · rw [others f same]
      exact .refl _
  awaits f waits := by
    have other : f ≠ g := by
      rintro rfl
      exact idle waits
    rw [status, others f other]
    exact ⟨waits, rfl⟩
  callbacks source f waits member := by
    refine callbacks source f ?_ member
    rintro rfl
    exact idle waits
  stopTimes := stopTimes
  born := born

/-- A fiber that awaits nothing goes on with its delivery. -/
theorem setFiber (idle : r.status g ≠ .awaits) {fiber : Fiber Code} (moves : (r.fibers g).code.Moves fiber.code) :
    r.Relays (r.setFiber g fiber) := by
  refine edit idle ?_ (fun f other => setFiber_fibers_other fiber other) (fun _ _ _ member => member) rfl (Nat.le_refl _)
  rw [setFiber_fibers_self]
  exact moves

theorem fail (r : Runtime Code) (failure : Failure) : r.Relays (r.fail failure) := of_fibers rfl rfl rfl (Nat.le_refl _)

theorem yield (r : Runtime Code) (f : Nat) : r.Relays (r.yield f) := of_fibers rfl rfl rfl (Nat.le_refl _)

theorem setCode (idle : r.status g ≠ .awaits) {code : Code} (moves : (r.fibers g).code.Moves code) :
    r.Relays (r.setCode g code) := setFiber idle moves

/-- A fiber that is suspended goes on with its delivery. -/
theorem suspend (idle : r.status g ≠ .awaits) (status : Status) {code : Code} (moves : (r.fibers g).code.Moves code) :
    r.Relays (r.suspend g status code) :=
  trans (d := r.setFiber g { r.fibers g with status := status, code := code }) (setFiber idle moves) (of_fibers rfl rfl rfl (Nat.le_refl _))

/-- An awakened fiber stays where it is. -/
theorem awakened (r : Runtime Code) (g : Nat) : r.Relays (r.awakened g) where
  codes f := by
    rw [awakened_code]
    exact .refl _
  awaits f waits := by
    rw [awakened_status, awakened_code]
    exact ⟨waits, rfl⟩
  callbacks _ _ _ member := member
  stopTimes := rfl
  born := Nat.le_refl _

/-- So does a woken one. -/
theorem wake (idle : r.status g ≠ .awaits) (status : Status) : r.Relays (r.wake g status) :=
  trans (d := r.setStatus g status) (setFiber idle (.refl _)) (awakened _ g)

theorem setCurrentHost (idle : r.status g ≠ .awaits) (host epoch : Nat) : r.Relays (r.setCurrentHost g host epoch) :=
  trans (d := r.setFiber g { r.fibers g with props := (r.fibers g).props.setCurrentHost (some host) epoch })
    (setFiber idle (.refl _)) (of_fibers rfl rfl rfl (Nat.le_refl _))

section Births
variable {code : Code} (unborn : r.status r.nextFiber ≠ .awaits) (moves : (r.fibers r.nextFiber).code.Moves code)
include unborn moves

theorem birth : r.Relays (r.birth code) :=
  trans (d := r.setFiber r.nextFiber ⟨Props.new, .ready, code⟩) (setFiber unborn moves)
    (of_fibers rfl rfl rfl (Nat.le_succ _))

/-- A new fiber may bring a delivery of its own. -/
theorem spawn (f : Nat) : r.Relays (r.spawn f code) :=
  (birth unborn moves).trans ((awakened _ r.nextFiber).trans (of_fibers rfl rfl rfl (Nat.le_refl _)))

theorem dispatch (f : Nat) : r.Relays (r.dispatch f code) :=
  (birth unborn moves).trans ((awakened _ f).trans (of_fibers rfl rfl rfl (Nat.le_refl _)))

end Births

/-- A fiber that goes to sleep goes on with its delivery. -/
theorem sleepUntil (idle : r.status g ≠ .awaits) (wakeUpTime : Nat) (token : Option Nat) {next : Code}
    (moves : (r.fibers g).code.Moves next) : r.Relays (r.sleepUntil g wakeUpTime token next) := by
  unfold Runtime.sleepUntil
  split
  · exact (setCode idle moves).trans (of_fibers rfl rfl rfl (Nat.le_refl _))
  · refine edit idle ?_ (fun f other => setFiber_fibers_other _ other) (fun source f other member => ?_) rfl (Nat.le_refl _)
    · simpa [Runtime.suspend, Runtime.setFiber] using moves
    · exact (Timely.mem_register.mp member).resolve_left fun own => other own.2

/-- The event of a sleep is signaled. -/
theorem signal (r : Runtime Code) (sleep : Nat) : r.Relays (r.signal sleep) := by
  unfold Runtime.signal
  split
  · exact refl r
  · split
    · rename_i asleep
      refine wake ?_ _
      rw [status, asleep]
      rintro ⟨⟩
    · exact refl r

/-- The end of a sleep moves no delivery. -/
theorem popEvent (r : Runtime Code) (event : Nat × Nat) : r.Relays (r.popEvent event) := by
  unfold Runtime.popEvent
  split
  · exact fail r _
  · exact trans (d := { r with eventsQueue := r.eventsQueue.tail, currentTime := event.1 })
      (of_fibers rfl rfl rfl (Nat.le_refl _)) (signal _ event.2)

/-- A fiber that leaves its wait has its result. -/
theorem resume (r : Runtime Code) (f : Nat) : r.Relays (r.resume f) := by
  unfold Runtime.resume
  split
  · rename_i sleep awake
    have idle : r.status f ≠ .awaits := by
      rw [status, awake]
      rintro ⟨⟩
    refine edit idle ?_ (fun g other => setFiber_fibers_other _ other) (fun _ _ _ member => List.mem_of_mem_filter member)
      rfl (Nat.le_refl _)
    simpa [Runtime.setStatus, Runtime.setFiber] using Code.Moves.refl _
  · rename_i answered
    have idle : r.status f ≠ .awaits := by
      rw [status, answered]
      rintro ⟨⟩
    refine edit idle ?_ (fun g other => setFiber_fibers_other _ other) (fun _ _ _ member => List.mem_of_mem_filter member)
      rfl (Nat.le_refl _)
    simpa [Runtime.setStatus, Runtime.setFiber] using Code.Moves.refl _
  · exact refl r

theorem putBack (r : Runtime Code) (back : Option Nat) : r.Relays (r.putBack back) := by
  cases back with
  | none => exact refl r
  | some f => exact awakened r f

/-- The scheduler moves no delivery. -/
theorem pick {back : Option Nat} {choice : Nat} (picked : r.pick back choice = some d) : r.Relays d := by
  unfold Runtime.pick at picked
  split at picked
  · cases picked
    exact fail r _
  · obtain ⟨f, _, rfl⟩ := Option.map_eq_some_iff.mp picked
    exact trans (d := r.pickNext f choice) (of_fibers rfl rfl rfl (Nat.le_refl _)) ((putBack _ back).trans (resume _ f))

end Runtime.Relays

namespace World

/-- What a step does to the calls. -/
inductive Conveys (w : World) (move : Move) : World → Prop where
  | other {d : World} (relays : w.toRuntime.Relays d.toRuntime) (states : d.states = w.states) : Conveys w move d
  | request {f address epoch target port : Nat} {token : Option Nat} {handles : Option Delivery}
      (runs : w.control = .runs f) (code : (w.fibers f).code = .operation (.makeRequest target port token) handles) :
      Conveys w move (w.makeRequest f address epoch target port token handles)
  | reply {f : Nat} {delivery : Delivery} (result : RpcResult) (choice : Choice) (runs : w.control = .runs f)
      (code : (w.fibers f).code = .user (some delivery)) (replies : move = .user (.reply result) choice) :
      Conveys w move (w.onRuntime fun r => r.setCode f (.operation (.requestProcessed delivery result) none))
  | respond {f : Nat} {delivery : Delivery} {phase : Phase} {result : RpcResult} (runs : w.control = .runs f)
      (carries : (w.fibers f).code.carried = some (delivery, phase)) (next : RemoteCall.Next Lost phase (.closed result))
      (linked : (delivery.sender, delivery.target) ∈ w.closedLinks → Lost result) :
      Conveys w move (w.respond f delivery result)
  | stop {f : Nat} (source : Nat) (runs : w.control = .runs f) :
      Conveys w move (w.onRuntime fun r => r.stop source)

section Relays
variable {w d : World} {f : Nat} {move : Move}

theorem notifyPaused_relays (address : Nat) (r : Runtime Code) (g : Nat) : r.Relays (notifyPaused address r g) := by
  unfold notifyPaused
  split
  · rename_i waits _
    split
    · refine .wake ?_ _
      rw [Runtime.status, waits]
      rintro ⟨⟩
    · exact .refl r
  · exact .refl r

/-- A resumed host moves no delivery. -/
theorem resumeHost_relays (w : World) (address : Nat) : w.toRuntime.Relays (w.resumeHost address).toRuntime := by
  suffices ∀ (fibers : List Nat) (r : Runtime Code), r.Relays (fibers.foldl (notifyPaused address) r) from this _ _
  intro fibers
  induction fibers with
  | nil => exact .refl
  | cons g rest ih => exact fun r => (notifyPaused_relays address r g).trans (ih _)

/-- The kills at the end of the simulation move no delivery. -/
theorem killAll_relays (w : World) : w.toRuntime.Relays w.killAll.toRuntime ∧ w.killAll.states = w.states := by
  refine killAll_induction (fun c => w.toRuntime.Relays c.toRuntime ∧ c.states = w.states) ⟨.refl _, rfl⟩
    fun c address ⟨relays, states⟩ => ?_
  exact ⟨relays.trans (resumeHost_relays (c.modifyHost address Host.killHost) address), states⟩

/-- The main fiber of a host brings no delivery. -/
theorem startHost_relays (unborn : w.toRuntime.status w.nextFiber ≠ .awaits) (f address : Nat) :
    w.toRuntime.Relays (w.startHost f address).toRuntime ∧ (w.startHost f address).states = w.states := by
  unfold startHost
  split
  · exact ⟨.refl _, rfl⟩
  · split
    · exact ⟨.refl _, rfl⟩
    · have born : w.toRuntime.Relays (w.toRuntime.spawn f .runMain) := .spawn unborn (.ends (by rintro _ _ ⟨⟩) rfl) f
      have idle : (w.toRuntime.spawn f .runMain).status w.nextFiber ≠ .awaits := by
        simp [Runtime.status, Runtime.spawn, Runtime.birth, Runtime.awakened, Runtime.setFiber]
      have placed : ∀ props, (w.toRuntime.spawn f .runMain).Relays ((w.toRuntime.spawn f .runMain).setFiber w.nextFiber
          { (w.toRuntime.spawn f .runMain).fibers w.nextFiber with props := props }) := fun _ => .setFiber idle (.refl _)
      exact ⟨born.trans ((placed _).trans (.yield _ f)), rfl⟩

/-- `Host::SleepUntil` moves no delivery. -/
theorem sleepUntil_relays {lag : Nat} {host : Host} {localTime : Int} {token : Option Nat} {handles : Option Delivery}
    (idle : w.toRuntime.status f ≠ .awaits) (sleeps : w.sleepUntil f host localTime token lag handles = some d)
    (own : (w.fibers f).code.carried = handles.map fun delivery => (delivery, .handled)) :
    w.toRuntime.Relays d.toRuntime ∧ d.states = w.states := by
  unfold sleepUntil at sleeps
  split at sleeps
  · cases sleeps
  · cases sleeps
    refine ⟨?_, rfl⟩
    simp only [onRuntime]
    split
    · exact .fail _ _
    · split
      · exact .fail _ _
      · exact .sleepUntil idle _ token (.handles _ (by rintro _ _ ⟨⟩) own rfl)

/-- A delivery fiber at the host: it answers, ends or goes on to `ProcessRequest`. -/
theorem deliver_conveys {delivery : Delivery} {choice : Choice} (runs : w.control = .runs f)
    (idle : w.toRuntime.status f ≠ .awaits) (code : (w.fibers f).code = .delivered delivery) :
    w.Conveys move (w.deliver f delivery choice) := by
  have carries : (w.fibers f).code.carried = some (delivery, .sent) := by rw [code]; rfl
  have loses : ∀ {result : RpcResult}, Lost result → RemoteCall.Next Lost .sent (.closed result) :=
    fun lost => .lose (by rintro ⟨⟩) (by rintro _ ⟨⟩) lost
  unfold deliver
  split
  · exact .respond runs carries (loses (Or.inr (Or.inl rfl))) fun _ => Or.inr (Or.inl rfl)
  · split
    · exact .respond runs carries (loses (Or.inr (Or.inr rfl))) fun _ => Or.inr (Or.inr rfl)
    · split
      · exact .respond runs carries (loses (Or.inr (Or.inl rfl))) fun _ => Or.inr (Or.inl rfl)
      · split
        · exact .other (.refl _) rfl
        · rename_i host _
          have switched := Runtime.Relays.setCurrentHost (r := w.toRuntime) idle delivery.target host.epoch
          have still : (w.toRuntime.setCurrentHost f delivery.target host.epoch).status f ≠ .awaits := by
            simpa [Runtime.status, Runtime.setCurrentHost, Runtime.setFiber] using idle
          have same : ((w.toRuntime.setCurrentHost f delivery.target host.epoch).fibers f).code.carried =
              some (delivery, .sent) := by
            simpa [Runtime.setCurrentHost, Runtime.setFiber] using carries
          refine .other ?_ rfl
          simp only [onRuntime]
          split
          · exact switched.trans (.suspend still _ (.ends (by rintro _ _ ⟨⟩) rfl))
          · exact switched.trans (.setCode still (.advances (by rintro _ _ ⟨⟩) same rfl rfl (Or.inl rfl)))

/-- A reply comes to its caller, or gets lost. -/
theorem answer_conveys {delivery : Delivery} {result : RpcResult} (runs : w.control = .runs f)
    (code : (w.fibers f).code = .answered delivery result) : w.Conveys move (w.answer f delivery result) := by
  have carries : (w.fibers f).code.carried = some (delivery, .answered result) := by rw [code]; rfl
  have loses : RemoteCall.Next Lost (.answered result) (.closed (.error .networkError)) :=
    .lose (by rintro ⟨⟩) (by rintro _ ⟨⟩) (Or.inr (Or.inl rfl))
  unfold answer
  split
  · exact .respond runs carries loses fun _ => Or.inr (Or.inl rfl)
  · rename_i linked
    split
    · exact .respond runs carries loses fun _ => Or.inr (Or.inl rfl)
    · exact .respond runs carries (.deliver result) fun closed => absurd closed linked

/-- The call of an operation is that of the handler unless it is part of `ProcessRequest`. -/
theorem perform_conveys {address epoch : Nat} {host : Host} {handles : Option Delivery} {operation : Operation}
    (runs : w.control = .runs f) (idle : w.toRuntime.status f ≠ .awaits)
    (code : (w.fibers f).code = .operation operation handles) :
    w.Conveys move (w.perform f address host epoch handles operation) := by
  have goes : ∀ {d : World} {next : Code}, (w.fibers f).code.Moves next → d.toRuntime = w.toRuntime.setCode f next →
      d.states = w.states → w.Conveys move d := by
    intro d next moves same states
    refine .other ?_ states
    rw [same]
    exact .setCode idle moves
  have fails : ∀ {d : World} {failure : Failure}, d.toRuntime = w.toRuntime.fail failure → d.states = w.states →
      w.Conveys move d := by
    intro d failure same states
    refine .other ?_ states
    rw [same]
    exact .fail _ failure
  have program : ∀ {next : Code}, operation.isCall = true ∨ operation = .requestMade ∨ operation = .slept →
      (∀ state handles, next ≠ .replied state handles) → (next.carried = handles.map fun delivery => (delivery, .handled)) →
      (w.fibers f).code.Moves next := by
    intro next called plain carried
    refine .handles handles plain ?_ carried
    rw [code]
    rcases called with call | rfl | rfl
    · cases operation <;> first | rfl | cases call
    · rfl
    · rfl
  cases operation with
  | openDatabase =>
      simp only [perform]
      split
      · exact fails rfl rfl
      · exact goes (program (Or.inl rfl) (by rintro _ _ ⟨⟩) rfl) rfl rfl
  | execute owner path command rest =>
      simp only [perform]
      split
      · exact fails rfl rfl
      · split
        · exact fails rfl rfl
        · cases rest with
          | nil => exact goes (program (Or.inl rfl) (by rintro _ _ ⟨⟩) rfl) rfl rfl
          | cons => exact goes (program (Or.inl rfl) (by rintro _ _ ⟨⟩) rfl) rfl rfl
  | registerServer | unregisterServer =>
      simp only [perform]
      split
      · exact fails rfl rfl
      · exact goes (program (Or.inl rfl) (by rintro _ _ ⟨⟩) rfl) rfl rfl
  | read => exact goes (program (Or.inl rfl) (by rintro _ _ ⟨⟩) rfl) rfl rfl
  | requestMade => exact goes (program (Or.inr (Or.inl rfl)) (by rintro _ _ ⟨⟩) rfl) rfl rfl
  | slept => exact goes (program (Or.inr (Or.inr rfl)) (by rintro _ _ ⟨⟩) rfl) rfl rfl
  | makeRequest => exact .request runs code
  | processRequest delivery =>
      have before : (w.fibers f).code.carried = some (delivery, .sent) := by rw [code]; rfl
      simp only [perform]
      split
      · have refused : RemoteCall.Next Lost .sent (.answered (.error .connectionRefused)) := .refuse (Or.inr (Or.inr rfl))
        exact goes (.advances (by rintro _ _ ⟨⟩) before rfl rfl (Or.inr ⟨rfl, refused⟩)) rfl rfl
      · exact goes (.advances (by rintro _ _ ⟨⟩) before rfl rfl (Or.inr ⟨rfl, .handle⟩)) rfl rfl
  | requestProcessed delivery result =>
      have before : (w.fibers f).code.carried = some (delivery, .answered result) := by rw [code]; rfl
      exact goes (.advances (by rintro _ _ ⟨⟩) before rfl rfl (Or.inl rfl)) rfl rfl

/-- The code of an operation that a program calls is part of that program. -/
theorem call_carried {operation : Operation} (called : operation.isCall = true) (handles : Option Delivery) :
    (Code.operation operation handles).carried = handles.map fun delivery => (delivery, .handled) := by
  cases operation <;> first | rfl | cases called

/-- An operation moves the delivery of its own fiber only. -/
theorem stopFiberIfNecessary_conveys {handles : Option Delivery} {operation : Operation}
    (runs : w.control = .runs f) (idle : w.toRuntime.status f ≠ .awaits)
    (code : (w.fibers f).code = .operation operation handles) :
    w.Conveys move (w.stopFiberIfNecessary f operation handles) := by
  generalize effect : w.stopFiberIfNecessary f operation handles = d
  have stops := w.stopFiberIfNecessary_stops f operation handles
  rw [effect] at stops
  cases stops with
  | nowhere | early => exact .other (.fail _ _) rfl
  | paused =>
      refine .other (.suspend idle _ ?_) rfl
      rw [code]
      exact .refl _
  | killed => exact .other (.suspend idle _ (.ends (by rintro _ _ ⟨⟩) rfl)) rfl
  | passes => exact perform_conveys runs idle code

/-- A failed look-up moves no delivery. -/
theorem onHost_conveys {address : Nat} {next : World → World} (relays : w.toRuntime.Relays (next w).toRuntime)
    (states : (next w).states = w.states) : w.Conveys move (w.onHost address next) := by
  unfold onHost
  split
  · exact .other relays states
  · exact .other (.fail _ _) rfl

/-- The end of the simulation moves no delivery. -/
theorem endSimulation_conveys (idle : w.toRuntime.status f ≠ .awaits) : w.Conveys move (w.endSimulation f) := by
  have closed : w.toRuntime.Relays (w.toRuntime.setCode f .endSimulation) :=
    .setCode idle (.ends (by rintro _ _ ⟨⟩) rfl)
  obtain ⟨killed, states⟩ := killAll_relays (w.onRuntime fun r => r.setCode f .endSimulation)
  exact .other ((closed.trans killed).trans (.yield _ f)) states

end Relays

section Steps
variable {w d : World} {f : Nat} {move : Move} (scheduled : w.toRuntime.Scheduled) (runs : w.control = .runs f)
include scheduled runs

/-- The running fiber does not await anything. -/
theorem running_idle : w.toRuntime.status f ≠ .awaits := by
  rw [scheduled.active f (Runtime.active_runs runs)]
  rintro ⟨⟩

/-- A call of the api moves the delivery of its own fiber, or starts a new one. -/
theorem act_conveys {handles : Option Delivery} {choice : Choice} {action : UserAction}
    (code : (w.fibers f).code = .user handles) (acted : w.act f handles choice action = some d) :
    w.Conveys (.user action choice) d := by
  have idle := running_idle scheduled runs
  have unborn : w.toRuntime.status w.nextFiber ≠ .awaits := by
    rw [(scheduled.unborn _ (Nat.le_refl _)).1]
    rintro ⟨⟩
  have own : (w.fibers f).code.carried = handles.map fun delivery => (delivery, .handled) := by rw [code]; rfl
  cases act_called acted with
  | spawn => exact .other (.spawn unborn (.ends (by rintro _ _ ⟨⟩) rfl) f) rfl
  | dispatch => exact .other (.dispatch unborn (.ends (by rintro _ _ ⟨⟩) rfl) f) rfl
  | yield => exact .other (.yield _ f) rfl
  | wait =>
      refine .other (.suspend idle _ ?_) rfl
      rw [code]
      exact .refl _
  | wake waits _ =>
      refine .other (.wake ?_ _) rfl
      rw [Runtime.status, waits]
      rintro ⟨⟩
  | finish => exact .other (.suspend idle _ (.ends (by rintro _ _ ⟨⟩) rfl)) rfl
  | reply result answers =>
      rw [answers] at code
      exact .reply result choice runs code rfl
  | callNowhere | sleepNowhere | addressUsed => exact .other (.fail _ _) rfl
  | call _ called _ => exact .other (.setCode idle (.handles _ (by rintro _ _ ⟨⟩) own (call_carried called handles))) rfl
  | sleepUntil _ _ sleeps =>
      obtain ⟨relays, states⟩ := sleepUntil_relays idle sleeps own
      exact .other relays states
  | stop source => exact .stop source runs
  | pauseHost | killHost => exact onHost_conveys (.refl _) rfl
  | resumeHost address => exact onHost_conveys (resumeHost_relays w address) rfl
  | startHost address =>
      obtain ⟨relays, states⟩ := startHost_relays unborn f address
      exact onHost_conveys relays states
  | closeLink | restoreLink => exact .other (.refl _) rfl
  | @addHost address clock _ =>
      have coded : w.toRuntime.Relays (w.toRuntime.setCode f (.addHost address handles)) :=
        .setCode idle (.handles _ (by rintro _ _ ⟨⟩) own rfl)
      let built : World :=
        { w with
          toRuntime := w.toRuntime.setCode f (.addHost address handles)
          hosts := Function.update w.hosts address (some (Host.new clock)) }
      have still : built.toRuntime.status built.nextFiber ≠ .awaits := by
        rw [show built.toRuntime = w.toRuntime.setCode f (.addHost address handles) from rfl,
          Runtime.setCode_status]
        exact unborn
      obtain ⟨relays, states⟩ := startHost_relays still f address
      exact .other (coded.trans relays) states
  | runSimulation duration iterationCount _ _ =>
      exact .other ((Runtime.Relays.setFiber idle (.ends (by rintro _ _ ⟨⟩) rfl)).trans (.yield _ f)) rfl

/-- So does the simulator's own code. -/
theorem go_conveys {choice : Choice} (went : w.go f choice = some d) : w.Conveys move d := by
  have idle := running_idle scheduled runs
  cases go_went went with
  | operation code => exact stopFiberIfNecessary_conveys runs idle code
  | @slept _ _ handles code _ =>
      refine .other (.setCode idle (.handles handles (by rintro _ _ ⟨⟩) ?_ rfl)) rfl
      rw [code]
      rfl
  | late => exact .other (.fail _ _) rfl
  | @replied _ handles code =>
      refine .other (.setCode idle (.handles handles (by rintro _ _ ⟨⟩) ?_ rfl)) rfl
      rw [code]
      rfl
  | mainNowhere => exact .other (.fail _ _) rfl
  | mainSleeps code _ _ sleeps =>
      obtain ⟨relays, states⟩ := sleepUntil_relays idle sleeps (by rw [code]; rfl)
      exact .other relays states
  | mainStarts => exact .other (.setCode idle (.ends (by rintro _ _ ⟨⟩) rfl)) rfl
  | @deliver delivery code =>
      have before : (w.fibers f).code.carried = some (delivery, .sent) := by rw [code]; rfl
      exact .other (.sleepUntil idle _ _ (.advances (by rintro _ _ ⟨⟩) before rfl rfl (Or.inl rfl))) rfl
  | delivered code => exact deliver_conveys runs idle code
  | @answer delivery result code =>
      have before : (w.fibers f).code.carried = some (delivery, .answered result) := by rw [code]; rfl
      exact .other (.sleepUntil idle _ _ (.advances (by rintro _ _ ⟨⟩) before rfl rfl (Or.inl rfl))) rfl
  | answered code => exact answer_conveys runs code
  | @addHost _ handles code =>
      refine .other (.setCode idle (.handles handles (by rintro _ _ ⟨⟩) ?_ rfl)) rfl
      rw [code]
      rfl
  | @popEvent duration left event rest code _ _ =>
      have looped : w.toRuntime.Relays (w.toRuntime.setCode f (.runSimulation duration left)) :=
        .setCode idle (.ends (by rintro _ _ ⟨⟩) rfl)
      exact .other ((looped.trans (.popEvent _ event)).trans (.yield _ f)) rfl
  | endLoop => exact endSimulation_conveys idle
  | clear =>
      have closed : w.toRuntime.Relays (w.toRuntime.setCode f .returned) :=
        .setCode idle (.ends (by rintro _ _ ⟨⟩) rfl)
      exact .other (closed.trans (.of_fibers rfl rfl rfl (Nat.le_refl _))) rfl
  | dispatcher => exact .other (.yield _ f) rfl

end Steps

/-- Every step is one of the five. -/
theorem step_conveys {w d : World} {move : Move} (scheduled : w.toRuntime.Scheduled) (stepped : w.step move = some d) :
    w.Conveys move d := by
  cases step_stepped stepped with
  | pick _ picked => exact .other (.pick picked) rfl
  | user runs code acted => exact act_conveys scheduled runs code acted
  | go runs went => exact go_conveys scheduled runs went

end World

end Metamorphosis.Simulator
