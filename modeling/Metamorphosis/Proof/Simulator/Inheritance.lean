import Metamorphosis.Proof.Simulator.Steps

/-!
Which host a new fiber gets. The scheduler gives it the host and epoch of the fiber that was picked last,
and these are those of the creator unless the creator has changed them since. The delivery fiber of
`World::MakeRequest` does change them, and a fiber that the handler creates before it is picked again
gets the host of the caller.
-/

namespace Metamorphosis.Simulator

/-- The new fiber has the host and epoch of its creator. -/
def Birth.Inherits (birth : Birth) : Prop :=
  ∀ host, birth.creatorHost = some host → birth.childHost = some host ∧ birth.childEpoch = birth.creatorEpoch

namespace Runtime

/-- The scheduler remembers the host and epoch of the running fiber. -/
def Tracked (r : Runtime Code) : Prop :=
  ∀ f host, r.control = .runs f → r.switched = false → (r.fibers f).props.currentHost = some host →
    r.lastHost = some host ∧ r.lastEpoch = (r.fibers f).props.hostEpoch

structure Inherited (r : Runtime Code) : Prop where
  tracked : r.Tracked
  births : ∀ birth ∈ r.births, birth.switched = false → birth.Inherits

/-- The host and epoch of a fiber are as before, or the scheduler gave it those that it remembers. -/
def SameHosts (r d : Runtime Code) : Prop :=
  ∀ f, (d.fibers f).props.currentHost = (r.fibers f).props.currentHost ∧
      (d.fibers f).props.hostEpoch = (r.fibers f).props.hostEpoch ∨
    (d.fibers f).props.currentHost = r.lastHost ∧ (d.fibers f).props.hostEpoch = r.lastEpoch

/-- What does not change when fibers are notified. -/
structure Follows (r d : Runtime Code) : Prop where
  control : d.control = r.control
  switched : d.switched = r.switched
  lastHost : d.lastHost = r.lastHost
  lastEpoch : d.lastEpoch = r.lastEpoch
  births : d.births = r.births
  hosts : r.SameHosts d

namespace Follows
variable {r d e : Runtime Code}

/-- A change of something else. -/
theorem of_fields (fibers : d.fibers = r.fibers) (control : d.control = r.control) (switched : d.switched = r.switched)
    (lastHost : d.lastHost = r.lastHost) (lastEpoch : d.lastEpoch = r.lastEpoch) (births : d.births = r.births) :
    r.Follows d :=
  ⟨control, switched, lastHost, lastEpoch, births, fun _ => Or.inl (by rw [fibers]; exact ⟨rfl, rfl⟩)⟩

theorem refl (r : Runtime Code) : r.Follows r := .of_fields rfl rfl rfl rfl rfl rfl

/-- The scheduler follows through two changes. -/
theorem trans (before : r.Follows d) (after : d.Follows e) : r.Follows e where
  control := after.control.trans before.control
  switched := after.switched.trans before.switched
  lastHost := after.lastHost.trans before.lastHost
  lastEpoch := after.lastEpoch.trans before.lastEpoch
  births := after.births.trans before.births
  hosts := by
    intro f
    rcases after.hosts f with ⟨host, epoch⟩ | ⟨host, epoch⟩
    · rw [host, epoch]
      exact before.hosts f
    · exact Or.inr ⟨host.trans before.lastHost, epoch.trans before.lastEpoch⟩

/-- The scheduler still knows the host of the fiber that runs. -/
theorem tracked (follows : r.Follows d) (tracked : r.Tracked) : d.Tracked := by
  intro f host runs unswitched current
  rw [follows.lastHost, follows.lastEpoch]
  rcases follows.hosts f with ⟨same, epoch⟩ | ⟨given, epoch⟩
  · rw [epoch]
    exact tracked f host (follows.control.symm.trans runs) (follows.switched.symm.trans unswitched)
      (same.symm.trans current)
  · exact ⟨given.symm.trans current, epoch.symm⟩

/-- No fiber was born, so all births are as they should be. -/
theorem inherited (follows : r.Follows d) (inherited : r.Inherited) : d.Inherited :=
  ⟨follows.tracked inherited.tracked, by rw [follows.births]; exact inherited.births⟩

end Follows

/-- A change of one fiber that keeps its properties. -/
theorem setFiber_follows {r : Runtime Code} {f : Nat} {fiber : Fiber Code} (same : fiber.props = (r.fibers f).props) :
    r.Follows (r.setFiber f fiber) := by
  refine ⟨rfl, rfl, rfl, rfl, rfl, fun g => Or.inl ?_⟩
  by_cases this : g = f
  · subst this
    simp [setFiber, same]
  · simp [setFiber, this]

/-- A fiber that is awakened is not the one that runs. -/
theorem awakened_follows (r : Runtime Code) (f : Nat) : r.Follows (r.awakened f) := by
  refine ⟨rfl, rfl, rfl, rfl, rfl, fun g => ?_⟩
  by_cases same : g = f
  · subst same
    by_cases initialized : (r.fibers g).props.hostInitialized = true
    · exact Or.inl (by simp [awakened, setFiber, initialized])
    · exact Or.inr (by simp [awakened, setFiber, initialized, Props.setCurrentHost])
  · exact Or.inl (by simp [awakened, setFiber, same])

theorem fail_follows (r : Runtime Code) (failure : Failure) : r.Follows (r.fail failure) :=
  .of_fields rfl rfl rfl rfl rfl rfl

theorem setCode_follows (r : Runtime Code) (f : Nat) (code : Code) : r.Follows (r.setCode f code) := setFiber_follows rfl

theorem setStatus_follows (r : Runtime Code) (f : Nat) (status : Status) : r.Follows (r.setStatus f status) :=
  setFiber_follows rfl

/-- A woken fiber does not run yet. -/
theorem wake_follows (r : Runtime Code) (f : Nat) (status : Status) : r.Follows (r.wake f status) :=
  (setStatus_follows r f status).trans (awakened_follows _ f)

/-- A callback of a stop only wakes its fiber. -/
theorem execute_follows (r : Runtime Code) (f : Nat) : r.Follows (r.execute f) := by
  have erased : ∀ (queue : List (Nat × Nat)) (status : Status),
      r.Follows ({ r with eventsQueue := queue }.wake f status) := by
    intro queue status
    have same : r.Follows { r with eventsQueue := queue } := .of_fields rfl rfl rfl rfl rfl rfl
    exact same.trans (wake_follows _ f status)
  unfold execute
  split
  · split
    · exact erased ..
    · exact fail_follows r _
  · split
    · exact erased ..
    · exact fail_follows r _
  · exact wake_follows r f _
  · exact .refl r

/-- All callbacks of a stop only wake their fibers. -/
theorem stop_follows (r : Runtime Code) (source : Nat) : r.Follows (r.stop source) := by
  suffices ∀ (called : List Nat) (d : Runtime Code), r.Follows d → r.Follows (called.foldl execute d) from
    this _ _ (.of_fields rfl rfl rfl rfl rfl rfl)
  intro called
  induction called with
  | nil => exact fun _ follows => follows
  | cons f rest ih => exact fun d follows => ih _ (follows.trans (execute_follows d f))

/-- A fiber that leaves its wait keeps its host. -/
theorem resume_follows (r : Runtime Code) (f : Nat) : r.Follows (r.resume f) := by
  unfold resume
  split
  · refine (setStatus_follows r f .ready).trans ?_
    exact .of_fields rfl rfl rfl rfl rfl rfl
  · refine (setStatus_follows r f .ready).trans ?_
    exact .of_fields rfl rfl rfl rfl rfl rfl
  · exact .refl r

/-- The scheduler gives a new fiber what it remembers. -/
theorem spawn_births (r : Runtime Code) (f : Nat) (code : Code) :
    (r.spawn f code).births =
      ⟨(r.fibers f).props.currentHost, (r.fibers f).props.hostEpoch, r.lastHost, r.lastEpoch, r.switched⟩ :: r.births := by
  simp [spawn, birth, awakened, setFiber, Props.new, Props.setCurrentHost]

/-- A fiber that the scheduler has not seen has no host. -/
theorem birth_tracked {r : Runtime Code} (tracked : r.Tracked) (code : Code) : (r.birth code).Tracked := by
  intro f host runs unswitched current
  by_cases fresh : f = r.nextFiber
  · subst fresh
    simp [birth, setFiber, Props.new] at current
  · simp only [birth, setFiber, Function.update_of_ne fresh] at current ⊢
    exact tracked f host runs unswitched current

/-- A new fiber gets the host that the scheduler has noted. -/
theorem spawn_inherited {r : Runtime Code} (inherited : r.Inherited) {f : Nat} (runs : r.control = .runs f) (code : Code) :
    (r.spawn f code).Inherited where
  tracked := (awakened_follows (r.birth code) r.nextFiber).tracked (birth_tracked inherited.tracked code)
  births := by
    rw [spawn_births]
    intro birth member unswitched
    rcases List.mem_cons.mp member with rfl | earlier
    · exact fun host current => inherited.tracked f host runs unswitched current
    · exact inherited.births birth earlier unswitched

/-- A fiber that runs at once has no host yet. -/
theorem dispatch_inherited {r : Runtime Code} (inherited : r.Inherited) (f : Nat) (code : Code) :
    (r.dispatch f code).Inherited where
  tracked := by
    intro g host runs _ current
    cases runs
    rcases (awakened_follows (r.birth code) f).hosts r.nextFiber with ⟨same, _⟩ | ⟨given, epoch⟩
    · have none : ((r.birth code).fibers r.nextFiber).props.currentHost = none := by
        simp [birth, setFiber, Props.new]
      rw [none] at same
      cases same.symm.trans current
    · exact ⟨given.symm.trans current, epoch.symm⟩
  births := inherited.births

/-- While no fiber runs there is nothing to remember. -/
theorem Inherited.picks {r d : Runtime Code} (inherited : r.Inherited) {back : Option Nat} (control : d.control = .picks back)
    (births : d.births = r.births) : d.Inherited where
  tracked := by
    intro f host runs
    rw [control] at runs
    cases runs
  births := by
    rw [births]
    exact inherited.births

theorem setCode_inherited {r : Runtime Code} (inherited : r.Inherited) (f : Nat) (code : Code) :
    (r.setCode f code).Inherited :=
  (setCode_follows r f code).inherited inherited

/-- A wait for a reply creates no fiber. -/
theorem awaitReply_inherited {r : Runtime Code} (inherited : r.Inherited) (f : Nat) (token : Option Nat) (next : Code) :
    (r.awaitReply f token next).Inherited := by
  unfold awaitReply
  split
  · exact setCode_inherited inherited f next
  · exact inherited.picks rfl rfl

/-- A sleep creates no fiber. -/
theorem sleepUntil_inherited {r : Runtime Code} (inherited : r.Inherited) (f wakeUpTime : Nat) (token : Option Nat)
    (next : Code) : (r.sleepUntil f wakeUpTime token next).Inherited := by
  unfold sleepUntil
  split
  · refine Follows.inherited ?_ (setCode_inherited inherited f next)
    exact .of_fields rfl rfl rfl rfl rfl rfl
  · exact inherited.picks rfl rfl

/-- A fiber that moves to another host or epoch is no longer tracked. -/
theorem setCurrentHost_inherited {r : Runtime Code} (inherited : r.Inherited) {f : Nat} (runs : r.control = .runs f)
    (host epoch : Nat) : (r.setCurrentHost f host epoch).Inherited where
  tracked := by
    intro g target going unswitched current
    cases runs.symm.trans going
    simp only [setCurrentHost, setFiber, Bool.or_eq_false_iff, decide_eq_false_iff_not, not_not] at unswitched
    simp only [setCurrentHost, setFiber, Function.update_self, Props.setCurrentHost] at current ⊢
    obtain ⟨⟨before, sameHost⟩, sameEpoch⟩ := unswitched
    rw [← sameEpoch]
    exact inherited.tracked f target runs before (sameHost.trans current)
  births := inherited.births

/-- The scheduler notes the host of the fiber that it picks. -/
theorem pickNext_inherited {r : Runtime Code} (inherited : r.Inherited) (f choice : Nat) :
    (r.pickNext f choice).Inherited where
  tracked := by
    intro g host runs _ current
    cases runs
    have noted : (r.fibers f).props.currentHost = some host := current
    simp [pickNext, noted]
  births := inherited.births

/-- It does so whatever was put back before. -/
theorem pick_inherited {r d : Runtime Code} (inherited : r.Inherited) {back : Option Nat} {choice : Nat}
    (picks : r.control = .picks back) (picked : r.pick back choice = some d) : d.Inherited := by
  unfold pick at picked
  split at picked
  · cases picked
    exact inherited.picks picks rfl
  · obtain ⟨f, _, rfl⟩ := Option.map_eq_some_iff.mp picked
    have chosen := pickNext_inherited inherited f choice
    have put : ((r.pickNext f choice).putBack back).Inherited := by
      cases back with
      | none => exact chosen
      | some g => exact (awakened_follows _ g).inherited chosen
    exact (resume_follows _ f).inherited put

/-- The end of a sleep creates no fiber. -/
theorem popEvent_births (r : Runtime Code) (event : Nat × Nat) : (r.popEvent event).births = r.births := by
  unfold popEvent
  split
  · rfl
  · unfold signal
    split
    · rfl
    · split
      · exact (wake_follows _ _ _).births
      · rfl

end Runtime

/-- Every act keeps track of the running fiber. -/
theorem Acts.inherited {possible : Failure → Prop} {r d : Runtime Code} (act : Acts possible r d) (inherited : r.Inherited) :
    d.Inherited := by
  cases act with
  | fail | late => exact (Runtime.fail_follows ..).inherited inherited
  | code | close => exact Runtime.setCode_inherited inherited ..
  | switch runs => exact Runtime.setCurrentHost_inherited inherited runs ..
  | suspend | yield | mark => exact inherited.picks rfl rfl
  | wake | answer => exact (Runtime.wake_follows ..).inherited inherited
  | spawn runs => exact Runtime.spawn_inherited inherited runs _
  | dispatch => exact Runtime.dispatch_inherited inherited ..
  | start runs => exact (Runtime.spawn_inherited inherited runs _).picks rfl rfl
  | request runs => exact Runtime.awaitReply_inherited (Runtime.spawn_inherited inherited runs _) ..
  | sleep => exact Runtime.sleepUntil_inherited inherited ..
  | stop => exact (Runtime.stop_follows ..).inherited inherited
  | pop => exact inherited.picks rfl (Runtime.popEvent_births ..)
  | pick picks picked => exact Runtime.pick_inherited inherited picks picked

/-- Every sequence of actions keeps the births as they should be. -/
theorem Acted.inherited {possible : Failure → Prop} {r d : Runtime Code} (acted : Acted possible r d)
    (inherited : r.Inherited) : d.Inherited := by
  induction acted with
  | refl => exact inherited
  | tail _ act ih => exact act.inherited ih

/-- No fiber was created yet. -/
theorem World.initial_inherited : World.initial.toRuntime.Inherited where
  tracked := by
    intro f host runs _ current
    cases runs
    simp [initial, mainFiber, Props.new] at current
  births := nofun

/-- In every run all births are as they should be. -/
theorem World.Reached.inherited {allowed : World → Move → Prop} {w : World} (reached : Reached allowed w) :
    w.toRuntime.Inherited := by
  induction reached with
  | refl => exact initial_inherited
  | tail _ last ih =>
      obtain ⟨move, _, stepped⟩ := last
      rcases step_acted (fun _ _ => trivial) stepped (Or.inl trivial : True ∨ _) with acted | ⟨f, _, _, rfl⟩
      · exact acted.inherited ih
      · have follows := (Runtime.setCode_follows _ f .returned).inherited ih
        exact ⟨follows.tracked, follows.births⟩

/-- In every run, a new fiber has the host and epoch of its creator if the creator has not changed its
own since it was picked. -/
theorem host_inherited {w : World} (reached : World.Reached World.Any w) {birth : Birth} (member : birth ∈ w.births)
    (stayed : birth.switched = false) : birth.Inherits :=
  reached.inherited.births birth member stayed

/-- Two hosts are added, and both main fibers sleep until the simulation starts. -/
def twoHostsScript : List Move :=
  [.does (.addHost 0 exactClock), .pick 0, .on, .pick 0, .on, .pick 0, .on,
    .does (.addHost 1 exactClock), .pick 1, .on, .pick 1, .on,
    .does (.runSimulation 10 10), .pick 0, .on, .pick 0]

/-- The first host calls the second one. The handler creates a fiber at once. -/
def handlerScript : List Move :=
  twoHostsScript ++
    [.on, .pick 1, .on, .on, .does (.call (.makeRequest 1 80 none)), .on, .pick 1, .go (smooth 5),
      .pick 0, .on, .pick 0, .on, .pick 1, .on, .on, .does (.call (.registerServer 7 80)), .on, .does .wait,
      .pick 0, .on, .pick 0, .on, .pick 1, .on, .on, .does .spawn]

theorem handlerScript_possible : (Script.play World.step World.Any World.initial handlerScript).isSome = true := by
  decide +kernel

/-- The world in which the handler has created its fiber. -/
def handlerWorld : World := Script.endOf World.step World.Any World.initial handlerScript handlerScript_possible

theorem handlerWorld_reached : World.Reached World.Any handlerWorld := Script.endOf_run handlerScript_possible

/-- The delivery fiber of the call got the host of the caller. -/
theorem host_inherited_caller :
    (⟨some 0, 0, some 0, 0, false⟩ : Birth) ∈ handlerWorld.births ∧ Birth.Inherits ⟨some 0, 0, some 0, 0, false⟩ := by
  have member : (⟨some 0, 0, some 0, 0, false⟩ : Birth) ∈ handlerWorld.births := by decide +kernel
  exact ⟨member, host_inherited handlerWorld_reached member rfl⟩

/-- The handler runs on the called host, but its new fiber belongs to the host of the caller. -/
theorem handler_fiber_on_caller :
    ¬ ∀ w, World.Reached World.Any w → ∀ birth ∈ w.births, birth.Inherits := by
  intro always
  have member : (⟨some 1, 0, some 0, 0, true⟩ : Birth) ∈ handlerWorld.births := by decide +kernel
  obtain ⟨host, _⟩ := always handlerWorld handlerWorld_reached _ member 1 rfl
  cases host

end Metamorphosis.Simulator
