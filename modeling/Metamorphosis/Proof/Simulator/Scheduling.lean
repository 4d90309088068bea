import Mathlib.Data.List.Nodup
import Metamorphosis.Proof.Simulator.Steps

/-!
The order in which fibers run. Every fiber that is ready waits in the list of the scheduler, the
dispatcher is always among them or running, and the main fiber goes on with its loop only when nothing
else is ready.
-/

namespace Metamorphosis.Simulator

/-- A fiber with this status may be picked. -/
def Status.isOn : Status → Bool
  | ready | awake _ | answered => true
  | _ => false

namespace Runtime

def status (r : Runtime Code) (f : Nat) : Status := (r.fibers f).status

def role (r : Runtime Code) (f : Nat) : Role := (r.fibers f).code.role

def isMain (r : Runtime Code) (f : Nat) : Bool := (r.fibers f).props.isMain

/-- The fiber that runs or yields. -/
def active (r : Runtime Code) : Option Nat :=
  match r.control with
  | .runs f => some f
  | .picks back => back

/-- The fiber that runs is active. -/
theorem active_runs {r : Runtime Code} {f : Nat} (runs : r.control = .runs f) : r.active = some f := by
  rw [active, runs]

/-- So is one that yields. -/
theorem active_picks {r : Runtime Code} {back : Option Nat} (picks : r.control = .picks back) : r.active = back := by
  rw [active, picks]

@[simp] theorem setFiber_fibers_self (r : Runtime Code) (f : Nat) (fiber : Fiber Code) :
    (r.setFiber f fiber).fibers f = fiber := by
  simp [setFiber]

theorem setFiber_fibers_other {r : Runtime Code} {f g : Nat} (fiber : Fiber Code) (other : g ≠ f) :
    (r.setFiber f fiber).fibers g = r.fibers g := by
  simp [setFiber, other]

@[simp] theorem awakened_status (r : Runtime Code) (f g : Nat) : (r.awakened f).status g = r.status g := by
  by_cases same : g = f
  · subst same
    simp [awakened, status, setFiber]
  · simp [awakened, status, setFiber, same]

@[simp] theorem awakened_code (r : Runtime Code) (f g : Nat) : ((r.awakened f).fibers g).code = (r.fibers g).code := by
  by_cases same : g = f
  · subst same
    simp [awakened, setFiber]
  · simp [awakened, setFiber, same]

@[simp] theorem awakened_role (r : Runtime Code) (f g : Nat) : (r.awakened f).role g = r.role g :=
  congrArg Code.role (r.awakened_code f g)

@[simp] theorem awakened_isMain (r : Runtime Code) (f g : Nat) : (r.awakened f).isMain g = r.isMain g := by
  by_cases same : g = f
  · subst same
    by_cases initialized : (r.fibers g).props.hostInitialized = true <;>
      simp [awakened, isMain, setFiber, initialized, Props.setCurrentHost]
  · simp [awakened, isMain, setFiber, same]

/-- An awakened fiber is put at the end of the ready ones, unless it is the main fiber. -/
theorem awakened_readyFibers (r : Runtime Code) (f : Nat) :
    (r.awakened f).readyFibers = if r.isMain f = true then r.readyFibers else r.readyFibers ++ [f] := by
  by_cases initialized : (r.fibers f).props.hostInitialized = true <;>
    by_cases marked : (r.fibers f).props.isMain = true <;>
      simp [awakened, isMain, initialized, marked, Props.setCurrentHost]

/-- The main fiber has a place of its own. -/
theorem awakened_mainReady (r : Runtime Code) (f : Nat) :
    (r.awakened f).mainReady = (r.isMain f || r.mainReady) := by
  by_cases initialized : (r.fibers f).props.hostInitialized = true <;>
    simp [awakened, isMain, initialized, Props.setCurrentHost]

/-- A wake-up puts a fiber that is not the main fiber back into the list. -/
theorem wake_readyFibers {r : Runtime Code} {f : Nat} (status : Status) (other : r.isMain f = false) :
    (r.wake f status).readyFibers = r.readyFibers ++ [f] := by
  have same : (r.setStatus f status).isMain f = r.isMain f := by simp [isMain, setStatus]
  rw [wake, awakened_readyFibers, same, other]
  rfl

theorem wake_status_self (r : Runtime Code) (f : Nat) (status : Status) : (r.wake f status).status f = status := by
  rw [wake, awakened_status]
  simp [Runtime.status, setStatus]

theorem wake_status_other {r : Runtime Code} {f g : Nat} (status : Status) (other : g ≠ f) :
    (r.wake f status).status g = r.status g := by
  rw [wake, awakened_status]
  simp [Runtime.status, setStatus, setFiber_fibers_other _ other]

theorem wake_role (r : Runtime Code) (f g : Nat) (status : Status) : (r.wake f status).role g = r.role g :=
  congrArg Code.role (r.wake_code g f status)

theorem wake_isMain (r : Runtime Code) (f g : Nat) (status : Status) : (r.wake f status).isMain g = r.isMain g := by
  rw [wake, awakened_isMain]
  by_cases same : g = f
  · subst same
    simp [isMain, setStatus]
  · simp [isMain, setStatus, setFiber_fibers_other _ same]

/-- A woken fiber leaves the place of the main fiber alone. -/
theorem wake_mainReady {r : Runtime Code} {f : Nat} (status : Status) (other : r.isMain f = false) :
    (r.wake f status).mainReady = r.mainReady := by
  have same : (r.setStatus f status).isMain f = r.isMain f := by simp [isMain, setStatus]
  rw [wake, awakened_mainReady, same, other]
  rfl

/-- The order of the scheduler. -/
structure Scheduled (r : Runtime Code) : Prop where
  born : 2 ≤ r.nextFiber
  unborn : ∀ f, r.nextFiber ≤ f → r.status f = .finished ∧ r.role f = .ordinary ∧ r.isMain f = false
  nodup : r.readyFibers.Nodup
  ready : ∀ f ∈ r.readyFibers, (r.status f).isOn = true ∧ r.active ≠ some f
  active : ∀ f, r.active = some f → r.status f = .ready
  signaled : ∀ f sleep, r.status f = .awake sleep → f ∈ r.readyFibers
  marked : ∀ f, r.isMain f = true ↔ r.role f = .main ∨ r.role f = .ended
  main : ∀ f, r.isMain f = true → f = mainFiber ∧ r.status f = .ready ∧ f ∉ r.readyFibers
  mainReady : r.mainReady = true → r.isMain mainFiber = true ∧ r.active ≠ some mainFiber
  roles : ∀ f, r.role f = .dispatcher ↔ f = dispatcher
  dispatches : r.status dispatcher = .ready ∧ (dispatcher ∈ r.readyFibers ∨ r.active = some dispatcher)
  alone : r.control = .runs mainFiber → r.role mainFiber = .main → ∀ f ∈ r.readyFibers, f = dispatcher

namespace Scheduled
variable {r d : Runtime Code}

/-- A fiber that runs programs is neither the dispatcher nor marked as main. -/
theorem ordinary (scheduled : r.Scheduled) {f : Nat} (role : r.role f = .ordinary) :
    f ≠ dispatcher ∧ r.isMain f = false := by
  constructor
  · intro same
    rw [(scheduled.roles f).mpr same] at role
    cases role
  · rw [Bool.eq_false_iff]
    intro marked
    rcases (scheduled.marked f).mp marked with main | ended
    · rw [main] at role
      cases role
    · rw [ended] at role
      cases role

/-- A fiber that waits is not the dispatcher, not main, and not ready. -/
theorem off (scheduled : r.Scheduled) {f : Nat} (off : (r.status f).isOn = false) :
    f ≠ dispatcher ∧ r.isMain f = false ∧ f ∉ r.readyFibers ∧ r.active ≠ some f := by
  refine ⟨?_, ?_, ?_, ?_⟩
  · rintro rfl
    rw [scheduled.dispatches.1] at off
    cases off
  · rw [Bool.eq_false_iff]
    intro marked
    rw [(scheduled.main f marked).2.1] at off
    cases off
  · intro ready
    rw [(scheduled.ready f ready).1] at off
    cases off
  · intro active
    rw [scheduled.active f active] at off
    cases off

/-- The active fiber was born. -/
theorem active_born (scheduled : r.Scheduled) {f : Nat} (active : r.active = some f) : f < r.nextFiber := by
  by_contra old
  have finished := (scheduled.unborn f (Nat.le_of_not_lt old)).1
  rw [scheduled.active f active] at finished
  cases finished

/-- Nothing that the order depends on has changed. -/
theorem congr (scheduled : r.Scheduled) (status : ∀ f, d.status f = r.status f) (role : ∀ f, d.role f = r.role f)
    (isMain : ∀ f, d.isMain f = r.isMain f) (nextFiber : d.nextFiber = r.nextFiber)
    (readyFibers : d.readyFibers = r.readyFibers) (mainReady : d.mainReady = r.mainReady)
    (control : d.control = r.control) : d.Scheduled := by
  have active : d.active = r.active := by rw [Runtime.active, control]; rfl
  exact {
    born := by
      rw [nextFiber]
      exact scheduled.born
    unborn := by simpa only [nextFiber, status, role, isMain] using scheduled.unborn
    nodup := by
      rw [readyFibers]
      exact scheduled.nodup
    ready := by simpa only [readyFibers, status, active] using scheduled.ready
    active := by simpa only [active, status] using scheduled.active
    signaled := by simpa only [status, readyFibers] using scheduled.signaled
    marked := by simpa only [isMain, role] using scheduled.marked
    main := by simpa only [isMain, status, readyFibers] using scheduled.main
    mainReady := by simpa only [mainReady, isMain, active] using scheduled.mainReady
    roles := by simpa only [role] using scheduled.roles
    dispatches := by simpa only [status, readyFibers, active] using scheduled.dispatches
    alone := by simpa only [control, role, readyFibers] using scheduled.alone }

/-- The running fiber changes itself: it goes on, yields or waits. -/
theorem edit (scheduled : r.Scheduled) {f : Nat} (runs : r.control = .runs f)
    (fibers : ∀ g, g ≠ f → d.fibers g = r.fibers g) (nextFiber : d.nextFiber = r.nextFiber)
    (readyFibers : d.readyFibers = r.readyFibers) (mainReady : d.mainReady = r.mainReady)
    (active : d.active = some f ∧ d.status f = .ready ∨
      d.active = none ∧ (∀ sleep, d.status f ≠ .awake sleep) ∧ f ≠ dispatcher)
    (marked : d.isMain f = true ↔ d.role f = .main ∨ d.role f = .ended)
    (main : d.isMain f = true → f = mainFiber ∧ d.status f = .ready)
    (role : d.role f = .dispatcher ↔ f = dispatcher)
    (alone : d.control = .runs mainFiber → d.role mainFiber = .main →
      r.control = .runs mainFiber ∧ r.role mainFiber = .main) : d.Scheduled := by
  have others : ∀ g, g ≠ f → d.status g = r.status g ∧ d.role g = r.role g ∧ d.isMain g = r.isMain g := by
    intro g other
    rw [Runtime.status, Runtime.role, Runtime.isMain, fibers g other]
    exact ⟨rfl, rfl, rfl⟩
  have running := active_runs runs
  have waiting : ∀ g ∈ r.readyFibers, g ≠ f := by
    rintro g ready rfl
    exact (scheduled.ready g ready).2 running
  have inactive : ∀ g, g ≠ f → d.active ≠ some g := by
    intro g other same
    rcases active with ⟨itself, _⟩ | ⟨none, _⟩
    · exact other (Option.some.inj (same.symm.trans itself))
    · cases none.symm.trans same
  exact {
    born := by
      rw [nextFiber]
      exact scheduled.born
    unborn := by
      intro g old
      rw [nextFiber] at old
      have other : g ≠ f := by
        rintro rfl
        exact absurd (scheduled.active_born running) (Nat.not_lt_of_le old)
      obtain ⟨status, same, unmarked⟩ := others g other
      rw [status, same, unmarked]
      exact scheduled.unborn g old
    nodup := by
      rw [readyFibers]
      exact scheduled.nodup
    ready := by
      intro g ready
      rw [readyFibers] at ready
      rw [(others g (waiting g ready)).1]
      exact ⟨(scheduled.ready g ready).1, inactive g (waiting g ready)⟩
    active := by
      intro g this
      rcases active with ⟨itself, status⟩ | ⟨none, _⟩
      · cases itself.symm.trans this
        exact status
      · cases none.symm.trans this
    signaled := by
      intro g sleep awake
      rw [readyFibers]
      by_cases same : g = f
      · subst same
        rcases active with ⟨_, status⟩ | ⟨_, never, _⟩
        · rw [status] at awake
          cases awake
        · exact absurd awake (never sleep)
      · rw [(others g same).1] at awake
        exact scheduled.signaled g sleep awake
    marked := by
      intro g
      by_cases same : g = f
      · subst same
        exact marked
      · rw [(others g same).2.1, (others g same).2.2]
        exact scheduled.marked g
    main := by
      intro g mark
      rw [readyFibers]
      by_cases same : g = f
      · subst same
        exact ⟨(main mark).1, (main mark).2, fun ready => waiting g ready rfl⟩
      · rw [(others g same).2.2] at mark
        rw [(others g same).1]
        exact scheduled.main g mark
    mainReady := by
      intro ready
      rw [mainReady] at ready
      obtain ⟨mark, other⟩ := scheduled.mainReady ready
      have different : mainFiber ≠ f := by
        intro same
        exact other (by rw [same]; exact running)
      rw [(others mainFiber different).2.2]
      exact ⟨mark, inactive mainFiber different⟩
    roles := by
      intro g
      by_cases same : g = f
      · subst same
        exact role
      · rw [(others g same).2.1]
        exact scheduled.roles g
    dispatches := by
      rw [readyFibers]
      by_cases same : dispatcher = f
      · rcases active with ⟨itself, status⟩ | ⟨_, _, other⟩
        · rw [← same] at itself status
          exact ⟨status, Or.inr itself⟩
        · exact absurd same.symm other
      · rw [(others dispatcher same).1]
        refine ⟨scheduled.dispatches.1, Or.inl (scheduled.dispatches.2.resolve_right ?_)⟩
        rw [running]
        exact fun equal => same (Option.some.inj equal).symm
    alone := by
      intro control mainRole
      rw [readyFibers]
      obtain ⟨before, old⟩ := alone control mainRole
      exact scheduled.alone before old }

/-- A fiber that runs programs goes on, yields or waits. -/
theorem editOrdinary (scheduled : r.Scheduled) {f : Nat} (runs : r.control = .runs f) (ordinary : r.role f = .ordinary)
    (fibers : ∀ g, g ≠ f → d.fibers g = r.fibers g) (role : d.role f = .ordinary) (isMain : d.isMain f = r.isMain f)
    (nextFiber : d.nextFiber = r.nextFiber) (readyFibers : d.readyFibers = r.readyFibers)
    (mainReady : d.mainReady = r.mainReady)
    (active : d.control = .runs f ∧ d.status f = r.status f ∨ d.control = .picks (some f) ∧ d.status f = r.status f ∨
      d.control = .picks none ∧ ∀ sleep, d.status f ≠ .awake sleep) : d.Scheduled := by
  obtain ⟨other, unmarked⟩ := scheduled.ordinary ordinary
  have status := scheduled.active f (active_runs runs)
  refine scheduled.edit runs fibers nextFiber readyFibers mainReady ?_ ?_ ?_ ?_ ?_
  · rcases active with ⟨control, same⟩ | ⟨control, same⟩ | ⟨control, asleep⟩
    · exact Or.inl ⟨active_runs control, same.trans status⟩
    · exact Or.inl ⟨active_picks control, same.trans status⟩
    · exact Or.inr ⟨active_picks control, asleep, other⟩
  · rw [isMain, unmarked, role]
    simp
  · rw [isMain, unmarked]
    nofun
  · rw [role]
    exact ⟨nofun, fun same => absurd same other⟩
  · intro control main
    rcases active with ⟨going, _⟩ | ⟨going, _⟩ | ⟨going, _⟩
    · cases going.symm.trans control
      rw [role] at main
      cases main
    · cases going.symm.trans control
    · cases going.symm.trans control

/-- The fiber that runs goes on. -/
theorem setCode (scheduled : r.Scheduled) {f : Nat} {code : Code} (runs : r.control = .runs f)
    (ordinary : r.role f = .ordinary) (role : code.role = .ordinary) : (r.setCode f code).Scheduled := by
  refine scheduled.editOrdinary runs ordinary (fun g other => setFiber_fibers_other _ other) ?_ ?_ rfl rfl rfl
    (Or.inl ⟨runs, ?_⟩)
  · exact (congrArg Code.role setCode_code).trans role
  · simp [isMain, Runtime.setCode]
  · simp [status, Runtime.setCode]

/-- The fiber that runs moves to another host. -/
theorem setCurrentHost (scheduled : r.Scheduled) {f : Nat} (runs : r.control = .runs f)
    (ordinary : r.role f = .ordinary) (host epoch : Nat) : (r.setCurrentHost f host epoch).Scheduled := by
  refine scheduled.editOrdinary runs ordinary (fun g other => setFiber_fibers_other _ other) ?_ ?_ rfl rfl rfl
    (Or.inl ⟨runs, ?_⟩)
  · rw [← ordinary]
    simp [Runtime.role, Runtime.setCurrentHost, setFiber]
  · simp [isMain, Runtime.setCurrentHost, setFiber, Props.setCurrentHost]
  · simp [status, Runtime.setCurrentHost, setFiber]

/-- The fiber that runs is suspended. -/
theorem suspend (scheduled : r.Scheduled) {f : Nat} {status : Status} {code : Code} (runs : r.control = .runs f)
    (ordinary : r.role f = .ordinary) (role : code.role = .ordinary) (asleep : ∀ sleep, status ≠ .awake sleep) :
    (r.suspend f status code).Scheduled := by
  refine scheduled.editOrdinary runs ordinary (fun g other => setFiber_fibers_other _ other) ?_ ?_ rfl rfl rfl
    (Or.inr (Or.inr ⟨rfl, ?_⟩))
  · simpa [Runtime.role, Runtime.suspend, setFiber] using role
  · simp [isMain, Runtime.suspend, setFiber]
  · simpa [Runtime.status, Runtime.suspend, setFiber] using asleep

/-- The running fiber yields. -/
theorem yield (scheduled : r.Scheduled) {f : Nat} (runs : r.control = .runs f) : (r.yield f).Scheduled := by
  have running := active_runs runs
  refine scheduled.edit runs (fun _ _ => rfl) rfl rfl rfl (Or.inl ⟨rfl, scheduled.active f running⟩)
    (scheduled.marked f) ?_ (scheduled.roles f) nofun
  intro mark
  exact ⟨(scheduled.main f mark).1, (scheduled.main f mark).2.1⟩

/-- The main fiber goes on with its loop or leaves it. -/
theorem setMainCode (scheduled : r.Scheduled) {f : Nat} {code : Code} (runs : r.control = .runs f)
    (main : r.role f = .main) (role : code.role = .main ∨ code.role = .ended) : (r.setCode f code).Scheduled := by
  have mark : r.isMain f = true := (scheduled.marked f).mpr (Or.inl main)
  obtain ⟨itself, status, _⟩ := scheduled.main f mark
  have same : (r.setCode f code).isMain f = r.isMain f := by simp [isMain, Runtime.setCode]
  have own : (r.setCode f code).role f = code.role := congrArg Code.role setCode_code
  have kept : (r.setCode f code).status f = r.status f := by simp [Runtime.status, Runtime.setCode]
  refine scheduled.edit runs (fun g other => setFiber_fibers_other _ other) rfl rfl rfl ?_ ?_ ?_ ?_ ?_
  · exact Or.inl ⟨active_runs runs, kept.trans status⟩
  · rw [same, mark, own]
    exact ⟨fun _ => role, fun _ => rfl⟩
  · exact fun _ => ⟨itself, kept.trans status⟩
  · rw [own]
    refine ⟨fun dispatches => ?_, fun dispatches => ?_⟩
    · rw [dispatches] at role
      simp at role
    · rw [(scheduled.roles f).mpr dispatches] at main
      cases main
  · exact fun control _ => ⟨control, itself ▸ main⟩

/-- The test's own fiber becomes the main fiber. -/
theorem mark (scheduled : r.Scheduled) {fiber : Fiber Code} (runs : r.control = .runs mainFiber)
    (role : fiber.code.role = .main) (marked : fiber.props.isMain = true)
    (status : fiber.status = (r.fibers mainFiber).status) : ((r.setFiber mainFiber fiber).yield mainFiber).Scheduled := by
  have running := active_runs runs
  have ready : fiber.status = .ready := status.trans (scheduled.active mainFiber running)
  have born : ((r.setFiber mainFiber fiber).yield mainFiber).fibers mainFiber = fiber :=
    r.setFiber_fibers_self mainFiber fiber
  refine scheduled.edit runs (fun g other => setFiber_fibers_other _ other) rfl rfl rfl ?_ ?_ ?_ ?_ nofun
  · exact Or.inl ⟨rfl, by rw [Runtime.status, born, ready]⟩
  · rw [isMain, Runtime.role, born, marked, role]
    simp
  · exact fun _ => ⟨rfl, by rw [Runtime.status, born, ready]⟩
  · rw [Runtime.role, born, role]
    exact ⟨nofun, nofun⟩

/-- A waiting fiber is notified. -/
theorem wake (scheduled : r.Scheduled) {f : Nat} {status : Status} (off : (r.status f).isOn = false)
    (alive : r.status f ≠ .finished) (on : status.isOn = true)
    (apart : r.control = .runs mainFiber → r.role mainFiber ≠ .main) : (r.wake f status).Scheduled := by
  obtain ⟨other, unmarked, absent, inactive⟩ := scheduled.off off
  have ready := wake_readyFibers status unmarked
  have others : ∀ g, g ≠ f → (r.wake f status).status g = r.status g := fun g => wake_status_other status
  have active : (r.wake f status).active = r.active := rfl
  have itself := r.wake_status_self f status
  exact {
    born := scheduled.born
    unborn := by
      intro g old
      have different : g ≠ f := by
        rintro rfl
        exact alive (scheduled.unborn g old).1
      rw [others g different, wake_role, wake_isMain]
      exact scheduled.unborn g old
    nodup := by
      rw [ready]
      exact List.nodup_append.mpr ⟨scheduled.nodup, List.nodup_singleton f, by
        rintro g there _ (_ | ⟨_, ⟨⟩⟩) rfl
        exact absent there⟩
    ready := by
      intro g member
      rw [ready, List.mem_append, List.mem_singleton] at member
      by_cases same : g = f
      · subst same
        rw [itself]
        exact ⟨on, inactive⟩
      · rw [others g same]
        exact scheduled.ready g (member.resolve_right same)
    active := by
      intro g this
      have different : g ≠ f := by
        rintro rfl
        exact inactive this
      rw [others g different]
      exact scheduled.active g this
    signaled := by
      intro g sleep awake
      rw [ready, List.mem_append, List.mem_singleton]
      by_cases same : g = f
      · exact Or.inr same
      · rw [others g same] at awake
        exact Or.inl (scheduled.signaled g sleep awake)
    marked := by
      intro g
      rw [wake_role, wake_isMain]
      exact scheduled.marked g
    main := by
      intro g mark
      rw [wake_isMain] at mark
      have different : g ≠ f := by
        rintro rfl
        rw [unmarked] at mark
        cases mark
      rw [others g different, ready, List.mem_append, List.mem_singleton]
      obtain ⟨main, status, apart⟩ := scheduled.main g mark
      exact ⟨main, status, not_or.mpr ⟨apart, different⟩⟩
    mainReady := by
      rw [wake_mainReady status unmarked, wake_isMain]
      exact scheduled.mainReady
    roles := by
      intro g
      rw [wake_role]
      exact scheduled.roles g
    dispatches := by
      rw [others dispatcher other.symm, ready, List.mem_append]
      exact ⟨scheduled.dispatches.1, scheduled.dispatches.2.imp_left Or.inl⟩
    alone := by
      intro control role
      rw [wake_role] at role
      exact absurd role (apart control) }

/-- A fiber is prepared that nobody has notified yet. -/
theorem prepare (scheduled : r.Scheduled) {fiber : Fiber Code} (waits : fiber.status = .waits)
    (role : fiber.code.role = .ordinary) (unmarked : fiber.props.isMain = false) :
    { r.setFiber r.nextFiber fiber with nextFiber := r.nextFiber + 1 }.Scheduled := by
  generalize same : { r.setFiber r.nextFiber fiber with nextFiber := r.nextFiber + 1 } = d
  have born : d.fibers r.nextFiber = fiber := by
    subst same
    exact setFiber_fibers_self ..
  have others : ∀ g, g ≠ r.nextFiber → d.fibers g = r.fibers g := by
    subst same
    exact fun g other => setFiber_fibers_other _ other
  have known : ∀ g, r.status g ≠ .finished → g ≠ r.nextFiber := by
    rintro g alive rfl
    exact alive (scheduled.unborn _ (Nat.le_refl _)).1
  have status : ∀ g, g ≠ r.nextFiber → d.status g = r.status g := fun g other => by rw [Runtime.status, others g other]; rfl
  have roles : ∀ g, d.role g = r.role g := by
    intro g
    by_cases new : g = r.nextFiber
    · subst new
      rw [Runtime.role, born, role, (scheduled.unborn _ (Nat.le_refl _)).2.1]
    · rw [Runtime.role, others g new]
      rfl
  have marks : ∀ g, d.isMain g = r.isMain g := by
    intro g
    by_cases new : g = r.nextFiber
    · subst new
      rw [Runtime.isMain, born, unmarked, (scheduled.unborn _ (Nat.le_refl _)).2.2]
    · rw [Runtime.isMain, others g new]
      rfl
  have ready : ∀ g ∈ r.readyFibers, g ≠ r.nextFiber := by
    intro g member
    refine known g fun finished => ?_
    have on := (scheduled.ready g member).1
    rw [finished] at on
    cases on
  have same : d.readyFibers = r.readyFibers ∧ d.active = r.active ∧ d.mainReady = r.mainReady ∧
      d.control = r.control ∧ d.nextFiber = r.nextFiber + 1 := by
    subst same
    exact ⟨rfl, rfl, rfl, rfl, rfl⟩
  obtain ⟨readyFibers, active, mainReady, control, nextFiber⟩ := same
  have bound := scheduled.born
  exact {
    born := by omega
    unborn := by
      intro g old
      have other : g ≠ r.nextFiber := by omega
      rw [status g other, roles, marks]
      exact scheduled.unborn g (by omega)
    nodup := by
      rw [readyFibers]
      exact scheduled.nodup
    ready := by
      intro g member
      rw [readyFibers] at member
      rw [status g (ready g member), active]
      exact scheduled.ready g member
    active := by
      intro g this
      rw [active] at this
      have alive := scheduled.active g this
      rw [status g (known g (by rw [alive]; nofun))]
      exact alive
    signaled := by
      intro g sleep awake
      rw [readyFibers]
      by_cases new : g = r.nextFiber
      · subst new
        rw [Runtime.status, born, waits] at awake
        cases awake
      · rw [status g new] at awake
        exact scheduled.signaled g sleep awake
    marked := by
      intro g
      rw [marks, roles]
      exact scheduled.marked g
    main := by
      intro g mark
      rw [marks] at mark
      have main := scheduled.main g mark
      rw [status g (known g (by rw [main.2.1]; nofun)), readyFibers]
      exact main
    mainReady := by
      rw [mainReady, marks, active]
      exact scheduled.mainReady
    roles := by
      intro g
      rw [roles]
      exact scheduled.roles g
    dispatches := by
      rw [status dispatcher (known _ (by rw [scheduled.dispatches.1]; nofun)), readyFibers, active]
      exact scheduled.dispatches
    alone := by
      rw [control, roles, readyFibers]
      exact scheduled.alone }

/-- The fibers after the birth of one that the scheduler has seen. -/
theorem birth_awakened (r : Runtime Code) (code : Code) :
    (r.birth code).awakened r.nextFiber =
      { r.setFiber r.nextFiber ⟨Props.new, .waits, code⟩ with nextFiber := r.nextFiber + 1 }.wake r.nextFiber .ready := by
  simp [birth, Runtime.wake, setStatus, setFiber]

/-- A new fiber appears in the list. -/
theorem spawn (scheduled : r.Scheduled) {f : Nat} {code : Code} (runs : r.control = .runs f)
    (ordinary : r.role f = .ordinary) (role : code.role = .ordinary) : (r.spawn f code).Scheduled := by
  have woken : ((r.birth code).awakened r.nextFiber).Scheduled := by
    have prepared : { r.setFiber r.nextFiber ⟨Props.new, .waits, code⟩ with nextFiber := r.nextFiber + 1 }.Scheduled :=
      scheduled.prepare rfl role rfl
    rw [birth_awakened]
    refine prepared.wake ?_ ?_ rfl ?_
    · simp [status, setFiber, Status.isOn]
    · simp [status, setFiber]
    · intro control main
      cases runs.symm.trans control
      have old : mainFiber ≠ r.nextFiber := Nat.ne_of_lt (scheduled.active_born (active_runs runs))
      rw [Runtime.role, setFiber_fibers_other _ old] at main
      cases ordinary.symm.trans main
  exact woken.congr (fun _ => rfl) (fun _ => rfl) (fun _ => rfl) rfl rfl rfl rfl

/-- Spawning leaves the other fibers alone. -/
theorem spawn_fibers {f g : Nat} {code : Code} (other : g ≠ r.nextFiber) : (r.spawn f code).fibers g = r.fibers g := by
  change ((r.birth code).awakened r.nextFiber).fibers g = r.fibers g
  simp [awakened, birth, setFiber, other]

end Scheduled

/-- Resuming a fiber makes it ready. -/
theorem resume_status_self {r : Runtime Code} {f : Nat} (on : (r.status f).isOn = true) : (r.resume f).status f = .ready := by
  unfold resume
  split
  · simp [status, setStatus]
  · simp [status, setStatus]
  · rename_i notAwake notAnswered
    cases shown : r.status f with
    | ready => rfl
    | awake sleep => exact absurd shown (notAwake sleep)
    | answered => exact absurd shown notAnswered
    | asleep | awaits | waits | finished =>
        rw [shown] at on
        cases on

/-- A fiber that leaves its wait changes no other one. -/
theorem resume_fibers_other {r : Runtime Code} {f g : Nat} (other : g ≠ f) : (r.resume f).fibers g = r.fibers g := by
  unfold resume
  split
  · exact setFiber_fibers_other _ other
  · exact setFiber_fibers_other _ other
  · rfl

/-- A fiber that leaves its wait goes on where it was. -/
theorem resume_self (r : Runtime Code) (f : Nat) :
    ((r.resume f).fibers f).code = (r.fibers f).code ∧ ((r.resume f).fibers f).props = (r.fibers f).props := by
  unfold resume
  split
  · simp [setStatus]
  · simp [setStatus]
  · exact ⟨rfl, rfl⟩

/-- What resuming a fiber leaves alone. -/
theorem resume_scheduler (r : Runtime Code) (f : Nat) :
    (r.resume f).nextFiber = r.nextFiber ∧ (r.resume f).readyFibers = r.readyFibers ∧
    (r.resume f).mainReady = r.mainReady ∧ (r.resume f).control = r.control := by
  unfold resume
  split <;> exact ⟨rfl, rfl, rfl, rfl⟩

/-- A fiber that is put back stays where it is. -/
theorem putBack_fibers (r : Runtime Code) (back : Option Nat) (f : Nat) :
    (r.putBack back).status f = r.status f ∧ (r.putBack back).role f = r.role f ∧
    (r.putBack back).isMain f = r.isMain f ∧ ((r.putBack back).fibers f).code = (r.fibers f).code := by
  cases back with
  | none => exact ⟨rfl, rfl, rfl, rfl⟩
  | some g => exact ⟨awakened_status .., awakened_role .., awakened_isMain .., awakened_code ..⟩

/-- It is ready again, behind all others. -/
theorem putBack_readyFibers (r : Runtime Code) (back : Option Nat) :
    (r.putBack back).readyFibers = r.readyFibers ++ back.toList.filter fun f => r.isMain f = false := by
  cases back with
  | none => simp [putBack]
  | some f =>
      rw [putBack, awakened_readyFibers]
      by_cases marked : r.isMain f = true <;> simp [marked]

/-- If it is the main fiber, its own place is taken. -/
theorem putBack_mainReady (r : Runtime Code) (back : Option Nat) :
    (r.putBack back).mainReady = (back.any r.isMain || r.mainReady) := by
  cases back with
  | none => simp [putBack]
  | some f => rw [putBack, awakened_mainReady]; rfl

theorem putBack_control (r : Runtime Code) (back : Option Nat) :
    (r.putBack back).control = r.control ∧ (r.putBack back).nextFiber = r.nextFiber := by
  cases back <;> exact ⟨rfl, rfl⟩

/-- A picked fiber was ready, or it is the main fiber and nothing was ready. -/
theorem chosen_cases {r : Runtime Code} {choice f : Nat} (chosen : r.chosen choice = some f) :
    r.readyFibers[choice]? = some f ∨ r.readyFibers = [] ∧ r.mainReady = true ∧ f = mainFiber := by
  unfold Runtime.chosen at chosen
  split at chosen
  · split at chosen
    · cases chosen
      exact Or.inr ⟨‹_›, ‹_›, rfl⟩
    · cases chosen
  · exact Or.inl chosen

/-- What a successful pick does to the scheduler. -/
structure Picked (r d : Runtime Code) (back : Option Nat) (f choice : Nat) : Prop where
  control : d.control = .runs f
  nextFiber : d.nextFiber = r.nextFiber
  status : d.status f = .ready
  others : ∀ g, g ≠ f → d.status g = r.status g
  code : ∀ g, (d.fibers g).code = (r.fibers g).code
  isMain : ∀ g, d.isMain g = r.isMain g
  ready : ∀ g, g ∈ d.readyFibers ↔ g ∈ r.readyFibers ∧ g ≠ f ∨ back = some g ∧ r.isMain g = false
  nodup : d.readyFibers.Nodup
  mainReady : d.mainReady = true →
    back = some mainFiber ∧ r.isMain mainFiber = true ∨ r.mainReady = true ∧ r.readyFibers ≠ []

/-- The list without one of its fibers. -/
theorem Scheduled.mem_eraseIdx {r : Runtime Code} (scheduled : r.Scheduled) {choice f : Nat}
    (found : r.readyFibers[choice]? = some f) (g : Nat) :
    g ∈ r.readyFibers.eraseIdx choice ↔ g ∈ r.readyFibers ∧ g ≠ f := by
  obtain ⟨inside, rfl⟩ := List.getElem?_eq_some_iff.mp found
  rw [← scheduled.nodup.erase_getElem choice inside, scheduled.nodup.mem_erase_iff, and_comm]

/-- The switch to a ready fiber keeps the scheduler in order. -/
theorem Scheduled.picked_spec {r : Runtime Code} (scheduled : r.Scheduled) {back : Option Nat} {choice f : Nat}
    (picks : r.control = .picks back)
    (left : ∀ g, g ∈ r.readyFibers.eraseIdx choice ↔ g ∈ r.readyFibers ∧ g ≠ f) (on : (r.status f).isOn = true) :
    r.Picked (((r.pickNext f choice).putBack back).resume f) back f choice := by
  obtain ⟨nextFiber, readyFibers, mainReady, control⟩ := resume_scheduler ((r.pickNext f choice).putBack back) f
  have put := putBack_fibers (r.pickNext f choice) back
  have same : (r.pickNext f choice).isMain = r.isMain := rfl
  rw [putBack_readyFibers, same] at readyFibers
  rw [putBack_mainReady] at mainReady
  exact {
    control := by
      rw [control]
      exact (putBack_control ..).1
    nextFiber := by
      rw [nextFiber]
      exact (putBack_control ..).2
    status := resume_status_self (by rw [(put f).1]; exact on)
    others := by
      intro g other
      rw [status, resume_fibers_other other]
      exact (put g).1
    code := by
      intro g
      by_cases itself : g = f
      · subst itself
        rw [(resume_self ..).1]
        exact (put g).2.2.2
      · rw [resume_fibers_other itself]
        exact (put g).2.2.2
    isMain := by
      intro g
      by_cases itself : g = f
      · subst itself
        rw [isMain, (resume_self ..).2]
        exact (put g).2.2.1
      · rw [isMain, resume_fibers_other itself]
        exact (put g).2.2.1
    ready := by
      intro g
      rw [readyFibers, List.mem_append, List.mem_filter, Option.mem_toList]
      exact or_congr (left g) (and_congr Iff.rfl (by simp))
    nodup := by
      rw [readyFibers]
      refine List.nodup_append.mpr ⟨scheduled.nodup.sublist (List.eraseIdx_sublist ..), ?_, ?_⟩
      · cases back <;> simp [List.Nodup.filter]
      · rintro g there _ yielded rfl
        have active : r.active = some g := (active_picks picks).trans (Option.mem_toList.mp (List.mem_of_mem_filter yielded))
        exact (scheduled.ready g ((left g).mp there).1).2 active
    mainReady := by
      rw [mainReady, Bool.or_eq_true]
      rintro (marked | ready)
      · cases back with
        | none => cases marked
        | some g =>
            have mark : r.isMain g = true := marked
            cases (scheduled.main g mark).1
            exact Or.inl ⟨rfl, mark⟩
      · right
        simp only [pickNext] at ready
        split at ready
        · cases ready
        · exact ⟨ready, ‹_›⟩ }

/-- A fiber that can be picked is not waiting. -/
theorem Scheduled.source_on {r : Runtime Code} (scheduled : r.Scheduled) {f : Nat}
    (source : f ∈ r.readyFibers ∨ r.readyFibers = [] ∧ r.mainReady = true ∧ f = mainFiber) : (r.status f).isOn = true := by
  rcases source with ready | ⟨_, ready, rfl⟩
  · exact (scheduled.ready f ready).1
  · rw [(scheduled.main _ (scheduled.mainReady ready).1).2.1]
    rfl

/-- The next fiber is picked, or the scheduler fails. -/
theorem Scheduled.picked {r d : Runtime Code} (scheduled : r.Scheduled) {back : Option Nat} {choice : Nat}
    (picks : r.control = .picks back) (picked : r.pick back choice = some d) :
    d = r.fail .noReadyFibers ∨ ∃ f, (f ∈ r.readyFibers ∨ r.readyFibers = [] ∧ r.mainReady = true ∧ f = mainFiber) ∧
      d = ((r.pickNext f choice).putBack back).resume f ∧ r.Picked d back f choice := by
  unfold Runtime.pick at picked
  split at picked
  · exact Or.inl (Option.some.inj picked).symm
  · obtain ⟨f, chosen, rfl⟩ := Option.map_eq_some_iff.mp picked
    have source : f ∈ r.readyFibers ∨ r.readyFibers = [] ∧ r.mainReady = true ∧ f = mainFiber :=
      (chosen_cases chosen).imp_left fun found => List.mem_of_getElem? found
    have left : ∀ g, g ∈ r.readyFibers.eraseIdx choice ↔ g ∈ r.readyFibers ∧ g ≠ f := by
      rcases chosen_cases chosen with found | ⟨empty, _, _⟩
      · exact scheduled.mem_eraseIdx found
      · simp [empty]
    exact Or.inr ⟨f, source, rfl, scheduled.picked_spec picks left (scheduled.source_on source)⟩

/-- The order is kept when a fiber is picked. The main fiber is picked only when nothing but the
dispatcher can run. -/
theorem Picked.scheduled {r d : Runtime Code} {back : Option Nat} {f choice : Nat} (picked : r.Picked d back f choice)
    (scheduled : r.Scheduled) (picks : r.control = .picks back)
    (source : f ∈ r.readyFibers ∨ r.readyFibers = [] ∧ r.mainReady = true ∧ f = mainFiber) : d.Scheduled := by
  have yielded := active_picks picks
  have active : d.active = some f := active_runs picked.control
  have role : ∀ g, d.role g = r.role g := fun g => congrArg Code.role (picked.code g)
  have alive := scheduled.source_on source
  have returned : ∀ {g}, back = some g → g ≠ f := by
    rintro g same rfl
    rcases source with ready | ⟨_, ready, rfl⟩
    · exact (scheduled.ready g ready).2 (yielded.trans same)
    · exact (scheduled.mainReady ready).2 (yielded.trans same)
  exact {
    born := by
      rw [picked.nextFiber]
      exact scheduled.born
    unborn := by
      intro g old
      rw [picked.nextFiber] at old
      have other : g ≠ f := by
        rintro rfl
        rw [(scheduled.unborn g old).1] at alive
        cases alive
      rw [picked.others g other, role, picked.isMain]
      exact scheduled.unborn g old
    nodup := picked.nodup
    ready := by
      intro g member
      rw [active]
      rcases (picked.ready g).mp member with ⟨ready, other⟩ | ⟨same, _⟩
      · rw [picked.others g other]
        exact ⟨(scheduled.ready g ready).1, fun equal => other (Option.some.inj equal).symm⟩
      · rw [picked.others g (returned same), scheduled.active g (yielded.trans same)]
        exact ⟨rfl, fun equal => returned same (Option.some.inj equal).symm⟩
    active := by
      intro g this
      cases active.symm.trans this
      exact picked.status
    signaled := by
      intro g sleep awake
      have other : g ≠ f := by
        rintro rfl
        rw [picked.status] at awake
        cases awake
      rw [picked.others g other] at awake
      exact (picked.ready g).mpr (Or.inl ⟨scheduled.signaled g sleep awake, other⟩)
    marked := by
      intro g
      rw [picked.isMain, role]
      exact scheduled.marked g
    main := by
      intro g mark
      rw [picked.isMain] at mark
      obtain ⟨main, status, absent⟩ := scheduled.main g mark
      refine ⟨main, ?_, fun member => ?_⟩
      · by_cases same : g = f
        · subst same
          exact picked.status
        · rw [picked.others g same]
          exact status
      · rcases (picked.ready g).mp member with ⟨ready, _⟩ | ⟨_, unmarked⟩
        · exact absent ready
        · rw [mark] at unmarked
          cases unmarked
    mainReady := by
      intro ready
      rw [picked.isMain, active]
      rcases picked.mainReady ready with ⟨same, mark⟩ | ⟨waiting, nonempty⟩
      · exact ⟨mark, fun equal => returned same (Option.some.inj equal).symm⟩
      · obtain ⟨mark, _⟩ := scheduled.mainReady waiting
        refine ⟨mark, fun equal => ?_⟩
        cases equal
        rcases source with member | ⟨empty, _, _⟩
        · exact (scheduled.main _ mark).2.2 member
        · exact nonempty empty
    roles := by
      intro g
      rw [role]
      exact scheduled.roles g
    dispatches := by
      by_cases same : dispatcher = f
      · rw [active, ← same]
        exact ⟨by rw [same]; exact picked.status, Or.inr rfl⟩
      · rw [picked.others dispatcher same]
        refine ⟨scheduled.dispatches.1, Or.inl ((picked.ready dispatcher).mpr ?_)⟩
        rcases scheduled.dispatches.2 with ready | yields
        · exact Or.inl ⟨ready, same⟩
        · refine Or.inr ⟨yielded.symm.trans yields, ?_⟩
          rw [Bool.eq_false_iff]
          intro mark
          cases (scheduled.main dispatcher mark).1
    alone := by
      intro control main g member
      cases picked.control.symm.trans control
      rw [role] at main
      have mark : r.isMain mainFiber = true := (scheduled.marked mainFiber).mpr (Or.inl main)
      rcases source with ready | ⟨empty, _, _⟩
      · exact absurd ready (scheduled.main _ mark).2.2
      · -- The dispatcher is not in the empty list, so it is the fiber that yielded.
        have yields : back = some dispatcher := by
          rcases scheduled.dispatches.2 with ready | yields
          · rw [empty] at ready
            cases ready
          · exact yielded.symm.trans yields
        rcases (picked.ready g).mp member with ⟨ready, _⟩ | ⟨same, _⟩
        · rw [empty] at ready
          cases ready
        · exact Option.some.inj (same.symm.trans yields) }

theorem birth_status (r : Runtime Code) (code : Code) (g : Nat) :
    (r.birth code).status g = if g = r.nextFiber then .ready else r.status g := by
  by_cases new : g = r.nextFiber
  · subst new
    simp [birth, status, setFiber]
  · simp [birth, status, setFiber, new]

/-- A fiber that runs at once is like a new fiber that is picked right after its creator yielded. -/
theorem Scheduled.dispatch {r : Runtime Code} (scheduled : r.Scheduled) {f : Nat} {code : Code} (runs : r.control = .runs f)
    (ordinary : r.role f = .ordinary) (role : code.role = .ordinary) : (r.dispatch f code).Scheduled := by
  have running := active_runs runs
  have old : f ≠ r.nextFiber := Nat.ne_of_lt (scheduled.active_born running)
  have spawned := scheduled.spawn runs ordinary role
  have fresh : r.nextFiber ∉ r.readyFibers := by
    intro ready
    have on := (scheduled.ready _ ready).1
    rw [(scheduled.unborn _ (Nat.le_refl _)).1] at on
    cases on
  have unmarked : (r.birth code).isMain f = false := by
    rw [isMain, birth]
    simp only [setFiber_fibers_other _ old]
    exact (scheduled.ordinary ordinary).2
  have new : (r.birth code).isMain r.nextFiber = false := by simp [isMain, birth, setFiber, Props.new]
  have listed : (r.dispatch f code).readyFibers = r.readyFibers ++ [f] := by
    change ((r.birth code).awakened f).readyFibers = _
    rw [awakened_readyFibers, unmarked]
    rfl
  have before : ((r.spawn f code).yield f).readyFibers = r.readyFibers ++ [r.nextFiber] := by
    change ((r.birth code).awakened r.nextFiber).readyFibers = _
    rw [awakened_readyFibers, new]
    rfl
  have picked : ((r.spawn f code).yield f).Picked (r.dispatch f code) (some f) r.nextFiber 0 := by
    exact {
      control := by rfl
      nextFiber := by rfl
      status := by
        change ((r.birth code).awakened f).status r.nextFiber = .ready
        rw [awakened_status, birth_status, if_pos rfl]
      others := by
        intro g _
        change ((r.birth code).awakened f).status g = ((r.birth code).awakened r.nextFiber).status g
        rw [awakened_status, awakened_status]
      code := by
        intro g
        change (((r.birth code).awakened f).fibers g).code = (((r.birth code).awakened r.nextFiber).fibers g).code
        rw [awakened_code, awakened_code]
      isMain := by
        intro g
        change ((r.birth code).awakened f).isMain g = ((r.birth code).awakened r.nextFiber).isMain g
        rw [awakened_isMain, awakened_isMain]
      ready := by
        intro g
        have mark : ((r.spawn f code).yield f).isMain f = false := by
          change ((r.birth code).awakened r.nextFiber).isMain f = false
          rw [awakened_isMain]
          exact unmarked
        rw [listed, before, List.mem_append, List.mem_append, List.mem_singleton, List.mem_singleton]
        constructor
        · rintro (ready | rfl)
          · exact Or.inl ⟨Or.inl ready, fun same => fresh (same ▸ ready)⟩
          · exact Or.inr ⟨rfl, mark⟩
        · rintro (⟨ready | same, other⟩ | ⟨same, _⟩)
          · exact Or.inl ready
          · exact absurd same other
          · exact Or.inr (Option.some.inj same).symm
      nodup := by
        rw [listed]
        refine List.nodup_append.mpr ⟨scheduled.nodup, List.nodup_singleton f, ?_⟩
        rintro g ready _ (_ | ⟨_, ⟨⟩⟩) rfl
        exact (scheduled.ready g ready).2 running
      mainReady := by
        intro ready
        refine Or.inr ⟨?_, by rw [before]; simp⟩
        change ((r.birth code).awakened f).mainReady = true at ready
        change ((r.birth code).awakened r.nextFiber).mainReady = true
        rw [awakened_mainReady, unmarked] at ready
        rw [awakened_mainReady, new]
        exact ready }
  exact picked.scheduled (spawned.yield runs) rfl (Or.inl (by rw [before]; simp))

end Runtime

end Metamorphosis.Simulator
