import Metamorphosis.Proof.Simulator.Drift
import Metamorphosis.Proof.Simulator.Waking

/-!
Whole runs of the event queue. Up to the moment in which `RunSimulation` returns, time only grows, and
every sleep goes on at most once and on time.
-/

namespace Metamorphosis.Simulator

/-- The failures that a step may end with when no wake-up time is in the past. -/
def Failure.Usual (failure : Failure) : Prop := failure.ofTime = false

namespace Runtime

/-- The sleeps and the order of the scheduler. -/
structure Orderly (r : Runtime Code) : Prop where
  timely : r.Timely []
  scheduled : r.Scheduled

namespace Orderly
variable {r d : Runtime Code}

/-- The fiber that runs is ready. -/
theorem running (orderly : r.Orderly) {f : Nat} (runs : r.control = .runs f) : r.status f = .ready :=
  orderly.scheduled.active f (active_runs runs)

/-- Another value in a field that the order of the scheduler does not read. -/
theorem fail (orderly : r.Orderly) {failure : Failure} (usual : failure.Usual) : (r.fail failure).Orderly where
  timely := { orderly.timely with
    unfailed := by
      rintro _ ⟨⟩
      exact usual }
  scheduled := orderly.scheduled.congr (fun _ => rfl) (fun _ => rfl) (fun _ => rfl) rfl rfl rfl rfl

/-- A fiber that comes back from `World::SleepUntil` finds the time it asked for. -/
theorem not_late (orderly : r.Orderly) {f wakeUpTime : Nat} {token : Option Nat} {handles : Option Delivery}
    (runs : r.control = .runs f) (code : (r.fibers f).code = .slept wakeUpTime token handles) :
    r.currentTime = wakeUpTime ∨ r.stopRequested token = true := by
  have ready := orderly.running runs
  rcases orderly.timely.slept f wakeUpTime token handles code with ⟨number, sleep, waits, _⟩ | ⟨_, ended⟩
  · rcases waits with asleep | awake
    · cases ready.symm.trans asleep
    · cases ready.symm.trans awake
  · exact ended

/-- A new fiber is ready and has no sleep. -/
theorem spawn (orderly : r.Orderly) {f : Nat} {code : Code} (runs : r.control = .runs f) (ordinary : r.role f = .ordinary)
    (role : code.role = .ordinary) (plain : code.isSlept = false) : (r.spawn f code).Orderly where
  timely := orderly.timely.spawn runs (orderly.scheduled.ordinary ordinary).1
    (orderly.scheduled.unborn _ (Nat.le_refl _)).1 plain
  scheduled := orderly.scheduled.spawn runs ordinary role

/-- A fiber goes to sleep with one entry in the queue, or goes on at once. -/
theorem sleepUntil (orderly : r.Orderly) {f wakeUpTime : Nat} {token : Option Nat} {next : Code}
    (runs : r.control = .runs f) (ordinary : r.role f = .ordinary) (future : r.currentTime ≤ wakeUpTime)
    (role : next.role = .ordinary)
    (slept : ∀ time stop handles, next = .slept time stop handles → time = wakeUpTime ∧ stop = token) :
    (r.sleepUntil f wakeUpTime token next).Orderly where
  timely := orderly.timely.sleepUntil runs (orderly.scheduled.ordinary ordinary).1 (orderly.running runs) future slept
  scheduled := by
    unfold Runtime.sleepUntil
    split
    · exact (orderly.scheduled.setCode runs ordinary role).congr (fun _ => rfl) (fun _ => rfl) (fun _ => rfl) rfl rfl rfl rfl
    · have suspended : (r.suspend f (.asleep r.sleeps.length) next).Scheduled :=
        orderly.scheduled.suspend runs ordinary role nofun
      exact suspended.congr (fun _ => rfl) (fun _ => rfl) (fun _ => rfl) rfl rfl rfl rfl

/-- A fiber that waits for its call has no sleep. -/
theorem awaitReply (orderly : r.Orderly) {f : Nat} {token : Option Nat} {next : Code} (runs : r.control = .runs f)
    (ordinary : r.role f = .ordinary) (role : next.role = .ordinary) (plain : next.isSlept = false) :
    (r.awaitReply f token next).Orderly where
  timely := orderly.timely.awaitReply runs (orderly.scheduled.ordinary ordinary).1 (orderly.running runs) plain
  scheduled := by
    unfold Runtime.awaitReply
    split
    · exact orderly.scheduled.setCode runs ordinary role
    · have suspended : (r.suspend f .awaits next).Scheduled := orderly.scheduled.suspend runs ordinary role nofun
      exact suspended.congr (fun _ => rfl) (fun _ => rfl) (fun _ => rfl) rfl rfl rfl rfl

/-- A fiber that is woken without a sleep leaves the queue alone. -/
theorem wake (orderly : r.Orderly) {f g : Nat} {status : Status} (runs : r.control = .runs f)
    (role : r.role f = .ordinary ∨ r.role f = .ended)
    (notified : r.status g = .waits ∧ status = .ready ∨ r.status g = .awaits ∧ status = .answered) :
    (r.wake g status).Orderly := by
  obtain ⟨timely, scheduled⟩ := orderly
  have other : f ≠ dispatcher := by
    intro same
    rw [(scheduled.roles f).mpr same] at role
    rcases role with ordinary | ended
    · cases ordinary
    · cases ended
  have apart : r.control = .runs mainFiber → r.role mainFiber ≠ .main := by
    intro main loops
    cases runs.symm.trans main
    rw [loops] at role
    rcases role with ordinary | ended
    · cases ordinary
    · cases ended
  rcases notified with ⟨waits, rfl⟩ | ⟨awaits, rfl⟩
  · refine ⟨timely.wake runs other nofun nofun ?_ rfl ?_, scheduled.wake ?_ ?_ rfl apart⟩
    · rw [waits]
      rfl
    · rw [waits]
      nofun
    · rw [waits]
      rfl
    · rw [waits]
      nofun
  · refine ⟨timely.wake runs other nofun nofun ?_ rfl (fun _ => rfl), scheduled.wake ?_ ?_ rfl apart⟩
    · rw [awaits]
      rfl
    · rw [awaits]
      rfl
    · rw [awaits]
      nofun

/-- One act. -/
theorem act (orderly : r.Orderly) (act : Acts Failure.Usual r d) : d.Orderly := by
  obtain ⟨timely, scheduled⟩ := orderly
  have unborn := (scheduled.unborn _ (Nat.le_refl _)).1
  have old : ∀ {f}, r.control = .runs f → f ≠ r.nextFiber :=
    fun runs => Nat.ne_of_lt (scheduled.active_born (active_runs runs))
  cases act with
  | fail may => exact Orderly.fail ⟨timely, scheduled⟩ may
  | late runs code missed => exact absurd (Orderly.not_late ⟨timely, scheduled⟩ runs code) missed
  | code runs ordinary role plain =>
      refine ⟨timely.setCode runs (scheduled.ordinary ordinary).1 ?_, scheduled.setCode runs ordinary role⟩
      rintro time token handles rfl
      cases plain
  | close runs main role plain =>
      have itself := (Timely.loop_awake scheduled runs main).1
      refine ⟨timely.setCode runs (by rw [itself]; nofun) ?_, scheduled.setMainCode runs main (Or.inr role)⟩
      rintro time token handles rfl
      cases plain
  | switch runs ordinary =>
      exact ⟨timely.setCurrentHost runs (scheduled.ordinary ordinary).1 _ _, scheduled.setCurrentHost runs ordinary _ _⟩
  | suspend runs ordinary off role plain =>
      have ready := Orderly.running ⟨timely, scheduled⟩ runs
      rcases off with rfl | rfl
      · exact ⟨timely.suspend runs (scheduled.ordinary ordinary).1 ready rfl plain,
          scheduled.suspend runs ordinary role nofun⟩
      · exact ⟨timely.suspend runs (scheduled.ordinary ordinary).1 ready rfl plain,
          scheduled.suspend runs ordinary role nofun⟩
  | yield runs plain role => exact ⟨timely.yield runs plain, scheduled.yield runs⟩
  | wake runs role waits => exact Orderly.wake ⟨timely, scheduled⟩ runs role (Or.inl ⟨waits, rfl⟩)
  | answer runs ordinary awaits =>
      exact Orderly.wake ⟨timely, scheduled⟩ runs (Or.inl ordinary) (Or.inr ⟨awaits, rfl⟩)
  | spawn runs ordinary role plain => exact Orderly.spawn ⟨timely, scheduled⟩ runs ordinary role plain
  | dispatch runs ordinary unslept role plain =>
      exact ⟨timely.dispatch runs (scheduled.ordinary ordinary).1 unborn unslept plain,
        scheduled.dispatch runs ordinary role⟩
  | start runs ordinary unslept role plain =>
      refine ⟨timely.start runs (scheduled.ordinary ordinary).1 unborn (old runs) unslept plain, ?_⟩
      have spawned := scheduled.spawn runs ordinary role
      refine Scheduled.yield ?_ runs
      refine spawned.congr ?_ ?_ ?_ rfl rfl rfl rfl
      all_goals
        intro g
        by_cases same : g = r.nextFiber
        · subst same
          simp [status, Runtime.role, isMain, setFiber, Props.setCurrentHost]
        · simp [status, Runtime.role, isMain, setFiber, same]
  | request runs ordinary role plain nextRole nextPlain =>
      have spawned := Orderly.spawn ⟨timely, scheduled⟩ runs ordinary role plain
      refine spawned.awaitReply runs ?_ nextRole nextPlain
      rw [Runtime.role, Scheduled.spawn_fibers (old runs)]
      exact ordinary
  | sleep runs ordinary future role slept => exact Orderly.sleepUntil ⟨timely, scheduled⟩ runs ordinary future role slept
  | stop runs ordinary =>
      obtain ⟨later, still⟩ := timely.stop scheduled runs ordinary _
      exact ⟨later, still⟩
  | mark runs ordinary role plain => exact ⟨timely.mark runs plain rfl, scheduled.mark runs role rfl rfl⟩
  | pop runs main role plain queue =>
      obtain ⟨later, still⟩ := timely.pop scheduled runs main role plain queue
      exact ⟨later, still⟩
  | pick picks picked =>
      obtain ⟨later, still⟩ := timely.pick scheduled picks picked
      exact ⟨later, still⟩

end Orderly

/-- Time does not go back, and a sleep that has gone on stays as it is. -/
structure Forward (r d : Runtime Code) : Prop where
  time : r.currentTime ≤ d.currentTime
  sleeps : ∀ (number : Nat) (sleep : Sleep), r.sleeps[number]? = some sleep →
    d.sleeps[number]? = some sleep ∨
    sleep.resumed = none ∧ ∃ time, d.sleeps[number]? = some { sleep with resumed := some time }

namespace Forward
variable {r d e : Runtime Code}

/-- Neither the time nor a sleep changes. -/
theorem of_same (time : d.currentTime = r.currentTime) (sleeps : d.sleeps = r.sleeps) : r.Forward d :=
  ⟨Nat.le_of_eq time.symm, fun number sleep found => Or.inl (by rw [sleeps, found])⟩

theorem refl (r : Runtime Code) : r.Forward r := .of_same rfl rfl

/-- Time goes on through two changes. -/
theorem trans (before : r.Forward d) (after : d.Forward e) : r.Forward e where
  time := Nat.le_trans before.time after.time
  sleeps := by
    intro number sleep found
    rcases before.sleeps number sleep found with kept | ⟨fresh, time, resumed⟩
    · exact after.sleeps number sleep kept
    · rcases after.sleeps number _ resumed with kept | ⟨again, _⟩
      · exact Or.inr ⟨fresh, time, kept⟩
      · cases again

end Forward

/-- A new sleep comes after all others. -/
theorem sleepUntil_forward (r : Runtime Code) (f wakeUpTime : Nat) (token : Option Nat) (next : Code) :
    r.Forward (r.sleepUntil f wakeUpTime token next) := by
  have grown : ∀ {number : Nat} {sleep new : Sleep}, r.sleeps[number]? = some sleep →
      (r.sleeps ++ [new])[number]? = some sleep :=
    fun found => (List.getElem?_append_left (List.getElem?_eq_some_iff.mp found).1).trans found
  unfold sleepUntil
  split
  · exact ⟨Nat.le_refl _, fun number sleep found => Or.inl (grown found)⟩
  · exact ⟨Nat.le_refl _, fun number sleep found => Or.inl (grown found)⟩

/-- A wait for a reply is no sleep. -/
theorem awaitReply_forward (r : Runtime Code) (f : Nat) (token : Option Nat) (next : Code) :
    r.Forward (r.awaitReply f token next) := by
  unfold awaitReply
  split
  · exact .of_same rfl rfl
  · exact .of_same rfl rfl

/-- A callback of a stop ends no sleep that has ended. -/
theorem execute_forward (r : Runtime Code) (f : Nat) : r.Forward (r.execute f) := by
  unfold execute
  split
  · split
    · exact .of_same rfl rfl
    · exact .of_same rfl rfl
  · split
    · exact .of_same rfl rfl
    · exact .of_same rfl rfl
  · exact .of_same rfl rfl
  · exact .refl r

/-- A stop only signals sleeps. -/
theorem stop_forward (r : Runtime Code) (source : Nat) : r.Forward (r.stop source) := by
  suffices ∀ (called : List Nat) (c : Runtime Code), r.Forward c → r.Forward (called.foldl execute c) from
    this _ _ (.of_same rfl rfl)
  intro called
  induction called with
  | nil => exact fun _ forward => forward
  | cons f rest ih => exact fun c forward => ih _ (forward.trans (execute_forward c f))

/-- The main loop goes on to the time of the first event, which is not over. -/
theorem Orderly.pop_forward {r : Runtime Code} (orderly : r.Orderly) {f : Nat} {event : Nat × Nat}
    {rest : List (Nat × Nat)} (queue : r.eventsQueue = event :: rest) (code : Code) :
    r.Forward (((r.setCode f code).popEvent event).yield f) := by
  obtain ⟨sleep, _, _, _, shape⟩ := orderly.timely.popEvent_shape queue f code
  rw [shape]
  exact ⟨orderly.timely.future event (by rw [queue]; exact List.mem_cons_self ..), fun _ _ found => Or.inl found⟩

/-- A signaled fiber has not gone on before. -/
theorem resume_forward {r : Runtime Code} {f : Nat}
    (fresh : ∀ number, r.status f = .awake number → ∃ sleep, r.sleeps[number]? = some sleep ∧ sleep.resumed = none) :
    r.Forward (r.resume f) := by
  unfold resume
  split
  · rename_i number awake
    obtain ⟨own, listed, unresumed⟩ := fresh number awake
    refine ⟨Nat.le_refl _, fun key sleep found => ?_⟩
    by_cases same : number = key
    · subst same
      cases listed.symm.trans found
      exact Or.inr ⟨unresumed, r.currentTime, by rw [List.getElem?_modify_eq, found]; rfl⟩
    · exact Or.inl (by rw [List.getElem?_modify_ne _ _ same, found])
  · exact .of_same rfl rfl
  · exact .refl r

/-- The switch to a signaled fiber ends its sleep now. -/
theorem Orderly.pick_forward {r d : Runtime Code} (orderly : r.Orderly) {back : Option Nat} {choice : Nat}
    (picks : r.control = .picks back) (picked : r.pick back choice = some d) : r.Forward d := by
  rcases orderly.scheduled.picked picks picked with rfl | ⟨f, _, rfl, _⟩
  · exact .of_same rfl rfl
  · obtain ⟨_, time, sleeps, _, _, statuses⟩ := putBack_fields r back f choice
    refine (Forward.of_same time sleeps).trans (resume_forward fun number awake => ?_)
    rw [statuses] at awake
    obtain ⟨sleep, found, _, fresh, _⟩ := orderly.timely.awake f number awake
    exact ⟨sleep, by rw [sleeps, found], fresh⟩

/-- Every action of the runtime goes forward. -/
theorem Orderly.act_forward {r d : Runtime Code} (orderly : r.Orderly) (act : Acts Failure.Usual r d) : r.Forward d := by
  cases act with
  | request =>
      refine Forward.trans ?_ (awaitReply_forward ..)
      exact .of_same rfl rfl
  | sleep => exact sleepUntil_forward ..
  | stop => exact stop_forward ..
  | pop _ _ _ _ queue => exact orderly.pop_forward queue _
  | pick picks picked => exact orderly.pick_forward picks picked
  | _ => exact .of_same rfl rfl

/-- What the acts of one step keep. -/
theorem Orderly.acted {r d : Runtime Code} (orderly : r.Orderly) (acted : Acted Failure.Usual r d) :
    d.Orderly ∧ r.Forward d := by
  induction acted with
  | refl => exact ⟨orderly, .refl r⟩
  | tail _ last ih => exact ⟨ih.1.act last, ih.2.trans (ih.1.act_forward last)⟩

end Runtime

namespace World

/-- The two fibers of the start, and those that are not born yet. -/
theorem initial_fiber (f : Nat) :
    f = mainFiber ∧ initial.fibers f = ⟨Props.new, .ready, .user none⟩ ∨
    f = dispatcher ∧ initial.fibers f = ⟨Props.new.setCurrentHost none 0, .ready, .dispatcher⟩ ∨
    2 ≤ f ∧ initial.fibers f = ⟨Props.new, .finished, .finished⟩ := by
  match f with
  | 0 => exact Or.inl ⟨rfl, rfl⟩
  | 1 => exact Or.inr (Or.inl ⟨rfl, rfl⟩)
  | f + 2 => exact Or.inr (Or.inr ⟨Nat.le_add_left .., rfl⟩)

/-- At the start every fiber is ready or does not exist yet. -/
theorem initial_status (f : Nat) :
    (initial.toRuntime.status f = .ready ∨ initial.toRuntime.status f = .finished) ∧
    (initial.fibers f).code.isSlept = false ∧ initial.toRuntime.isMain f = false ∧
    initial.toRuntime.role f ≠ .main ∧ initial.toRuntime.role f ≠ .ended := by
  rcases initial_fiber f with ⟨_, fiber⟩ | ⟨_, fiber⟩ | ⟨_, fiber⟩
  all_goals
    simp only [Runtime.status, Runtime.isMain, Runtime.role, fiber]
    decide

/-- There are no sleeps at the start. -/
theorem initial_timely : initial.toRuntime.Timely [] where
  sorted := .nil
  distinct := .nil
  future := nofun
  begun := nofun
  stopped := nofun
  event := nofun
  asleep := by
    intro f number asleep
    rcases (initial_status f).1 with ready | finished
    · cases ready.symm.trans asleep
    · cases finished.symm.trans asleep
  awake := by
    intro f number awake
    rcases (initial_status f).1 with ready | finished
    · cases ready.symm.trans awake
    · cases finished.symm.trans awake
  pending := nofun
  ended := nofun
  callbacks := nofun
  single := .nil
  executing := nofun
  apart := nofun
  window := nofun
  slept := by
    intro f time token handles code
    have plain := (initial_status f).2.1
    rw [code] at plain
    cases plain
  unfailed := nofun

/-- The test's fiber runs at the start. -/
theorem initial_scheduled : initial.toRuntime.Scheduled where
  born := Nat.le_refl _
  unborn := by
    intro f new
    rcases initial_fiber f with ⟨rfl, _⟩ | ⟨rfl, _⟩ | ⟨_, fiber⟩
    · cases new
    · exact absurd new (by decide)
    · simp only [Runtime.status, Runtime.isMain, Runtime.role, fiber]
      decide
  nodup := List.nodup_singleton _
  ready := by decide
  active := by
    rintro f ⟨⟩
    rfl
  signaled := by
    intro f number awake
    rcases (initial_status f).1 with ready | finished
    · cases ready.symm.trans awake
    · cases finished.symm.trans awake
  marked := by
    intro f
    obtain ⟨_, _, unmarked, main, ended⟩ := initial_status f
    rw [unmarked]
    exact ⟨fun marked => (by cases marked), fun role => (role.elim main ended).elim⟩
  main := by
    intro f marked
    rw [(initial_status f).2.2.1] at marked
    cases marked
  mainReady ready := by cases ready
  roles := by
    intro f
    rcases initial_fiber f with ⟨rfl, _⟩ | ⟨rfl, _⟩ | ⟨new, fiber⟩
    · decide
    · decide
    · simp only [Runtime.role, fiber]
      refine ⟨fun role => (by cases role), ?_⟩
      rintro rfl
      exact absurd new (by decide)
  dispatches := ⟨rfl, Or.inl (List.mem_singleton.mpr rfl)⟩
  alone _ loops := by cases loops

/-- The main fiber is the one that ends the simulation. -/
theorem Clears.main {w d : World} {f : Nat} (clears : w.Clears f d) (scheduled : w.toRuntime.Scheduled) : f = mainFiber := by
  have ended : w.toRuntime.role f = .ended := congrArg Code.role clears.code
  exact (scheduled.main f ((scheduled.marked f).mpr (Or.inr ended))).1

/-- The simulation is in order, or `RunSimulation` has returned. -/
theorem Reached.orderly {w : World} (reached : Reached NonNegative w) :
    w.toRuntime.Orderly ∨
    ((w.fibers mainFiber).code = .returned ∧ ∀ failure, w.failed = some failure → failure.ofTime = false) ∧
      ∀ move, w.step move = none := by
  induction reached with
  | refl => exact Or.inl ⟨initial_timely, initial_scheduled⟩
  | tail _ last ih =>
      obtain ⟨move, allowed, stepped⟩ := last
      rcases ih with orderly | ⟨_, stuck⟩
      · rcases step_acted (fun _ usual => usual) stepped (Or.inr allowed) with acted | ⟨f, clears⟩
        · exact Or.inl (orderly.acted acted).1
        · cases clears.main orderly.scheduled
          have next := clears.stuck
          obtain ⟨_, _, rfl⟩ := clears
          exact Or.inr ⟨⟨Runtime.setCode_code, orderly.timely.unfailed⟩, next⟩
      · cases (stuck move).symm.trans stepped

end World

/-- Where a call of `World::SleepUntil` stands. -/
inductive Runtime.Stands (r : Runtime Code) (number : Nat) (sleep : Sleep) : Prop where
  | queued (fresh : sleep.resumed = none) (asleep : r.status sleep.fiber = .asleep number)
      (entry : (sleep.wakeUpTime, number) ∈ r.eventsQueue) (once : (r.eventsQueue.map Prod.snd).count number = 1)
      (future : r.currentTime ≤ sleep.wakeUpTime)
  | signaled (fresh : sleep.resumed = none) (awake : r.status sleep.fiber = .awake number)
      (gone : number ∉ r.eventsQueue.map Prod.snd) (onTime : sleep.OnTime r.stopTimes r.currentTime)
  | ended {time : Nat} (resumed : sleep.resumed = some time)
      (left : r.status sleep.fiber ≠ .asleep number ∧ r.status sleep.fiber ≠ .awake number)
      (gone : number ∉ r.eventsQueue.map Prod.snd) (onTime : sleep.OnTime r.stopTimes time)

namespace Runtime.Timely
variable {r : Runtime Code}

/-- A sleep waits in the queue, was signaled, or is over. -/
theorem stands (timely : r.Timely []) {number : Nat} {sleep : Sleep} (found : r.sleeps[number]? = some sleep) :
    r.Stands number sleep := by
  cases resumed : sleep.resumed with
  | none =>
      rcases timely.pending number sleep found resumed with asleep | awake
      · obtain ⟨_, again, _, _, entry, _⟩ := timely.asleep _ number asleep
        cases found.symm.trans again
        exact .queued resumed asleep entry
          (List.count_eq_one_of_mem timely.distinct (List.mem_map_of_mem entry)) (timely.future _ entry)
      · obtain ⟨_, again, _, _, onTime⟩ := timely.awake _ number awake
        cases found.symm.trans again
        exact .signaled resumed awake (timely.entry_gone awake) onTime
  | some time =>
      have left : ¬ (r.status sleep.fiber = .asleep number ∨ r.status sleep.fiber = .awake number) := by
        intro waits
        cases resumed.symm.trans (timely.waiting found waits).2
      refine .ended resumed (not_or.mp left) ?_ (timely.ended number sleep time found resumed)
      intro member
      obtain ⟨event, there, rfl⟩ := List.mem_map.mp member
      obtain ⟨_, again, _, status⟩ := timely.event event there
      cases found.symm.trans again
      exact left (Or.inl status)

/-- When the loop of `RunSimulation` has no entry left that it may take, every sleep that was due is over. -/
theorem resumed_of_late (timely : r.Timely []) (scheduled : r.Scheduled) {f duration : Nat} (runs : r.control = .runs f)
    (main : r.role f = .main) (late : ∀ event ∈ r.eventsQueue.head?, duration < event.1) {number : Nat} {sleep : Sleep}
    (found : r.sleeps[number]? = some sleep) (due : sleep.wakeUpTime ≤ duration) : sleep.resumed.isSome = true := by
  cases timely.stands found with
  | queued _ _ entry =>
      exfalso
      have sorted := timely.sorted
      cases queue : r.eventsQueue with
      | nil =>
          rw [queue] at entry
          cases entry
      | cons first rest =>
          rw [queue] at entry late sorted
          have after := late first rfl
          rcases List.mem_cons.mp entry with rfl | member
          · exact Nat.not_lt_of_le due after
          · have order := (List.pairwise_cons.mp sorted).1 _ member
            exact Nat.not_lt_of_le (Nat.le_trans order due) after
  | signaled _ awake => exact absurd awake ((loop_awake scheduled runs main).2.2.2 _ _)
  | ended resumed => simp [resumed]

end Runtime.Timely

/-- Taking an entry leaves what every fiber has to run. -/
theorem Runtime.popEvent_code (r : Runtime Code) (event : Nat × Nat) (f : Nat) :
    ((r.popEvent event).fibers f).code = (r.fibers f).code := by
  unfold popEvent
  split
  · rfl
  · unfold signal
    split
    · rfl
    · split
      · exact wake_code ..
      · rfl

/-- The loop of `RunSimulation` ends without rounds, without entries, or at an entry behind its end. -/
theorem World.loop_ends {w d : World} {choice : Choice} {duration rounds : Nat} (runs : w.control = .runs mainFiber)
    (code : (w.fibers mainFiber).code = .runSimulation duration rounds) (stepped : w.step (.go choice) = some d)
    (ended : (d.fibers mainFiber).code = .endSimulation) :
    rounds = 0 ∨ ∀ event ∈ w.eventsQueue.head?, duration < event.1 := by
  obtain ⟨_, went⟩ := step_goes runs (by rw [code]; rintro _ ⟨⟩) stepped
  cases go_went went with
  | @popEvent duration left event _ _ _ _ =>
      have loops := (Runtime.popEvent_code (w.setCode mainFiber (.runSimulation duration left)) event mainFiber).trans
        Runtime.setCode_code
      cases loops.symm.trans ended
  | endLoop here done =>
      cases here.symm.trans code
      exact done
  | operation other | replied other | deliver other | delivered other | answer other | answered other
  | addHost other | clear other | dispatcher other => cases other.symm.trans code
  | slept other _ | late other _ | mainNowhere other _ => cases other.symm.trans code
  | mainSleeps other _ _ _ => cases other.symm.trans code
  | mainStarts other _ _ => cases other.symm.trans code

namespace SleepCall

/-- The call asks for a time that the clock of its host has not passed. -/
def NonNegative (call : SleepCall) (now : Nat) : Prop := call.clock.toLocalTime now ≤ call.localTime

instance (call : SleepCall) (now : Nat) : Decidable (call.NonNegative now) := inferInstanceAs (Decidable (_ ≤ _))

/-- On a clock that never stands still the delay is not negative. On other clocks the conversion must not lead back
behind the current time. -/
def Forward (call : SleepCall) (now : Nat) : Prop :=
  call.clock.Advances ∧ now ≤ maxDuration ∧ call.NonNegative now ∨ now ≤ call.wakeUpTime

end SleepCall

namespace World

/-- Every call of `Host::SleepUntil` has a delay that is not negative. -/
def DelaysNonNegative (w : World) (move : Move) : Prop := ∀ call ∈ w.sleepCall move, call.NonNegative w.currentTime

instance (w : World) (move : Move) : Decidable (w.DelaysNonNegative move) :=
  inferInstanceAs (Decidable (∀ call ∈ w.sleepCall move, _))

/-- As above, and a clock that stands still does not lead the call into the past. -/
def SleepsForward (w : World) (move : Move) : Prop := ∀ call ∈ w.sleepCall move, call.Forward w.currentTime

end World

/-- A simulation whose sleeps are on time. -/
structure World.Punctual (w : World) : Prop where
  sleeps : ∀ (number : Nat) (sleep : Sleep), w.sleeps[number]? = some sleep → w.toRuntime.Stands number sleep
  /-- While a fiber runs that could call `Stop`, no callback has an entry that is gone. -/
  callbacks : ∀ f g number source, w.control = .runs f → f ≠ dispatcher → w.toRuntime.status g = .awake number →
    (source, g) ∉ w.callbacks
  steps : ∀ move d, w.SleepsForward move → w.step move = some d →
    w.toRuntime.Forward d.toRuntime ∨ w.Clears mainFiber d
  /-- The loop of `RunSimulation` leaves no sleep behind that was due, unless it has no rounds left. -/
  ends : ∀ choice d duration rounds, w.control = .runs mainFiber →
    (w.fibers mainFiber).code = .runSimulation duration rounds → w.step (.go choice) = some d →
    (d.fibers mainFiber).code = .endSimulation →
    rounds = 0 ∨ ∀ sleep ∈ w.sleeps, sleep.wakeUpTime ≤ duration → sleep.resumed.isSome = true

/-- A search does not end before a bound below which nothing is found. -/
theorem le_binarySearch {predicate : Nat → Bool} {bound rounds first last : Nat}
    (below : ∀ value < bound, predicate value = false) (inside : bound ≤ last) (enough : last - first ≤ rounds) :
    bound ≤ binarySearch predicate rounds first last := by
  induction rounds generalizing first last with
  | zero =>
      rw [binarySearch]
      omega
  | succ rounds ih =>
      rw [binarySearch]
      split
      · dsimp only
        split
        · rename_i holds
          refine ih (Nat.le_of_not_lt fun before => ?_) (by omega)
          rw [below _ before] at holds
          cases holds
        · exact ih inside (by omega)
      · omega

/-- On a clock that never stands still, a sleep that is not negative for the host is not negative for the world. -/
theorem SleepCall.le_wakeUpTime {call : SleepCall} {now : Nat} (advances : call.clock.Advances)
    (representable : now ≤ maxDuration) (delay : call.NonNegative now) : now ≤ call.wakeUpTime := by
  have missed : ∀ value < now, decide (call.localTime + call.lag ≤ call.clock.toLocalTime value) = false := by
    intro value before
    have earlier := advances before
    apply decide_eq_false
    rw [NonNegative] at delay
    omega
  exact le_binarySearch missed representable (Nat.le_refl _)

/-- The world is never asked to wake a fiber up in the past. -/
theorem World.SleepsForward.nonNegative {w : World} {move : Move} (forward : w.SleepsForward move) :
    w.NonNegative move := by
  intro time wakesUp
  obtain ⟨call, sleeps, rfl⟩ := Option.map_eq_some_iff.mp wakesUp
  rcases forward call sleeps with ⟨advances, representable, delay⟩ | future
  · exact SleepCall.le_wakeUpTime advances representable delay
  · exact future

/-- The other way round, so that runs can be checked by evaluation. -/
theorem World.NonNegative.sleepsForward {w : World} {move : Move} (future : w.NonNegative move) :
    w.SleepsForward move := by
  intro call sleeps
  exact Or.inr (future _ (Option.map_eq_some_iff.mpr ⟨call, sleeps, rfl⟩))

/-- In every run in which no delay is negative, and no clock that stands still leads a sleep into the past, no check
of a time fails and no entry is erased twice. Until `RunSimulation` returns, time does not go back, and every sleep
goes on at most once, at its time or when its token is stopped. -/
theorem event_queue {w : World} (reached : World.Reached World.SleepsForward w) :
    (∀ failure, w.failed = some failure → failure.ofTime = false) ∧
    ((w.fibers mainFiber).code ≠ .returned → w.Punctual) := by
  have future : World.Reached World.NonNegative w := Script.run_mono (fun _ _ forward => forward.nonNegative) reached
  rcases future.orderly with orderly | ⟨⟨returned, unfailed⟩, _⟩
  · obtain ⟨timely, scheduled⟩ := orderly
    refine ⟨timely.unfailed, fun _ => ⟨fun number sleep found => timely.stands found, ?_, ?_, ?_⟩⟩
    · exact fun f g number source runs other awake => timely.closed runs other awake
    · intro move d allowed stepped
      rcases World.step_acted (fun _ usual => usual) stepped (Or.inr allowed.nonNegative) with acted | ⟨f, clears⟩
      · exact Or.inl (Runtime.Orderly.acted ⟨timely, scheduled⟩ acted).2
      · exact Or.inr (clears.main scheduled ▸ clears)
    · intro choice d duration rounds runs code stepped ended
      have main : w.toRuntime.role mainFiber = .main := congrArg Code.role code
      refine (World.loop_ends runs code stepped ended).imp_right fun late sleep member due => ?_
      obtain ⟨number, found⟩ := List.mem_iff_getElem?.mp member
      exact timely.resumed_of_late scheduled runs main late found due
  · exact ⟨unfailed, fun unfinished => absurd returned unfinished⟩

/-- A fiber sleeps until 5 and then until 20, and the simulation ends at 10. -/
def shortScript : List Move :=
  [.does (.addHost 0 exactClock), .pick 0, .on, .pick 0, .on, .pick 0, .on,
    .does (.runSimulation 10 10), .pick 0, .on, .pick 0, .on, .pick 1, .on, .on, .does (.sleepUntil 5 none),
    .pick 0, .on, .pick 0, .on, .pick 1, .on, .on, .does (.sleepUntil 20 none),
    .pick 0, .on, .pick 0, .on, .pick 0, .on, .pick 0]

/-- A sleep is negative neither on the clock of its host nor on the one of the world. -/
def World.BothNonNegative (w : World) (move : Move) : Prop := w.DelaysNonNegative move ∧ w.NonNegative move

instance (w : World) (move : Move) : Decidable (w.BothNonNegative move) := inferInstanceAs (Decidable (_ ∧ _))

theorem shortScript_possible :
    (Script.play World.step World.BothNonNegative World.initial shortScript).isSome = true := by
  decide +kernel

/-- The main fiber is about to return from `RunSimulation`. -/
def shortWorld : World := Script.endOf World.step World.BothNonNegative World.initial shortScript shortScript_possible

theorem shortWorld_reached : World.Reached World.DelaysNonNegative shortWorld :=
  Script.run_mono (fun _ _ both => both.1) (Script.endOf_run shortScript_possible)

/-- The script also keeps to the global times. -/
theorem shortWorld_forward : World.Reached World.SleepsForward shortWorld :=
  Script.run_mono (fun _ _ both => both.2.sleepsForward) (Script.endOf_run shortScript_possible)

theorem shortWorld_ends : (shortWorld.fibers mainFiber).code = .endSimulation := by
  have shown : (match (shortWorld.fibers mainFiber).code with | .endSimulation => true | _ => false) = true := by
    decide +kernel
  split at shown
  · assumption
  · cases shown

/-- The first two sleeps went on at their times. -/
theorem event_queue_short :
    shortWorld.sleeps = [⟨2, 0, 0, none, some 0⟩, ⟨2, 0, 5, none, some 5⟩, ⟨2, 5, 20, none, none⟩] ∧ shortWorld.Punctual := by
  refine ⟨by decide +kernel, (event_queue shortWorld_forward).2 ?_⟩
  rw [shortWorld_ends]
  nofun

def returnedWorld : World := (shortWorld.step .on).get (by decide +kernel)

theorem returnedWorld_stepped : shortWorld.step .on = some returnedWorld := (Option.some_get _).symm

/-- The next step is the end of `RunSimulation`. -/
theorem shortWorld_clears : shortWorld.Clears mainFiber returnedWorld := by
  have runs : shortWorld.control = .runs mainFiber := by decide +kernel
  have went : shortWorld.step .on = some (shortWorld.clear mainFiber) := by
    have unfailed : shortWorld.failed = none := by decide +kernel
    simp [World.step, Move.on, unfailed, runs, World.go, shortWorld_ends]
  exact ⟨runs, shortWorld_ends, Option.some.inj (returnedWorld_stepped.symm.trans went)⟩

/-- A fiber of a host whose clock runs at half speed is woken at 2 by a fiber of another host, and it sleeps for no time. -/
def slowScript : List Move :=
  [.does (.addHost 0 halfClock.toClock), .pick 0, .on, .pick 0, .on, .pick 0, .on,
    .does (.addHost 1 exactClock), .pick 1, .on, .pick 1, .on,
    .does (.runSimulation 10 10), .pick 0, .on, .pick 0, .on, .pick 1, .on, .on, .does .wait,
    .pick 0, .on, .pick 0, .on, .pick 1, .on, .on, .does (.sleepUntil 2 none),
    .pick 0, .on, .pick 0, .on, .pick 1, .on, .on, .does (.wake 2), .does .wait,
    .pick 1, .does (.sleepUntil 1 none)]

theorem slowScript_possible :
    (Script.play World.step World.DelaysNonNegative World.initial slowScript).isSome = true := by
  decide +kernel

/-- No delay is negative. When `RunSimulation` returns, it sets the time back and forgets the sleep that was left. On
a clock that stands still, a sleep of no length ends in the past and a check fails. -/
theorem sleep_left_over :
    (¬ ∀ w, World.Reached World.DelaysNonNegative w → ∀ move d, w.DelaysNonNegative move → w.step move = some d →
      w.currentTime ≤ d.currentTime) ∧
    (¬ ∀ w, World.Reached World.DelaysNonNegative w → (∀ move, w.step move = none) →
      ∀ sleep ∈ w.sleeps, sleep.resumed.isSome = true) ∧
    ¬ ∀ w, World.Reached World.DelaysNonNegative w → ∀ failure, w.failed = some failure → failure.ofTime = false := by
  have allowed : shortWorld.DelaysNonNegative .on := by decide +kernel
  refine ⟨?_, ?_, ?_⟩
  · intro always
    have kept := always shortWorld shortWorld_reached .on returnedWorld allowed returnedWorld_stepped
    exact absurd kept (by decide +kernel)
  · intro always
    have reached : World.Reached World.DelaysNonNegative returnedWorld :=
      shortWorld_reached.tail ⟨.on, allowed, returnedWorld_stepped⟩
    have left : (⟨2, 5, 20, none, none⟩ : Sleep) ∈ returnedWorld.sleeps := by decide +kernel
    cases always returnedWorld reached shortWorld_clears.stuck _ left
  · intro always
    have failed : (Script.endOf World.step World.DelaysNonNegative World.initial slowScript slowScript_possible).failed =
        some .sleepTimestamp := by
      decide +kernel
    cases always _ (Script.endOf_run slowScript_possible) _ failed

end Metamorphosis.Simulator
