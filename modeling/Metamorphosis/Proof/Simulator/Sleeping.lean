import Metamorphosis.Proof.Simulator.Scheduling

/-!
The queue of the sleeping fibers. An entry leaves the queue when the main loop takes it or when its token
is stopped. Between the two there is a moment in which a callback still points to an entry that the main
loop has taken. In this moment only the sleeper and the dispatcher can run, so that nobody stops the token.
-/

namespace Metamorphosis.Simulator

namespace Status

/-- The fiber is in `World::SleepUntil`. -/
def sleeps : Status → Bool
  | asleep _ | awake _ => true
  | _ => false

/-- The fiber is in `World::MakeRequest`. -/
def calls : Status → Bool
  | awaits | answered => true
  | _ => false

/-- The two statuses of a fiber in `MakeRequest`. -/
theorem calls_iff {status : Status} : status.calls = true ↔ status = .awaits ∨ status = .answered := by
  cases status <;> simp [calls]

end Status

/-- A sleep goes on at its time, or at once when its token is stopped before. -/
def Sleep.OnTime (sleep : Sleep) (stopTimes : Nat → Option Nat) (time : Nat) : Prop :=
  time = sleep.wakeUpTime ∨
  time ≤ sleep.wakeUpTime ∧ ∃ source stopped, sleep.token = some source ∧ stopTimes source = some stopped ∧
    time = max stopped sleep.begun

/-- A stop time that is known stays. -/
theorem Sleep.OnTime.later {sleep : Sleep} {before after : Nat → Option Nat} {time : Nat} (onTime : sleep.OnTime before time)
    (kept : ∀ source stopped, before source = some stopped → after source = some stopped) : sleep.OnTime after time := by
  refine onTime.imp_right ?_
  rintro ⟨early, source, stopped, token, shown, same⟩
  exact ⟨early, source, stopped, token, kept source stopped shown, same⟩

/-- The new event is in the queue, and all others stay. -/
theorem mem_insertEvent {event other : Nat × Nat} {queue : List (Nat × Nat)} :
    other ∈ insertEvent event queue ↔ other = event ∨ other ∈ queue := by
  induction queue with
  | nil => simp [insertEvent]
  | cons first rest ih =>
      rw [insertEvent]
      split
      · rw [List.mem_cons, ih, List.mem_cons]
        exact or_left_comm
      · rw [List.mem_cons]

/-- The queue stays sorted. -/
theorem insertEvent_sorted {event : Nat × Nat} {queue : List (Nat × Nat)}
    (sorted : queue.Pairwise fun a b => a.1 ≤ b.1) : (insertEvent event queue).Pairwise fun a b => a.1 ≤ b.1 := by
  induction queue with
  | nil => exact List.pairwise_singleton _ _
  | cons first rest ih =>
      obtain ⟨least, tail⟩ := List.pairwise_cons.mp sorted
      rw [insertEvent]
      split
      · rename_i before
        refine List.pairwise_cons.mpr ⟨fun other member => ?_, ih tail⟩
        rcases mem_insertEvent.mp member with rfl | later
        · exact before
        · exact least other later
      · rename_i after
        refine List.pairwise_cons.mpr ⟨fun other member => ?_, sorted⟩
        rcases List.mem_cons.mp member with rfl | later
        · exact Nat.le_of_not_le after
        · exact Nat.le_trans (Nat.le_of_not_le after) (least other later)

/-- No sleep has two events. -/
theorem insertEvent_nodup {event : Nat × Nat} {queue : List (Nat × Nat)} (distinct : (queue.map Prod.snd).Nodup)
    (fresh : event.2 ∉ queue.map Prod.snd) : ((insertEvent event queue).map Prod.snd).Nodup := by
  induction queue with
  | nil => exact List.nodup_singleton _
  | cons first rest ih =>
      obtain ⟨absent, tail⟩ := List.nodup_cons.mp distinct
      rw [List.map_cons, List.mem_cons, not_or] at fresh
      rw [insertEvent]
      split
      · refine List.nodup_cons.mpr ⟨?_, ih tail fresh.2⟩
        intro member
        obtain ⟨other, there, same⟩ := List.mem_map.mp member
        rcases mem_insertEvent.mp there with rfl | later
        · exact fresh.1 same
        · exact absent (same ▸ List.mem_map_of_mem later)
      · exact List.nodup_cons.mpr ⟨by rw [List.map_cons, List.mem_cons, not_or]; exact fresh, distinct⟩

namespace Runtime

/-- The fiber still sleeps until a time, or it runs and its sleep is over. -/
def SleptBy (r : Runtime Code) (control : Control) (f time : Nat) (token : Option Nat) : Prop :=
  (∃ number sleep, (r.status f = .asleep number ∨ r.status f = .awake number) ∧ r.sleeps[number]? = some sleep ∧
    sleep.wakeUpTime = time ∧ sleep.token = token) ∨
  control = .runs f ∧ (r.currentTime = time ∨ r.stopRequested token = true)

/-- The queue and the sleeps. The callbacks of the fibers in `called` are about to be executed. -/
structure Timely (called : List Nat) (r : Runtime Code) : Prop where
  sorted : r.eventsQueue.Pairwise fun a b => a.1 ≤ b.1
  distinct : (r.eventsQueue.map Prod.snd).Nodup
  future : ∀ event ∈ r.eventsQueue, r.currentTime ≤ event.1
  begun : ∀ (number : Nat) (sleep : Sleep), r.sleeps[number]? = some sleep → sleep.begun ≤ r.currentTime
  stopped : ∀ source time, r.stopTimes source = some time → time ≤ r.currentTime
  event : ∀ event ∈ r.eventsQueue, ∃ sleep, r.sleeps[event.2]? = some sleep ∧ sleep.wakeUpTime = event.1 ∧
    r.status sleep.fiber = .asleep event.2
  asleep : ∀ f number, r.status f = .asleep number → ∃ sleep, r.sleeps[number]? = some sleep ∧ sleep.fiber = f ∧
    sleep.resumed = none ∧ (sleep.wakeUpTime, number) ∈ r.eventsQueue ∧
    ∀ source, sleep.token = some source → (source, f) ∈ r.callbacks ∨ f ∈ called
  awake : ∀ f number, r.status f = .awake number → ∃ sleep, r.sleeps[number]? = some sleep ∧ sleep.fiber = f ∧
    sleep.resumed = none ∧ sleep.OnTime r.stopTimes r.currentTime
  pending : ∀ (number : Nat) (sleep : Sleep), r.sleeps[number]? = some sleep → sleep.resumed = none →
    r.status sleep.fiber = .asleep number ∨ r.status sleep.fiber = .awake number
  ended : ∀ (number : Nat) (sleep : Sleep) (time : Nat), r.sleeps[number]? = some sleep → sleep.resumed = some time →
    sleep.OnTime r.stopTimes time
  callbacks : ∀ source f, (source, f) ∈ r.callbacks → r.stopTimes source = none ∧
    ((∃ number sleep, r.status f = .asleep number ∧ r.sleeps[number]? = some sleep ∧ sleep.token = some source) ∨
      (∃ number, r.status f = .awake number) ∨ r.status f = .awaits ∨ r.status f = .answered)
  single : (r.callbacks.map Prod.snd).Nodup
  executing : ∀ f ∈ called,
    (∃ number sleep source, r.status f = .asleep number ∧ r.sleeps[number]? = some sleep ∧
      sleep.token = some source ∧ r.stopTimes source = some r.currentTime) ∨
    r.status f = .awaits ∨ r.status f = .answered
  apart : ∀ f ∈ called, ∀ source, (source, f) ∉ r.callbacks
  window : ∀ f number source, r.status f = .awake number → (source, f) ∈ r.callbacks →
    (∀ g ∈ r.readyFibers, g = f ∨ g = dispatcher) ∧
    (r.control = .runs dispatcher ∨ r.control = .picks (some mainFiber) ∧ r.isMain mainFiber = true ∨
      r.control = .picks (some dispatcher))
  slept : ∀ f time token handles, (r.fibers f).code = .slept time token handles → r.SleptBy r.control f time token
  unfailed : ∀ failure, r.failed = some failure → failure.ofTime = false

namespace Timely
variable {r d : Runtime Code} {called : List Nat}

/-- While a fiber other than the dispatcher runs, no callback points to an entry that is gone. -/
theorem closed (timely : r.Timely called) {f : Nat} (runs : r.control = .runs f) (other : f ≠ dispatcher)
    {g number source : Nat} (awake : r.status g = .awake number) : (source, g) ∉ r.callbacks := by
  intro registered
  rcases (timely.window g number source awake registered).2 with dispatches | ⟨picks, _⟩ | picks
  · cases runs.symm.trans dispatches
    exact other rfl
  · cases runs.symm.trans picks
  · cases runs.symm.trans picks

/-- A sleep that a fiber waits for is its own and not over. -/
theorem waiting (timely : r.Timely called) {f number : Nat} {sleep : Sleep} (found : r.sleeps[number]? = some sleep)
    (waits : r.status f = .asleep number ∨ r.status f = .awake number) : sleep.fiber = f ∧ sleep.resumed = none := by
  rcases waits with asleep | awake
  · obtain ⟨own, listed, owner, fresh, _⟩ := timely.asleep f number asleep
    cases found.symm.trans listed
    exact ⟨owner, fresh⟩
  · obtain ⟨own, listed, owner, fresh, _⟩ := timely.awake f number awake
    cases found.symm.trans listed
    exact ⟨owner, fresh⟩

/-- A fiber that was signaled has no entry in the queue. -/
theorem entry_gone (timely : r.Timely called) {f number : Nat} (awake : r.status f = .awake number) :
    number ∉ r.eventsQueue.map Prod.snd := by
  intro member
  obtain ⟨event, there, rfl⟩ := List.mem_map.mp member
  obtain ⟨sleep, found, _, asleep⟩ := timely.event event there
  rw [(timely.waiting found (Or.inr awake)).1, awake] at asleep
  cases asleep

/-- A fiber with the same code still sleeps or still runs. -/
theorem sleptBy (timely : r.Timely called) {f g time : Nat} {token : Option Nat} {handles : Option Delivery}
    {control : Control} (runs : r.control = .runs f) (code : (r.fibers g).code = .slept time token handles)
    (going : g = f → control = .runs f) : r.SleptBy control g time token := by
  refine (timely.slept g time token handles code).imp_right fun now => ?_
  cases runs.symm.trans now.1
  exact ⟨going rfl, now.2⟩

/-- A step that leaves the sleeps, the queue and the callbacks alone. -/
theorem frame (timely : r.Timely called) {f : Nat} (runs : r.control = .runs f) (other : f ≠ dispatcher)
    {left : List Nat} (fewer : ∀ g ∈ left, g ∈ called)
    (waiting : ∀ g ∈ called, g ∈ left ∨ ∀ number, r.status g ≠ .asleep number)
    (time : d.currentTime = r.currentTime) (queue : d.eventsQueue = r.eventsQueue) (sleeps : d.sleeps = r.sleeps)
    (stopTimes : d.stopTimes = r.stopTimes) (callbacks : d.callbacks = r.callbacks)
    (failed : ∀ failure, d.failed = some failure → failure.ofTime = false)
    (asleep : ∀ g number, d.status g = .asleep number ↔ r.status g = .asleep number)
    (awake : ∀ g number, d.status g = .awake number ↔ r.status g = .awake number)
    (awaits : ∀ g, r.status g = .awaits ∨ r.status g = .answered → d.status g = .awaits ∨ d.status g = .answered)
    (slept : ∀ g time token handles, (d.fibers g).code = .slept time token handles →
      r.SleptBy d.control g time token) : d.Timely left := by
  have requested : d.stopRequested = r.stopRequested := by
    funext token
    rw [stopRequested, stopRequested, stopTimes]
  exact {
    sorted := by
      rw [queue]
      exact timely.sorted
    distinct := by
      rw [queue]
      exact timely.distinct
    future := by
      rw [queue, time]
      exact timely.future
    begun := by
      rw [sleeps, time]
      exact timely.begun
    stopped := by
      rw [stopTimes, time]
      exact timely.stopped
    event := by simpa only [queue, sleeps, asleep] using timely.event
    asleep := by
      intro g number sleeping
      rw [asleep] at sleeping
      obtain ⟨sleep, found, itself, unresumed, entry, registered⟩ := timely.asleep g number sleeping
      rw [sleeps, queue, callbacks]
      refine ⟨sleep, found, itself, unresumed, entry, fun source token => ?_⟩
      refine (registered source token).imp_right fun member => ?_
      exact (waiting g member).resolve_right fun never => never number sleeping
    awake := by simpa only [awake, sleeps, stopTimes, time] using timely.awake
    pending := by simpa only [sleeps, asleep, awake] using timely.pending
    ended := by simpa only [sleeps, stopTimes] using timely.ended
    callbacks := by
      intro source g registered
      rw [callbacks] at registered
      rw [stopTimes]
      refine ⟨(timely.callbacks source g registered).1, ?_⟩
      simp only [asleep, awake, sleeps]
      exact (timely.callbacks source g registered).2.imp_right (Or.imp_right (awaits g))
    single := by
      rw [callbacks]
      exact timely.single
    executing := by
      intro g member
      rw [sleeps, stopTimes, time]
      simp only [asleep]
      exact (timely.executing g (fewer g member)).imp_right (awaits g)
    apart := by
      rw [callbacks]
      exact fun g member => timely.apart g (fewer g member)
    window := by
      intro g number source waking registered
      rw [callbacks] at registered
      exact absurd registered (timely.closed runs other ((awake g number).mp waking))
    slept := by
      intro g wakeUpTime token handles code
      have before := slept g wakeUpTime token handles code
      simp only [SleptBy, asleep, awake, sleeps, time, requested] at before ⊢
      exact before
    unfailed := failed }

/-- One fiber changes that does not sleep before or afterwards. -/
theorem frameAt (timely : r.Timely called) {f : Nat} (runs : r.control = .runs f) (other : f ≠ dispatcher)
    {left : List Nat} (fewer : ∀ g ∈ left, g ∈ called)
    (waiting : ∀ g ∈ called, g ∈ left ∨ ∀ number, r.status g ≠ .asleep number) {g : Nat}
    (others : ∀ h, h ≠ g → d.status h = r.status h) (before : (r.status g).sleeps = false)
    (after : (d.status g).sleeps = false) (awaiting : (r.status g).calls = true → (d.status g).calls = true)
    (time : d.currentTime = r.currentTime) (queue : d.eventsQueue = r.eventsQueue) (sleeps : d.sleeps = r.sleeps)
    (stopTimes : d.stopTimes = r.stopTimes) (callbacks : d.callbacks = r.callbacks)
    (failed : ∀ failure, d.failed = some failure → failure.ofTime = false)
    (slept : ∀ h time token handles, (d.fibers h).code = .slept time token handles →
      r.SleptBy d.control h time token) : d.Timely left := by
  refine timely.frame runs other fewer waiting time queue sleeps stopTimes callbacks failed ?_ ?_ ?_ slept
  · intro h number
    by_cases same : h = g
    · subst same
      refine ⟨fun asleep => ?_, fun asleep => ?_⟩
      · rw [asleep] at after
        cases after
      · rw [asleep] at before
        cases before
    · rw [others h same]
  · intro h number
    by_cases same : h = g
    · subst same
      refine ⟨fun awake => ?_, fun awake => ?_⟩
      · rw [awake] at after
        cases after
      · rw [awake] at before
        cases before
    · rw [others h same]
  · intro h waits
    by_cases same : h = g
    · subst same
      exact Status.calls_iff.mp (awaiting (Status.calls_iff.mpr waits))
    · rw [others h same]
      exact waits

end Timely

/-- The scheduler never fails because of a time. -/
theorem awakened_unfailed {r : Runtime Code} (unfailed : ∀ failure, r.failed = some failure → failure.ofTime = false)
    (f : Nat) : ∀ failure, (r.awakened f).failed = some failure → failure.ofTime = false := by
  intro failure failed
  obtain ⟨props, shown⟩ : ∃ props : Props, (r.awakened f).failed =
      if f = dispatcher ∧ props.currentHost ≠ none then some .dispatcherHasHost
      else if props.isMain ∧ r.mainReady then some .mainFiberAwakened else r.failed := ⟨_, rfl⟩
  rw [shown] at failed
  split at failed
  · cases failed
    rfl
  · split at failed
    · cases failed
      rfl
    · exact unfailed failure failed

theorem setCode_status (r : Runtime Code) (f g : Nat) (code : Code) : (r.setCode f code).status g = r.status g := by
  by_cases same : g = f
  · subst same
    simp [status, setCode]
  · simp [status, setCode, setFiber_fibers_other _ same]

/-- A fiber whose code is plain is not the one that has just slept. -/
theorem slept_other {r d : Runtime Code} {f g time : Nat} {token : Option Nat} {handles : Option Delivery}
    (others : ∀ h, h ≠ f → (d.fibers h).code = (r.fibers h).code) (plain : (d.fibers f).code.isSlept = false)
    (code : (d.fibers g).code = .slept time token handles) : (r.fibers g).code = .slept time token handles ∧ g ≠ f := by
  have other : g ≠ f := by
    rintro rfl
    rw [code] at plain
    cases plain
  exact ⟨(others g other).symm.trans code, other⟩

namespace Timely
variable {r d : Runtime Code}

/-- The running fiber goes on with other code. -/
theorem setCode (timely : r.Timely []) {f : Nat} {code : Code} (runs : r.control = .runs f) (other : f ≠ dispatcher)
    (ended : ∀ time token handles, code = .slept time token handles →
      r.currentTime = time ∨ r.stopRequested token = true) : (r.setCode f code).Timely [] := by
  refine timely.frame runs other (List.forall_mem_nil _) (List.forall_mem_nil _) rfl rfl rfl rfl rfl
    timely.unfailed ?_ ?_ ?_ ?_
  · exact fun g number => by rw [setCode_status]
  · exact fun g number => by rw [setCode_status]
  · exact fun g waits => by rw [setCode_status]; exact waits
  · intro g time token handles slept
    by_cases same : g = f
    · subst same
      rw [setCode_code] at slept
      exact Or.inr ⟨runs, ended time token handles slept⟩
    · rw [Runtime.setCode, setFiber_fibers_other _ same] at slept
      exact timely.sleptBy runs slept fun equal => absurd equal same

/-- The fiber that runs moves to another host. -/
theorem setCurrentHost (timely : r.Timely []) {f : Nat} (runs : r.control = .runs f) (other : f ≠ dispatcher)
    (host epoch : Nat) : (r.setCurrentHost f host epoch).Timely [] := by
  have status : ∀ g, (r.setCurrentHost f host epoch).status g = r.status g ∧
      ((r.setCurrentHost f host epoch).fibers g).code = (r.fibers g).code := by
    intro g
    by_cases same : g = f
    · subst same
      simp [Runtime.status, Runtime.setCurrentHost, setFiber]
    · simp [Runtime.status, Runtime.setCurrentHost, setFiber, same]
  refine timely.frame runs other (List.forall_mem_nil _) (List.forall_mem_nil _) rfl rfl rfl rfl rfl
    timely.unfailed ?_ ?_ ?_ ?_
  · exact fun g number => by rw [(status g).1]
  · exact fun g number => by rw [(status g).1]
  · exact fun g waits => by rw [(status g).1]; exact waits
  · intro g time token handles slept
    rw [(status g).2] at slept
    exact timely.sleptBy runs slept fun _ => runs

/-- A fiber is suspended without a sleep. -/
theorem suspend (timely : r.Timely []) {f : Nat} {status : Status} {code : Code} (runs : r.control = .runs f)
    (other : f ≠ dispatcher) (ready : r.status f = .ready) (off : status.sleeps = false) (plain : code.isSlept = false) :
    (r.suspend f status code).Timely [] := by
  have self : (r.suspend f status code).fibers f = { r.fibers f with status := status, code := code } :=
    r.setFiber_fibers_self f _
  have others : ∀ h, h ≠ f → (r.suspend f status code).fibers h = r.fibers h := fun h away => setFiber_fibers_other _ away
  refine timely.frameAt runs other (List.forall_mem_nil _) (List.forall_mem_nil _) (g := f) ?_ ?_ ?_ ?_
    rfl rfl rfl rfl rfl timely.unfailed ?_
  · intro h away
    rw [Runtime.status, others h away]
    rfl
  · rw [ready]
    rfl
  · rw [Runtime.status, self]
    exact off
  · rw [ready]
    intro calls
    cases calls
  · intro g time token handles slept
    obtain ⟨before, different⟩ := slept_other (r := r) (fun h away => by rw [others h away])
      (by rw [self]; exact plain) slept
    exact timely.sleptBy runs before fun same => absurd same different

/-- A fiber that waits for something else is notified. -/
theorem wake {called left : List Nat} (timely : r.Timely called) {f g : Nat} {status : Status}
    (runs : r.control = .runs f) (other : f ≠ dispatcher) (fewer : ∀ g ∈ left, g ∈ called)
    (waiting : ∀ g ∈ called, g ∈ left ∨ ∀ number, r.status g ≠ .asleep number)
    (before : (r.status g).sleeps = false) (after : status.sleeps = false)
    (awaiting : (r.status g).calls = true → status.calls = true) : (r.wake g status).Timely left := by
  refine timely.frameAt runs other fewer waiting (g := g) (fun h away => wake_status_other status away) before ?_ ?_
    rfl rfl rfl rfl rfl (awakened_unfailed (r := r.setStatus g status) timely.unfailed g) ?_
  · rw [wake_status_self]
    exact after
  · rw [wake_status_self]
    exact awaiting
  · intro h time token handles slept
    rw [wake_code] at slept
    exact timely.sleptBy runs slept fun _ => runs

/-- The running fiber yields, also the dispatcher. -/
theorem yield (timely : r.Timely []) {f : Nat} (runs : r.control = .runs f) (plain : (r.fibers f).code.isSlept = false) :
    (r.yield f).Timely [] := by
  refine { timely with window := ?_, slept := ?_ }
  · intro g number source awake registered
    obtain ⟨ready, control⟩ := timely.window g number source awake registered
    refine ⟨ready, ?_⟩
    rcases control with dispatches | ⟨picks, _⟩ | picks
    · cases runs.symm.trans dispatches
      exact Or.inr (Or.inr rfl)
    · cases runs.symm.trans picks
    · cases runs.symm.trans picks
  · intro g time token handles code
    refine Or.inl ((timely.slept g time token handles code).resolve_right fun now => ?_)
    cases runs.symm.trans now.1
    change (r.fibers f).code = .slept time token handles at code
    rw [code] at plain
    cases plain

/-- A new fiber has no sleep. -/
theorem spawn (timely : r.Timely []) {f : Nat} {code : Code} (runs : r.control = .runs f) (other : f ≠ dispatcher)
    (unborn : r.status r.nextFiber = .finished) (plain : code.isSlept = false) : (r.spawn f code).Timely [] := by
  have self : ((r.spawn f code).fibers r.nextFiber).code = code ∧ (r.spawn f code).status r.nextFiber = .ready := by
    change (((r.birth code).awakened r.nextFiber).fibers r.nextFiber).code = code ∧
      ((r.birth code).awakened r.nextFiber).status r.nextFiber = .ready
    rw [awakened_code, awakened_status]
    simp [birth, status, setFiber]
  refine timely.frameAt runs other (List.forall_mem_nil _) (List.forall_mem_nil _) (g := r.nextFiber)
    ?_ ?_ ?_ ?_ rfl rfl rfl rfl rfl (awakened_unfailed (r := r.birth code) timely.unfailed r.nextFiber) ?_
  · intro h away
    rw [status, Scheduled.spawn_fibers away]
    rfl
  · rw [unborn]
    rfl
  · rw [self.2]
    rfl
  · rw [unborn]
    intro calls
    cases calls
  · intro g time token handles slept
    obtain ⟨before, _⟩ := slept_other (r := r) (fun h away => by rw [Scheduled.spawn_fibers away])
      (by rw [self.1]; exact plain) slept
    exact timely.sleptBy runs before fun _ => runs

/-- Nor has one that runs at once. -/
theorem dispatch (timely : r.Timely []) {f : Nat} {code : Code} (runs : r.control = .runs f) (other : f ≠ dispatcher)
    (unborn : r.status r.nextFiber = .finished) (unslept : (r.fibers f).code.isSlept = false)
    (plain : code.isSlept = false) : (r.dispatch f code).Timely [] := by
  have status : ∀ g, (r.dispatch f code).status g = if g = r.nextFiber then .ready else r.status g := by
    intro g
    change ((r.birth code).awakened f).status g = _
    rw [awakened_status, birth_status]
  have codes : ∀ g, ((r.dispatch f code).fibers g).code = ((r.birth code).fibers g).code := by
    intro g
    change (((r.birth code).awakened f).fibers g).code = _
    rw [awakened_code]
  refine timely.frameAt runs other (List.forall_mem_nil _) (List.forall_mem_nil _) (g := r.nextFiber)
    ?_ ?_ ?_ ?_ rfl rfl rfl rfl rfl (awakened_unfailed (r := r.birth code) timely.unfailed f) ?_
  · intro h away
    rw [status, if_neg away]
  · rw [unborn]
    rfl
  · rw [status, if_pos rfl]
    rfl
  · rw [unborn]
    intro calls
    cases calls
  · intro g time token handles slept
    obtain ⟨before, _⟩ := slept_other (r := r) (f := r.nextFiber)
      (fun h away => by rw [codes, birth]; simp only [setFiber, Function.update_of_ne away])
      (by rw [codes, birth]; simpa [setFiber] using plain) slept
    refine timely.sleptBy runs before fun same => ?_
    subst same
    rw [before] at unslept
    cases unslept

/-- A fiber that runs programs starts a host. -/
theorem start (timely : r.Timely []) {f host epoch : Nat} {code : Code} (runs : r.control = .runs f) (other : f ≠ dispatcher)
    (unborn : r.status r.nextFiber = .finished) (old : f ≠ r.nextFiber) (unslept : (r.fibers f).code.isSlept = false)
    (plain : code.isSlept = false) :
    (((r.spawn f code).setFiber r.nextFiber
      { (r.spawn f code).fibers r.nextFiber with
        props := ((r.spawn f code).fibers r.nextFiber).props.setCurrentHost (some host) epoch }).yield f).Timely [] := by
  have spawned := timely.spawn runs other unborn plain
  have control : (r.spawn f code).control = .runs f := runs
  generalize same : (r.spawn f code).setFiber r.nextFiber
      { (r.spawn f code).fibers r.nextFiber with
        props := ((r.spawn f code).fibers r.nextFiber).props.setCurrentHost (some host) epoch } = d
  have fibers : ∀ g, d.status g = (r.spawn f code).status g ∧ (d.fibers g).code = ((r.spawn f code).fibers g).code := by
    subst same
    intro g
    by_cases new : g = r.nextFiber
    · subst new
      simp [status]
    · simp [status, setFiber_fibers_other _ new]
  have kept : d.Timely [] := by
    subst same
    refine spawned.frame control other (List.forall_mem_nil _) (List.forall_mem_nil _) rfl rfl rfl rfl rfl
      spawned.unfailed ?_ ?_ ?_ ?_
    · exact fun g number => by rw [(fibers g).1]
    · exact fun g number => by rw [(fibers g).1]
    · exact fun g waits => by rw [(fibers g).1]; exact waits
    · intro g time token handles slept
      rw [(fibers g).2] at slept
      exact spawned.sleptBy control slept fun _ => control
  refine kept.yield (by subst same; exact control) ?_
  rw [(fibers f).2, Scheduled.spawn_fibers old]
  exact unslept

/-- The main fiber enters the loop of `RunSimulation`. -/
theorem mark (timely : r.Timely []) {fiber : Fiber Code} (runs : r.control = .runs mainFiber)
    (plain : fiber.code.isSlept = false) (status : fiber.status = (r.fibers mainFiber).status) :
    ((r.setFiber mainFiber fiber).yield mainFiber).Timely [] := by
  have others : ∀ g, g ≠ mainFiber → (r.setFiber mainFiber fiber).fibers g = r.fibers g :=
    fun g away => setFiber_fibers_other _ away
  have statuses : ∀ g, (r.setFiber mainFiber fiber).status g = r.status g := by
    intro g
    by_cases same : g = mainFiber
    · subst same
      rw [Runtime.status, setFiber_fibers_self]
      exact status
    · rw [Runtime.status, others g same]
      rfl
  have kept : (r.setFiber mainFiber fiber).Timely [] := by
    refine timely.frame runs (by decide) (List.forall_mem_nil _) (List.forall_mem_nil _) rfl rfl rfl rfl rfl
      timely.unfailed ?_ ?_ ?_ ?_
    · exact fun g number => by rw [statuses]
    · exact fun g number => by rw [statuses]
    · exact fun g waits => by rw [statuses]; exact waits
    · intro g time token handles slept
      obtain ⟨before, different⟩ := slept_other (r := r) (fun h away => by rw [others h away])
        (by rw [setFiber_fibers_self]; exact plain) slept
      exact timely.sleptBy runs before fun same => absurd same different
  exact kept.yield runs (by rw [setFiber_fibers_self]; exact plain)

/-- A fiber that can run has no callback. -/
theorem unregistered {called : List Nat} (timely : r.Timely called) {f : Nat} (ready : r.status f = .ready) (source : Nat) :
    (source, f) ∉ r.callbacks := by
  intro registered
  rcases (timely.callbacks source f registered).2 with ⟨number, _, asleep, _⟩ | ⟨number, awake⟩ | awaits | answered
  · cases ready.symm.trans asleep
  · cases ready.symm.trans awake
  · cases ready.symm.trans awaits
  · cases ready.symm.trans answered

/-- A callback is registered for its token. -/
theorem mem_register {token : Option Nat} {f source g : Nat} :
    (source, g) ∈ r.register token f ↔ token = some source ∧ g = f ∨ (source, g) ∈ r.callbacks := by
  cases token with
  | none => simp [register]
  | some stop =>
      simp only [register, List.mem_cons, Prod.mk.injEq, Option.some.injEq]
      exact or_congr (and_congr eq_comm Iff.rfl) Iff.rfl

/-- The running fiber registers its callback. -/
theorem register_single (timely : r.Timely []) {f : Nat} (free : ∀ source, (source, f) ∉ r.callbacks) (token : Option Nat) :
    ((r.register token f).map Prod.snd).Nodup := by
  cases token with
  | none => exact timely.single
  | some source =>
      refine List.nodup_cons.mpr ⟨fun member => ?_, timely.single⟩
      obtain ⟨⟨stop, g⟩, registered, rfl⟩ := List.mem_map.mp member
      exact free stop registered

/-- The source of a token that is not stopped. -/
theorem not_stopped {token : Option Nat} (running : ¬ r.stopRequested token = true) {source : Nat}
    (same : token = some source) : r.stopTimes source = none := by
  subst same
  simpa [stopRequested] using running

end Timely

/-- The new sleep gets the next number. -/
theorem recorded_concat {sleeps : List Sleep} {new sleep : Sleep} {number : Nat} :
    (sleeps ++ [new])[number]? = some sleep ↔ sleeps[number]? = some sleep ∨ number = sleeps.length ∧ sleep = new := by
  rw [List.getElem?_append]
  split
  · rename_i inside
    exact ⟨Or.inl, fun either => either.resolve_right fun last => absurd last.1 (Nat.ne_of_lt inside)⟩
  · rename_i outside
    rw [List.getElem?_eq_none (Nat.le_of_not_lt outside)]
    have bound := Nat.le_of_not_lt outside
    by_cases last : number = sleeps.length
    · subst last
      simp [eq_comm]
    · have beyond : [new][number - sleeps.length]? = none := List.getElem?_eq_none (by simp; omega)
      simp [beyond, last]

namespace Timely
variable {r d : Runtime Code}

/-- A sleep is recorded that is over already. -/
theorem record (timely : r.Timely []) {new : Sleep} {time : Nat} (ended : new.resumed = some time)
    (begun : new.begun ≤ r.currentTime) (onTime : new.OnTime r.stopTimes time) :
    { r with sleeps := r.sleeps ++ [new] }.Timely [] := by
  have kept : ∀ {number : Nat} {sleep : Sleep}, r.sleeps[number]? = some sleep →
      (r.sleeps ++ [new])[number]? = some sleep := fun found => recorded_concat.mpr (Or.inl found)
  refine { timely with begun := ?_, event := ?_, asleep := ?_, awake := ?_, pending := ?_, ended := ?_, callbacks := ?_,
                       executing := List.forall_mem_nil _, slept := ?_ }
  · intro number sleep found
    rcases recorded_concat.mp found with old | ⟨_, rfl⟩
    · exact timely.begun number sleep old
    · exact begun
  · intro event member
    obtain ⟨sleep, found, rest⟩ := timely.event event member
    exact ⟨sleep, kept found, rest⟩
  · intro f number asleep
    obtain ⟨sleep, found, rest⟩ := timely.asleep f number asleep
    exact ⟨sleep, kept found, rest⟩
  · intro f number awake
    obtain ⟨sleep, found, rest⟩ := timely.awake f number awake
    exact ⟨sleep, kept found, rest⟩
  · intro number sleep found unresumed
    rcases recorded_concat.mp found with old | ⟨_, rfl⟩
    · exact timely.pending number sleep old unresumed
    · cases ended.symm.trans unresumed
  · intro number sleep resumed found shown
    rcases recorded_concat.mp found with old | ⟨_, rfl⟩
    · exact timely.ended number sleep resumed old shown
    · cases ended.symm.trans shown
      exact onTime
  · intro source f registered
    obtain ⟨running, waits⟩ := timely.callbacks source f registered
    refine ⟨running, waits.imp_left ?_⟩
    rintro ⟨number, sleep, asleep, found, token⟩
    exact ⟨number, sleep, asleep, kept found, token⟩
  · intro f wakeUpTime token handles code
    refine (timely.slept f wakeUpTime token handles code).imp_left ?_
    rintro ⟨number, sleep, asleep, found, rest⟩
    exact ⟨number, sleep, asleep, kept found, rest⟩

/-- With a stopped token the sleep is over at once. -/
theorem sleepOver (timely : r.Timely []) {f wakeUpTime : Nat} {token : Option Nat} {next : Code} (runs : r.control = .runs f)
    (other : f ≠ dispatcher) (future : r.currentTime ≤ wakeUpTime) (requested : r.stopRequested token = true)
    (slept : ∀ time stop handles, next = .slept time stop handles → time = wakeUpTime ∧ stop = token) :
    { r.setCode f next with
      sleeps := r.sleeps ++ [(⟨f, r.currentTime, wakeUpTime, token, some r.currentTime⟩ : Sleep)] }.Timely [] := by
  obtain ⟨source, rfl, stopped⟩ : ∃ source, token = some source ∧ (r.stopTimes source).isSome = true := by
    cases token with
    | none => cases requested
    | some source => exact ⟨source, rfl, requested⟩
  obtain ⟨time, shown⟩ := Option.isSome_iff_exists.mp stopped
  have coded : (r.setCode f next).Timely [] := by
    refine timely.setCode runs other fun wakeUp stop handles code => ?_
    rw [(slept wakeUp stop handles code).2]
    exact Or.inr requested
  refine coded.record rfl (Nat.le_refl _) (Or.inr ⟨future, source, time, rfl, shown, ?_⟩)
  exact (Nat.max_eq_right (timely.stopped source time shown)).symm

/-- The running fiber falls asleep. -/
theorem fallAsleep (timely : r.Timely []) {f wakeUpTime : Nat} {token : Option Nat} {next : Code} (runs : r.control = .runs f)
    (other : f ≠ dispatcher) (ready : r.status f = .ready) (future : r.currentTime ≤ wakeUpTime)
    (running : ¬ r.stopRequested token = true)
    (slept : ∀ time stop handles, next = .slept time stop handles → time = wakeUpTime ∧ stop = token) :
    { r.suspend f (.asleep r.sleeps.length) next with
      sleeps := r.sleeps ++ [(⟨f, r.currentTime, wakeUpTime, token, none⟩ : Sleep)]
      eventsQueue := insertEvent (wakeUpTime, r.sleeps.length) r.eventsQueue
      callbacks := r.register token f }.Timely [] := by
  have new : ∀ {number : Nat} {sleep : Sleep}, r.sleeps[number]? = some sleep → number ≠ r.sleeps.length :=
    fun found => Nat.ne_of_lt (List.getElem?_eq_some_iff.mp found).1
  have kept : ∀ {number : Nat} {sleep : Sleep}, r.sleeps[number]? = some sleep →
      (r.sleeps ++ [(⟨f, r.currentTime, wakeUpTime, token, none⟩ : Sleep)])[number]? = some sleep :=
    fun found => recorded_concat.mpr (Or.inl found)
  have self : (r.suspend f (.asleep r.sleeps.length) next).status f = .asleep r.sleeps.length := by
    simp [status, Runtime.suspend, setFiber]
  have others : ∀ g, g ≠ f → (r.suspend f (.asleep r.sleeps.length) next).fibers g = r.fibers g :=
    fun g away => setFiber_fibers_other _ away
  have statuses : ∀ g, g ≠ f → (r.suspend f (.asleep r.sleeps.length) next).status g = r.status g := by
    intro g away
    rw [status, others g away]
    rfl
  have awayOf : ∀ {g : Nat} {number : Nat}, r.status g = .asleep number ∨ r.status g = .awake number → g ≠ f := by
    rintro g number sleeping rfl
    rw [ready] at sleeping
    rcases sleeping with asleep | awake
    · cases asleep
    · cases awake
  exact {
    sorted := insertEvent_sorted timely.sorted
    distinct := by
      refine insertEvent_nodup timely.distinct fun member => ?_
      obtain ⟨event, there, same⟩ := List.mem_map.mp member
      obtain ⟨sleep, found, _⟩ := timely.event event there
      exact new found same
    future := by
      intro event member
      rcases mem_insertEvent.mp member with rfl | old
      · exact future
      · exact timely.future event old
    begun := by
      intro number sleep found
      rcases recorded_concat.mp found with old | ⟨_, rfl⟩
      · exact timely.begun number sleep old
      · exact Nat.le_refl _
    stopped := timely.stopped
    event := by
      intro event member
      rcases mem_insertEvent.mp member with rfl | old
      · exact ⟨_, recorded_concat.mpr (Or.inr ⟨rfl, rfl⟩), rfl, self⟩
      · obtain ⟨sleep, found, wakeUp, asleep⟩ := timely.event event old
        exact ⟨sleep, kept found, wakeUp, (statuses _ (awayOf (Or.inl asleep))).trans asleep⟩
    asleep := by
      intro g number asleep
      by_cases same : g = f
      · subst same
        cases self.symm.trans asleep
        exact ⟨_, recorded_concat.mpr (Or.inr ⟨rfl, rfl⟩), rfl, rfl, mem_insertEvent.mpr (Or.inl rfl),
          fun source stop => Or.inl (mem_register.mpr (Or.inl ⟨stop, rfl⟩))⟩
      · obtain ⟨sleep, found, itself, unresumed, entry, registered⟩ :=
          timely.asleep g number ((statuses g same).symm.trans asleep)
        exact ⟨sleep, kept found, itself, unresumed, mem_insertEvent.mpr (Or.inr entry),
          fun source stop => (registered source stop).imp_left fun there => mem_register.mpr (Or.inr there)⟩
    awake := by
      intro g number awake
      have same : g ≠ f := by
        rintro rfl
        cases self.symm.trans awake
      obtain ⟨sleep, found, rest⟩ := timely.awake g number ((statuses g same).symm.trans awake)
      exact ⟨sleep, kept found, rest⟩
    pending := by
      intro number sleep found unresumed
      rcases recorded_concat.mp found with old | ⟨rfl, rfl⟩
      · have waits := timely.pending number sleep old unresumed
        exact waits.imp (statuses _ (awayOf waits)).trans (statuses _ (awayOf waits)).trans
      · exact Or.inl self
    ended := by
      intro number sleep time found shown
      rcases recorded_concat.mp found with old | ⟨_, rfl⟩
      · exact timely.ended number sleep time old shown
      · cases shown
    callbacks := by
      intro source g registered
      rcases mem_register.mp registered with ⟨stop, rfl⟩ | old
      · exact ⟨not_stopped running stop, Or.inl ⟨_, _, self, recorded_concat.mpr (Or.inr ⟨rfl, rfl⟩), stop⟩⟩
      · have same : g ≠ f := by
          rintro rfl
          exact timely.unregistered ready source old
        obtain ⟨running, waits⟩ := timely.callbacks source g old
        refine ⟨running, ?_⟩
        change (∃ number sleep, (r.suspend f (.asleep r.sleeps.length) next).status g = .asleep number ∧ _) ∨
          (∃ number, (r.suspend f (.asleep r.sleeps.length) next).status g = .awake number) ∨
          (r.suspend f (.asleep r.sleeps.length) next).status g = .awaits ∨
          (r.suspend f (.asleep r.sleeps.length) next).status g = .answered
        rw [statuses g same]
        refine waits.imp_left ?_
        rintro ⟨number, sleep, asleep, found, stop⟩
        exact ⟨number, sleep, asleep, kept found, stop⟩
    single := timely.register_single (timely.unregistered ready) token
    executing := List.forall_mem_nil _
    apart := List.forall_mem_nil _
    window := by
      intro g number source awake registered
      have same : g ≠ f := by
        rintro rfl
        cases self.symm.trans awake
      refine absurd ((mem_register.mp registered).resolve_left fun mine => same mine.2) ?_
      exact timely.closed runs other ((statuses g same).symm.trans awake)
    slept := by
      intro g time stop handles code
      by_cases same : g = f
      · subst same
        have coded : next = .slept time stop handles := by
          have own : ((r.suspend g (.asleep r.sleeps.length) next).fibers g).code = next := by
            simp [Runtime.suspend, setFiber]
          exact own.symm.trans code
        obtain ⟨rfl, rfl⟩ := slept time stop handles coded
        exact Or.inl ⟨_, _, Or.inl self, recorded_concat.mpr (Or.inr ⟨rfl, rfl⟩), rfl, rfl⟩
      · have before : (r.fibers g).code = .slept time stop handles := (congrArg Fiber.code (others g same)).symm.trans code
        obtain ⟨number, sleep, sleeping, found, rest⟩ | now := timely.slept g time stop handles before
        · exact Or.inl ⟨number, sleep, sleeping.imp (statuses g same).trans (statuses g same).trans, kept found, rest⟩
        · cases runs.symm.trans now.1
          exact absurd rfl same
    unfailed := timely.unfailed }

/-- A sleep that is not stopped already gets its entry and its callback. -/
theorem sleepUntil (timely : r.Timely []) {f wakeUpTime : Nat} {token : Option Nat} {next : Code} (runs : r.control = .runs f)
    (other : f ≠ dispatcher) (ready : r.status f = .ready) (future : r.currentTime ≤ wakeUpTime)
    (slept : ∀ time stop handles, next = .slept time stop handles → time = wakeUpTime ∧ stop = token) :
    (r.sleepUntil f wakeUpTime token next).Timely [] := by
  unfold Runtime.sleepUntil
  split
  · exact timely.sleepOver runs other future ‹_› slept
  · exact timely.fallAsleep runs other ready future ‹_› slept

/-- A fiber that awaits a reply may have a callback. -/
theorem register (timely : r.Timely []) {f : Nat} {token : Option Nat} (awaits : r.status f = .awaits)
    (free : ∀ source, (source, f) ∉ r.callbacks) (running : ¬ r.stopRequested token = true) :
    { r with callbacks := r.register token f }.Timely [] := by
  refine { timely with
    asleep := ?_, callbacks := ?_, single := ?_, window := ?_
    executing := List.forall_mem_nil _, apart := List.forall_mem_nil _ }
  · intro g number asleep
    obtain ⟨sleep, found, itself, unresumed, entry, registered⟩ := timely.asleep g number asleep
    exact ⟨sleep, found, itself, unresumed, entry,
      fun source stop => (registered source stop).imp_left fun there => mem_register.mpr (Or.inr there)⟩
  · intro source g registered
    rcases mem_register.mp registered with ⟨stop, rfl⟩ | old
    · exact ⟨not_stopped running stop, Or.inr (Or.inr (Or.inl awaits))⟩
    · exact timely.callbacks source g old
  · exact timely.register_single free token
  · intro g number source awake registered
    refine timely.window g number source awake ((mem_register.mp registered).resolve_left fun mine => ?_)
    cases mine.2
    cases awaits.symm.trans awake

/-- A fiber that waits for a reply has a callback and no entry. -/
theorem awaitReply (timely : r.Timely []) {f : Nat} {token : Option Nat} {next : Code} (runs : r.control = .runs f)
    (other : f ≠ dispatcher) (ready : r.status f = .ready) (plain : next.isSlept = false) :
    (r.awaitReply f token next).Timely [] := by
  unfold Runtime.awaitReply
  split
  · refine timely.setCode runs other fun time stop handles slept => ?_
    rw [slept] at plain
    cases plain
  · rename_i running
    have suspended : (r.suspend f .awaits next).Timely [] := timely.suspend runs other ready rfl plain
    refine suspended.register ?_ (timely.unregistered ready) running
    simp [status, Runtime.suspend, setFiber]

end Timely

end Runtime

end Metamorphosis.Simulator
