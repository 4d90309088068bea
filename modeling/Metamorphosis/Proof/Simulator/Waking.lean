import Metamorphosis.Proof.Simulator.Sleeping

/-!
How sleeping fibers wake up. A stop erases the entries of the fibers that it wakes, the main loop takes the
first entry, and a signaled fiber is picked before anybody else but the dispatcher.
-/

namespace Metamorphosis.Simulator

namespace Runtime

/-- The entry of a sleeping fiber leaves the queue, and the fiber is signaled. -/
structure Signals (r d : Runtime Code) (g number : Nat) : Prop where
  status : d.status g = .awake number
  others : ∀ h, h ≠ g → d.status h = r.status h
  code : ∀ h, (d.fibers h).code = (r.fibers h).code
  shorter : d.eventsQueue.Sublist r.eventsQueue
  queue : ∀ event, event ∈ d.eventsQueue ↔ event ∈ r.eventsQueue ∧ event.2 ≠ number
  sleeps : d.sleeps = r.sleeps
  stopTimes : d.stopTimes = r.stopTimes
  callbacks : d.callbacks = r.callbacks
  control : d.control = r.control
  unfailed : ∀ failure, d.failed = some failure → failure.ofTime = false

/-- A signaled fiber leaves the queue and becomes ready. -/
theorem Signals.wake {r : Runtime Code} (unfailed : ∀ failure, r.failed = some failure → failure.ofTime = false)
    {queue : List (Nat × Nat)} (g number time : Nat) (shorter : queue.Sublist r.eventsQueue)
    (entries : ∀ event, event ∈ queue ↔ event ∈ r.eventsQueue ∧ event.2 ≠ number) :
    r.Signals ({ r with eventsQueue := queue, currentTime := time }.wake g (.awake number)) g number where
  status := wake_status_self ..
  others _ away := wake_status_other _ away
  code h := wake_code _ h g _
  shorter := shorter
  queue := entries
  sleeps := rfl
  stopTimes := rfl
  callbacks := rfl
  control := rfl
  unfailed := awakened_unfailed (r := setStatus _ g (.awake number)) unfailed g

namespace Timely
variable {r d : Runtime Code}

/-- A sleeping fiber is signaled on time. If time moves on with this, nobody else is awake and no callback is under
way. -/
theorem signaled {before called : List Nat} {g number : Nat} {sleep : Sleep} (timely : r.Timely before)
    (signals : r.Signals d g number) (asleep : r.status g = .asleep number) (found : r.sleeps[number]? = some sleep)
    (left : ∀ h, h ∈ called ↔ h ∈ before ∧ h ≠ g) (forward : r.currentTime ≤ d.currentTime)
    (future : ∀ event ∈ d.eventsQueue, d.currentTime ≤ event.1) (onTime : sleep.OnTime r.stopTimes d.currentTime)
    (still : d.currentTime = r.currentTime ∨
      before = [] ∧ (∀ h key, r.status h ≠ .awake key) ∧ ∀ f, r.control ≠ .runs f)
    (window : ∀ h key source, d.status h = .awake key → (source, h) ∈ r.callbacks →
      (∀ other ∈ d.readyFibers, other = h ∨ other = dispatcher) ∧
      (d.control = .runs dispatcher ∨ d.control = .picks (some mainFiber) ∧ d.isMain mainFiber = true ∨
        d.control = .picks (some dispatcher))) : d.Timely called := by
  obtain ⟨_, recorded, itself, unresumed, _⟩ := timely.asleep g number asleep
  cases found.symm.trans recorded
  have awayOf : ∀ {h key : Nat}, d.status h = .asleep key → h ≠ g := by
    rintro h key sleeping rfl
    cases signals.status.symm.trans sleeping
  -- The signaled fiber still has its number, and the others keep what they do.
  have waiting : ∀ {h key : Nat}, r.status h = .asleep key ∨ r.status h = .awake key →
      d.status h = .asleep key ∨ d.status h = .awake key := by
    intro h key waits
    by_cases equal : h = g
    · subst equal
      rw [asleep] at waits
      rcases waits with sleeping | awake
      · cases sleeping
        exact Or.inr signals.status
      · cases awake
    · rw [signals.others h equal]
      exact waits
  exact {
    sorted := timely.sorted.sublist signals.shorter
    distinct := timely.distinct.sublist (signals.shorter.map Prod.snd)
    future := future
    begun := by
      intro key own listed
      rw [signals.sleeps] at listed
      exact Nat.le_trans (timely.begun key own listed) forward
    stopped := by
      intro source time shown
      rw [signals.stopTimes] at shown
      exact Nat.le_trans (timely.stopped source time shown) forward
    event := by
      intro event member
      obtain ⟨there, different⟩ := (signals.queue event).mp member
      obtain ⟨own, listed, wakeUp, sleeping⟩ := timely.event event there
      rw [signals.sleeps]
      refine ⟨own, listed, wakeUp, (signals.others _ fun equal => ?_).trans sleeping⟩
      rw [equal, asleep] at sleeping
      exact different (Status.asleep.inj sleeping).symm
    asleep := by
      intro h key sleeping
      have away := awayOf sleeping
      rw [signals.others h away] at sleeping
      obtain ⟨own, listed, owner, fresh, queued, registered⟩ := timely.asleep h key sleeping
      have different : key ≠ number := by
        rintro rfl
        cases found.symm.trans listed
        exact away (owner.symm.trans itself)
      rw [signals.sleeps, signals.callbacks]
      exact ⟨own, listed, owner, fresh, (signals.queue _).mpr ⟨queued, different⟩,
        fun source token => (registered source token).imp_right fun member => (left h).mpr ⟨member, away⟩⟩
    awake := by
      intro h key awake
      rw [signals.sleeps, signals.stopTimes]
      by_cases equal : h = g
      · subst equal
        cases signals.status.symm.trans awake
        exact ⟨sleep, found, itself, unresumed, onTime⟩
      · rw [signals.others h equal] at awake
        rcases still with same | ⟨_, nobody, _⟩
        · rw [same]
          exact timely.awake h key awake
        · exact absurd awake (nobody h key)
    pending := by
      intro key own listed fresh
      rw [signals.sleeps] at listed
      exact waiting (timely.pending key own listed fresh)
    ended := by
      rw [signals.sleeps, signals.stopTimes]
      exact timely.ended
    callbacks := by
      intro source h registered
      rw [signals.callbacks] at registered
      rw [signals.stopTimes, signals.sleeps]
      obtain ⟨running, waits⟩ := timely.callbacks source h registered
      refine ⟨running, ?_⟩
      by_cases equal : h = g
      · subst equal
        exact Or.inr (Or.inl ⟨number, signals.status⟩)
      · rw [signals.others h equal]
        exact waits
    single := by
      rw [signals.callbacks]
      exact timely.single
    executing := by
      intro h member
      obtain ⟨there, away⟩ := (left h).mp member
      rcases still with same | ⟨empty, _⟩
      · rw [signals.sleeps, signals.stopTimes, same, signals.others h away]
        exact timely.executing h there
      · rw [empty] at there
        cases there
    apart := by
      rw [signals.callbacks]
      exact fun h member => timely.apart h ((left h).mp member).1
    window := by
      intro h key source awake registered
      rw [signals.callbacks] at registered
      exact window h key source awake registered
    slept := by
      intro h wakeUp token handles code
      rw [signals.code] at code
      rcases timely.slept h wakeUp token handles code with ⟨key, own, waits, rest⟩ | ⟨running, due⟩
      · rw [SleptBy, signals.sleeps]
        exact Or.inl ⟨key, own, waiting waits, rest⟩
      · rcases still with same | ⟨_, _, picking⟩
        · rw [SleptBy, signals.control, same, stopRequested, signals.stopTimes]
          exact Or.inr ⟨running, due⟩
        · exact absurd running (picking h)
    unfailed := signals.unfailed }

/-- The callback of a sleep erases the entry, which is still there, and wakes the fiber. -/
theorem executeSleep {called : List Nat} {f g number source : Nat} {sleep : Sleep} (timely : r.Timely (g :: called))
    (runs : r.control = .runs f) (other : f ≠ dispatcher) (once : g ∉ called) (asleep : r.status g = .asleep number)
    (found : r.sleeps[number]? = some sleep) (token : sleep.token = some source)
    (stopped : r.stopTimes source = some r.currentTime) :
    ({ r with eventsQueue := r.eventsQueue.filter fun event => event.2 ≠ number }.wake g (.awake number)).Timely called := by
  obtain ⟨_, recorded, _, _, entry, _⟩ := timely.asleep g number asleep
  cases found.symm.trans recorded
  have signals := Signals.wake timely.unfailed g number r.currentTime
    (List.filter_sublist (p := fun event => decide (event.2 ≠ number)) (l := r.eventsQueue)) fun event => by simp
  have left : ∀ h, h ∈ called ↔ h ∈ g :: called ∧ h ≠ g := by
    intro h
    constructor
    · intro member
      refine ⟨List.mem_cons_of_mem _ member, ?_⟩
      rintro rfl
      exact once member
    · rintro ⟨member, away⟩
      exact (List.mem_cons.mp member).resolve_left away
  have onTime : sleep.OnTime r.stopTimes r.currentTime :=
    Or.inr ⟨timely.future _ entry, source, _, token, stopped, (Nat.max_eq_left (timely.begun number sleep found)).symm⟩
  refine timely.signaled signals asleep found left (Nat.le_refl _) ?_ onTime (Or.inl rfl) ?_
  · exact fun event member => timely.future event (List.mem_of_mem_filter member)
  · intro h key stop awake registered
    by_cases equal : h = g
    · subst equal
      exact absurd registered (timely.apart h List.mem_cons_self stop)
    · exact absurd registered (timely.closed runs other ((signals.others h equal).symm.trans awake))

/-- A source is marked as stopped and its callbacks are taken. -/
theorem stopBegins (timely : r.Timely []) {f : Nat} (runs : r.control = .runs f) (other : f ≠ dispatcher) (source : Nat) :
    Timely ((r.callbacks.filter fun callback => callback.1 = source).map Prod.snd)
      { r with
        stopTimes := Function.update r.stopTimes source (some ((r.stopTimes source).getD r.currentTime))
        callbacks := r.callbacks.filter fun callback => callback.1 ≠ source } := by
  have stops : ∀ stop, Function.update r.stopTimes source (some ((r.stopTimes source).getD r.currentTime)) stop =
      if stop = source then some ((r.stopTimes source).getD r.currentTime) else r.stopTimes stop :=
    fun stop => Function.update_apply ..
  have kept : ∀ stop time, r.stopTimes stop = some time →
      Function.update r.stopTimes source (some ((r.stopTimes source).getD r.currentTime)) stop = some time := by
    intro stop time shown
    by_cases same : stop = source
    · subst same
      simp [shown]
    · simp [same, shown]
  have left : ∀ stop g, (stop, g) ∈ (r.callbacks.filter fun callback => callback.1 ≠ source) ↔
      (stop, g) ∈ r.callbacks ∧ stop ≠ source := fun stop g => by simp
  have taken : ∀ g, g ∈ (r.callbacks.filter fun callback => callback.1 = source).map Prod.snd ↔
      (source, g) ∈ r.callbacks := fun g => by simp
  refine { timely with stopped := ?_, asleep := ?_, awake := ?_, ended := ?_, callbacks := ?_, single := ?_,
                       executing := ?_, apart := ?_, window := ?_, slept := ?_ }
  · intro stop time shown
    replace shown := (stops stop).symm.trans shown
    split at shown
    · cases shown
      cases before : r.stopTimes source with
      | none => exact Nat.le_refl _
      | some earlier => exact timely.stopped source earlier before
    · exact timely.stopped stop time shown
  · intro g number asleep
    obtain ⟨sleep, found, itself, unresumed, entry, registered⟩ := timely.asleep g number asleep
    refine ⟨sleep, found, itself, unresumed, entry, fun stop token => ?_⟩
    have there := (registered stop token).resolve_right nofun
    by_cases same : stop = source
    · subst same
      exact Or.inr ((taken g).mpr there)
    · exact Or.inl ((left stop g).mpr ⟨there, same⟩)
  · intro g number awake
    obtain ⟨sleep, found, itself, unresumed, onTime⟩ := timely.awake g number awake
    exact ⟨sleep, found, itself, unresumed, onTime.later kept⟩
  · intro number sleep time found shown
    exact (timely.ended number sleep time found shown).later kept
  · intro stop g registered
    obtain ⟨there, different⟩ := (left stop g).mp registered
    obtain ⟨running, waits⟩ := timely.callbacks stop g there
    exact ⟨((stops stop).trans (if_neg different)).trans running, waits⟩
  · exact timely.single.sublist (List.filter_sublist.map Prod.snd)
  · intro g member
    have there := (taken g).mp member
    obtain ⟨running, waits⟩ := timely.callbacks source g there
    rcases waits with ⟨number, sleep, asleep, found, token⟩ | ⟨number, awake⟩ | rest
    · refine Or.inl ⟨number, sleep, source, asleep, found, token, (stops source).trans ?_⟩
      rw [if_pos rfl, running]
      rfl
    · exact absurd there (timely.closed runs other awake)
    · exact Or.inr rest
  · intro g member stop registered
    obtain ⟨there, different⟩ := (left stop g).mp registered
    have same := List.inj_on_of_nodup_map timely.single there ((taken g).mp member) rfl
    exact different (congrArg Prod.fst same)
  · intro g number stop awake registered
    exact absurd ((left stop g).mp registered).1 (timely.closed runs other awake)
  · intro g time token handles code
    refine (timely.slept g time token handles code).imp_right fun now => ⟨now.1, now.2.imp_right fun requested => ?_⟩
    cases token with
    | none => cases requested
    | some stop =>
        obtain ⟨earlier, shown⟩ := Option.isSome_iff_exists.mp requested
        exact Option.isSome_iff_exists.mpr ⟨earlier, kept stop earlier shown⟩

/-- One callback of a stopped source. -/
theorem execute {called : List Nat} {f g : Nat} (timely : r.Timely (g :: called)) (scheduled : r.Scheduled)
    (runs : r.control = .runs f) (ordinary : r.role f = .ordinary) (once : g ∉ called) :
    (r.execute g).Timely called ∧ (r.execute g).Scheduled ∧ (r.execute g).control = .runs f ∧
    (r.execute g).role f = .ordinary := by
  have other := (scheduled.ordinary ordinary).1
  have apart : r.control = .runs mainFiber → r.role mainFiber ≠ .main := by
    intro control
    cases runs.symm.trans control
    rw [ordinary]
    nofun
  have fewer : ∀ h ∈ called, h ∈ g :: called := fun h => List.mem_cons_of_mem g
  rcases timely.executing g (List.mem_cons_self ..) with
    ⟨number, sleep, source, asleep, found, token, stopped⟩ | awaits | answered
  · obtain ⟨_, _, _, _, entry, _⟩ := timely.asleep g number asleep
    have present : (r.eventsQueue.any fun event => event.2 = number) = true :=
      List.any_eq_true.mpr ⟨_, entry, decide_eq_true rfl⟩
    have shape : r.execute g =
        { r with eventsQueue := r.eventsQueue.filter fun event => event.2 ≠ number }.wake g (.awake number) := by
      have status : (r.fibers g).status = .asleep number := asleep
      simp only [Runtime.execute, status]
      rw [if_pos present]
    rw [shape]
    have erased : { r with eventsQueue := r.eventsQueue.filter fun event => event.2 ≠ number }.Scheduled :=
      scheduled.congr (fun _ => rfl) (fun _ => rfl) (fun _ => rfl) rfl rfl rfl rfl
    refine ⟨timely.executeSleep runs other once asleep found token stopped, ?_, runs, ?_⟩
    · refine erased.wake ?_ ?_ rfl apart
      · exact congrArg Status.isOn asleep
      · exact ne_of_eq_of_ne asleep nofun
    · rw [wake_role]
      exact ordinary
  · have status : (r.fibers g).status = .awaits := awaits
    have shape : r.execute g = r.wake g .answered := by simp only [Runtime.execute, status]
    rw [shape]
    refine ⟨timely.wake runs other fewer ?_ (by rw [awaits]; rfl) rfl fun _ => rfl, ?_, runs, ?_⟩
    · intro h member
      rcases List.mem_cons.mp member with rfl | rest
      · exact Or.inr fun number asleep => by cases awaits.symm.trans asleep
      · exact Or.inl rest
    · exact scheduled.wake (by rw [awaits]; rfl) (by rw [awaits]; nofun) rfl apart
    · rw [wake_role]
      exact ordinary
  · have status : (r.fibers g).status = .answered := answered
    have shape : r.execute g = r := by simp only [Runtime.execute, status]
    rw [shape]
    refine ⟨timely.frame runs other fewer ?_ rfl rfl rfl rfl rfl timely.unfailed (fun _ _ => Iff.rfl) (fun _ _ => Iff.rfl)
      (fun _ waits => waits) fun h time token handles code => timely.slept h time token handles code,
      scheduled, runs, ordinary⟩
    intro h member
    rcases List.mem_cons.mp member with rfl | rest
    · exact Or.inr fun number asleep => by cases answered.symm.trans asleep
    · exact Or.inl rest

/-- `StopSource::Stop` erases only entries that are in the queue. -/
theorem stop (timely : r.Timely []) (scheduled : r.Scheduled) {f : Nat} (runs : r.control = .runs f)
    (ordinary : r.role f = .ordinary) (source : Nat) : (r.stop source).Timely [] ∧ (r.stop source).Scheduled := by
  suffices ∀ (called : List Nat) (c : Runtime Code), called.Nodup → c.Timely called → c.Scheduled →
      c.control = .runs f → c.role f = .ordinary →
      (called.foldl Runtime.execute c).Timely [] ∧ (called.foldl Runtime.execute c).Scheduled from
    this _ _ (timely.single.sublist (List.filter_sublist.map Prod.snd))
      (timely.stopBegins runs (scheduled.ordinary ordinary).1 source)
      (scheduled.congr (fun _ => rfl) (fun _ => rfl) (fun _ => rfl) rfl rfl rfl rfl) runs ordinary
  intro called
  induction called with
  | nil => exact fun c _ before order _ _ => ⟨before, order⟩
  | cons g rest ih =>
      intro c distinct before order control role
      obtain ⟨absent, tail⟩ := List.nodup_cons.mp distinct
      obtain ⟨after, kept, still, same⟩ := before.execute order control role absent
      exact ih _ tail after kept still same

/-- The main fiber takes the first entry of the queue and signals its sleeper. -/
theorem popEvent_shape (timely : r.Timely []) {event : Nat × Nat} {rest : List (Nat × Nat)}
    (queue : r.eventsQueue = event :: rest) (f : Nat) (code : Code) :
    ∃ sleep, r.sleeps[event.2]? = some sleep ∧ sleep.wakeUpTime = event.1 ∧
      r.status sleep.fiber = .asleep event.2 ∧
      ((r.setCode f code).popEvent event).yield f =
        { (r.setCode f code).yield f with eventsQueue := rest, currentTime := event.1 }.wake sleep.fiber (.awake event.2) := by
  have first : event ∈ r.eventsQueue := by
    rw [queue]
    exact List.mem_cons_self ..
  obtain ⟨sleep, found, wakeUp, asleep⟩ := timely.event event first
  refine ⟨sleep, found, wakeUp, asleep, ?_⟩
  have punctual : ¬ event.1 < (r.setCode f code).currentTime := Nat.not_lt_of_le (timely.future event first)
  have taken : (r.setCode f code).eventsQueue.tail = rest := by
    change r.eventsQueue.tail = rest
    rw [queue]
    rfl
  have recorded : (r.setCode f code).sleeps[event.2]? = some sleep := found
  have status : ((r.setCode f code).fibers sleep.fiber).status = .asleep event.2 := (setCode_status ..).trans asleep
  simp only [popEvent, if_neg punctual, taken, signal, recorded, if_pos status]
  rfl

/-- Nobody else is about to run when the main fiber takes an entry. -/
theorem loop_awake (scheduled : r.Scheduled) {f : Nat} (runs : r.control = .runs f) (main : r.role f = .main) :
    f = mainFiber ∧ r.isMain mainFiber = true ∧ (∀ g ∈ r.readyFibers, g = dispatcher) ∧
    ∀ g number, r.status g ≠ .awake number := by
  have mark : r.isMain f = true := (scheduled.marked f).mpr (Or.inl main)
  cases (scheduled.main f mark).1
  have alone := scheduled.alone runs main
  refine ⟨rfl, mark, alone, fun g number awake => ?_⟩
  cases alone g (scheduled.signaled g number awake)
  cases scheduled.dispatches.1.symm.trans awake

/-- Time moves on to the first entry while nobody else is awake. -/
theorem advance (timely : r.Timely []) {event : Nat × Nat} {rest : List (Nat × Nat)} {sleep : Sleep}
    (queue : r.eventsQueue = event :: rest) (found : r.sleeps[event.2]? = some sleep)
    (wakeUp : sleep.wakeUpTime = event.1) (asleep : r.status sleep.fiber = .asleep event.2)
    (control : r.control = .picks (some mainFiber)) (mark : r.isMain mainFiber = true)
    (unmarked : r.isMain sleep.fiber = false) (alone : ∀ g ∈ r.readyFibers, g = dispatcher)
    (sleeping : ∀ g number, r.status g ≠ .awake number) :
    ({ r with eventsQueue := rest, currentTime := event.1 }.wake sleep.fiber (.awake event.2)).Timely [] := by
  have ordered : (event :: rest).Pairwise fun a b => a.1 ≤ b.1 := queue ▸ timely.sorted
  have numbers : ((event :: rest).map Prod.snd).Nodup := queue ▸ timely.distinct
  obtain ⟨least, _⟩ := List.pairwise_cons.mp ordered
  obtain ⟨once, _⟩ := List.nodup_cons.mp numbers
  have entries : ∀ other, other ∈ rest ↔ other ∈ r.eventsQueue ∧ other.2 ≠ event.2 := by
    intro other
    rw [queue, List.mem_cons]
    constructor
    · intro there
      refine ⟨Or.inr there, fun equal => once ?_⟩
      rw [← equal]
      exact List.mem_map_of_mem there
    · rintro ⟨rfl | there, different⟩
      · exact absurd rfl different
      · exact there
  have signals := Signals.wake timely.unfailed sleep.fiber event.2 event.1
    (by rw [queue]; exact List.sublist_cons_self ..) entries
  refine timely.signaled signals asleep found (fun h => by simp) ?_ least (Or.inl wakeUp.symm)
    (Or.inr ⟨rfl, sleeping, fun f runs => ?_⟩) ?_
  · exact timely.future event (by rw [queue]; exact List.mem_cons_self ..)
  · cases control.symm.trans runs
  · intro h number source awake _
    have equal : h = sleep.fiber := by
      by_contra away
      rw [signals.others h away] at awake
      exact sleeping h number awake
    subst equal
    have ready := wake_readyFibers (r := { r with eventsQueue := rest, currentTime := event.1 }) (.awake event.2) unmarked
    refine ⟨fun g there => ?_, Or.inr (Or.inl ⟨control, ?_⟩)⟩
    · rw [ready, List.mem_append, List.mem_singleton] at there
      exact there.elim (fun other => Or.inr (alone g other)) Or.inl
    · rw [wake_isMain]
      exact mark

/-- The main loop takes the first event out of the queue and signals its fiber. -/
theorem pop (timely : r.Timely []) (scheduled : r.Scheduled) {f : Nat} {event : Nat × Nat} {rest : List (Nat × Nat)}
    {code : Code} (runs : r.control = .runs f) (main : r.role f = .main) (role : code.role = .main)
    (plain : code.isSlept = false) (queue : r.eventsQueue = event :: rest) :
    (((r.setCode f code).popEvent event).yield f).Timely [] ∧ (((r.setCode f code).popEvent event).yield f).Scheduled := by
  obtain ⟨sleep, found, wakeUp, asleep, shape⟩ := timely.popEvent_shape queue f code
  obtain ⟨rfl, mark, alone, sleeping⟩ := loop_awake scheduled runs main
  rw [shape]
  have coded : ((r.setCode mainFiber code).yield mainFiber).Timely [] := by
    refine Timely.yield (timely.setCode runs nofun fun time token handles slept => ?_) runs
      (by rw [setCode_code]; exact plain)
    rw [slept] at plain
    cases plain
  have yielded : ((r.setCode mainFiber code).yield mainFiber).Scheduled :=
    (scheduled.setMainCode runs main (Or.inl role)).yield runs
  have moved : { (r.setCode mainFiber code).yield mainFiber with eventsQueue := rest, currentTime := event.1 }.Scheduled :=
    yielded.congr (fun _ => rfl) (fun _ => rfl) (fun _ => rfl) rfl rfl rfl rfl
  have status : ∀ g, ((r.setCode mainFiber code).yield mainFiber).status g = r.status g := fun g => setCode_status ..
  have before := (status sleep.fiber).trans asleep
  constructor
  · refine coded.advance queue found wakeUp before rfl ?_ (yielded.off (by rw [before]; rfl)).2.1 alone ?_
    · exact (yielded.marked mainFiber).mpr (Or.inl ((congrArg Code.role setCode_code).trans role))
    · exact fun g number awake => sleeping g number ((status g).symm.trans awake)
  · refine moved.wake ?_ ?_ rfl nofun
    · exact congrArg Status.isOn before
    · exact ne_of_eq_of_ne before nofun

end Timely

/-- What a pick leaves alone before the picked fiber leaves its wait. -/
theorem putBack_fields (r : Runtime Code) (back : Option Nat) (f choice : Nat) :
    let p := (r.pickNext f choice).putBack back
    p.eventsQueue = r.eventsQueue ∧ p.currentTime = r.currentTime ∧ p.sleeps = r.sleeps ∧ p.stopTimes = r.stopTimes ∧
    p.callbacks = r.callbacks ∧ ∀ g, p.status g = r.status g := by
  cases back with
  | none => exact ⟨rfl, rfl, rfl, rfl, rfl, fun _ => rfl⟩
  | some g => exact ⟨rfl, rfl, rfl, rfl, rfl, fun h => awakened_status ..⟩

/-- A fiber that is put back fails no check of a time. -/
theorem putBack_unfailed {r : Runtime Code} (unfailed : ∀ failure, r.failed = some failure → failure.ofTime = false)
    (back : Option Nat) : ∀ failure, (r.putBack back).failed = some failure → failure.ofTime = false := by
  cases back with
  | none => exact unfailed
  | some g => exact awakened_unfailed unfailed g

/-- A fiber that was woken from its sleep destroys its callback, and the sleep is over. -/
theorem resume_awake {r : Runtime Code} {f number : Nat} (shown : r.status f = .awake number) :
    r.resume f =
      { r.setStatus f .ready with
        callbacks := r.callbacks.filter fun callback => callback.2 ≠ f
        sleeps := r.sleeps.modify number fun sleep => { sleep with resumed := some r.currentTime } } := by
  rw [resume, show (r.fibers f).status = _ from shown]

/-- A fiber that was answered destroys its callback. -/
theorem resume_answered {r : Runtime Code} {f : Nat} (shown : r.status f = .answered) :
    r.resume f = { r.setStatus f .ready with callbacks := r.callbacks.filter fun callback => callback.2 ≠ f } := by
  rw [resume, show (r.fibers f).status = _ from shown]

theorem resume_ready {r : Runtime Code} {f : Nat} (shown : r.status f = .ready) : r.resume f = r := by
  rw [resume, show (r.fibers f).status = _ from shown]

/-- One sleep is changed in the record. -/
theorem recorded_modify {sleeps : List Sleep} {change : Sleep → Sleep} {number key : Nat} {sleep own : Sleep}
    (found : sleeps[number]? = some sleep) : (sleeps.modify number change)[key]? = some own ↔
      sleeps[key]? = some own ∧ key ≠ number ∨ key = number ∧ own = change sleep := by
  by_cases same : number = key
  · subst same
    rw [List.getElem?_modify_eq, found]
    simp [eq_comm]
  · rw [List.getElem?_modify_ne _ _ same]
    simp [Ne.symm same]

namespace Timely
variable {r d : Runtime Code}

/-- While a signaled fiber has a callback, only it and the dispatcher are picked. -/
theorem window_pick (timely : r.Timely []) (scheduled : r.Scheduled) {back : Option Nat} {f g number stop : Nat}
    (picks : r.control = .picks back) (awake : r.status g = .awake number) (registered : (stop, g) ∈ r.callbacks)
    (source : f ∈ r.readyFibers ∨ r.readyFibers = [] ∧ r.mainReady = true ∧ f = mainFiber) :
    (f = g ∨ f = dispatcher) ∧ (∀ h ∈ r.readyFibers, h = g ∨ h = dispatcher) ∧
    ∀ h, back = some h → r.isMain h = false → h = dispatcher := by
  obtain ⟨ready, control⟩ := timely.window g number stop awake registered
  refine ⟨?_, ready, ?_⟩
  · rcases source with member | ⟨empty, _, _⟩
    · exact ready f member
    · have there := scheduled.signaled g number awake
      rw [empty] at there
      cases there
  · intro h same unmarked
    subst same
    rcases control with dispatches | ⟨main, mark⟩ | yields
    · cases picks.symm.trans dispatches
    · cases picks.symm.trans main
      rw [mark] at unmarked
      cases unmarked
    · cases picks.symm.trans yields
      rfl

/-- A fiber is picked that was not asleep. -/
theorem pickReady (timely : r.Timely []) (scheduled : r.Scheduled) {back : Option Nat} {f choice : Nat}
    (picks : r.control = .picks back) (picked : r.Picked d back f choice)
    (source : f ∈ r.readyFibers ∨ r.readyFibers = [] ∧ r.mainReady = true ∧ f = mainFiber)
    (calm : r.status f = .ready ∨ r.status f = .answered) (queue : d.eventsQueue = r.eventsQueue)
    (time : d.currentTime = r.currentTime) (sleeps : d.sleeps = r.sleeps) (stopTimes : d.stopTimes = r.stopTimes)
    (callbacks : d.callbacks = r.callbacks.filter fun callback => callback.2 ≠ f)
    (unfailed : ∀ failure, d.failed = some failure → failure.ofTime = false) : d.Timely [] := by
  have asleep : ∀ g number, d.status g = .asleep number ↔ r.status g = .asleep number := by
    intro g number
    by_cases same : g = f
    · subst same
      rw [picked.status]
      rcases calm with ready | answered
      · rw [ready]
      · rw [answered]
        exact ⟨nofun, nofun⟩
    · rw [picked.others g same]
  have awake : ∀ g number, d.status g = .awake number ↔ r.status g = .awake number := by
    intro g number
    by_cases same : g = f
    · subst same
      rw [picked.status]
      rcases calm with ready | answered
      · rw [ready]
      · rw [answered]
        exact ⟨nofun, nofun⟩
    · rw [picked.others g same]
  have registered : ∀ stop g, (stop, g) ∈ d.callbacks ↔ (stop, g) ∈ r.callbacks ∧ g ≠ f := by
    intro stop g
    rw [callbacks]
    simp
  exact {
    sorted := by
      rw [queue]
      exact timely.sorted
    distinct := by
      rw [queue]
      exact timely.distinct
    future := by
      rw [queue, time]
      exact timely.future
    begun := by
      rw [sleeps, time]
      exact timely.begun
    stopped := by
      rw [stopTimes, time]
      exact timely.stopped
    event := by simpa only [queue, sleeps, asleep] using timely.event
    asleep := by
      intro g number waits
      rw [asleep] at waits
      have other : g ≠ f := by
        rintro rfl
        rcases calm with ready | answered
        · cases ready.symm.trans waits
        · cases answered.symm.trans waits
      obtain ⟨sleep, found, itself, unresumed, entry, called⟩ := timely.asleep g number waits
      rw [sleeps, queue]
      exact ⟨sleep, found, itself, unresumed, entry,
        fun stop token => (called stop token).imp_left fun there => (registered stop g).mpr ⟨there, other⟩⟩
    awake := by simpa only [awake, sleeps, stopTimes, time] using timely.awake
    pending := by simpa only [sleeps, asleep, awake] using timely.pending
    ended := by simpa only [sleeps, stopTimes] using timely.ended
    callbacks := by
      intro stop g there
      obtain ⟨before, other⟩ := (registered stop g).mp there
      rw [stopTimes, sleeps]
      simp only [picked.others g other]
      exact timely.callbacks stop g before
    single := by
      rw [callbacks]
      exact timely.single.sublist (List.filter_sublist.map Prod.snd)
    executing := by nofun
    apart := by nofun
    window := by
      intro g number stop waking there
      rw [awake] at waking
      obtain ⟨before, other⟩ := (registered stop g).mp there
      obtain ⟨chosen, others, yielded⟩ := timely.window_pick scheduled picks waking before source
      have dispatches : f = dispatcher := chosen.resolve_left fun same => other same.symm
      refine ⟨fun h member => ?_, Or.inl (by rw [picked.control, dispatches])⟩
      rcases (picked.ready h).mp member with ⟨ready, _⟩ | ⟨same, unmarked⟩
      · exact others h ready
      · exact Or.inr (yielded h same unmarked)
    slept := by
      intro g wakeUp token handles code
      rw [picked.code] at code
      rcases timely.slept g wakeUp token handles code with waits | ⟨running, _⟩
      · simp only [SleptBy, sleeps, asleep, awake]
        exact Or.inl waits
      · cases picks.symm.trans running
    unfailed := unfailed }

/-- A sleeper is picked: its sleep is over, and its callback is gone. -/
theorem pickAwake (timely : r.Timely []) (scheduled : r.Scheduled) {back : Option Nat} {f choice number : Nat}
    (picks : r.control = .picks back) (picked : r.Picked d back f choice)
    (source : f ∈ r.readyFibers ∨ r.readyFibers = [] ∧ r.mainReady = true ∧ f = mainFiber)
    (signaled : r.status f = .awake number) (queue : d.eventsQueue = r.eventsQueue)
    (time : d.currentTime = r.currentTime)
    (sleeps : d.sleeps = r.sleeps.modify number fun sleep => { sleep with resumed := some r.currentTime })
    (stopTimes : d.stopTimes = r.stopTimes)
    (callbacks : d.callbacks = r.callbacks.filter fun callback => callback.2 ≠ f)
    (unfailed : ∀ failure, d.failed = some failure → failure.ofTime = false) : d.Timely [] := by
  obtain ⟨sleep, found, itself, unresumed, onTime⟩ := timely.awake f number signaled
  have other : ∀ {g : Nat} {status : Status}, d.status g = status → status ≠ .ready → g ≠ f := by
    rintro g status shown different rfl
    exact different (shown.symm.trans picked.status)
  have registered : ∀ stop g, (stop, g) ∈ d.callbacks ↔ (stop, g) ∈ r.callbacks ∧ g ≠ f := by
    intro stop g
    rw [callbacks]
    simp
  have recorded : ∀ {key : Nat} {own : Sleep}, d.sleeps[key]? = some own ↔
      r.sleeps[key]? = some own ∧ key ≠ number ∨ key = number ∧ own = { sleep with resumed := some r.currentTime } := by
    intro key own
    rw [sleeps]
    exact recorded_modify found
  have kept : ∀ {key : Nat} {own : Sleep}, key ≠ number → r.sleeps[key]? = some own → d.sleeps[key]? = some own :=
    fun different listed => recorded.mpr (Or.inl ⟨listed, different⟩)
  -- The record of this sleep belongs to no other fiber.
  have different : ∀ {g key : Nat} {own : Sleep}, g ≠ f → r.sleeps[key]? = some own → own.fiber = g → key ≠ number := by
    rintro g key own away listed rfl rfl
    cases found.symm.trans listed
    exact away itself
  exact {
    sorted := by
      rw [queue]
      exact timely.sorted
    distinct := by
      rw [queue]
      exact timely.distinct
    future := by
      rw [queue, time]
      exact timely.future
    begun := by
      intro key own listed
      rw [time]
      rcases recorded.mp listed with ⟨before, _⟩ | ⟨_, rfl⟩
      · exact timely.begun key own before
      · exact timely.begun number sleep found
    stopped := by
      rw [stopTimes, time]
      exact timely.stopped
    event := by
      intro event member
      rw [queue] at member
      obtain ⟨own, listed, wakeUp, asleep⟩ := timely.event event member
      have away : own.fiber ≠ f := by
        intro same
        rw [same, signaled] at asleep
        cases asleep
      exact ⟨own, kept (different away listed rfl) listed, wakeUp, (picked.others _ away).trans asleep⟩
    asleep := by
      intro g key asleep
      have away := other asleep nofun
      rw [picked.others g away] at asleep
      obtain ⟨own, listed, owner, fresh, entry, called⟩ := timely.asleep g key asleep
      rw [queue]
      exact ⟨own, kept (different away listed owner) listed, owner, fresh, entry,
        fun stop token => (called stop token).imp_left fun there => (registered stop g).mpr ⟨there, away⟩⟩
    awake := by
      intro g key awake
      have away := other awake nofun
      rw [picked.others g away] at awake
      obtain ⟨own, listed, owner, fresh, due⟩ := timely.awake g key awake
      rw [stopTimes, time]
      exact ⟨own, kept (different away listed owner) listed, owner, fresh, due⟩
    pending := by
      intro key own listed fresh
      rcases recorded.mp listed with ⟨before, away⟩ | ⟨_, rfl⟩
      · have waits := timely.pending key own before fresh
        rw [picked.others]
        · exact waits
        · intro same
          rw [same, signaled] at waits
          rcases waits with asleep | awake
          · cases asleep
          · exact away (Status.awake.inj awake).symm
      · cases fresh
    ended := by
      intro key own resumed listed shown
      rw [stopTimes]
      rcases recorded.mp listed with ⟨before, _⟩ | ⟨_, rfl⟩
      · exact timely.ended key own resumed before shown
      · cases shown
        exact onTime
    callbacks := by
      intro stop g there
      obtain ⟨before, away⟩ := (registered stop g).mp there
      obtain ⟨running, waits⟩ := timely.callbacks stop g before
      rw [stopTimes]
      simp only [picked.others g away]
      refine ⟨running, waits.imp_left ?_⟩
      rintro ⟨key, own, asleep, listed, token⟩
      have owner := (timely.waiting listed (Or.inl asleep)).1
      exact ⟨key, own, asleep, kept (different away listed owner) listed, token⟩
    single := by
      rw [callbacks]
      exact timely.single.sublist (List.filter_sublist.map Prod.snd)
    executing := by nofun
    apart := by nofun
    window := by
      -- Another signaled sleeper with a callback would be alone with the dispatcher.
      intro g key stop awake there
      have away := other awake nofun
      rw [picked.others g away] at awake
      obtain ⟨before, _⟩ := (registered stop g).mp there
      obtain ⟨chosen, _⟩ := timely.window_pick scheduled picks awake before source
      rcases chosen with same | same
      · exact absurd same.symm away
      · subst same
        cases scheduled.dispatches.1.symm.trans signaled
    slept := by
      intro g wakeUp token handles code
      rw [picked.code] at code
      rcases timely.slept g wakeUp token handles code with ⟨key, own, waits, listed, due, wanted⟩ | ⟨running, _⟩
      · by_cases same : g = f
        · subst same
          refine Or.inr ⟨picked.control, ?_⟩
          rw [signaled] at waits
          rcases waits with asleep | awake
          · cases asleep
          · cases awake
            cases found.symm.trans listed
            rw [time]
            refine onTime.imp (fun now => now.trans due) ?_
            rintro ⟨_, stop, stopped, has, shown, _⟩
            rw [← wanted, has, stopRequested, stopTimes]
            exact Option.isSome_iff_exists.mpr ⟨stopped, shown⟩
        · rw [SleptBy, picked.others g same]
          have owner := (timely.waiting listed waits).1
          exact Or.inl ⟨key, own, waits, kept (different same listed owner) listed, due, wanted⟩
      · cases picks.symm.trans running
    unfailed := unfailed }

/-- The next fiber is picked, or the scheduler fails. -/
theorem pick (timely : r.Timely []) (scheduled : r.Scheduled) {back : Option Nat} {choice : Nat}
    (picks : r.control = .picks back) (picked : r.pick back choice = some d) : d.Timely [] ∧ d.Scheduled := by
  rcases scheduled.picked picks picked with rfl | ⟨f, source, shape, spec⟩
  · refine ⟨{ timely with unfailed := ?_ }, scheduled.congr (fun _ => rfl) (fun _ => rfl) (fun _ => rfl) rfl rfl rfl rfl⟩
    rintro failure ⟨⟩
    rfl
  · refine ⟨?_, spec.scheduled scheduled picks source⟩
    obtain ⟨queue, time, sleeps, stopTimes, callbacks, statuses⟩ := putBack_fields r back f choice
    have unfailed := putBack_unfailed (r := r.pickNext f choice) timely.unfailed back
    have same := statuses f
    have on := scheduled.source_on source
    generalize (r.pickNext f choice).putBack back = p at *
    subst shape
    cases shown : r.status f with
    | awake number =>
        have signaled : p.status f = .awake number := same.trans shown
        have resumed := resume_awake signaled
        rw [resumed] at spec ⊢
        refine timely.pickAwake scheduled picks spec source shown queue time ?_ stopTimes ?_ unfailed
        · exact congrArg₂ (fun list now => list.modify number fun sleep => { sleep with resumed := some now }) sleeps time
        · exact congrArg (List.filter _) callbacks
    | answered =>
        have resumed := resume_answered (same.trans shown)
        rw [resumed] at spec ⊢
        refine timely.pickReady scheduled picks spec source (Or.inr shown) queue time sleeps stopTimes ?_ unfailed
        exact congrArg (List.filter _) callbacks
    | ready =>
        have resumed : p.resume f = p := resume_ready (same.trans shown)
        rw [resumed] at spec ⊢
        refine timely.pickReady scheduled picks spec source (Or.inl shown) queue time sleeps stopTimes ?_ unfailed
        rw [callbacks]
        refine (List.filter_eq_self.mpr ?_).symm
        rintro ⟨stop, g⟩ there
        refine decide_eq_true ?_
        rintro rfl
        exact timely.unregistered shown stop there
    | asleep | awaits | waits | finished =>
        rw [shown] at on
        cases on

end Timely

end Runtime

end Metamorphosis.Simulator
