import Metamorphosis.Proof.Simulator.EventQueue
import Metamorphosis.Proof.Simulator.Relays

/-!
The calls of `World::MakeRequest` in whole runs. Every call is carried by one fiber and goes through its
stages once. Its caller awaits the reply as long as the call is carried, or the call was stopped; so a
handler that starts right when its request arrives works for a caller that still waits.
-/

namespace Metamorphosis.Simulator

namespace World

/-- A sleep into the past fails. -/
theorem step_nonNegative {w d : World} {move : Move} (stepped : w.step move = some d) (unfailed : d.failed = none) :
    w.NonNegative move := by
  have sleeps : ∀ {f lag : Nat} {host : Host} {localTime : Int} {token : Option Nat} {handles : Option Delivery},
      w.sleepUntil f host localTime token lag handles = some d →
      w.currentTime ≤ host.clock.toGlobalTime (localTime + lag) := by
    intro f lag host localTime token handles slept
    unfold sleepUntil at slept
    split at slept
    · cases slept
    cases slept
    by_contra past
    simp only [onRuntime] at unfailed
    split at unfailed
    · cases unfailed
    · rw [if_pos (Nat.lt_of_not_le past)] at unfailed
      cases unfailed
  intro time wakesUp
  rw [wakeUpTime] at wakesUp
  cases step_stepped stepped with
  | pick picks _ => simp [sleepCall, picks] at wakesUp
  | user runs code acted =>
      cases act_called acted with
      | sleepUntil _ current slept =>
          simp only [sleepCall, runs, current, Option.map_some, Option.mem_def, Option.some.injEq] at wakesUp
          exact wakesUp ▸ sleeps slept
      | sleepNowhere _ _ nowhere => simp [sleepCall, runs, nowhere] at wakesUp
      | _ => simp [sleepCall, runs] at wakesUp
  | @go f _ _ runs went =>
      cases go_went went with
      | mainStarts code current later => simp [sleepCall, runs, code, current, later] at wakesUp
      | mainSleeps code current first slept =>
          simp only [sleepCall, runs, code, current, first, if_true, Option.bind_some, Option.map_some, Option.mem_def,
            Option.some.injEq] at wakesUp
          exact wakesUp ▸ sleeps slept
      | mainNowhere code nowhere => simp [sleepCall, runs, code, nowhere] at wakesUp
      | operation code | slept code | late code | replied code | deliver code | delivered code | answer code
      | answered code | addHost code | popEvent code | endLoop code | clear code | dispatcher code =>
          simp [sleepCall, runs, code] at wakesUp

/-- A step that does not fail is some acts with the usual failures, or the last one of `RunSimulation`. -/
theorem step_acts {w d : World} {move : Move} (stepped : w.step move = some d) (unfailed : d.failed = none) :
    Acted Failure.Usual w.toRuntime d.toRuntime ∨ ∃ f, w.Clears f d :=
  step_acted (fun _ usual => usual) stepped (Or.inr (step_nonNegative stepped unfailed))

/-- Nothing happens after a failure. -/
theorem step_unfailed {w d : World} {move : Move} (stepped : w.step move = some d) : w.failed = none := by
  unfold step at stepped
  split at stepped
  · cases stepped
  · rename_i unfailed
    exact Option.not_isSome_iff_eq_none.mp unfailed

/-- A simulation that can go on is in order. -/
theorem Reached.orders {allowed : World → Move → Prop} {w : World} (reached : Reached allowed w)
    (unfailed : w.failed = none) : w.toRuntime.Orderly ∨ ∀ move, w.step move = none := by
  induction reached with
  | refl => exact Or.inl ⟨initial_timely, initial_scheduled⟩
  | tail _ last ih =>
      obtain ⟨move, _, stepped⟩ := last
      rcases ih (step_unfailed stepped) with orderly | stuck
      · rcases step_acts stepped unfailed with acted | ⟨f, clears⟩
        · exact Or.inl (orderly.acted acted).1
        · exact Or.inr clears.stuck
      · cases (stuck move).symm.trans stepped

/-- A world in which a step is possible is orderly. -/
theorem Reached.stepping {allowed : World → Move → Prop} {w d : World} {move : Move} (reached : Reached allowed w)
    (stepped : w.step move = some d) : w.toRuntime.Orderly := by
  refine (reached.orders (step_unfailed stepped)).resolve_right fun stuck => ?_
  cases (stuck move).symm.trans stepped

/-- A fiber awaits the reply to a call. -/
def AwaitsReply (w : World) (f state : Nat) : Prop :=
  w.toRuntime.status f = .awaits ∧ ∃ handles, (w.fibers f).code = .replied state handles

/-- The calls under way: each one is carried by one fiber, and its caller awaits it or it was stopped. -/
structure Carries (w : World) : Prop where
  born : ∀ f delivery phase, (w.fibers f).code.carried = some (delivery, phase) → f < w.nextFiber
  single : ∀ f g first second phase other, (w.fibers f).code.carried = some (first, phase) →
    (w.fibers g).code.carried = some (second, other) → first.state = second.state → f = g
  unanswered : ∀ f delivery phase, (w.fibers f).code.carried = some (delivery, phase) →
    (w.states[delivery.state]?).map RpcState.result = some (.error .cancelled)
  caller : ∀ f state handles, (w.fibers f).code = .replied state handles →
    (w.states[state]?).map RpcState.caller = some f
  latest : ∀ f state handles, (w.fibers f).code = .replied state handles →
    ∀ other : Nat, (w.states[other]?).map RpcState.caller = some f → other ≤ state
  pending : ∀ f delivery phase, (w.fibers f).code.carried = some (delivery, phase) →
    w.stopRequested delivery.token = true ∨
    ∃ g, w.AwaitsReply g delivery.state ∧ ∀ source, (source, g) ∈ w.callbacks → delivery.token = some source

end World

/-- Deliveries of one call have one state. -/
theorem Delivery.call_state {a b : Delivery} (same : a.call = b.call) : a.state = b.state :=
  show a.call.state = b.call.state by rw [same]

/-- Deliveries of one call have one token. -/
theorem Delivery.call_token {a b : Delivery} (same : a.call = b.call) : a.token = b.token :=
  show a.call.token = b.call.token by rw [same]

/-- A fiber carries what it carried before, or nothing. -/
structure Code.Passes (before after : Code) : Prop where
  replied : ∀ state handles, after = .replied state handles → before = .replied state handles
  carried : ∀ delivery phase, after.carried = some (delivery, phase) →
    ∃ old earlier, before.carried = some (old, earlier) ∧ delivery.call = old.call ∧
      (phase = earlier ∨ RemoteCall.Next Lost earlier phase)

namespace Code

theorem Passes.refl (code : Code) : Passes code code :=
  ⟨fun _ _ replied => replied, fun delivery phase carried => ⟨delivery, phase, carried, rfl, Or.inl rfl⟩⟩

/-- A fiber that moves on passes from phase to phase. -/
theorem Moves.passes {a b : Code} (moves : a.Moves b) : a.Passes b := by
  rcases moves with rfl | ⟨plain, moved⟩
  · exact .refl _
  refine ⟨fun state handles replied => absurd replied (plain state handles), fun delivery phase carried => ?_⟩
  obtain ⟨old, earlier, before, same, forward⟩ := moved delivery phase carried
  refine ⟨old, earlier, before, same, forward.imp_right ?_⟩
  rintro ⟨rfl, next⟩
  exact next

end Code

namespace Runtime

/-- A callback changes its own fiber only. -/
theorem execute_others (r : Runtime Code) (g : Nat) :
    (∀ f, f ≠ g → (r.execute g).status f = r.status f) ∧ (r.execute g).callbacks = r.callbacks ∧
    (r.execute g).stopTimes = r.stopTimes ∧ (r.execute g).nextFiber = r.nextFiber := by
  unfold execute
  split
  · split
    · exact ⟨fun f other => wake_status_other _ other, rfl, rfl, rfl⟩
    · exact ⟨fun _ _ => rfl, rfl, rfl, rfl⟩
  · split
    · exact ⟨fun f other => wake_status_other _ other, rfl, rfl, rfl⟩
    · exact ⟨fun _ _ => rfl, rfl, rfl, rfl⟩
  · exact ⟨fun f other => wake_status_other _ other, rfl, rfl, rfl⟩
  · exact ⟨fun _ _ => rfl, rfl, rfl, rfl⟩

/-- `StopSource::Stop` signals the fibers with a callback in the source. -/
theorem stop_others (r : Runtime Code) (source : Nat) :
    (∀ f, (source, f) ∉ r.callbacks → (r.stop source).status f = r.status f) ∧
    (r.stop source).callbacks = r.callbacks.filter (fun callback => callback.1 ≠ source) ∧
    (r.stop source).stopTimes = Function.update r.stopTimes source (some ((r.stopTimes source).getD r.currentTime)) ∧
    (r.stop source).nextFiber = r.nextFiber := by
  have folds : ∀ (called : List Nat) (c : Runtime Code),
      (∀ f, f ∉ called → (called.foldl execute c).status f = c.status f) ∧
      (called.foldl execute c).callbacks = c.callbacks ∧ (called.foldl execute c).stopTimes = c.stopTimes ∧
      (called.foldl execute c).nextFiber = c.nextFiber := by
    intro called
    induction called with
    | nil => exact fun c => ⟨fun _ _ => rfl, rfl, rfl, rfl⟩
    | cons g rest ih =>
        intro c
        obtain ⟨statuses, callbacks, stopTimes, born⟩ := execute_others c g
        obtain ⟨later, same, stays, still⟩ := ih (c.execute g)
        refine ⟨fun f absent => ?_, same.trans callbacks, stays.trans stopTimes, still.trans born⟩
        rw [List.mem_cons, not_or] at absent
        exact (later f absent.2).trans (statuses f absent.1)
  obtain ⟨statuses, callbacks, stopTimes, born⟩ := folds
    ((r.callbacks.filter fun callback => callback.1 = source).map Prod.snd)
    { r with
      stopTimes := Function.update r.stopTimes source (some ((r.stopTimes source).getD r.currentTime))
      callbacks := r.callbacks.filter fun callback => callback.1 ≠ source }
  refine ⟨fun f free => statuses f fun called => ?_, callbacks, stopTimes, born⟩
  obtain ⟨⟨first, second⟩, member, rfl⟩ := List.mem_map.mp called
  obtain ⟨there, same⟩ := List.mem_filter.mp member
  rw [decide_eq_true_eq] at same
  subst same
  exact free there

/-- A stopped source stays stopped. -/
theorem stopRequested_stop {r : Runtime Code} (source : Nat) {token : Option Nat} (stopped : r.stopRequested token = true) :
    (r.stop source).stopRequested token = true := by
  cases token with
  | none => cases stopped
  | some other =>
      rw [stopRequested, (stop_others r source).2.2.1]
      by_cases same : other = source
      · subst same
        simp
      · simpa [stopRequested, same] using stopped

/-- A stopped source stays stopped. -/
theorem stop_stopRequested (r : Runtime Code) (source : Nat) : (r.stop source).stopRequested (some source) = true := by
  rw [stopRequested, (stop_others r source).2.2.1]
  simp

end Runtime

namespace World
variable {w d : World}

/-- No call begins. -/
theorem Carries.of_passes (carries : w.Carries) (codes : ∀ f, (w.fibers f).code.Passes (d.fibers f).code)
    (born : w.nextFiber ≤ d.nextFiber)
    (callers : ∀ state : Nat, (d.states[state]?).map RpcState.caller = (w.states[state]?).map RpcState.caller)
    (results : ∀ f delivery phase, (d.fibers f).code.carried = some (delivery, phase) →
      d.states[delivery.state]? = w.states[delivery.state]?)
    (stopped : ∀ token, w.stopRequested token = true → d.stopRequested token = true)
    (awaits : ∀ f delivery phase g, (d.fibers f).code.carried = some (delivery, phase) →
      w.AwaitsReply g delivery.state → (∀ source, (source, g) ∈ w.callbacks → delivery.token = some source) →
      d.stopRequested delivery.token = true ∨ d.toRuntime.status g = .awaits ∧ (d.fibers g).code = (w.fibers g).code)
    (callbacks : ∀ source g, w.toRuntime.status g = .awaits → (source, g) ∈ d.callbacks → (source, g) ∈ w.callbacks) :
    d.Carries where
  born f delivery phase carried := by
    obtain ⟨old, earlier, before, _⟩ := (codes f).carried delivery phase carried
    exact Nat.lt_of_lt_of_le (carries.born f old earlier before) born
  single f g first second phase other carried also same := by
    obtain ⟨old, earlier, before, equal, _⟩ := (codes f).carried first phase carried
    obtain ⟨older, sooner, started, alike, _⟩ := (codes g).carried second other also
    refine carries.single f g old older earlier sooner before started ?_
    exact (Delivery.call_state equal).symm.trans (same.trans (Delivery.call_state alike))
  unanswered f delivery phase carried := by
    obtain ⟨old, earlier, before, same, _⟩ := (codes f).carried delivery phase carried
    rw [results f delivery phase carried, Delivery.call_state same]
    exact carries.unanswered f old earlier before
  caller f state handles replied := by
    rw [callers]
    exact carries.caller f state handles ((codes f).replied state handles replied)
  latest f state handles replied other own := by
    rw [callers] at own
    exact carries.latest f state handles ((codes f).replied state handles replied) other own
  pending f delivery phase carried := by
    obtain ⟨old, earlier, before, same, _⟩ := (codes f).carried delivery phase carried
    have state := Delivery.call_state same
    have token := Delivery.call_token same
    rcases carries.pending f old earlier before with stop | ⟨g, waits, own⟩
    · rw [token]
      exact Or.inl (stopped _ stop)
    · rw [← state] at waits
      rw [← token] at own
      rcases awaits f delivery phase g carried waits own with stop | ⟨still, code⟩
      · exact Or.inl stop
      · obtain ⟨handles, replied⟩ := waits.2
        exact Or.inr ⟨g, ⟨still, handles, code.trans replied⟩,
          fun source there => own source (callbacks source g waits.1 there)⟩

/-- A change that moves deliveries only. -/
theorem Carries.other (carries : w.Carries) (relays : w.toRuntime.Relays d.toRuntime) (states : d.states = w.states) :
    d.Carries := by
  refine carries.of_passes (fun f => (relays.codes f).passes) relays.born (fun _ => by rw [states])
    (fun _ _ _ _ => by rw [states]) (fun token stop => ?_) ?_ relays.callbacks
  · rw [Runtime.stopRequested, relays.stopTimes]
    exact stop
  · intro f delivery phase g _ waits _
    exact Or.inr (relays.awaits g waits.1)

/-- A fiber runs its own code, and nobody else sees it. -/
theorem Carries.setCode (carries : w.Carries) {f : Nat} {code : Code} (idle : w.toRuntime.status f ≠ .awaits)
    (passes : (w.fibers f).code.Passes code) : (w.onRuntime fun r => r.setCode f code).Carries := by
  have codes : ∀ g, (w.fibers g).code.Passes ((w.toRuntime.setCode f code).fibers g).code := by
    intro g
    by_cases same : g = f
    · subst same
      rw [Runtime.setCode_code]
      exact passes
    · rw [Runtime.setCode, Runtime.setFiber_fibers_other _ same]
      exact .refl _
  refine carries.of_passes codes (Nat.le_refl _) (fun _ => rfl) (fun _ _ _ _ => rfl) (fun _ stop => stop) ?_
    (fun _ _ _ there => there)
  intro _ _ _ g _ waits _
  have other : g ≠ f := by
    rintro rfl
    exact idle waits.1
  refine Or.inr ⟨?_, ?_⟩
  · exact (Runtime.setCode_status _ _ _ _).trans waits.1
  · exact congrArg Fiber.code (Runtime.setFiber_fibers_other _ other)

/-- A stop can make a caller go on without its result. -/
theorem Carries.stop (carries : w.Carries) (source : Nat) : (w.onRuntime fun r => r.stop source).Carries := by
  have codes : ∀ f, ((w.toRuntime.stop source).fibers f).code = (w.fibers f).code :=
    fun f => (Runtime.Spares.stop w.toRuntime source).code
  obtain ⟨statuses, callbacks, _, born⟩ := Runtime.stop_others w.toRuntime source
  have passes : ∀ f, (w.fibers f).code.Passes ((w.toRuntime.stop source).fibers f).code := by
    intro f
    rw [codes]
    exact .refl _
  refine carries.of_passes passes (Nat.le_of_eq born.symm) (fun _ => rfl) (fun _ _ _ _ => rfl)
    (fun _ stop => Runtime.stopRequested_stop source stop) ?_ ?_
  · intro f delivery phase g _ waits own
    by_cases called : (source, g) ∈ w.callbacks
    · rw [own source called]
      exact Or.inl (Runtime.stop_stopRequested w.toRuntime source)
    · exact Or.inr ⟨(statuses g called).trans waits.1, codes g⟩
  · intro other g _ there
    simp only [onRuntime, callbacks] at there
    exact List.mem_of_mem_filter there

/-- The delivery fiber signals nobody, or the caller that awaits its call. -/
theorem respond_shape (w : World) (f : Nat) (delivery : Delivery) (result : RpcResult) :
    (w.respond f delivery result).toRuntime = w.toRuntime.suspend f .finished .finished ∨
    ∃ g, w.AwaitsReply g delivery.state ∧
      (w.respond f delivery result).toRuntime = (w.toRuntime.wake g .answered).suspend f .finished .finished := by
  simp only [respond]
  split
  · exact Or.inl rfl
  · rename_i g _
    split
    · rename_i handles awaits code
      split
      · rename_i same
        subst same
        exact Or.inr ⟨g, ⟨awaits, handles, code⟩, rfl⟩
      · exact Or.inl rfl
    · exact Or.inl rfl

theorem suspend_code_self (r : Runtime Code) (f : Nat) (status : Status) (code : Code) :
    ((r.suspend f status code).fibers f).code = code := by
  simp [Runtime.suspend, Runtime.setFiber]

theorem suspend_fibers_other {r : Runtime Code} {f g : Nat} (status : Status) (code : Code) (other : g ≠ f) :
    (r.suspend f status code).fibers g = r.fibers g := by
  simp [Runtime.suspend, Runtime.setFiber, other]

/-- The delivery fiber ends. A fiber that awaits another call goes on to do so. -/
theorem respond_effect (w : World) (f : Nat) (delivery : Delivery) (result : RpcResult) :
    ((w.respond f delivery result).fibers f).code = .finished ∧
    (∀ g, g ≠ f → ((w.respond f delivery result).fibers g).code = (w.fibers g).code) ∧
    (∀ g state, g ≠ f → w.AwaitsReply g state → state ≠ delivery.state →
      (w.respond f delivery result).toRuntime.status g = .awaits) ∧
    (w.respond f delivery result).callbacks = w.callbacks ∧
    (w.respond f delivery result).stopTimes = w.stopTimes ∧
    (w.respond f delivery result).nextFiber = w.nextFiber := by
  rcases respond_shape w f delivery result with shape | ⟨caller, awaits, shape⟩
  · rw [shape]
    refine ⟨suspend_code_self .., fun g other => by rw [suspend_fibers_other _ _ other], ?_, rfl, rfl, rfl⟩
    intro g state other waits _
    rw [Runtime.status, suspend_fibers_other _ _ other]
    exact waits.1
  · rw [shape]
    refine ⟨suspend_code_self .., fun g other => ?_, ?_, rfl, rfl, rfl⟩
    · rw [suspend_fibers_other _ _ other, Runtime.wake_code]
    · intro g state other waits apart
      have unsignaled : g ≠ caller := by
        rintro rfl
        obtain ⟨handles, replied⟩ := waits.2
        obtain ⟨again, same⟩ := awaits.2
        cases replied.symm.trans same
        exact apart rfl
      rw [Runtime.status, suspend_fibers_other _ _ other]
      exact (Runtime.wake_status_other _ unsignaled).trans waits.1

/-- A result is set for its own call, and no caller changes. -/
theorem respond_states (w : World) (f : Nat) (delivery : Delivery) (result : RpcResult) (state : Nat) :
    ((w.respond f delivery result).states[state]?).map RpcState.caller = (w.states[state]?).map RpcState.caller ∧
    (state ≠ delivery.state → (w.respond f delivery result).states[state]? = w.states[state]?) ∧
    (state = delivery.state →
      (w.respond f delivery result).states[state]? = (w.states[state]?).map fun old => { old with result := result }) := by
  simp only [respond]
  by_cases same : delivery.state = state
  · subst same
    rw [List.getElem?_modify_eq]
    refine ⟨?_, fun apart => absurd rfl apart, fun _ => rfl⟩
    rw [Option.map_eq_map, Option.map_map]
    rfl
  · rw [List.getElem?_modify_ne _ _ same]
    exact ⟨rfl, fun _ => rfl, fun equal => absurd equal.symm same⟩

/-- A delivery that is answered ends, and the call has its result. -/
theorem Carries.respond (carries : w.Carries) {f : Nat} {delivery : Delivery} {phase : Phase} (result : RpcResult)
    (idle : w.toRuntime.status f ≠ .awaits) (own : (w.fibers f).code.carried = some (delivery, phase)) :
    (w.respond f delivery result).Carries := by
  obtain ⟨ended, codes, awaits, callbacks, stopTimes, born⟩ := respond_effect w f delivery result
  have passes : ∀ g, (w.fibers g).code.Passes ((w.respond f delivery result).fibers g).code := by
    intro g
    by_cases same : g = f
    · subst same
      rw [ended]
      exact Code.Moves.passes (.ends (by rintro _ _ ⟨⟩) rfl)
    · rw [codes g same]
      exact .refl _
  -- Nobody else carries the call of the fiber that ends.
  have apart : ∀ g other later, ((w.respond f delivery result).fibers g).code.carried = some (other, later) →
      other.state ≠ delivery.state := by
    intro g other later carried same
    have differs : g ≠ f := by
      rintro rfl
      rw [ended] at carried
      cases carried
    rw [codes g differs] at carried
    exact differs (carries.single g f other delivery later phase carried own same)
  refine carries.of_passes passes (Nat.le_of_eq born.symm) (fun state => (respond_states w f delivery result state).1)
    (fun g other later carried => (respond_states w f delivery result other.state).2.1 (apart g other later carried))
    (fun token stop => ?_) ?_ (fun _ _ _ there => callbacks ▸ there)
  · rw [Runtime.stopRequested, stopTimes]
    exact stop
  · intro g other later caller carried waits _
    have differs : caller ≠ f := by
      rintro rfl
      exact idle waits.1
    exact Or.inr ⟨awaits caller other.state differs waits (apart g other later carried), codes caller differs⟩

/-- What a fiber and its caller do when a call begins. -/
structure Requests (w : World) (f : Nat) (delivery : Delivery) (handles : Option Delivery) (d : World) : Prop where
  caller : (d.fibers f).code = .replied w.states.length handles
  carrier : (d.fibers w.nextFiber).code = .deliver delivery
  codes : ∀ g, g ≠ f → g ≠ w.nextFiber → d.fibers g = w.fibers g
  awaits : w.stopRequested delivery.token = true ∨ d.toRuntime.status f = .awaits
  callbacks : ∀ source g, (source, g) ∈ d.callbacks →
    (source, g) ∈ w.callbacks ∨ g = f ∧ delivery.token = some source
  stopTimes : d.stopTimes = w.stopTimes
  born : d.nextFiber = w.nextFiber + 1
  states : d.states = w.states ++ [⟨f, .error .cancelled⟩]
  number : delivery.state = w.states.length

/-- `MakeRequest` creates the state of the call and its delivery fiber, and the caller waits. -/
theorem makeRequest_requests {f : Nat} (old : f ≠ w.nextFiber) (address epoch target port : Nat) (token : Option Nat)
    (handles : Option Delivery) :
    w.Requests f ⟨address, target, port, token, w.states.length, false⟩ handles
      (w.makeRequest f address epoch target port token handles) := by
  let carried : Delivery := ⟨address, target, port, token, w.states.length, false⟩
  have spawned : ((w.toRuntime.spawn f (.deliver carried)).fibers w.nextFiber).code = .deliver carried := by
    simp [Runtime.spawn, Runtime.birth, Runtime.awakened, Runtime.setFiber]
  have others : ∀ g, g ≠ w.nextFiber → (w.toRuntime.spawn f (.deliver carried)).fibers g = w.fibers g :=
    fun g other => Runtime.Scheduled.spawn_fibers other
  by_cases stopped : w.stopRequested token = true
  · have goes : (w.makeRequest f address epoch target port token handles).toRuntime =
        (w.toRuntime.spawn f (.deliver carried)).setCode f (.replied w.states.length handles) := if_pos stopped
    exact {
      caller := by
        rw [goes]
        exact Runtime.setCode_code
      carrier := by
        rw [goes, Runtime.setCode, Runtime.setFiber_fibers_other _ old.symm, spawned]
      codes := by
        intro g other born
        rw [goes, Runtime.setCode, Runtime.setFiber_fibers_other _ other, others g born]
      awaits := Or.inl stopped
      callbacks := by
        intro source g there
        rw [goes] at there
        exact Or.inl there
      stopTimes := by rw [goes]; rfl
      born := by rw [goes]; rfl
      states := rfl
      number := rfl }
  · have goes : (w.makeRequest f address epoch target port token handles).toRuntime =
        { (w.toRuntime.spawn f (.deliver carried)).suspend f .awaits (.replied w.states.length handles) with
          callbacks := (w.toRuntime.spawn f (.deliver carried)).register token f } := if_neg stopped
    exact {
      caller := by
        rw [goes]
        exact suspend_code_self ..
      carrier := by
        rw [goes]
        exact (congrArg Fiber.code (suspend_fibers_other _ _ old.symm)).trans spawned
      codes := by
        intro g other born
        rw [goes]
        exact (suspend_fibers_other _ _ other).trans (others g born)
      awaits := by
        rw [goes]
        exact Or.inr (by simp [Runtime.status, Runtime.suspend, Runtime.setFiber])
      callbacks := by
        intro source g there
        rw [goes] at there
        rcases Runtime.Timely.mem_register.mp there with own | before
        · exact Or.inr ⟨own.2, own.1⟩
        · exact Or.inl before
      stopTimes := by rw [goes]; rfl
      born := by rw [goes]; rfl
      states := rfl
      number := rfl }

/-- Where a call comes from that a fiber carries after a request. -/
theorem Requests.carried {f : Nat} {delivery : Delivery} {handles : Option Delivery}
    (requests : w.Requests f delivery handles d)
    (own : (w.fibers f).code.carried = handles.map fun delivery => (delivery, .handled)) {g : Nat} {other : Delivery}
    {phase : Phase} (carried : (d.fibers g).code.carried = some (other, phase)) :
    (w.fibers g).code.carried = some (other, phase) ∨ g = w.nextFiber ∧ other = delivery ∧ phase = .sent := by
  by_cases same : g = f
  · subst same
    rw [requests.caller] at carried
    exact Or.inl (own.trans carried)
  · by_cases fresh : g = w.nextFiber
    · subst fresh
      rw [requests.carrier] at carried
      cases carried
      exact Or.inr ⟨rfl, rfl, rfl⟩
    · rw [requests.codes g same fresh] at carried
      exact Or.inl carried

/-- Every delivery belongs to a call that was made. -/
theorem Carries.numbered (carries : w.Carries) {f : Nat} {delivery : Delivery} {phase : Phase}
    (carried : (w.fibers f).code.carried = some (delivery, phase)) : delivery.state < w.states.length := by
  obtain ⟨state, found, _⟩ := Option.map_eq_some_iff.mp (carries.unanswered f delivery phase carried)
  exact (List.getElem?_eq_some_iff.mp found).1

/-- The new call is carried by the new fiber. -/
theorem Carries.request (carries : w.Carries) {f : Nat} {delivery : Delivery} {handles : Option Delivery}
    (requests : w.Requests f delivery handles d)
    (own : (w.fibers f).code.carried = handles.map fun delivery => (delivery, .handled))
    (idle : w.toRuntime.status f ≠ .awaits) (unborn : w.toRuntime.status w.nextFiber ≠ .awaits)
    (free : ∀ source, (source, f) ∉ w.callbacks) (old : f < w.nextFiber) : d.Carries := by
  have grown : ∀ {state : Nat}, state < w.states.length → d.states[state]? = w.states[state]? := by
    intro state inside
    rw [requests.states, List.getElem?_append_left inside]
  have last : d.states[w.states.length]? = some ⟨f, .error .cancelled⟩ := by
    rw [requests.states, List.getElem?_concat_length]
  have stops : ∀ token, d.stopRequested token = w.stopRequested token := by
    intro token
    rw [Runtime.stopRequested, requests.stopTimes]
    rfl
  have replied : ∀ {g state : Nat} {held : Option Delivery}, (d.fibers g).code = .replied state held →
      g = f ∧ state = w.states.length ∨ g ≠ f ∧ (w.fibers g).code = .replied state held := by
    intro g state held code
    by_cases same : g = f
    · subst same
      cases requests.caller.symm.trans code
      exact Or.inl ⟨rfl, rfl⟩
    · by_cases fresh : g = w.nextFiber
      · subst fresh
        cases requests.carrier.symm.trans code
      · rw [requests.codes g same fresh] at code
        exact Or.inr ⟨same, code⟩
  have inside : ∀ {g state : Nat} {held : Option Delivery}, (w.fibers g).code = .replied state held →
      state < w.states.length := by
    intro g state held code
    obtain ⟨entry, found, _⟩ := Option.map_eq_some_iff.mp (carries.caller g state held code)
    exact (List.getElem?_eq_some_iff.mp found).1
  exact {
    born := by
      intro g other phase carried
      rw [requests.born]
      rcases requests.carried own carried with before | ⟨rfl, _⟩
      · exact Nat.lt_succ_of_lt (carries.born g other phase before)
      · exact Nat.lt_succ_self _
    single := by
      intro g h first second phase other carried also same
      rcases requests.carried own carried with before | ⟨rfl, rfl, _⟩
      · rcases requests.carried own also with started | ⟨rfl, rfl, _⟩
        · exact carries.single g h first second phase other before started same
        · rw [requests.number] at same
          exact absurd same (Nat.ne_of_lt (carries.numbered before))
      · rcases requests.carried own also with started | ⟨rfl, _, _⟩
        · rw [requests.number] at same
          exact absurd same.symm (Nat.ne_of_lt (carries.numbered started))
        · rfl
    unanswered := by
      intro g other phase carried
      rcases requests.carried own carried with before | ⟨_, rfl, _⟩
      · rw [grown (carries.numbered before)]
        exact carries.unanswered g other phase before
      · rw [requests.number, last]
        rfl
    caller := by
      intro g state held code
      rcases replied code with ⟨rfl, rfl⟩ | ⟨_, before⟩
      · rw [last]
        rfl
      · rw [grown (inside before)]
        exact carries.caller g state held before
    latest := by
      intro g state held code other same
      obtain ⟨entry, found, issued⟩ := Option.map_eq_some_iff.mp same
      have within : other < w.states.length + 1 := by
        have bound := (List.getElem?_eq_some_iff.mp found).1
        rwa [requests.states, List.length_append] at bound
      rcases replied code with ⟨rfl, rfl⟩ | ⟨apart, before⟩
      · exact Nat.lt_succ_iff.mp within
      · rcases Nat.lt_succ_iff_lt_or_eq.mp within with earlier | rfl
        · rw [grown earlier] at same
          exact carries.latest g state held before other same
        · cases last.symm.trans found
          exact absurd issued.symm apart
    pending := by
      intro g other phase carried
      rw [stops]
      rcases requests.carried own carried with before | ⟨_, rfl, _⟩
      · refine (carries.pending g other phase before).imp_right ?_
        rintro ⟨caller, ⟨waits, held, code⟩, called⟩
        have apart : caller ≠ f := by
          rintro rfl
          exact idle waits
        have present : caller ≠ w.nextFiber := by
          rintro rfl
          exact unborn waits
        have same := requests.codes caller apart present
        refine ⟨caller, ⟨?_, held, ?_⟩, fun source there => ?_⟩
        · rw [Runtime.status, same]
          exact waits
        · rw [same]
          exact code
        · rcases requests.callbacks source caller there with known | ⟨equal, _⟩
          · exact called source known
          · exact absurd equal apart
      · refine requests.awaits.imp_right fun waits => ⟨f, ⟨waits, handles, ?_⟩, fun source there => ?_⟩
        · rw [requests.number]
          exact requests.caller
        · rcases requests.callbacks source f there with known | ⟨_, token⟩
          · exact absurd known (free source)
          · exact token }

/-- Every step keeps the calls in order. -/
theorem Carries.step {move : Move} (carries : w.Carries) (orderly : w.toRuntime.Orderly) (stepped : w.step move = some d) :
    d.Carries := by
  have scheduled := orderly.scheduled
  cases step_conveys scheduled stepped with
  | other relays states => exact carries.other relays states
  | @request f address epoch target port token handles runs code =>
      have born := scheduled.active_born (Runtime.active_runs runs)
      have unborn : w.toRuntime.status w.nextFiber ≠ .awaits := by
        rw [(scheduled.unborn _ (Nat.le_refl _)).1]
        rintro ⟨⟩
      refine carries.request (makeRequest_requests (Nat.ne_of_lt born) ..) ?_ (running_idle scheduled runs) unborn ?_ born
      · rw [code]
        rfl
      · exact orderly.timely.unregistered (orderly.running runs)
  | reply result _ runs code _ =>
      refine carries.setCode (running_idle scheduled runs) ⟨by rintro _ _ ⟨⟩, ?_⟩
      intro delivery phase carried
      cases carried
      exact ⟨_, .handled, by rw [code]; rfl, rfl, Or.inr (.reply result)⟩
  | respond runs carried _ _ => exact carries.respond _ (running_idle scheduled runs) carried
  | stop source _ => exact carries.stop source

/-- No call was made yet. -/
theorem initial_carries : initial.Carries := by
  have plain : ∀ f, (initial.fibers f).code.carried = none ∧ ∀ state handles, (initial.fibers f).code ≠ .replied state handles := by
    intro f
    rcases initial_fiber f with ⟨_, fiber⟩ | ⟨_, fiber⟩ | ⟨_, fiber⟩
    all_goals
      rw [fiber]
      exact ⟨rfl, by rintro _ _ ⟨⟩⟩
  exact {
    born := fun f _ _ carried => (by cases (plain f).1.symm.trans carried)
    single := fun f _ _ _ _ _ carried => (by cases (plain f).1.symm.trans carried)
    unanswered := fun f _ _ carried => (by cases (plain f).1.symm.trans carried)
    caller := fun f state handles replied => absurd replied ((plain f).2 state handles)
    latest := fun f state handles replied => absurd replied ((plain f).2 state handles)
    pending := fun f _ _ carried => (by cases (plain f).1.symm.trans carried) }

/-- In every run every call is carried by one fiber at most. -/
theorem Reached.carries {allowed : World → Move → Prop} (reached : Reached allowed w) : w.Carries := by
  induction reached with
  | refl => exact initial_carries
  | tail before last ih =>
      obtain ⟨move, _, stepped⟩ := last
      exact ih.step (Reached.stepping before stepped) stepped

end World

end Metamorphosis.Simulator
