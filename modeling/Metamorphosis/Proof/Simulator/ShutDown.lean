import Mathlib.Data.Finset.Card
import Metamorphosis.Construction.Simulator.RpcServer
import Metamorphosis.Library.Script

/-!
How a server of the simulator ends: `ShutDown` returns when no request is inside, and no request gets inside after
that. `Run` returns only then.
-/

namespace Metamorphosis.Simulator
open Monitor

/-- The call holds a guard of the latch. -/
def ServerCall.inside : ServerCall → Bool
  | entered _ | handling _ => true
  | starting | running | unregistering | draining => false

/-- The latch counts the requests that are inside. -/
def Counted (calls : Nat → Option ServerCall) (count : Nat) : Prop :=
  ∃ inside : Finset Nat, inside.card = count ∧ ∀ f, f ∈ inside ↔ (calls f).any ServerCall.inside = true

namespace Counted
variable {calls : Nat → Option ServerCall} {count : Nat} {f : Nat} {call : Option ServerCall}

/-- A call that stays inside or outside is counted as before. -/
theorem keep (counted : Counted calls count) (same : call.any ServerCall.inside = (calls f).any ServerCall.inside) :
    Counted (Function.update calls f call) count := by
  obtain ⟨inside, card, member⟩ := counted
  refine ⟨inside, card, fun g => ?_⟩
  rw [member g]
  by_cases this : g = f
  · rw [this, Function.update_self, same]
  · rw [Function.update_of_ne this]

/-- A call that comes in is counted. -/
theorem enter (counted : Counted calls count) (before : (calls f).any ServerCall.inside = false)
    (after : call.any ServerCall.inside = true) : Counted (Function.update calls f call) (count + 1) := by
  obtain ⟨inside, card, member⟩ := counted
  have outside : f ∉ inside := by
    rw [member, before]
    exact Bool.false_ne_true
  refine ⟨insert f inside, by rw [Finset.card_insert_of_notMem outside, card], fun g => ?_⟩
  rw [Finset.mem_insert]
  by_cases this : g = f
  · rw [this, Function.update_self, after]
    simp
  · rw [Function.update_of_ne this, member g]
    simp [this]

/-- A call that leaves is not counted any longer. -/
theorem leave (counted : Counted calls count) (before : (calls f).any ServerCall.inside = true)
    (after : call.any ServerCall.inside = false) : Counted (Function.update calls f call) (count - 1) := by
  obtain ⟨inside, card, member⟩ := counted
  have among : f ∈ inside := (member f).mpr before
  refine ⟨inside.erase f, by rw [Finset.card_erase_of_mem among, card], fun g => ?_⟩
  rw [Finset.mem_erase]
  by_cases this : g = f
  · rw [this, Function.update_self, after]
    simp
  · rw [Function.update_of_ne this, member g]
    simp [this]

/-- The count is 0 exactly if no call is inside. -/
theorem zero_iff (counted : Counted calls count) : count = 0 ↔ ∀ f, (calls f).any ServerCall.inside = false := by
  obtain ⟨inside, card, member⟩ := counted
  rw [← card, Finset.card_eq_zero, Finset.eq_empty_iff_forall_notMem]
  exact forall_congr' fun f => by rw [member f, Bool.not_eq_true]

end Counted

/-- A guard that ends takes one away. -/
theorem Latch.leave_value (latch : Latch) : latch.leave.value = latch.value - 1 := by
  rw [Latch.leave]
  split <;> rfl

/-- The last guard wakes whoever waits for zero. -/
theorem Latch.leave_sound (latch : Latch) : latch.leave.Sound (· == 0) := by
  rw [Latch.leave]
  split
  · exact .new _
  · rename_i left
    exact .assign (beq_eq_false_iff_ne.mpr left)

namespace RpcServer
variable {s t : RpcServer} {f : Nat}

theorem setCall_self (s : RpcServer) (f : Nat) (call : ServerCall) : (s.setCall f call).calls f = some call :=
  Function.update_self ..

section Waits
variable {request : ServerRequest}

/-- `Run` returns once the end is signaled. -/
theorem awaitShutdown_ends (signaled : s.shutdownEvent.value = true) : s.awaitShutdown f = s.endCall f .run := by
  rw [awaitShutdown, await_ready id signaled]

/-- Before, it blocks. -/
theorem awaitShutdown_waits (silent : s.shutdownEvent.value = false) : s.awaitShutdown f =
    { s with shutdownEvent := { s.shutdownEvent with waiting := f :: s.shutdownEvent.waiting } }.setCall f .running := by
  rw [awaitShutdown, await_blocks id silent]

/-- `ShutDown` signals the end when no request is left. -/
theorem awaitZero_ends (zero : s.requestsLatch.value = 0) :
    s.awaitZero f = { s with shutdownEvent := s.shutdownEvent.signal }.endCall f .shutDown := by
  rw [awaitZero, await_ready (· == 0) (beq_iff_eq.mpr zero)]

/-- Before, it blocks. -/
theorem awaitZero_waits (busy : s.requestsLatch.value ≠ 0) : s.awaitZero f =
    { s with requestsLatch := { s.requestsLatch with waiting := f :: s.requestsLatch.waiting } }.setCall f .draining := by
  rw [awaitZero, await_blocks (· == 0) (beq_eq_false_iff_ne.mpr busy)]

/-- A request is dispatched once a worker has started. -/
theorem awaitWorker_goes (started : s.workerStarted.value = true) : s.awaitWorker f request = s.dispatch f request := by
  rw [awaitWorker, await_ready id started]

/-- Before, it blocks. -/
theorem awaitWorker_waits (idle : s.workerStarted.value = false) : s.awaitWorker f request =
    { s with workerStarted := { s.workerStarted with waiting := f :: s.workerStarted.waiting } }.setCall f
      (.entered request) := by
  rw [awaitWorker, await_blocks id idle]

end Waits

/-- What a step can do. -/
inductive Changes (s : RpcServer) : ServerAction → RpcServer → Prop where
  | fail (action : ServerAction) (failure : ServerFailure) : Changes s action (s.fail failure)
  | register (service : String) : Changes s (.register service) { s with services := service :: s.services }
  | start (f : Nat) (free : s.calls f = none) (running : s.running = false) :
      Changes s (.start f) ({ s with running := true }.setCall f .starting)
  | registerServer (f : Nat) (starting : s.calls f = some .starting) :
      Changes s (.registerServer f) ({ s with registered := true }.endCall f .start)
  | run (f : Nat) (free : s.calls f = none) :
      Changes s (.run f) ({ s with workerStarted := s.workerStarted.signal }.awaitShutdown f)
  | shutDown (f : Nat) (free : s.calls f = none) :
      Changes s (.shutDown f) ({ s with finished := true }.setCall f .unregistering)
  | unregisterServer (f : Nat) (unregistering : s.calls f = some .unregistering) (registered : s.registered = true) :
      Changes s (.unregisterServer f) ({ s with registered := false }.awaitZero f)
  | processRequest (f : Nat) (request : ServerRequest) (free : s.calls f = none) (registered : s.registered = true) :
      Changes s (.processRequest f request) ({ s with requestsLatch := s.requestsLatch.enter }.awaitWorker f request)
  | refuse (f : Nat) (request : ServerRequest) : Changes s (.processRequest f request)
      { s with returned := s.returned ++ [.processRequest request (.error ⟨.connectionRefused, ""⟩)] }
  | wakeRun (f : Nat) (call : s.calls f = some .running) : Changes s (.wake f) (s.awaitShutdown f)
  | wakeShutDown (f : Nat) (call : s.calls f = some .draining) : Changes s (.wake f) (s.awaitZero f)
  | wakeRequest (f : Nat) (request : ServerRequest) (call : s.calls f = some (.entered request)) :
      Changes s (.wake f) (s.awaitWorker f request)
  | handled (f : Nat) (request : ServerRequest) (result : ServerResult) (call : s.calls f = some (.handling request)) :
      Changes s (.handled f result) (s.endRequest f request result)
  | killHost : Changes s .killHost { s with registered := false, killed := true }

/-- Every step is one of these changes. -/
theorem step_changes {action : ServerAction} (stepped : s.step action = some t) : s.Changes action t := by
  obtain ⟨_, acted⟩ := Option.ite_none_right_eq_some.mp stepped
  cases action with
  | register service =>
      cases acted
      split
      · exact .fail ..
      · exact .register service
  | start f =>
      obtain ⟨free, same⟩ := Option.ite_none_right_eq_some.mp acted
      cases same
      split
      · exact .fail ..
      · rename_i running
        exact .start f free (Bool.eq_false_iff.mpr running)
  | registerServer f =>
      obtain ⟨⟨starting, _⟩, same⟩ := Option.ite_none_right_eq_some.mp acted
      cases same
      split
      · exact .fail ..
      · exact .registerServer f starting
  | run f =>
      obtain ⟨free, same⟩ := Option.ite_none_right_eq_some.mp acted
      cases same
      exact .run f free
  | shutDown f =>
      obtain ⟨free, same⟩ := Option.ite_none_right_eq_some.mp acted
      cases same
      split
      · exact .fail ..
      · split
        · exact .fail ..
        · exact .shutDown f free
  | unregisterServer f =>
      obtain ⟨⟨unregistering, _⟩, same⟩ := Option.ite_none_right_eq_some.mp acted
      cases same
      split
      · rename_i registered
        exact .unregisterServer f unregistering registered
      · exact .fail ..
  | processRequest f request =>
      obtain ⟨free, same⟩ := Option.ite_none_right_eq_some.mp acted
      cases same
      split
      · rename_i registered
        exact .processRequest f request free registered
      · exact .refuse f request
  | wake f =>
      rw [act, wake] at acted
      split at acted
      · rename_i call
        obtain ⟨_, same⟩ := Option.ite_none_left_eq_some.mp acted
        cases same
        exact .wakeRun f call
      · rename_i call
        obtain ⟨_, same⟩ := Option.ite_none_left_eq_some.mp acted
        cases same
        exact .wakeShutDown f call
      · rename_i request call
        obtain ⟨_, same⟩ := Option.ite_none_left_eq_some.mp acted
        cases same
        exact .wakeRequest f request call
      · cases acted
  | handled f result =>
      rw [act] at acted
      split at acted
      · rename_i request call
        cases acted
        exact .handled f request result call
      · cases acted
  | killHost =>
      cases acted
      exact .killHost

/-- `ShutDown` has not given the port back. -/
def Open (s : RpcServer) : Prop := s.shutdownEvent.value = false ∧ ∀ f, s.calls f ≠ some .draining

/-- A port is given back for good. -/
structure Gate (s : RpcServer) : Prop where
  started : s.registered = true → s.running = true
  starting : ∀ f, s.calls f = some .starting → s.running = true ∧ s.registered = false ∧ s.Open ∧
    ∀ g, s.calls g = some .starting → g = f
  closed : ¬ s.Open → s.registered = false ∧ s.running = true

/-- The latch counts the requests, and none is left when the end is signaled. -/
structure Drains (s : RpcServer) : Prop where
  counted : Counted s.calls s.requestsLatch.value
  latch : s.requestsLatch.Sound (· == 0)
  quiet : s.shutdownEvent.value = true → s.requestsLatch.value = 0

/-- The invariant of a server. -/
structure Ok (s : RpcServer) : Prop where
  gate : s.Gate
  drains : s.Drains
  worker : s.workerStarted.Sound id
  shutdown : s.shutdownEvent.Sound id

/-- A new server has no calls. -/
theorem Ok.new : Ok new where
  gate := ⟨by rintro ⟨⟩, by rintro f ⟨⟩, fun closed => absurd ⟨rfl, fun _ => by rintro ⟨⟩⟩ closed⟩
  drains := ⟨⟨∅, rfl, fun f => by simp [RpcServer.new]⟩, .new _, by rintro ⟨⟩⟩
  worker := .new _
  shutdown := .new _

/-- A change that neither starts the server nor ends it. -/
theorem Gate.keep (gate : s.Gate) (running : t.running = s.running) (registered : t.registered = true → s.registered = true)
    (event : t.shutdownEvent.value = s.shutdownEvent.value)
    (calls : ∀ f, t.calls f = s.calls f ∨
      t.calls f ≠ some .starting ∧ t.calls f ≠ some .draining ∧ s.calls f ≠ some .draining) : t.Gate := by
  have starts {f : Nat} (starting : t.calls f = some .starting) : s.calls f = some .starting := by
    rcases calls f with same | ⟨other, _⟩
    · rw [← same, starting]
    · exact absurd starting other
  have drains (f : Nat) : t.calls f = some .draining ↔ s.calls f = some .draining := by
    rcases calls f with same | ⟨_, notAfter, notBefore⟩
    · rw [same]
    · exact iff_of_false notAfter notBefore
  have same : t.Open ↔ s.Open := by
    simp only [Open, event, ne_eq, drains]
  constructor
  · intro yes
    rw [running]
    exact gate.started (registered yes)
  · intro f starting
    obtain ⟨runs, free, stays, only⟩ := gate.starting f (starts starting)
    refine ⟨running.trans runs, ?_, same.mpr stays, fun g other => only g (starts other)⟩
    exact Bool.eq_false_iff.mpr fun yes => Bool.false_ne_true (free.symm.trans (registered yes))
  · intro closed
    obtain ⟨free, runs⟩ := gate.closed (mt same.mpr closed)
    exact ⟨Bool.eq_false_iff.mpr fun yes => Bool.false_ne_true (free.symm.trans (registered yes)), running.trans runs⟩

/-- One call goes on, and it is neither a start nor an end of the server. -/
theorem Gate.call (gate : s.Gate) {call : Option ServerCall} (before : s.calls f ≠ some .draining)
    (starting : call ≠ some .starting) (draining : call ≠ some .draining) (running : t.running = s.running)
    (registered : t.registered = s.registered) (event : t.shutdownEvent.value = s.shutdownEvent.value)
    (calls : t.calls = Function.update s.calls f call) : t.Gate := by
  refine gate.keep running (fun yes => registered.symm.trans yes) event fun g => ?_
  rw [calls]
  by_cases this : g = f
  · subst this
    rw [Function.update_self]
    exact Or.inr ⟨starting, draining, before⟩
  · exact Or.inl (Function.update_of_ne this ..)

/-- A call that neither comes in nor leaves does not change the count. -/
theorem Drains.call (drains : s.Drains) {call : Option ServerCall} (calls : t.calls = Function.update s.calls f call)
    (latch : t.requestsLatch = s.requestsLatch) (event : t.shutdownEvent.value = s.shutdownEvent.value)
    (same : call.any ServerCall.inside = (s.calls f).any ServerCall.inside) : t.Drains where
  counted := by
    rw [calls, latch]
    exact drains.counted.keep same
  latch := by
    rw [latch]
    exact drains.latch
  quiet := by
    rw [latch, event]
    exact drains.quiet

/-- `Run` at its wait. -/
theorem Ok.awaitShutdown (ok : s.Ok) (before : s.calls f = none ∨ s.calls f = some .running) : (s.awaitShutdown f).Ok := by
  have notDraining : s.calls f ≠ some .draining := by
    rcases before with free | runs
    · rw [free]
      rintro ⟨⟩
    · rw [runs]
      rintro ⟨⟩
  have outside : (s.calls f).any ServerCall.inside = false := by
    rcases before with free | runs
    · rw [free]
      rfl
    · rw [runs]
      rfl
  cases signaled : s.shutdownEvent.value with
  | true =>
      rw [awaitShutdown_ends signaled]
      exact ⟨ok.gate.call notDraining (by rintro ⟨⟩) (by rintro ⟨⟩) rfl rfl rfl rfl,
        ok.drains.call rfl rfl rfl outside.symm, ok.worker, ok.shutdown⟩
  | false =>
      rw [awaitShutdown_waits signaled]
      exact ⟨ok.gate.call notDraining (by rintro ⟨⟩) (by rintro ⟨⟩) rfl rfl rfl rfl,
        ok.drains.call rfl rfl rfl outside.symm, ok.worker, .block f signaled⟩

/-- `ShutDown` once it has given the port back. -/
theorem Ok.awaitZero (ok : s.Ok) (registered : s.registered = false) (running : s.running = true)
    (started : ∀ g, s.calls g ≠ some .starting) (outside : (s.calls f).any ServerCall.inside = false) :
    (s.awaitZero f).Ok := by
  have gate {t : RpcServer} {call : Option ServerCall} (same : t.registered = s.registered) (runs : t.running = s.running)
      (calls : t.calls = Function.update s.calls f call) (other : call ≠ some .starting) : t.Gate := by
    have none_ (g : Nat) : t.calls g ≠ some .starting := by
      rw [calls]
      by_cases this : g = f
      · rw [this, Function.update_self]
        exact other
      · rw [Function.update_of_ne this]
        exact started g
    refine ⟨fun _ => runs.trans running, fun g starting => absurd starting (none_ g), fun _ => ?_⟩
    exact ⟨same.trans registered, runs.trans running⟩
  by_cases zero : s.requestsLatch.value = 0
  · rw [awaitZero_ends zero]
    exact ⟨gate rfl rfl rfl (by rintro ⟨⟩), ⟨ok.drains.counted.keep outside.symm, ok.drains.latch, fun _ => zero⟩,
      ok.worker, .new _⟩
  · rw [awaitZero_waits zero]
    exact ⟨gate rfl rfl rfl (by rintro ⟨⟩), ⟨ok.drains.counted.keep outside.symm,
      .block f (beq_eq_false_iff_ne.mpr zero), ok.drains.quiet⟩, ok.worker, ok.shutdown⟩

/-- A request leaves the server. -/
theorem Ok.endRequest (ok : s.Ok) (inside : (s.calls f).any ServerCall.inside = true) (request : ServerRequest)
    (result : ServerResult) : (s.endRequest f request result).Ok := by
  have notDraining : s.calls f ≠ some .draining := by
    intro drains
    rw [drains] at inside
    cases inside
  refine ⟨ok.gate.call notDraining (by rintro ⟨⟩) (by rintro ⟨⟩) rfl rfl rfl rfl, ⟨?_, s.requestsLatch.leave_sound, ?_⟩,
    ok.worker, ok.shutdown⟩
  · change Counted _ s.requestsLatch.leave.value
    rw [Latch.leave_value]
    exact ok.drains.counted.leave inside rfl
  · intro signaled
    change s.requestsLatch.leave.value = 0
    rw [Latch.leave_value, ok.drains.quiet signaled]

/-- A request that is inside goes on when a worker has started. -/
theorem Ok.dispatch (ok : s.Ok) (inside : (s.calls f).any ServerCall.inside = true) (request : ServerRequest) :
    (s.dispatch f request).Ok := by
  have notDraining : s.calls f ≠ some .draining := by
    intro drains
    rw [drains] at inside
    cases inside
  rw [RpcServer.dispatch]
  split
  · exact ⟨ok.gate.call notDraining (by rintro ⟨⟩) (by rintro ⟨⟩) rfl rfl rfl rfl,
      ok.drains.call rfl rfl rfl inside.symm, ok.worker, ok.shutdown⟩
  · exact ok.endRequest inside request _

/-- `ProcessRequest` at its wait for a worker. -/
theorem Ok.awaitWorker (ok : s.Ok) (inside : (s.calls f).any ServerCall.inside = true) (request : ServerRequest) :
    (s.awaitWorker f request).Ok := by
  cases started : s.workerStarted.value with
  | true =>
      rw [awaitWorker_goes started]
      exact ok.dispatch inside request
  | false =>
      have notDraining : s.calls f ≠ some .draining := by
        intro drains
        rw [drains] at inside
        cases inside
      rw [awaitWorker_waits started]
      exact ⟨ok.gate.call notDraining (by rintro ⟨⟩) (by rintro ⟨⟩) rfl rfl rfl rfl,
        ok.drains.call rfl rfl rfl inside.symm, .block f started, ok.shutdown⟩

/-- A change that the calls do not see. -/
theorem Ok.same (ok : s.Ok) (running : t.running = s.running) (registered : t.registered = true → s.registered = true)
    (calls : t.calls = s.calls) (latch : t.requestsLatch = s.requestsLatch) (event : t.shutdownEvent = s.shutdownEvent)
    (worker : t.workerStarted.Sound id) : t.Ok := by
  refine ⟨ok.gate.keep running registered (by rw [event]) fun f => Or.inl (by rw [calls]), ⟨?_, ?_, ?_⟩, worker, ?_⟩
  · rw [calls, latch]
    exact ok.drains.counted
  · rw [latch]
    exact ok.drains.latch
  · rw [event, latch]
    exact ok.drains.quiet
  · rw [event]
    exact ok.shutdown

/-- A failed `VERIFY` changes nothing else. -/
theorem Ok.fail (ok : s.Ok) (failure : ServerFailure) : (s.fail failure).Ok :=
  ok.same rfl id rfl rfl rfl ok.worker

/-- A draining call means that the port was given back. -/
theorem Ok.draining (ok : s.Ok) (drains : s.calls f = some .draining) : s.registered = false ∧ s.running = true ∧
    ∀ g, s.calls g ≠ some .starting := by
  have closed : ¬ s.Open := fun stays => stays.2 f drains
  obtain ⟨registered, running⟩ := ok.gate.closed closed
  exact ⟨registered, running, fun g starting => closed (ok.gate.starting g starting).2.2.1⟩

/-- A server that accepts requests has not ended. -/
theorem Ok.open_of_registered (ok : s.Ok) (registered : s.registered = true) : s.Open := by
  by_contra closed
  rw [(ok.gate.closed closed).1] at registered
  cases registered

/-- `Start` may run once. -/
theorem Ok.start (ok : s.Ok) (running : s.running = false) (free : s.calls f = none) :
    ({ s with running := true }.setCall f .starting).Ok := by
  have unregistered : s.registered = false := by
    rw [Bool.eq_false_iff]
    intro registered
    rw [ok.gate.started registered] at running
    cases running
  have stays : s.Open := by
    by_contra closed
    rw [(ok.gate.closed closed).2] at running
    cases running
  have calls (g : Nat) (other : g ≠ f) : ({ s with running := true }.setCall f .starting).calls g = s.calls g :=
    Function.update_of_ne other ..
  have here : ({ s with running := true }.setCall f .starting).calls f = some .starting := Function.update_self ..
  have still : ({ s with running := true }.setCall f .starting).Open := by
    refine ⟨stays.1, fun g => ?_⟩
    by_cases this : g = f
    · rw [this, here]
      rintro ⟨⟩
    · rw [calls g this]
      exact stays.2 g
  have only (g : Nat) (starting : ({ s with running := true }.setCall f .starting).calls g = some .starting) : g = f := by
    by_contra other
    rw [calls g other] at starting
    rw [(ok.gate.starting g starting).1] at running
    cases running
  refine ⟨⟨fun _ => rfl, fun g starting => ?_, fun closed => absurd still closed⟩, ?_, ok.worker, ok.shutdown⟩
  · refine ⟨rfl, unregistered, still, fun k other => ?_⟩
    rw [only g starting, only k other]
  · exact ok.drains.call rfl rfl rfl (by rw [free]; rfl)

/-- The port is registered once. -/
theorem Ok.registerServer (ok : s.Ok) (starting : s.calls f = some .starting) :
    ({ s with registered := true }.endCall f .start).Ok := by
  obtain ⟨running, _, stays, only⟩ := ok.gate.starting f starting
  have calls (g : Nat) (other : g ≠ f) : ({ s with registered := true }.endCall f .start).calls g = s.calls g :=
    Function.update_of_ne other ..
  have here : ({ s with registered := true }.endCall f .start).calls f = none := Function.update_self ..
  have still : ({ s with registered := true }.endCall f .start).Open := by
    refine ⟨stays.1, fun g => ?_⟩
    by_cases this : g = f
    · rw [this, here]
      rintro ⟨⟩
    · rw [calls g this]
      exact stays.2 g
  refine ⟨⟨fun _ => running, fun g other => ?_, fun closed => absurd still closed⟩, ?_, ok.worker, ok.shutdown⟩
  · by_cases this : g = f
    · rw [this, here] at other
      cases other
    · rw [calls g this] at other
      exact absurd (only g other) this
  · exact ok.drains.call rfl rfl rfl (by rw [starting]; rfl)

/-- The port is given back. -/
theorem Ok.unregisterServer (ok : s.Ok) (unregistering : s.calls f = some .unregistering)
    (registered : s.registered = true) : ({ s with registered := false }.awaitZero f).Ok := by
  have free : { s with registered := false }.Ok := ok.same rfl (by rintro ⟨⟩) rfl rfl rfl ok.worker
  apply free.awaitZero rfl (ok.gate.started registered)
  · intro g starting
    rw [(ok.gate.starting g starting).2.1] at registered
    cases registered
  · change (s.calls f).any ServerCall.inside = false
    rw [unregistering]
    rfl

/-- Where a request waits for a worker does not depend on where it was before. -/
theorem awaitWorker_setCall (s : RpcServer) (f : Nat) (call : ServerCall) (request : ServerRequest) :
    (s.setCall f call).awaitWorker f request = s.awaitWorker f request := by
  have again (s : RpcServer) (next : Option ServerCall) :
      Function.update (Function.update s.calls f (some call)) f next = Function.update s.calls f next :=
    Function.update_idem ..
  simp only [awaitWorker, dispatch, endRequest, endCall, setCall, again]

/-- A request gets inside. -/
theorem Ok.processRequest (ok : s.Ok) (free : s.calls f = none) (registered : s.registered = true)
    (request : ServerRequest) : ({ s with requestsLatch := s.requestsLatch.enter }.awaitWorker f request).Ok := by
  have stays := ok.open_of_registered registered
  have inside : ({ s with requestsLatch := s.requestsLatch.enter }.setCall f (.entered request)).Ok := by
    refine ⟨ok.gate.call (by rw [free]; rintro ⟨⟩) (by rintro ⟨⟩) (by rintro ⟨⟩) rfl rfl rfl rfl, ⟨?_, ?_, ?_⟩, ok.worker,
      ok.shutdown⟩
    · exact ok.drains.counted.enter (by rw [free]; rfl) rfl
    · exact .assign (beq_eq_false_iff_ne.mpr (Nat.succ_ne_zero _))
    · intro signaled
      cases stays.1.symm.trans signaled
  rw [← awaitWorker_setCall _ f (.entered request)]
  exact inside.awaitWorker (by rw [setCall_self]; rfl) request

/-- Every step keeps the invariant. -/
theorem Ok.step {action : ServerAction} (ok : s.Ok) (stepped : s.step action = some t) : t.Ok := by
  cases step_changes stepped with
  | fail _ failure => exact ok.fail failure
  | register service => exact ok.same rfl id rfl rfl rfl ok.worker
  | start f free running => exact ok.start running free
  | registerServer f starting => exact ok.registerServer starting
  | run f free =>
      have signaled : { s with workerStarted := s.workerStarted.signal }.Ok := ok.same rfl id rfl rfl rfl (.new _)
      exact signaled.awaitShutdown (Or.inl free)
  | shutDown f free =>
      exact ⟨ok.gate.call (by rw [free]; rintro ⟨⟩) (by rintro ⟨⟩) (by rintro ⟨⟩) rfl rfl rfl rfl,
        ok.drains.call rfl rfl rfl (by rw [free]; rfl), ok.worker, ok.shutdown⟩
  | unregisterServer f unregistering registered => exact ok.unregisterServer unregistering registered
  | processRequest f request free registered => exact ok.processRequest free registered request
  | refuse f request => exact ok.same rfl id rfl rfl rfl ok.worker
  | wakeRun f call => exact ok.awaitShutdown (Or.inr call)
  | wakeShutDown f call =>
      obtain ⟨registered, running, started⟩ := ok.draining call
      exact ok.awaitZero registered running started (by rw [call]; rfl)
  | wakeRequest f request call => exact ok.awaitWorker (by rw [call]; rfl) request
  | handled f request result call => exact ok.endRequest (by rw [call]; rfl) request result
  | killHost => exact ok.same rfl (by rintro ⟨⟩) rfl rfl rfl ok.worker

/-- Any step may come next. -/
abbrev Reaches : RpcServer → RpcServer → Prop := Run fun _ => True

/-- The invariant holds in every run. -/
theorem Reaches.ok (reached : Reaches new s) : s.Ok := by
  induction reached with
  | refl => exact .new
  | tail _ last ih =>
      obtain ⟨_, _, stepped⟩ := last
      exact ih.step stepped

/-- What a step may return. `Run` and `ShutDown` return when the end is signaled, and only a request that was let in can
get another answer than a refusal. -/
def Returns (s t : RpcServer) : ServerReturn → Prop
  | .start => True
  | .run | .shutDown => t.shutdownEvent.value = true
  | .processRequest _ result => s.registered = true ∨ (∃ f, (s.calls f).any ServerCall.inside = true) ∨
      result = .error ⟨.connectionRefused, ""⟩

/-- The end stays signaled, and a step returns from one call at most. -/
structure Turn (s t : RpcServer) : Prop where
  signaled : s.shutdownEvent.value = true → t.shutdownEvent.value = true
  returned : t.returned = s.returned ∨ ∃ value, t.returned = s.returned ++ [value] ∧ s.Returns t value

/-- A step that returns from no call. -/
theorem Turn.silent (event : t.shutdownEvent.value = s.shutdownEvent.value) (returned : t.returned = s.returned) :
    s.Turn t := ⟨fun signaled => event.trans signaled, Or.inl returned⟩

/-- `Run` returns only if the end is signaled. -/
theorem Turn.awaitShutdown (s : RpcServer) (f : Nat) : s.Turn (s.awaitShutdown f) := by
  cases signaled : s.shutdownEvent.value with
  | true =>
      rw [awaitShutdown_ends signaled]
      exact ⟨fun _ => signaled, Or.inr ⟨.run, rfl, signaled⟩⟩
  | false =>
      rw [awaitShutdown_waits signaled]
      exact .silent rfl rfl

/-- `ShutDown` returns when it signals the end. -/
theorem Turn.awaitZero (s : RpcServer) (f : Nat) : s.Turn (s.awaitZero f) := by
  by_cases zero : s.requestsLatch.value = 0
  · rw [awaitZero_ends zero]
    exact ⟨fun _ => rfl, Or.inr ⟨.shutDown, rfl, rfl⟩⟩
  · rw [awaitZero_waits zero]
    exact .silent rfl rfl

/-- A request that ends was let in. -/
theorem Turn.endRequest (request : ServerRequest) (result : ServerResult)
    (admitted : s.registered = true ∨ ∃ g, (s.calls g).any ServerCall.inside = true) :
    s.Turn (s.endRequest f request result) :=
  ⟨id, Or.inr ⟨.processRequest request result, rfl, admitted.imp_right Or.inl⟩⟩

/-- So was one that waits for a worker. -/
theorem Turn.awaitWorker (request : ServerRequest)
    (admitted : s.registered = true ∨ ∃ g, (s.calls g).any ServerCall.inside = true) :
    s.Turn (s.awaitWorker f request) := by
  cases started : s.workerStarted.value with
  | true =>
      rw [awaitWorker_goes started, dispatch]
      split
      · exact .silent rfl rfl
      · exact .endRequest request _ admitted
  | false =>
      rw [awaitWorker_waits started]
      exact .silent rfl rfl

/-- A change that the calls do not see comes first. -/
theorem Turn.after {u : RpcServer} (turn : u.Turn t) (event : u.shutdownEvent = s.shutdownEvent)
    (returned : u.returned = s.returned) (registered : u.registered = true → s.registered = true) (calls : u.calls = s.calls) :
    s.Turn t := by
  refine ⟨fun signaled => turn.signaled (event ▸ signaled), ?_⟩
  rcases turn.returned with same | ⟨value, more, returns⟩
  · exact Or.inl (same.trans returned)
  · refine Or.inr ⟨value, returned ▸ more, ?_⟩
    cases value with
    | processRequest request result =>
        rw [Returns, calls] at returns
        exact returns.imp_left registered
    | _ => exact returns

/-- Every step is a turn. -/
theorem step_turn {action : ServerAction} (stepped : s.step action = some t) : s.Turn t := by
  cases step_changes stepped with
  | registerServer f _ => exact ⟨id, Or.inr ⟨.start, rfl, trivial⟩⟩
  | run f _ => exact (Turn.awaitShutdown _ f).after rfl rfl id rfl
  | unregisterServer f _ _ => exact (Turn.awaitZero _ f).after rfl rfl (by rintro ⟨⟩) rfl
  | processRequest f request _ registered =>
      have enters : RpcServer.Turn { s with requestsLatch := s.requestsLatch.enter }
          ({ s with requestsLatch := s.requestsLatch.enter }.awaitWorker f request) :=
        .awaitWorker request (Or.inl registered)
      exact enters.after rfl rfl id rfl
  | refuse f request => exact ⟨id, Or.inr ⟨_, rfl, Or.inr (Or.inr rfl)⟩⟩
  | wakeRun f _ => exact .awaitShutdown s f
  | wakeShutDown f _ => exact .awaitZero s f
  | wakeRequest f request call => exact .awaitWorker request (Or.inr ⟨f, by rw [call]; rfl⟩)
  | handled f request result call => exact .endRequest request result (Or.inr ⟨f, by rw [call]; rfl⟩)
  | _ => exact .silent rfl rfl

/-- `Run` or `ShutDown` has returned only if the end is signaled. -/
theorem Reaches.signaled (reached : Reaches new s) (ended : .shutDown ∈ s.returned ∨ .run ∈ s.returned) :
    s.shutdownEvent.value = true := by
  induction reached with
  | refl => simp [RpcServer.new] at ended
  | tail _ last ih =>
      obtain ⟨_, _, stepped⟩ := last
      obtain ⟨stays, returned⟩ := step_turn stepped
      rcases returned with same | ⟨value, more, returns⟩
      · rw [same] at ended
        exact stays (ih ended)
      · rw [more] at ended
        simp only [List.mem_append, List.mem_singleton] at ended
        rcases ended with (old | new) | (old | new)
        · exact stays (ih (Or.inl old))
        · rw [← new] at returns
          exact returns
        · exact stays (ih (Or.inr old))
        · rw [← new] at returns
          exact returns

/-- Nobody is inside once the end is signaled, and the port is free. -/
theorem Ok.ended (ok : s.Ok) (signaled : s.shutdownEvent.value = true) :
    (∀ f, (s.calls f).any ServerCall.inside = false) ∧ s.registered = false := by
  refine ⟨ok.drains.counted.zero_iff.mp (ok.drains.quiet signaled), (ok.gate.closed fun stays => ?_).1⟩
  cases stays.1.symm.trans signaled

/-- The request waits for a worker, and none has started. -/
def Stuck (s : RpcServer) (f : Nat) (request : ServerRequest) : Prop :=
  s.calls f = some (.entered request) ∧ s.workerStarted.value = false

/-- A call of another fiber leaves the request where it is. -/
theorem Stuck.other {request : ServerRequest} {g : Nat} {call : Option ServerCall} (stuck : s.Stuck f request) (other : f ≠ g)
    (calls : t.calls = Function.update s.calls g call) (worker : t.workerStarted.value = s.workerStarted.value) :
    t.Stuck f request := by
  refine ⟨?_, worker.trans stuck.2⟩
  rw [calls, Function.update_of_ne other]
  exact stuck.1

/-- So does a `Run` that waits. -/
theorem Stuck.awaitShutdown {request : ServerRequest} {g : Nat} (stuck : s.Stuck f request) (other : f ≠ g) :
    (s.awaitShutdown g).Stuck f request := by
  cases signaled : s.shutdownEvent.value with
  | true =>
      rw [awaitShutdown_ends signaled]
      exact stuck.other other rfl rfl
  | false =>
      rw [awaitShutdown_waits signaled]
      exact stuck.other other rfl rfl

/-- So does a `ShutDown` that waits. -/
theorem Stuck.awaitZero {request : ServerRequest} {g : Nat} (stuck : s.Stuck f request) (other : f ≠ g) :
    (s.awaitZero g).Stuck f request := by
  by_cases zero : s.requestsLatch.value = 0
  · rw [awaitZero_ends zero]
    exact stuck.other other rfl rfl
  · rw [awaitZero_waits zero]
    exact stuck.other other rfl rfl

/-- Without a worker the request waits on. -/
theorem Stuck.awaitWorker {request : ServerRequest} {g : Nat} {next : ServerRequest} (stuck : s.Stuck f request)
    (same : g = f → next = request) : (s.awaitWorker g next).Stuck f request := by
  rw [awaitWorker_waits stuck.2]
  by_cases this : f = g
  · subst this
    rw [same rfl]
    exact ⟨setCall_self .., stuck.2⟩
  · exact stuck.other this rfl rfl

/-- Only `Run` helps a request that waits for a worker. -/
theorem Stuck.step {request : ServerRequest} {action : ServerAction} (stuck : s.Stuck f request)
    (notRun : ∀ g, action ≠ .run g) (stepped : s.step action = some t) : t.Stuck f request := by
  have apart {g : Nat} {call : Option ServerCall} (here : s.calls g = call) (different : call ≠ some (.entered request)) :
      f ≠ g := by
    rintro rfl
    exact different (here.symm.trans stuck.1)
  cases step_changes stepped with
  | start g free _ => exact stuck.other (apart free (by rintro ⟨⟩)) rfl rfl
  | registerServer g starting => exact stuck.other (apart starting (by rintro ⟨⟩)) rfl rfl
  | run g _ => exact absurd rfl (notRun g)
  | shutDown g free => exact stuck.other (apart free (by rintro ⟨⟩)) rfl rfl
  | unregisterServer g unregistering _ =>
      have still : RpcServer.Stuck { s with registered := false } f request := stuck
      exact still.awaitZero (apart unregistering (by rintro ⟨⟩))
  | processRequest g next free _ =>
      have still : RpcServer.Stuck { s with requestsLatch := s.requestsLatch.enter } f request := stuck
      exact still.awaitWorker fun this => absurd this.symm (apart free (by rintro ⟨⟩))
  | wakeRun g call => exact stuck.awaitShutdown (apart call (by rintro ⟨⟩))
  | wakeShutDown g call => exact stuck.awaitZero (apart call (by rintro ⟨⟩))
  | wakeRequest g next call =>
      refine stuck.awaitWorker ?_
      rintro rfl
      cases call.symm.trans stuck.1
      rfl
  | handled g next result call => exact stuck.other (apart call (by rintro ⟨⟩)) rfl rfl
  | _ => exact stuck

end RpcServer

/-- When `ShutDown` or `Run` has returned, no request is inside the server, and none gets inside at any later time: every
request that arrives later is refused. -/
theorem shutDown_drains {s t : RpcServer} (reached : RpcServer.Reaches .new s)
    (ended : .shutDown ∈ s.returned ∨ .run ∈ s.returned) (later : RpcServer.Reaches s t) :
    (∀ f, (t.calls f).any ServerCall.inside = false) ∧ t.registered = false ∧ ∃ more, t.returned = s.returned ++ more ∧
      ∀ request result, .processRequest request result ∈ more → result = .error ⟨.connectionRefused, ""⟩ := by
  have signaled := reached.signaled ended
  suffices kept : t.Ok ∧ t.shutdownEvent.value = true ∧ ∃ more, t.returned = s.returned ++ more ∧
      ∀ request result, .processRequest request result ∈ more → result = .error ⟨.connectionRefused, ""⟩ by
    obtain ⟨ok, event, more⟩ := kept
    exact ⟨(ok.ended event).1, (ok.ended event).2, more⟩
  induction later with
  | refl => exact ⟨reached.ok, signaled, [], by simp, by simp⟩
  | tail _ last ih =>
      obtain ⟨_, _, stepped⟩ := last
      obtain ⟨ok, event, more, same, refused⟩ := ih
      obtain ⟨stays, returned⟩ := RpcServer.step_turn stepped
      refine ⟨ok.step stepped, stays event, ?_⟩
      rcases returned with silent | ⟨value, next, returns⟩
      · exact ⟨more, silent.trans same, refused⟩
      · refine ⟨more ++ [value], by rw [next, same, List.append_assoc], fun request result member => ?_⟩
        rcases List.mem_append.mp member with old | new
        · exact refused request result old
        · rw [← List.mem_singleton.mp new] at returns
          obtain ⟨empty, free⟩ := ok.ended event
          rcases returns with registered | ⟨f, inside⟩ | refusal
          · cases free.symm.trans registered
          · cases (empty f).symm.trans inside
          · exact refusal

def echoRequest : ServerRequest := ⟨[7], "EchoService", "Echo"⟩

/-- A request arrives before `Run`, and its handler still runs when `ShutDown` is called. -/
def drainingScript : List ServerAction :=
  [.register "EchoService", .start 0, .registerServer 0, .processRequest 1 echoRequest, .run 2, .wake 1, .shutDown 3,
    .unregisterServer 3]

theorem drainingScript_possible :
    (Script.play RpcServer.step (fun _ _ => True) .new drainingScript).isSome = true := by
  decide +kernel

theorem drainedScript_possible : (Script.play RpcServer.step (fun _ _ => True) .new
    (drainingScript ++ [.handled 1 (.ok [7]), .wake 3])).isSome = true := by
  decide +kernel

/-- The server after the request and `ShutDown` have returned. -/
def drainedServer : RpcServer := Script.endOf RpcServer.step (fun _ _ => True) .new _ drainedScript_possible

/-- `ShutDown` returns after the last request, and no request is inside. -/
theorem shutDown_drains_echo : drainedServer.returned = [.start, .processRequest echoRequest (.ok [7]), .shutDown] ∧
    ∀ f, (drainedServer.calls f).any ServerCall.inside = false := by
  have reached : RpcServer.Reaches .new drainedServer := Script.endOf_run drainedScript_possible
  have returned : drainedServer.returned = [.start, .processRequest echoRequest (.ok [7]), .shutDown] := rfl
  exact ⟨returned, (shutDown_drains reached (Or.inl (by rw [returned]; simp)) .refl).1⟩

/-- No wake-up is lost. Once a worker has started, a request that waits can go on. A `ShutDown` that waits can return as
soon as no request is inside, and then every `Run` can return. -/
theorem shutDown_progress {s : RpcServer} (reached : RpcServer.Reaches .new s) (fine : s.failed = none) :
    (s.workerStarted.value = true → ∀ f request, s.calls f = some (.entered request) →
      ∃ t, s.step (.wake f) = some t ∧ (t.calls f = some (.handling request) ∨ t.calls f = none)) ∧
    (∀ f, s.calls f = some .draining → (∀ g, (s.calls g).any ServerCall.inside = false) →
      ∃ t, s.step (.wake f) = some t ∧ t.returned = s.returned ++ [.shutDown] ∧ t.shutdownEvent.value = true) ∧
    (∀ f, s.calls f = some .running → s.shutdownEvent.value = true →
      ∃ t, s.step (.wake f) = some t ∧ t.returned = s.returned ++ [.run]) := by
  have ok := reached.ok
  refine ⟨fun started f request waits => ?_, fun f waits empty => ?_, fun f waits signaled => ?_⟩
  · have woken : s.step (.wake f) = some (s.awaitWorker f request) := by
      simp only [RpcServer.step, RpcServer.act, RpcServer.wake, if_pos fine, waits, if_neg (ok.worker.free started f)]
    refine ⟨_, woken, ?_⟩
    rw [RpcServer.awaitWorker_goes started, RpcServer.dispatch]
    split
    · exact Or.inl (Function.update_self ..)
    · exact Or.inr (Function.update_self ..)
  · have zero : s.requestsLatch.value = 0 := ok.drains.counted.zero_iff.mpr empty
    have free := ok.drains.latch.free (beq_iff_eq.mpr zero) f
    have woken : s.step (.wake f) = some (s.awaitZero f) := by
      simp only [RpcServer.step, RpcServer.act, RpcServer.wake, if_pos fine, waits, if_neg free]
    refine ⟨_, woken, ?_⟩
    rw [RpcServer.awaitZero_ends zero]
    exact ⟨rfl, rfl⟩
  · have woken : s.step (.wake f) = some (s.awaitShutdown f) := by
      simp only [RpcServer.step, RpcServer.act, RpcServer.wake, if_pos fine, waits, if_neg (ok.shutdown.free signaled f)]
    refine ⟨_, woken, ?_⟩
    rw [RpcServer.awaitShutdown_ends signaled]
    rfl

/-- The server with a handler inside. -/
def drainingServer : RpcServer := Script.endOf RpcServer.step (fun _ _ => True) .new _ drainingScript_possible

/-- When the handler ends, `ShutDown` can return. -/
theorem shutDown_progress_echo : ∃ s, drainingServer.step (.handled 1 (.ok [7])) = some s ∧
    ∃ t, s.step (.wake 3) = some t ∧ t.returned = s.returned ++ [.shutDown] := by
  have reached : RpcServer.Reaches .new drainingServer := Script.endOf_run drainingScript_possible
  obtain ⟨s, stepped⟩ : ∃ s, drainingServer.step (.handled 1 (.ok [7])) = some s := ⟨_, rfl⟩
  have after : RpcServer.Reaches .new s := reached.tail ⟨_, trivial, stepped⟩
  refine ⟨s, stepped, ?_⟩
  have same : s = (drainingServer.step (.handled 1 (.ok [7]))).getD .new := by rw [stepped]; rfl
  have fine : s.failed = none := by
    rw [same]
    rfl
  have waits : s.calls 3 = some .draining := by
    rw [same]
    rfl
  have empty : s.requestsLatch.value = 0 := by
    rw [same]
    rfl
  obtain ⟨t, woken, returned, _⟩ := (shutDown_progress after fine).2.1 3 waits (after.ok.drains.counted.zero_iff.mp empty)
  exact ⟨t, woken, returned⟩

/-- A request that arrived before any `Run` keeps `ShutDown` from returning until somebody calls `Run`. -/
theorem shutDown_needs_run {s t : RpcServer} (reached : RpcServer.Reaches .new s)
    (idle : s.workerStarted.value = false) {f : Nat} {request : ServerRequest}
    (inside : s.calls f = some (.entered request)) (later : RpcServer.Run (fun action => ∀ g, action ≠ .run g) s t) :
    t.calls f = some (.entered request) ∧ .shutDown ∉ t.returned := by
  have kept : RpcServer.Reaches .new t ∧ t.Stuck f request := by
    induction later with
    | refl => exact ⟨reached, inside, idle⟩
    | tail _ last ih =>
        obtain ⟨action, notRun, stepped⟩ := last
        exact ⟨ih.1.tail ⟨action, trivial, stepped⟩, ih.2.step notRun stepped⟩
  obtain ⟨reachedT, waits, _⟩ := kept
  refine ⟨waits, fun ended => ?_⟩
  have empty := (reachedT.ok.ended (reachedT.signaled (Or.inl ended))).1 f
  rw [waits] at empty
  cases empty

theorem stuckScript_possible : (Script.play RpcServer.step (fun _ _ => True) .new
    [.start 0, .registerServer 0, .processRequest 1 echoRequest]).isSome = true := by
  decide +kernel

/-- The server with a request that nobody runs. -/
def stuckServer : RpcServer := Script.endOf RpcServer.step (fun _ _ => True) .new _ stuckScript_possible

/-- A request that no `Run` serves keeps `ShutDown` from returning. -/
theorem shutDown_needs_run_echo : ∃ s t, stuckServer.step (.shutDown 2) = some s ∧
    s.step (.unregisterServer 2) = some t ∧ t.calls 1 = some (.entered echoRequest) ∧ .shutDown ∉ t.returned := by
  have reached : RpcServer.Reaches .new stuckServer := Script.endOf_run stuckScript_possible
  obtain ⟨s, t, first, second⟩ : ∃ s t, stuckServer.step (.shutDown 2) = some s ∧
      s.step (.unregisterServer 2) = some t := ⟨_, _, rfl, rfl⟩
  have later : RpcServer.Run (fun action => ∀ g, action ≠ .run g) stuckServer t :=
    .tail (.single ⟨_, fun _ => by rintro ⟨⟩, first⟩) ⟨_, fun _ => by rintro ⟨⟩, second⟩
  exact ⟨s, t, first, second, shutDown_needs_run reached rfl rfl later⟩

end Metamorphosis.Simulator
