import Metamorphosis.Proof.Simulator.Hosts
import Metamorphosis.Proof.Simulator.Inheritance
import Metamorphosis.Proof.Simulator.Requests

/-!
Every call of `World::MakeRequest` goes through the phases of a remote call. So its handler starts at most
once, its result is set at most once, and a result other than a failure of the network is the handler's.
-/

namespace Metamorphosis.Simulator

/-- A call is under way as long as a fiber carries it. -/
theorem Code.carried_under {code : Code} {delivery : Delivery} {phase : Phase}
    (carried : code.carried = some (delivery, phase)) : phase ≠ .unsent ∧ ∀ result, phase ≠ .closed result := by
  unfold Code.carried at carried
  split at carried
  all_goals
    first
    | (cases carried; done)
    | (obtain ⟨_, _, same⟩ := Option.map_eq_some_iff.mp carried
       cases same
       exact ⟨by rintro ⟨⟩, by rintro _ ⟨⟩⟩)
    | (cases carried
       exact ⟨by rintro ⟨⟩, by rintro _ ⟨⟩⟩)

/-- A fiber whose call is only sent. -/
theorem Code.carried_sent {code : Code} {delivery : Delivery} (carried : code.carried = some (delivery, .sent)) :
    code = .deliver delivery ∨ code = .delivered delivery ∨
    ∃ handles, code = .operation (.processRequest delivery) handles := by
  unfold Code.carried at carried
  split at carried
  · cases carried
    exact Or.inl rfl
  · cases carried
    exact Or.inr (Or.inl rfl)
  · cases carried
    exact Or.inr (Or.inr ⟨_, rfl⟩)
  all_goals
    first
    | cases carried
    | (obtain ⟨_, _, same⟩ := Option.map_eq_some_iff.mp carried
       cases same)

namespace World

/-- The phase of a call on the fiber that carries it. -/
def carriedPhase (w : World) (state f : Nat) : Option Phase :=
  match (w.fibers f).code.carried with
  | some (delivery, phase) => if delivery.state = state then some phase else none
  | none => none

/-- The phase of a call. A call that nobody carries is over. -/
def phase (w : World) (state : Nat) : Phase :=
  match (List.range w.nextFiber).findSome? (w.carriedPhase state) with
  | some phase => phase
  | none =>
      match w.states[state]? with
      | some entry => .closed entry.result
      | none => .unsent

variable {w d : World} {state : Nat}

/-- A fiber carries the call whose delivery it works on. -/
theorem carriedPhase_some {f : Nat} {phase : Phase} :
    w.carriedPhase state f = some phase ↔
    ∃ delivery, (w.fibers f).code.carried = some (delivery, phase) ∧ delivery.state = state := by
  unfold carriedPhase
  split
  · rename_i delivery own carried
    rw [carried]
    constructor
    · intro shown
      split at shown
      · rename_i same
        cases shown
        exact ⟨delivery, rfl, same⟩
      · cases shown
    · rintro ⟨_, ⟨⟩, same⟩
      exact if_pos same
  · rename_i free
    rw [free]
    constructor
    · rintro ⟨⟩
    · rintro ⟨_, ⟨⟩, _⟩

/-- The call has a fiber that carries it, or it has none and is over or not begun. -/
theorem Carries.phase_cases (carries : w.Carries) (state : Nat) :
    (∃ f delivery, (w.fibers f).code.carried = some (delivery, w.phase state) ∧ delivery.state = state) ∨
    (∀ f delivery phase, (w.fibers f).code.carried = some (delivery, phase) → delivery.state ≠ state) ∧
      w.phase state = ((w.states[state]?).map fun entry => RemoteCall.Phase.closed entry.result).getD .unsent := by
  cases found : (List.range w.nextFiber).findSome? (w.carriedPhase state) with
  | some phase =>
      obtain ⟨f, _, shown⟩ := List.exists_of_findSome?_eq_some found
      obtain ⟨delivery, carried, same⟩ := carriedPhase_some.mp shown
      have known : w.phase state = phase := by rw [World.phase, found]
      exact Or.inl ⟨f, delivery, known ▸ carried, same⟩
  | none =>
      refine Or.inr ⟨fun f delivery phase carried same => ?_, ?_⟩
      · have free := List.findSome?_eq_none_iff.mp found f (List.mem_range.mpr (carries.born f delivery phase carried))
        cases free.symm.trans (carriedPhase_some.mpr ⟨delivery, carried, same⟩)
      · rw [World.phase, found]
        cases w.states[state]? with
        | none => rfl
        | some entry => rfl

/-- The phase of a call is the one of the fiber that carries it. -/
theorem Carries.phase_carried (carries : w.Carries) {f : Nat} {delivery : Delivery} {phase : Phase}
    (carried : (w.fibers f).code.carried = some (delivery, phase)) : w.phase delivery.state = phase := by
  rcases carries.phase_cases delivery.state with ⟨g, other, also, same⟩ | ⟨free, _⟩
  · cases carries.single g f other delivery _ phase also carried same
    cases also.symm.trans carried
    rfl
  · exact absurd rfl (free f delivery phase carried)

/-- A step that leaves the result of a call alone and moves its fiber at most one phase on. -/
theorem Carries.phase_moves (before : w.Carries) (after : d.Carries) (states : d.states[state]? = w.states[state]?)
    (moves : ∀ f delivery phase, (d.fibers f).code.carried = some (delivery, phase) → delivery.state = state →
      ∃ old earlier, (w.fibers f).code.carried = some (old, earlier) ∧ old.state = state ∧
        (phase = earlier ∨ RemoteCall.Next Lost earlier phase)) :
    d.phase state = w.phase state ∨ RemoteCall.Next Lost (w.phase state) (d.phase state) := by
  rcases after.phase_cases state with ⟨f, delivery, carried, same⟩ | ⟨free, ended⟩
  · obtain ⟨old, earlier, started, equal, forward⟩ := moves f delivery _ carried same
    rw [← equal, before.phase_carried started]
    rw [← equal] at forward
    exact forward
  · rcases before.phase_cases state with ⟨f, delivery, carried, same⟩ | ⟨_, done⟩
    · -- The fiber that carried the call has dropped it, so the result is still the first one.
      have first := before.unanswered f delivery _ carried
      rw [same] at first
      obtain ⟨entry, found, cancelled⟩ := Option.map_eq_some_iff.mp first
      have closed : d.phase state = .closed (.error .cancelled) := by
        rw [ended, states, found, ← cancelled]
        rfl
      rw [closed]
      obtain ⟨begun, under⟩ := Code.carried_under carried
      exact Or.inr (.lose begun under (Or.inl rfl))
    · exact Or.inl (by rw [ended, done, states])

/-- A call whose fiber goes on stays in its phase or goes to the next one. -/
theorem Carries.phase_passes (before : w.Carries) (after : d.Carries)
    (codes : ∀ f, (w.fibers f).code.Passes (d.fibers f).code) (states : d.states[state]? = w.states[state]?) :
    d.phase state = w.phase state ∨ RemoteCall.Next Lost (w.phase state) (d.phase state) := by
  refine before.phase_moves after states fun f delivery phase carried same => ?_
  obtain ⟨old, earlier, started, equal, forward⟩ := (codes f).carried delivery phase carried
  exact ⟨old, earlier, started, (Delivery.call_state equal).symm.trans same, forward⟩

/-- A call begins, and the others stay as they are. -/
theorem Requests.phase {f : Nat} {delivery : Delivery} {handles : Option Delivery} (requests : w.Requests f delivery handles d)
    (own : (w.fibers f).code.carried = handles.map fun delivery => (delivery, .handled)) (before : w.Carries)
    (after : d.Carries) (state : Nat) :
    d.phase state = w.phase state ∨ RemoteCall.Next Lost (w.phase state) (d.phase state) := by
  by_cases fresh : state = w.states.length
  · have unsent : w.phase state = .unsent := by
      rcases before.phase_cases state with ⟨f, delivery, carried, same⟩ | ⟨_, ended⟩
      · exact absurd (same.trans fresh) (Nat.ne_of_lt (before.numbered carried))
      · rw [ended, fresh, List.getElem?_eq_none (Nat.le_refl _)]
        rfl
    have carried : (d.fibers w.nextFiber).code.carried = some (delivery, .sent) := by
      rw [requests.carrier]
      rfl
    have sent := after.phase_carried carried
    rw [requests.number, ← fresh] at sent
    rw [unsent, sent]
    exact Or.inr .send
  · refine before.phase_moves after ?_ fun g other phase carried same => ?_
    · rw [requests.states]
      rcases Nat.lt_or_ge state w.states.length with inside | outside
      · exact List.getElem?_append_left inside
      · have beyond : w.states.length + 1 ≤ state := Nat.lt_of_le_of_ne outside (Ne.symm fresh)
        rw [List.getElem?_eq_none outside, List.getElem?_eq_none]
        rw [List.length_append]
        exact beyond
    · rcases requests.carried own carried with earlier | ⟨_, rfl, _⟩
      · exact ⟨other, phase, earlier, same, Or.inl rfl⟩
      · exact absurd (same.symm.trans requests.number) fresh

/-- What is carried after the delivery fiber has ended. -/
theorem respond_carried {f g : Nat} {delivery other : Delivery} {result : RpcResult} {phase : Phase}
    (carried : ((w.respond f delivery result).fibers g).code.carried = some (other, phase)) :
    g ≠ f ∧ (w.fibers g).code.carried = some (other, phase) := by
  obtain ⟨ended, codes, _⟩ := respond_effect w f delivery result
  have differs : g ≠ f := by
    rintro rfl
    rw [ended] at carried
    cases carried
  exact ⟨differs, codes g differs ▸ carried⟩

/-- The call of the delivery fiber is over. -/
theorem Carries.phase_responded (before : w.Carries) {f : Nat} {delivery : Delivery} {phase : Phase} (result : RpcResult)
    (idle : w.toRuntime.status f ≠ .awaits) (carried : (w.fibers f).code.carried = some (delivery, phase)) :
    (w.respond f delivery result).phase delivery.state = .closed result := by
  rcases (before.respond result idle carried).phase_cases delivery.state with ⟨g, other, shown, same⟩ | ⟨_, ended⟩
  · obtain ⟨differs, still⟩ := respond_carried shown
    exact absurd (before.single g f other delivery _ phase still carried same) differs
  · obtain ⟨entry, found, _⟩ := Option.map_eq_some_iff.mp (before.unanswered f delivery phase carried)
    rw [ended, (respond_states w f delivery result delivery.state).2.2 rfl, found]
    rfl

/-- A call that is answered is closed. -/
theorem Carries.phase_respond (before : w.Carries) {f : Nat} {delivery : Delivery} {phase : Phase} {result : RpcResult}
    (idle : w.toRuntime.status f ≠ .awaits) (carried : (w.fibers f).code.carried = some (delivery, phase))
    (next : RemoteCall.Next Lost phase (.closed result)) (state : Nat) :
    (w.respond f delivery result).phase state = w.phase state ∨
    RemoteCall.Next Lost (w.phase state) ((w.respond f delivery result).phase state) := by
  by_cases mine : state = delivery.state
  · subst mine
    rw [before.phase_carried carried, before.phase_responded result idle carried]
    exact Or.inr next
  · have others := (respond_states w f delivery result state).2.1 mine
    refine before.phase_moves (before.respond result idle carried) others fun g other later shown same => ?_
    exact ⟨other, later, (respond_carried shown).2, same, Or.inl rfl⟩

/-- Every step moves a call at most one phase on. -/
theorem Carries.phase_step {move : Move} (before : w.Carries) (orderly : w.toRuntime.Orderly)
    (stepped : w.step move = some d) (state : Nat) :
    d.phase state = w.phase state ∨ RemoteCall.Next Lost (w.phase state) (d.phase state) := by
  have after := before.step orderly stepped
  have scheduled := orderly.scheduled
  cases step_conveys scheduled stepped with
  | other relays states => exact before.phase_passes after (fun f => (relays.codes f).passes) (by rw [states])
  | request runs code =>
      have born := scheduled.active_born (Runtime.active_runs runs)
      refine Requests.phase (makeRequest_requests (Nat.ne_of_lt born) ..) ?_ before after state
      rw [code]
      rfl
  | @reply f delivery result _ runs code _ =>
      refine before.phase_moves after rfl fun g other phase carried same => ?_
      by_cases own : g = f
      · subst own
        simp only [onRuntime, Runtime.setCode_code] at carried
        cases carried
        exact ⟨_, .handled, by rw [code]; rfl, same, Or.inr (.reply result)⟩
      · simp only [onRuntime, Runtime.setCode, Runtime.setFiber_fibers_other _ own] at carried
        exact ⟨other, phase, carried, same, Or.inl rfl⟩
  | respond runs carried next _ => exact before.phase_respond (running_idle scheduled runs) carried next state
  | stop source _ =>
      refine before.phase_passes after (fun f => ?_) rfl
      have kept : ((w.toRuntime.stop source).fibers f).code = (w.fibers f).code :=
        (Runtime.Spares.stop w.toRuntime source).code
      simp only [onRuntime, kept]
      exact .refl _

theorem sleepUntil_code (r : Runtime Code) (f wakeUpTime : Nat) (token : Option Nat) (next : Code) :
    ((r.sleepUntil f wakeUpTime token next).fibers f).code = next := by
  unfold Runtime.sleepUntil
  split
  · exact Runtime.setCode_code
  · exact suspend_code_self ..

/-- Where a call comes from that a fiber carries after a step. -/
theorem step_carried {move : Move} (scheduled : w.toRuntime.Scheduled) (stepped : w.step move = some d) {f : Nat}
    {delivery : Delivery} {phase : Phase} (carried : (d.fibers f).code.carried = some (delivery, phase)) :
    (∃ old earlier, (w.fibers f).code.carried = some (old, earlier) ∧ delivery.call = old.call ∧
      (phase = earlier ∨ earlier = .sent ∧ RemoteCall.Next Lost .sent phase)) ∨
    ((d.fibers f).code = .deliver delivery ∧ delivery.state = w.states.length) ∨
    ∃ result choice, phase = .answered result ∧ w.control = .runs f ∧ (w.fibers f).code = .user (some delivery) ∧
      move = .user (.reply result) choice := by
  have stays : (w.fibers f).code.carried = some (delivery, phase) →
      ∃ old earlier, (w.fibers f).code.carried = some (old, earlier) ∧ delivery.call = old.call ∧
        (phase = earlier ∨ earlier = .sent ∧ RemoteCall.Next Lost .sent phase) :=
    fun before => ⟨delivery, phase, before, rfl, Or.inl rfl⟩
  cases step_conveys scheduled stepped with
  | other relays states =>
      rcases relays.codes f with equal | ⟨_, moved⟩
      · rw [equal] at carried
        exact Or.inl (stays carried)
      · exact Or.inl (moved delivery phase carried)
  | @request caller address epoch target port token handles runs code =>
      have born := scheduled.active_born (Runtime.active_runs runs)
      have requests := makeRequest_requests (Nat.ne_of_lt born) address epoch target port token handles
      rcases requests.carried (by rw [code]; rfl) carried with before | ⟨rfl, rfl, _⟩
      · exact Or.inl (stays before)
      · exact Or.inr (Or.inl ⟨requests.carrier, rfl⟩)
  | @reply g delivery given choice runs code replies =>
      by_cases own : f = g
      · subst own
        simp only [onRuntime, Runtime.setCode_code] at carried
        cases carried
        exact Or.inr (Or.inr ⟨given, choice, rfl, runs, code, replies⟩)
      · simp only [onRuntime, Runtime.setCode, Runtime.setFiber_fibers_other _ own] at carried
        exact Or.inl (stays carried)
  | respond => exact Or.inl (stays (respond_carried carried).2)
  | stop source _ =>
      have kept : ((w.toRuntime.stop source).fibers f).code = (w.fibers f).code :=
        (Runtime.Spares.stop w.toRuntime source).code
      simp only [onRuntime, kept] at carried
      exact Or.inl (stays carried)

/-- Only the handler gives an answer that is not a failure. -/
theorem Carries.answered_step {move : Move} {result : RpcResult} (before : w.Carries) (orderly : w.toRuntime.Orderly)
    (stepped : w.step move = some d) (answered : d.phase state = .answered result) :
    w.phase state = .answered result ∨ Lost result ∨
    ∃ f delivery choice, w.control = .runs f ∧ (w.fibers f).code = .user (some delivery) ∧ delivery.state = state ∧
      move = .user (.reply result) choice := by
  rcases (before.step orderly stepped).phase_cases state with ⟨f, delivery, carried, same⟩ | ⟨_, ended⟩
  · rw [answered] at carried
    rcases step_carried orderly.scheduled stepped carried with
      ⟨old, earlier, started, alike, rfl | ⟨_, refused⟩⟩ | ⟨fresh, _⟩ | ⟨given, choice, equal, runs, code, replies⟩
    · rw [← same, Delivery.call_state alike]
      exact Or.inl (before.phase_carried started)
    · cases refused with
      | refuse failed => exact Or.inr (Or.inl failed)
    · rw [fresh] at carried
      cases carried
    · cases equal
      exact Or.inr (Or.inr ⟨f, delivery, choice, runs, code, same, replies⟩)
  · rw [answered] at ended
    cases found : d.states[state]? with
    | none =>
        rw [found] at ended
        cases ended
    | some entry =>
        rw [found] at ended
        cases ended

theorem run_any {allowed : World → Move → Prop} (run : Relation.ReflTransGen (Script.Next step allowed) w d) :
    Relation.ReflTransGen (Script.Next step Any) w d :=
  Script.run_mono (fun _ _ _ => trivial) run

/-- The handler of a call starts in one step. -/
structure HandlerStarts (w d : World) (state : Nat) : Prop where
  stepped : ∃ move, w.step move = some d
  starts : ∃ f delivery handles, w.control = .runs f ∧
    (w.fibers f).code = .operation (.processRequest delivery) handles ∧
    (d.fibers f).code = .user (some delivery) ∧ delivery.state = state

/-- The handler of a call has replied before. -/
def HandlerReplied (w : World) (state : Nat) (result : RpcResult) : Prop :=
  ∃ u v f delivery choice, Reached Any u ∧ u.control = .runs f ∧ (u.fibers f).code = .user (some delivery) ∧
    delivery.state = state ∧ u.step (.user (.reply result) choice) = some v ∧
    Relation.ReflTransGen (Script.Next step Any) v w

/-- No call was sent yet. -/
theorem initial_phase (state : Nat) : initial.phase state = .unsent := by
  rcases initial_carries.phase_cases state with ⟨f, delivery, carried, _⟩ | ⟨_, ended⟩
  · cases (initial_carries.numbered carried)
  · exact ended

/-- What a handler has replied is not forgotten. -/
theorem HandlerReplied.tail {move : Move} {result : RpcResult} (replied : w.HandlerReplied state result)
    (stepped : w.step move = some d) : d.HandlerReplied state result := by
  obtain ⟨u, v, f, delivery, choice, reached, runs, code, own, replies, run⟩ := replied
  exact ⟨u, v, f, delivery, choice, reached, runs, code, own, replies, run.tail ⟨move, trivial, stepped⟩⟩

/-- An answer comes from the handler, or the call failed. -/
theorem Reached.answers (reached : Reached Any w) (result : RpcResult)
    (done : w.phase state = .answered result ∨ w.phase state = .closed result) :
    Lost result ∨ w.HandlerReplied state result := by
  induction reached with
  | refl =>
      rw [initial_phase] at done
      rcases done with answered | closed
      · cases answered
      · cases closed
  | @tail w d run last ih =>
      obtain ⟨move, _, stepped⟩ := last
      have there : Reached Any w := run
      have orderly := there.stepping stepped
      have earlier : w.phase state = .answered result ∨ w.phase state = .closed result →
          Lost result ∨ d.HandlerReplied state result := fun before => (ih before).imp_right fun replied => replied.tail stepped
      rcases done with answered | closed
      · rcases there.carries.answered_step orderly stepped answered with before | lost |
          ⟨f, delivery, choice, runs, code, own, rfl⟩
        · exact earlier (Or.inl before)
        · exact Or.inl lost
        · exact Or.inr ⟨w, d, f, delivery, choice, there, runs, code, own, stepped, .refl⟩
      · rcases there.carries.phase_step orderly stepped state with same | next
        · exact earlier (Or.inr (same.symm.trans closed))
        · rw [closed] at next
          generalize before : w.phase state = phase at next earlier
          cases next with
          | deliver => exact earlier (Or.inl rfl)
          | lose _ _ lost => exact Or.inl lost

/-- Whole runs follow the life of every call. -/
theorem phase_run {allowed : World → Move → Prop} (reached : Reached allowed w)
    (run : Relation.ReflTransGen (Script.Next step allowed) w d) (state : Nat) :
    Relation.ReflTransGen (RemoteCall.Next Lost) (w.phase state) (d.phase state) := by
  induction run with
  | refl => exact .refl
  | @tail u _ before last ih =>
      obtain ⟨move, _, stepped⟩ := last
      have there : Reached allowed u := reached.trans before
      rcases there.carries.phase_step (there.stepping stepped) stepped state with same | next
      · rw [same]
        exact ih
      · exact ih.tail next

/-- Before the handler starts the call is sent, and afterwards it is handled. -/
theorem HandlerStarts.phases (reached : Reached Any w) (starts : w.HandlerStarts d state) :
    w.phase state = .sent ∧ d.phase state = .handled := by
  obtain ⟨⟨move, stepped⟩, f, delivery, handles, _, code, program, rfl⟩ := starts
  have after := reached.carries.step (reached.stepping stepped) stepped
  exact ⟨reached.carries.phase_carried (by rw [code]; rfl), after.phase_carried (by rw [program]; rfl)⟩

/-- A started handler is in a run. -/
theorem HandlerStarts.reached (reached : Reached Any w) (starts : w.HandlerStarts d state) : Reached Any d := by
  obtain ⟨move, stepped⟩ := starts.stepped
  exact reached.tail ⟨move, trivial, stepped⟩

/-- A call that a handler has got is not sent again. -/
theorem HandlerStarts.passed {u : World} (reached : Reached Any w) (starts : w.HandlerStarts d state)
    (run : Relation.ReflTransGen (Script.Next step Any) d u) : u.phase state ≠ .sent := by
  intro sent
  have forward := RemoteCall.forward_of_run (phase_run (starts.reached reached) run state)
  rw [(starts.phases reached).2, sent] at forward
  rcases forward with same | further
  · cases same
  · exact absurd further (by decide)

end World

/-- The first host calls the second one, and the request arrives. -/
def arrivalScript : List Move :=
  twoHostsScript ++
    [.on, .pick 1, .on, .on, .does (.call (.makeRequest 1 80 none)), .on, .pick 1, .go (smooth 5),
      .pick 0, .on, .pick 0, .on, .pick 1, .on, .on, .does (.call (.registerServer 7 80)), .on, .does .wait,
      .pick 0, .on, .pick 0, .on, .pick 1, .on]

theorem arrivalScript_possible : (Script.play World.step World.NoPause World.initial arrivalScript).isSome = true := by
  decide +kernel

def arrivedWorld : World := Script.endOf World.step World.NoPause World.initial arrivalScript arrivalScript_possible

theorem arrivedWorld_reached : World.Reached World.NoPause arrivedWorld := Script.endOf_run arrivalScript_possible

/-- The handler has started. -/
def startedWorld : World := (arrivedWorld.step .on).get (by decide +kernel)

/-- The next step starts the handler of the first call. -/
theorem arrivedWorld_starts : arrivedWorld.HandlerStarts startedWorld 0 where
  stepped := ⟨.on, (Option.some_get _).symm⟩
  starts := ⟨4, ⟨0, 1, 80, none, 0, false⟩, none, rfl, rfl, rfl, rfl⟩

/-- The handler replies, and the caller runs again. -/
def replyScript : List Move :=
  [.does (.reply (.ok [1])), .on, .go (smooth 3), .pick 0, .on, .pick 0, .on, .pick 1, .on, .pick 1]

theorem replyScript_possible : (Script.play World.step World.NoPause startedWorld replyScript).isSome = true := by
  decide +kernel

def repliedWorld : World := Script.endOf World.step World.NoPause startedWorld replyScript replyScript_possible

theorem repliedWorld_run : Relation.ReflTransGen (Script.Next World.step World.NoPause) startedWorld repliedWorld :=
  Script.endOf_run replyScript_possible

theorem startedWorld_reached : World.Reached World.NoPause startedWorld :=
  arrivedWorld_reached.tail ⟨.on, by decide, (Option.some_get _).symm⟩

/-- The caller calls again, and the second request arrives. -/
def secondScript : List Move :=
  [.on, .on, .does (.call (.makeRequest 1 80 none)), .on, .pick 1, .go (smooth 1), .pick 0, .on, .pick 0, .on, .pick 1, .on]

theorem secondScript_possible : (Script.play World.step World.NoPause repliedWorld secondScript).isSome = true := by
  decide +kernel

def secondWorld : World := Script.endOf World.step World.NoPause repliedWorld secondScript secondScript_possible

theorem secondWorld_run : Relation.ReflTransGen (Script.Next World.step World.NoPause) startedWorld secondWorld :=
  repliedWorld_run.trans (Script.endOf_run secondScript_possible)

def secondStartedWorld : World := (secondWorld.step .on).get (by decide +kernel)

set_option maxRecDepth 4000 in
/-- The next step starts the handler of the second call. -/
theorem secondWorld_starts : secondWorld.HandlerStarts secondStartedWorld 1 where
  stepped := ⟨.on, (Option.some_get _).symm⟩
  starts := ⟨5, ⟨0, 1, 80, none, 1, false⟩, none, rfl, rfl, rfl, rfl⟩

/-- In every run each call goes through the phases of a remote call, and a result that is not a failure of
the network is one that its handler gave. -/
theorem calls_refine {w d : World} (reached : World.Reached World.Any w)
    (run : Relation.ReflTransGen (Script.Next World.step World.Any) w d) (state : Nat) :
    Relation.ReflTransGen (RemoteCall.Next Lost) (w.phase state) (d.phase state) ∧
    ∀ result, d.phase state = .closed result → Lost result ∨ d.HandlerReplied state result :=
  ⟨World.phase_run reached run state, fun result closed => World.Reached.answers (reached.trans run) result (Or.inr closed)⟩

/-- The first call goes on from its handler to its result. -/
theorem calls_refine_replied :
    startedWorld.phase 0 = .handled ∧ repliedWorld.phase 0 = .closed (.ok [1]) ∧
    Relation.ReflTransGen (RemoteCall.Next Lost) (startedWorld.phase 0) (repliedWorld.phase 0) :=
  ⟨by decide +kernel, by decide +kernel,
    (calls_refine (World.run_any startedWorld_reached) (World.run_any repliedWorld_run) 0).1⟩

/-- In every run the handler of a call starts at most once. -/
theorem handler_once {w d u v : World} {state : Nat} (reached : World.Reached World.Any w)
    (starts : w.HandlerStarts d state) (run : Relation.ReflTransGen (Script.Next World.step World.Any) d u) :
    ¬u.HandlerStarts v state := by
  intro again
  have later : World.Reached World.Any u := (starts.reached reached).trans run
  exact starts.passed reached run (again.phases later).1

/-- The second start is not one of the first call. -/
theorem handler_once_second : arrivedWorld.HandlerStarts startedWorld 0 ∧ ¬secondWorld.HandlerStarts secondStartedWorld 0 :=
  ⟨arrivedWorld_starts,
    handler_once (World.run_any arrivedWorld_reached) arrivedWorld_starts (World.run_any secondWorld_run)⟩

/-- A caller goes on with the result of its own last call, and only when the call is over or its token was
stopped. -/
theorem caller_returns {w d : World} {f state : Nat} {handles : Option Delivery} {choice : Choice}
    (reached : World.Reached World.Any w) (runs : w.control = .runs f)
    (code : (w.fibers f).code = .replied state handles) (goes : w.step (.go choice) = some d) :
    ∃ entry, w.states[state]? = some entry ∧ entry.caller = f ∧
      (∀ (number : Nat) (other : RpcState), w.states[number]? = some other → other.caller = f → number ≤ state) ∧
      (w.phase state = .closed entry.result ∧ (Lost entry.result ∨ w.HandlerReplied state entry.result) ∨
        entry.result = .error .cancelled ∧ ∃ g delivery phase, (w.fibers g).code.carried = some (delivery, phase) ∧
          delivery.state = state ∧ w.stopRequested delivery.token = true) := by
  have carries := reached.carries
  obtain ⟨entry, found, caller⟩ := Option.map_eq_some_iff.mp (carries.caller f state handles code)
  refine ⟨entry, found, caller, fun number other there issued => ?_, ?_⟩
  · refine carries.latest f state handles code number ?_
    rw [there, ← issued]
    rfl
  rcases carries.phase_cases state with ⟨g, delivery, carried, same⟩ | ⟨_, ended⟩
  · have first := carries.unanswered g delivery _ carried
    rw [same, found] at first
    refine Or.inr ⟨Option.some.inj first, g, delivery, _, carried, same, ?_⟩
    refine (carries.pending g delivery _ carried).resolve_right ?_
    rintro ⟨waiter, ⟨waits, held, replied⟩, _⟩
    -- The fiber that awaits the call is its caller, and the caller runs.
    have issuer := carries.caller waiter delivery.state held replied
    rw [same, found] at issuer
    cases caller.symm.trans (Option.some.inj issuer)
    exact World.running_idle (reached.stepping goes).scheduled runs waits
  · have closed : w.phase state = .closed entry.result := by
      rw [ended, found]
      rfl
    exact Or.inl ⟨closed, World.Reached.answers reached _ (Or.inr closed)⟩

/-- The caller goes on with the result of its call. -/
theorem caller_returns_replied :
    (repliedWorld.fibers 2).code = .replied 0 none ∧ ∃ entry, repliedWorld.states[0]? = some entry ∧ entry.caller = 2 := by
  have reached : World.Reached World.Any repliedWorld := World.run_any (startedWorld_reached.trans repliedWorld_run)
  have goes : repliedWorld.step .on = some ((repliedWorld.step .on).get (by decide +kernel)) := (Option.some_get _).symm
  have code : (repliedWorld.fibers 2).code = .replied 0 none := rfl
  obtain ⟨entry, found, caller, _⟩ := caller_returns reached rfl code goes
  exact ⟨code, entry, found, caller⟩

end Metamorphosis.Simulator
