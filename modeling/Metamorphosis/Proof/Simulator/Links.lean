import Metamorphosis.Proof.Simulator.RemoteCalls

/-!
Closed links. `World::MakeRequest` looks at the link from the caller to the called host before the request
arrives and again before the result comes back. So while the link is closed no new request of the caller
arrives, and no result of the called host comes back. A handler that has its request already goes on.
-/

namespace Metamorphosis.Simulator

def Delivery.link (delivery : Delivery) : Nat × Nat := (delivery.sender, delivery.target)

/-- A call goes over one link. -/
theorem Delivery.call_link {a b : Delivery} (same : a.call = b.call) : a.link = b.link :=
  show a.call.link = b.call.link by rw [same]

/-- The move opens a link. -/
def Move.restores (link : Nat × Nat) : Move → Bool
  | user (.restoreLink sender target) _ => (sender, target) = link
  | _ => false

namespace World

/-- The link is not restored. -/
def LinkKept (link : Nat × Nat) (_ : World) (move : Move) : Prop := ¬move.restores link = true

instance (link : Nat × Nat) (w : World) (move : Move) : Decidable (w.LinkKept link move) := inferInstanceAs (Decidable (¬_))

variable {w d : World} {link : Nat × Nat}

/-- A closed link stays closed until it is restored or the simulation ends. -/
theorem step_closedLinks {move : Move} (closed : link ∈ w.closedLinks) (kept : w.LinkKept link move)
    (stepped : w.step move = some d) : link ∈ d.closedLinks ∨ ∀ move, d.step move = none := by
  rcases step_effect stepped with tended | ⟨_, _, _, _, _, passes⟩ | ⟨_, clears⟩
  · rcases tended.links with relinks | same
    · cases step_stepped stepped with
      | user _ _ acted =>
          cases act_called acted with
          | closeLink => exact Or.inl (List.mem_cons_of_mem _ closed)
          | restoreLink sender target =>
              refine Or.inl (List.mem_filter.mpr ⟨closed, ?_⟩)
              rw [decide_eq_true_eq]
              rintro rfl
              exact kept (decide_eq_true rfl)
          | _ => cases relinks
      | pick | go => cases relinks
    · exact Or.inl (same ▸ closed)
  · rw [passes.after, (perform_operated passes.found _).2]
    exact Or.inl closed
  · exact Or.inr clears.stuck

/-- The request of a call is at the host: the fiber is in `Host::ProcessRequest` or behind it. -/
def Arrived (w : World) (f : Nat) (call : Delivery) : Prop :=
  ∃ delivery phase, (w.fibers f).code.carried = some (delivery, phase) ∧ delivery.call = call ∧
    (phase = .sent → ∃ handles, (w.fibers f).code = .operation (.processRequest delivery) handles)

/-- A request that is sent over a closed link does not arrive. -/
theorem deliver_closed {f : Nat} {delivery : Delivery} {choice : Choice} (closed : delivery.link ∈ w.closedLinks) :
    ((w.deliver f delivery choice).fibers f).code = .finished := by
  unfold deliver
  split
  · exact (respond_effect ..).1
  · split
    · exact (respond_effect ..).1
    · rw [if_pos (show (delivery.sender, delivery.target) ∈ w.closedLinks from closed)]
      exact (respond_effect ..).1

/-- A request on its way over a closed link does not arrive. -/
theorem not_arrived {move : Move} (carries : w.Carries) (stepped : w.step move = some d) {f : Nat} {old delivery : Delivery}
    {phase : Phase} (closed : old.link ∈ w.closedLinks)
    (under : (w.fibers f).code = .deliver old ∨ (w.fibers f).code = .delivered old)
    (carried : (d.fibers f).code.carried = some (delivery, phase)) :
    phase = .sent ∧ ∀ handles, (d.fibers f).code ≠ .operation (.processRequest delivery) handles := by
  have before : (w.fibers f).code.carried = some (old, .sent) := by
    rcases under with begins | travels
    · rw [begins]
      rfl
    · rw [travels]
      rfl
  have program : ∀ held, (w.fibers f).code ≠ .user held := by
    rintro held code
    rcases under with begins | travels
    · cases begins.symm.trans code
    · cases travels.symm.trans code
  by_cases runs : w.control = .runs f
  · obtain ⟨choice, went⟩ := step_goes runs program stepped
    rcases under with begins | travels
    · rw [go, begins] at went
      cases went
      have code : ((w.toRuntime.sleepUntil f (w.currentTime + choice.delay) old.token (.delivered old)).fibers f).code =
        .delivered old := sleepUntil_code ..
      simp only [onRuntime, code] at carried ⊢
      cases carried
      exact ⟨rfl, by rintro _ ⟨⟩⟩
    · rw [go, travels] at went
      cases went
      rw [deliver_closed closed] at carried
      cases carried
  · have spared := step_spares (carries.born f old _ before) runs stepped
    rw [spared.code] at carried ⊢
    rcases under with begins | travels
    · rw [begins] at carried ⊢
      cases carried
      exact ⟨rfl, by rintro _ ⟨⟩⟩
    · rw [travels] at carried ⊢
      cases carried
      exact ⟨rfl, by rintro _ ⟨⟩⟩

/-- One step while the link is closed: whatever has arrived afterwards had arrived before. -/
theorem step_arrived {move : Move} (carries : w.Carries) (orderly : w.toRuntime.Orderly) (stepped : w.step move = some d)
    {f : Nat} {call : Delivery} (closed : call.link ∈ w.closedLinks) (arrived : d.Arrived f call) : w.Arrived f call := by
  obtain ⟨delivery, phase, carried, rfl, sent⟩ := arrived
  rcases step_carried orderly.scheduled stepped carried with
    ⟨old, earlier, started, alike, _⟩ | ⟨fresh, _⟩ | ⟨_, _, rfl, _, code, _⟩
  · refine ⟨old, earlier, started, alike.symm, ?_⟩
    rintro rfl
    have linked : old.link ∈ w.closedLinks := Delivery.call_link alike ▸ closed
    rcases Code.carried_sent started with begins | travels | already
    · obtain ⟨still, outside⟩ := not_arrived carries stepped linked (Or.inl begins) carried
      obtain ⟨held, code⟩ := sent still
      exact absurd code (outside held)
    · obtain ⟨still, outside⟩ := not_arrived carries stepped linked (Or.inr travels) carried
      obtain ⟨held, code⟩ := sent still
      exact absurd code (outside held)
    · exact already
  · rw [fresh] at carried sent
    cases carried
    obtain ⟨_, same⟩ := sent rfl
    cases same
  · exact ⟨delivery, .handled, by rw [code]; rfl, rfl, by rintro ⟨⟩⟩

/-- While the link is closed a call over it ends with a failure. -/
theorem step_closes {move : Move} (carries : w.Carries) (orderly : w.toRuntime.Orderly) (stepped : w.step move = some d)
    {f : Nat} {delivery : Delivery} {phase : Phase} {result : RpcResult}
    (carried : (w.fibers f).code.carried = some (delivery, phase)) (closed : delivery.link ∈ w.closedLinks)
    (ended : d.phase delivery.state = .closed result) : Lost result := by
  have scheduled := orderly.scheduled
  -- A step that does not set the result leaves the first one.
  have first : d.states[delivery.state]? = w.states[delivery.state]? → Lost result := by
    intro same
    rcases (carries.step orderly stepped).phase_cases delivery.state with ⟨g, other, shown, _⟩ | ⟨_, done⟩
    · rw [ended] at shown
      exact absurd rfl ((Code.carried_under shown).2 result)
    · obtain ⟨entry, found, cancelled⟩ := Option.map_eq_some_iff.mp (carries.unanswered f delivery phase carried)
      rw [ended, same, found] at done
      cases done
      exact Or.inl cancelled
  cases step_conveys scheduled stepped with
  | other _ states => exact first (by rw [states])
  | request => exact first (List.getElem?_append_left (carries.numbered carried))
  | reply | stop => exact first rfl
  | @respond g answered _ given runs shown _ linked =>
      by_cases own : delivery.state = answered.state
      · cases carries.single f g delivery answered phase _ carried shown own
        cases carried.symm.trans shown
        rw [carries.phase_responded given (running_idle scheduled runs) shown] at ended
        cases ended
        exact linked closed
      · exact first ((respond_states w g answered given delivery.state).2.1 own)

/-- After a step the call is still under way, or it is over. -/
theorem Carries.goes_on {move : Move} (carries : w.Carries) (orderly : w.toRuntime.Orderly) (stepped : w.step move = some d)
    {f : Nat} {delivery : Delivery} {phase : Phase} (carried : (w.fibers f).code.carried = some (delivery, phase)) :
    (∃ later now, (d.fibers f).code.carried = some (later, now) ∧ later.call = delivery.call) ∨
    ∃ result, d.phase delivery.state = .closed result := by
  rcases (carries.step orderly stepped).phase_cases delivery.state with ⟨g, later, shown, same⟩ | ⟨_, ended⟩
  · rcases step_carried orderly.scheduled stepped shown with
      ⟨old, earlier, started, alike, _⟩ | ⟨_, number⟩ | ⟨_, _, _, _, code, _⟩
    · cases carries.single g f old delivery earlier phase started carried ((Delivery.call_state alike).symm.trans same)
      cases started.symm.trans carried
      exact Or.inl ⟨later, _, shown, alike⟩
    · exact absurd (same.symm.trans number) (Nat.ne_of_lt (carries.numbered carried))
    · have started : (w.fibers g).code.carried = some (later, .handled) := by rw [code]; rfl
      cases carries.single g f later delivery _ phase started carried same
      cases started.symm.trans carried
      exact Or.inl ⟨_, _, shown, rfl⟩
  · cases found : d.states[delivery.state]? with
    | some entry =>
        rw [found] at ended
        exact Or.inr ⟨entry.result, ended⟩
    | none =>
        rw [found] at ended
        have forward := carries.phase_step orderly stepped delivery.state
        rw [ended, carries.phase_carried carried] at forward
        rcases forward with same | next
        · exact absurd same.symm (Code.carried_under carried).1
        · exact absurd next.forward (Nat.not_lt_zero _)

/-- What holds in a run in which the link stays closed. -/
structure Cut (link : Nat × Nat) (w d : World) : Prop where
  closed : link ∈ d.closedLinks ∨ ∀ move, d.step move = none
  arrived : ∀ f call, call.link = link → d.Arrived f call → w.Arrived f call
  results : ∀ f delivery phase, (w.fibers f).code.carried = some (delivery, phase) → delivery.link = link →
    (∃ later now, (d.fibers f).code.carried = some (later, now) ∧ later.call = delivery.call) ∨
    ∃ result, Lost result ∧ d.phase delivery.state = .closed result

/-- As long as the link stays closed, it is cut. -/
theorem cut_run (reached : Reached Any w) (closed : link ∈ w.closedLinks)
    (run : Relation.ReflTransGen (Script.Next step (LinkKept link)) w d) : Cut link w d := by
  induction run with
  | refl => exact {
      closed := Or.inl closed
      arrived := fun _ _ _ arrived => arrived
      results := fun f delivery phase carried _ => Or.inl ⟨delivery, phase, carried, rfl⟩ }
  | @tail u v before last ih =>
      obtain ⟨move, kept, stepped⟩ := last
      have there : Reached Any u := reached.trans (run_any before)
      have orderly := there.stepping stepped
      have still : link ∈ u.closedLinks := ih.closed.resolve_right fun stuck => by
        cases (stuck move).symm.trans stepped
      refine ⟨step_closedLinks still kept stepped, fun f call across arrived => ?_, fun f delivery phase carried across => ?_⟩
      · exact ih.arrived f call across (step_arrived there.carries orderly stepped (across ▸ still) arrived)
      · rcases ih.results f delivery phase carried across with ⟨later, now, shown, alike⟩ | ⟨result, lost, done⟩
        · have same := Delivery.call_state alike
          rw [← same]
          rcases there.carries.goes_on orderly stepped shown with ⟨next, phase, again, equal⟩ | ⟨result, done⟩
          · exact Or.inl ⟨next, phase, again, equal.trans alike⟩
          · have linked : later.link ∈ u.closedLinks := (Delivery.call_link alike).trans across ▸ still
            exact Or.inr ⟨result, step_closes there.carries orderly stepped shown linked done, done⟩
        · refine Or.inr ⟨result, lost, ?_⟩
          rcases there.carries.phase_step orderly stepped delivery.state with same | next
          · rw [same, done]
          · rw [done] at next
            exact RemoteCall.closed_of_run (.single next)

end World

/-- While a link stays closed, a request over it is at the host only if it was there before, and a call over
it that was under way ends with a failure if it ends. -/
theorem link_closed {w d : World} {link : Nat × Nat} (reached : World.Reached World.Any w) (closed : link ∈ w.closedLinks)
    (run : Relation.ReflTransGen (Script.Next World.step (World.LinkKept link)) w d) :
    (∀ f call, call.link = link → d.Arrived f call → w.Arrived f call) ∧
    ∀ f delivery phase result, (w.fibers f).code.carried = some (delivery, phase) → delivery.link = link →
      d.phase delivery.state = .closed result → Lost result := by
  have cut := World.cut_run reached closed run
  refine ⟨cut.arrived, fun f delivery phase result carried across done => ?_⟩
  rcases cut.results f delivery phase carried across with ⟨later, now, shown, alike⟩ | ⟨other, lost, same⟩
  · have there : World.Reached World.Any d := reached.trans (World.run_any run)
    have phases := there.carries.phase_carried shown
    rw [Delivery.call_state alike, done] at phases
    exact absurd phases.symm ((Code.carried_under shown).2 result)
  · rw [done] at same
    cases same
    exact lost

/-- The second host closes the link while a request of the first one is under way. -/
def closingScript : List Move :=
  twoHostsScript ++
    [.on, .pick 1, .on, .on, .does (.call (.makeRequest 1 80 none)), .on, .pick 1, .go (smooth 5),
      .pick 0, .on, .pick 0, .on, .pick 1, .on, .on, .does (.closeLink 0 1)]

theorem closingScript_possible : (Script.play World.step World.Any World.initial closingScript).isSome = true := by
  decide +kernel

def closedWorld : World := Script.endOf World.step World.Any World.initial closingScript closingScript_possible

/-- The request gets to the closed link. -/
def refusedScript : List Move := [.does .wait, .pick 0, .on, .pick 0, .on, .pick 1, .on]

theorem refusedScript_possible :
    (Script.play World.step (World.LinkKept (0, 1)) closedWorld refusedScript).isSome = true := by
  decide +kernel

def refusedWorld : World := Script.endOf World.step (World.LinkKept (0, 1)) closedWorld refusedScript refusedScript_possible

/-- A call over the closed link ends with a network error. -/
theorem link_closed_refused :
    (0, 1) ∈ closedWorld.closedLinks ∧ refusedWorld.phase 0 = .closed (.error .networkError) ∧
    Lost (.error .networkError) := by
  have closed : (0, 1) ∈ closedWorld.closedLinks := by decide +kernel
  have done : refusedWorld.phase 0 = .closed (.error .networkError) := by decide +kernel
  have carried : (closedWorld.fibers 4).code.carried = some (⟨0, 1, 80, none, 0, false⟩, .sent) := rfl
  have ended := link_closed (Script.endOf_run closingScript_possible) closed (Script.endOf_run refusedScript_possible)
  exact ⟨closed, done, ended.2 4 _ _ _ carried rfl done⟩

end Metamorphosis.Simulator
