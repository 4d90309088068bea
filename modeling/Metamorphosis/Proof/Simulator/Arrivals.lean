import Metamorphosis.Proof.Simulator.Hosts
import Metamorphosis.Proof.Simulator.RemoteCalls

/-!
When a handler starts. `World::MakeRequest` looks at the token right before `Host::ProcessRequest`, and on a
host that is not paused the handler starts at once. Then the caller still awaits the call, so that the
calls of one fiber are handled in the order in which they were issued.
-/

namespace Metamorphosis.Simulator

namespace World

/-- No host is paused, and a fiber in `Host::ProcessRequest` runs and was not stopped. -/
structure Direct (w : World) : Prop where
  unpaused : ∀ address host, w.hosts address = some host → host.paused = false
  arrived : ∀ f delivery handles, (w.fibers f).code = .operation (.processRequest delivery) handles →
    w.control = .runs f ∧ w.stopRequested delivery.token = false

variable {w d : World}

/-- Without a pause a host stays unpaused. -/
theorem unpaused_of_tended {pauses : Prop} (never : ¬pauses) (before after : Host)
    (run : Relation.ReflTransGen (Host.Tended pauses) before after) (unpaused : before.paused = false) :
    after.paused = false := by
  induction run with
  | refl => exact unpaused
  | tail _ last ih =>
      cases last with
      | pause may => exact absurd may never
      | resume => rfl
      | kill =>
          unfold Host.killHost
          split
          · exact ih
          · exact ih
      | start => exact ih

/-- In a step without a pause no host becomes paused. -/
theorem step_unpaused {move : Move} (unpaused : ∀ address host, w.hosts address = some host → host.paused = false)
    (allowed : w.NoPause move) (stepped : w.step move = some d) (address : Nat) (host : Host)
    (found : d.hosts address = some host) : host.paused = false := by
  rcases step_effect stepped with tended | ⟨_, _, _, operation, _, passes⟩ | ⟨_, clears⟩
  · exact (tended.hosts address).keeps (fun _ => rfl) (unpaused_of_tended allowed) (unpaused address) host found
  · rw [passes.after] at found
    exact ((perform_operated passes.found operation).1 address).keeps (fun _ => rfl) (fun _ _ same => same.paused.trans)
      (unpaused address) host found
  · rw [clears.cleared] at found
    cases found

/-- The delivery fiber goes on to `ProcessRequest` when the call was not stopped. -/
theorem deliver_arrives {f : Nat} {old delivery : Delivery} {handles : Option Delivery} {choice : Choice}
    (runs : w.control = .runs f) (travels : (w.fibers f).code = .delivered old)
    (code : ((w.deliver f old choice).fibers f).code = .operation (.processRequest delivery) handles) :
    (w.deliver f old choice).control = .runs f ∧ (w.deliver f old choice).stopRequested delivery.token = false := by
  have answers : ∀ {result : RpcResult},
      ((w.respond f old result).fibers f).code ≠ .operation (.processRequest delivery) handles := by
    intro result shown
    cases (respond_effect w f old result).1.symm.trans shown
  unfold deliver at code ⊢
  split at code
  · exact absurd code answers
  · split at code
    · exact absurd code answers
    · split at code
      · exact absurd code answers
      · rename_i delivered added linked
        rw [if_neg delivered, if_neg added, if_neg linked]
        split at code
        · cases travels.symm.trans code
        · rename_i host found
          simp only [onRuntime] at code ⊢
          split at code
          · cases (suspend_code_self ..).symm.trans code
          · rename_i running
            cases Runtime.setCode_code.symm.trans code
            rw [if_neg running]
            exact ⟨runs, eq_false_of_ne_true running⟩

/-- On a host that is not paused, a fiber in `ProcessRequest` goes on at once. -/
theorem Direct.stops (direct : w.Direct) {f : Nat} {old delivery : Delivery} {held handles : Option Delivery}
    (stops : w.Stops f (.processRequest old) held d)
    (code : (d.fibers f).code = .operation (.processRequest delivery) handles) :
    d.control = .runs f ∧ d.stopRequested delivery.token = false := by
  cases stops with
  | nowhere => exact direct.arrived f delivery handles code
  | early => exact direct.arrived f delivery handles code
  | paused _ found paused => cases (direct.unpaused _ _ found).symm.trans paused
  | killed => cases (suspend_code_self ..).symm.trans code
  | passes =>
      simp only [perform] at code
      split at code
      · cases Runtime.setCode_code.symm.trans code
      · cases Runtime.setCode_code.symm.trans code

/-- Where a request is after a step of its delivery fiber. -/
theorem Direct.run {move : Move} (direct : w.Direct) (stepped : w.step move = some d) {f : Nat} {old delivery : Delivery}
    {handles : Option Delivery} (runs : w.control = .runs f) (sent : (w.fibers f).code.carried = some (old, .sent))
    (code : (d.fibers f).code = .operation (.processRequest delivery) handles) :
    d.control = .runs f ∧ d.stopRequested delivery.token = false := by
  have apart : ∀ held, (w.fibers f).code ≠ .user held := by
    intro held program
    rw [program] at sent
    obtain ⟨_, _, equal⟩ := Option.map_eq_some_iff.mp sent
    cases equal
  obtain ⟨choice, went⟩ := step_goes runs apart stepped
  rcases Code.carried_sent sent with begins | travels | ⟨held, arrived⟩
  · rw [go, begins] at went
    cases went
    cases (sleepUntil_code ..).symm.trans code
  · rw [go, travels] at went
    cases went
    exact deliver_arrives runs travels code
  · rw [go, arrived] at went
    cases went
    exact direct.stops (stopFiberIfNecessary_stops ..) code

/-- One step. -/
theorem Direct.step {move : Move} (direct : w.Direct) (carries : w.Carries) (orderly : w.toRuntime.Orderly)
    (allowed : w.NoPause move) (stepped : w.step move = some d) : d.Direct where
  unpaused := step_unpaused direct.unpaused allowed stepped
  arrived := by
    intro f delivery handles code
    rcases step_carried orderly.scheduled stepped (f := f) (by rw [code]; rfl) with
      ⟨old, earlier, started, alike, rfl | ⟨rfl, next⟩⟩ | ⟨fresh, _⟩ | ⟨_, _, equal, _⟩
    · by_cases runs : w.control = .runs f
      · exact direct.run stepped runs started code
      · have spared := step_spares (carries.born f old _ started) runs stepped
        rw [spared.code] at code
        exact absurd (direct.arrived f delivery handles code).1 runs
    · exact absurd next.forward (Nat.lt_irrefl _)
    · rw [code] at fresh
      cases fresh
    · cases equal

/-- There are no hosts and no calls yet. -/
theorem initial_direct : initial.Direct where
  unpaused := by rintro _ _ ⟨⟩
  arrived := by
    intro f delivery handles code
    rcases initial_fiber f with ⟨_, fiber⟩ | ⟨_, fiber⟩ | ⟨_, fiber⟩
    all_goals
      rw [fiber] at code
      cases code

/-- In runs without pauses a request that has arrived is handled at once. -/
theorem Reached.direct (reached : Reached NoPause w) : w.Direct := by
  induction reached with
  | refl => exact initial_direct
  | @tail u _ before last ih =>
      obtain ⟨move, allowed, stepped⟩ := last
      have there : Reached NoPause u := before
      exact ih.step there.carries (there.stepping stepped) allowed stepped

/-- A handler starts in a step of the simulator's code. -/
theorem HandlerStarts.direct {state : Nat} (reached : Reached NoPause w) (starts : w.HandlerStarts d state) :
    Reached NoPause d := by
  obtain ⟨⟨move, stepped⟩, f, delivery, handles, runs, code, _⟩ := starts
  refine reached.tail ⟨move, ?_, stepped⟩
  cases step_stepped stepped with
  | pick => rintro ⟨⟩
  | user now program _ =>
      cases now.symm.trans runs
      cases program.symm.trans code
  | go => rintro ⟨⟩

/-- When a handler starts, the caller awaits the call and has issued no later one. -/
theorem HandlerStarts.awaited {state : Nat} (reached : Reached NoPause w) (starts : w.HandlerStarts d state) :
    ∃ caller, w.AwaitsReply caller state ∧ (w.states[state]?).map RpcState.caller = some caller ∧
      ∀ other : Nat, (w.states[other]?).map RpcState.caller = some caller → other ≤ state := by
  obtain ⟨_, f, delivery, handles, _, code, _, rfl⟩ := starts
  have carries := reached.carries
  have running := (reached.direct.arrived f delivery handles code).2
  rcases carries.pending f delivery .sent (by rw [code]; rfl) with stopped | ⟨caller, waits, _⟩
  · cases running.symm.trans stopped
  · obtain ⟨held, replied⟩ := waits.2
    exact ⟨caller, waits, carries.caller caller delivery.state held replied,
      carries.latest caller delivery.state held replied⟩

end World

/-- Without pauses a handler starts only while the caller awaits this call, and the calls of one fiber are
handled in the order in which they were issued. -/
theorem handlers_in_order {w d : World} {first : Nat} (reached : World.Reached World.NoPause w)
    (starts : w.HandlerStarts d first) :
    (∃ caller, w.AwaitsReply caller first ∧ (w.states[first]?).map RpcState.caller = some caller) ∧
    ∀ {u v : World} {second caller : Nat}, Relation.ReflTransGen (Script.Next World.step World.NoPause) d u →
      u.HandlerStarts v second → (u.states[first]?).map RpcState.caller = some caller →
      (u.states[second]?).map RpcState.caller = some caller → u.AwaitsReply caller second ∧ first < second := by
  constructor
  · obtain ⟨caller, waits, issued, _⟩ := starts.awaited reached
    exact ⟨caller, waits, issued⟩
  · intro u v second caller run later own same
    have there : World.Reached World.NoPause u := (starts.direct reached).trans run
    obtain ⟨waiter, waits, issued, latest⟩ := later.awaited there
    cases same.symm.trans issued
    refine ⟨waits, Nat.lt_of_le_of_ne (latest first own) ?_⟩
    rintro rfl
    exact starts.passed (World.run_any reached) (World.run_any run) (later.phases (World.run_any there)).1

/-- The fiber that made the first call awaits the second one when its handler starts. -/
theorem handlers_in_order_second : arrivedWorld.HandlerStarts startedWorld 0 ∧ (∃ caller, arrivedWorld.AwaitsReply caller 0) ∧
    secondWorld.AwaitsReply 2 1 := by
  have own : (secondWorld.states[0]?).map RpcState.caller = some 2 := by decide +kernel
  have same : (secondWorld.states[1]?).map RpcState.caller = some 2 := by decide +kernel
  obtain ⟨⟨caller, waits, _⟩, ordered⟩ := handlers_in_order arrivedWorld_reached arrivedWorld_starts
  exact ⟨arrivedWorld_starts, ⟨caller, waits⟩, (ordered secondWorld_run secondWorld_starts own same).1⟩

end Metamorphosis.Simulator
