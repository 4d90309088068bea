import Metamorphosis.Proof.Simulation.Replication

namespace Metamorphosis
open ReplicatedLog
variable {n : Nat} {S : Service n} {P : Copies S} {strict : Prop} {c d : Cluster S} {a b : Hist S}
variable {allowed : Cluster S → Action S → Prop}

/-- Both start with empty logs. -/
theorem Sim.initial (P : Copies S) (strict : Prop) :
    Sim P strict (Cluster.initial S) (History.initial (Fin n) (Item S)) where
  wf := Wf.initial itemTerm _
  safe _ := Safe.initial _
  nodes i := .construct rfl rfl ⟨[], rfl, .nil⟩
  messages := by constructor <;> simp [Cluster.initial]
  records := by constructor <;> simp [Cluster.initial, History.initial]
  ordered _ := by
    refine ⟨?_, ?_, ?_, ?_, ?_, fun _ => Or.inl rfl⟩ <;> simp [Cluster.initial, History.initial]

/-- Every indivisible change of a cluster is a run of its history. -/
theorem Sim.atomic (sim : Sim P strict c a) (inOrder : strict → ∀ c action, allowed c action → Cluster.InOrder c action)
    (taken : Cluster.Atomic allowed c d) : Matched P strict a d := by
  have still {d : Cluster S} (same : Sim P strict d a) : Matched P strict a d := ⟨a, .refl, same⟩
  -- The condition on the step is read for the call that it handles.
  have deliverable {call : AppendCall S} {place : Nat} (sent : c.appendRequests[place]? = some call)
      (permitted : allowed c (.handleAppend place)) (isStrict : strict) : Deliverable c call :=
    inOrder isStrict c _ permitted call sent
  cases taken with
  | restart i => exact still (sim.restart i)
  | follow i term later => exact ⟨_, (Calm.advance sim.wf ((sim.nodes i).term.trans_lt later)).steps, sim.follow later⟩
  | stand i _ => exact sim.stand i
  | standCrash i => exact sim.standCrash i
  | grant call sent current unvoted grants => exact sim.grant sent current unvoted grants
  | replyVote call result _ granted => exact still (sim.replyVote granted)
  | voteLost i j election electing => exact still (sim.voteLost j electing)
  | voteCounted i election call term electing waiting asked replied =>
      exact still (sim.voteCounted electing waiting asked replied)
  | elect i election electing role deciding => exact sim.elect electing role deciding
  | startLeader i role joined => exact still (sim.startLeader role joined)
  | startFollower i role => exact still (sim.startFollower role)
  | clearPending i fibers leading ended => exact still (sim.clearPending leading ended)
  | send i j fibers prevLogTerm entries leading session role positive previous collected =>
      exact still (sim.send leading session role positive previous collected)
  | sessionEnd i j fibers _ role session => exact still (sim.sessionEnd j role session)
  | refuse call sent old => exact still (sim.refuse sent old)
  | drop call sent => exact still (sim.drop sent)
  | reject call place sent _ current unmatched => exact sim.reject (List.mem_of_getElem? sent) current unmatched
  | accept call place sent permitted current matched consistent result _ =>
      exact sim.accept (List.mem_of_getElem? sent) (deliverable sent permitted) current matched consistent _ result
  | acceptCrash call place sent permitted current matched consistent =>
      exact sim.acceptCrash (List.mem_of_getElem? sent) (deliverable sent permitted) current matched consistent
  | callFailed i j fibers seq request leading session role => exact still (sim.leaveCall leading session role _)
  | callAnswered i j fibers seq request leading session role => exact still (sim.leaveCall leading session role _)
  | acknowledge i fibers call request response leading session role replied own asked _ success place _ =>
      exact sim.acknowledge leading session role replied own asked success
  | stepBack i fibers call request response leading session role replied own asked notLater failure _ =>
      exact still (sim.stepBack leading session role replied own asked notLater failure)
  | commit i after role updated => exact still (sim.commit role updated)
  | save i fibers leading _ role => exact sim.save leading role
  | endMain i fibers _ role => exact still (sim.endMain fibers role)
  | append i request entry ext _ _ role made => exact sim.append role made
  | answer i request response _ _ => exact still (sim.noteAnswered ..)
  | release i call _ _ _ _ => exact still (sim.leave ..)
  | committed i call _ _ _ _ _ => exact still (sim.leave ..)
  | tick => exact still sim.tick

/-- What every indivisible change keeps, holds along with the history. -/
theorem Sim.invariant (Inv : Cluster S → Hist S → Prop)
    (step : ∀ {c d : Cluster S} {a b : Hist S}, Sim P strict c a → Sim P strict d b →
      Steps itemTerm (QuorumSystem.majority n) strict a b → Cluster.Atomic allowed c d → Inv c a → Inv d b)
    (inOrder : strict → ∀ c action, allowed c action → Cluster.InOrder c action) (sim : Sim P strict c a)
    (start : Inv c a) (taken : Cluster.Atomics allowed c d) :
    ∃ b, Steps itemTerm (QuorumSystem.majority n) strict a b ∧ Sim P strict d b ∧ Inv d b := by
  induction taken with
  | refl => exact ⟨a, .refl, sim, start⟩
  | tail _ last ih =>
      obtain ⟨b, steps, simB, held⟩ := ih
      obtain ⟨e, more, simE⟩ := simB.atomic inOrder last
      exact ⟨e, steps.trans more, simE, step simB simE more last held⟩

/-- A cluster goes on from a state that has a history. -/
theorem Sim.run (sim : Sim P strict c a) (inOrder : strict → ∀ c action, allowed c action → Cluster.InOrder c action)
    (fresh : c.Fresh) (run : Cluster.Run allowed c d) : Matched P strict a d := by
  obtain ⟨b, steps, simB, _⟩ :=
    Sim.invariant (fun _ _ => True) (fun _ _ _ _ _ => trivial) inOrder sim trivial (run.atomics fresh).1
  exact ⟨b, steps, simB⟩

/-- Every cluster that is reached in any run has a history. -/
theorem Cluster.Run.any_sim (P : Copies S) (run : Cluster.Run allowed (.initial S) c) : ∃ a, Sim P False c a := by
  obtain ⟨a, _, sim⟩ := (Sim.initial P False).run False.elim (Cluster.fresh_initial S) run
  exact ⟨a, sim⟩

/-- Every cluster that is reached in a run with ordered delivery has a safe history. -/
theorem Cluster.Run.ordered_sim (P : Copies S) (run : Cluster.Run allowed (.initial S) c)
    (inOrder : ∀ c action, allowed c action → Cluster.InOrder c action) : ∃ a, Sim P True c a := by
  obtain ⟨a, _, sim⟩ := (Sim.initial P True).run (fun _ => inOrder) (Cluster.fresh_initial S) run
  exact ⟨a, sim⟩

end Metamorphosis
