import Metamorphosis.Proof.Decisions
import Metamorphosis.Proof.Raft.Safety

/-!
What holds of a node from one term to the next, also across crashes: its term, its vote, and the log that it builds
while it leads.
-/

namespace Metamorphosis
open ReplicatedLog
variable {n : Nat} {S : Service n} {P : Copies S} {strict : Prop} {c d : Cluster S} {a b : Hist S}
variable {allowed : Cluster S → Action S → Prop}

/-- Every vote that was granted is in the history. -/
def Voted (c : Cluster S) (a : Hist S) : Prop :=
  ∀ voter term candidate, (voter, term, candidate) ∈ c.granted → a.vote term voter = some candidate

/-- A vote is granted by a node that has it on its disk. -/
theorem Cluster.Atomic.granted_cases (taken : Atomic allowed c d) :
    d.granted = c.granted ∨ ∃ voter candidate, (d.nodes voter).votedFor = some candidate ∧
      d.granted = c.granted ++ [(voter, (d.nodes voter).currentTerm, candidate)] := by
  cases taken with
  | stand i _ =>
      have here : ((c.setNode i ((c.nodes i).candidacy i)).sendVotes ((c.nodes i).electionRequest i)).nodes i =
          (c.nodes i).candidacy i := Function.update_self ..
      exact Or.inr ⟨i, i, by rw [here]; rfl, by rw [here]; rfl⟩
  | replyVote call result sent granted =>
      cases given : result.voteGranted with
      | false => exact Or.inl (if_neg (by simp [given]))
      | true =>
          obtain ⟨term, voted⟩ := granted given
          refine Or.inr ⟨call.callee, call.request.candidateId, voted, ?_⟩
          change (if result.voteGranted then _ else _) = c.granted ++ [(_, (c.nodes call.callee).currentTerm, _)]
          rw [if_pos given, term]
  | commit i after _ _ =>
      rw [noteCommit_eq]
      exact Or.inl rfl
  | _ => exact Or.inl rfl

/-- Every granted vote is one of the abstract history. -/
theorem Voted.step (sim : Sim P strict c a) (simD : Sim P strict d b)
    (steps : Steps itemTerm (QuorumSystem.majority n) strict a b) (taken : Cluster.Atomic allowed c d)
    (voted : Voted c a) : Voted d b := by
  intro voter term candidate member
  have kept (old : (voter, term, candidate) ∈ c.granted) : b.vote term voter = some candidate :=
    (sim.wf.grows_steps steps).vote (voted voter term candidate old)
  rcases taken.granted_cases with same | ⟨_, _, stored, granted⟩
  · exact kept (same ▸ member)
  · rw [granted] at member
    rcases List.mem_append.mp member with old | new
    · exact kept old
    · cases List.mem_singleton.mp new
      rw [← stored]
      exact (simD.nodes voter).vote

/-- Terms never fall and votes never change, also when nodes crash after any of their writes. A node grants its vote
in a term to one candidate at most, and only in terms that it has reached. -/
theorem votes_durable (P : Copies S) {c d : Cluster S} (reached : Cluster.Run Cluster.Any (.initial S) c)
    (later : Cluster.Run Cluster.Any c d) (x : Fin n) :
    (c.nodes x).currentTerm ≤ (d.nodes x).currentTerm ∧
      (∀ candidate, (c.nodes x).votedFor = some candidate → (d.nodes x).currentTerm = (c.nodes x).currentTerm →
        (d.nodes x).votedFor = some candidate) ∧
      ∀ term candidate, (x, term, candidate) ∈ d.granted → term ≤ (d.nodes x).currentTerm ∧
        ∀ other, (x, term, other) ∈ d.granted → other = candidate := by
  obtain ⟨a, _, sim, voted⟩ := Sim.invariant Voted (fun sim simD steps taken voted => voted.step sim simD steps taken)
    False.elim (Sim.initial P False) (fun _ _ _ member => absurd member List.not_mem_nil)
    (reached.atomics (Cluster.fresh_initial S)).1
  obtain ⟨b, steps, simD, votedD⟩ := Sim.invariant Voted
    (fun sim simD steps taken voted => voted.step sim simD steps taken) False.elim sim voted
    (later.atomics reached.fresh).1
  have grows := sim.wf.grows_steps steps
  refine ⟨?_, ?_, ?_⟩
  · rw [← (sim.nodes x).term, ← (simD.nodes x).term]
    exact grows.term x
  · intro candidate stored same
    rw [← (simD.nodes x).vote, same]
    exact grows.vote ((sim.nodes x).vote.trans stored)
  · intro term candidate granted
    have vote := votedD x term candidate granted
    refine ⟨?_, fun other also => ?_⟩
    · rw [← (simD.nodes x).term]
      exact simD.wf.voteTerm vote
    · exact Option.some.inj ((votedD x term other also).symm.trans vote)

/-- The second node crashes after the leader has committed its entry. -/
theorem crashedScript_possible :
    (committedCluster.play Cluster.Any [(none, .crash 1)]).isSome = true := by
  decide +kernel

/-- The cluster after the crash. -/
def crashedCluster : RaftCluster adder 3 := committedCluster.endOf Cluster.Any _ crashedScript_possible

/-- The second node keeps its vote for the first one when it crashes. -/
theorem votes_durable_crash : (committedCluster.nodes 1).votedFor = some 0 ∧ (crashedCluster.nodes 1).votedFor = some 0 := by
  have voted : (committedCluster.nodes 1).votedFor = some 0 := by decide +kernel
  have same : (crashedCluster.nodes 1).currentTerm = (committedCluster.nodes 1).currentTerm := by decide +kernel
  have durable := votes_durable (raftCopies adder 3) committedCluster_any (Cluster.endOf_run crashedScript_possible) 1
  exact ⟨voted, durable.2.1 0 voted same⟩

/-- A node has only added to its log. -/
structure Node.Extends (before after : Node S) : Prop where
  saved : before.values <+: after.values
  log : before.values ++ before.pendingLog <+: after.values ++ after.pendingLog

theorem Node.Extends.refl (node : Node S) : node.Extends node := ⟨List.prefix_rfl, List.prefix_rfl⟩

/-- A log that grows twice has grown. -/
theorem Node.Extends.trans {first second third : Node S} (earlier : first.Extends second)
    (later : second.Extends third) : first.Extends third :=
  ⟨earlier.saved.trans later.saved, earlier.log.trans later.log⟩

/-- An indivisible change adds to the log of a node that leads before and after it. -/
theorem Sim.leader_extends (sim : Sim P strict c a) (taken : Cluster.Atomic allowed c d) {x : Fin n}
    (leads : (c.nodes x).state = .leader) (still : (d.nodes x).state = .leader) :
    (c.nodes x).Extends (d.nodes x) := by
  -- One node changes, and only what happens if it is the leader has to be shown.
  have node {i : Fin n} {after : Node S} (nodes : d.nodes = (c.setNode i after).nodes)
      (here : (c.nodes i).state = .leader → after.state = .leader → (c.nodes i).Extends after) :
      (c.nodes x).Extends (d.nodes x) := by
    rw [nodes] at still ⊢
    by_cases self : x = i
    · subst self
      rw [Cluster.setNode_self] at still ⊢
      exact here leads still
    · rw [Cluster.setNode_other c after self]
      exact .refl _
  cases taken with
  | restart i => exact node rfl fun _ role => by cases role
  | standCrash i => exact node rfl fun _ role => by cases role
  | drop call _ => exact node rfl fun _ role => by cases role
  | acceptCrash call place _ _ _ _ _ => exact node rfl fun _ role => by cases role
  | follow i term _ => exact node rfl fun _ role => by cases role
  | stand i _ => exact node rfl fun _ role => by cases role
  | elect i election _ candidate _ =>
      refine node rfl fun before _ => ?_
      rw [candidate] at before
      cases before
  | clearPending i fibers leading ended =>
      refine node rfl fun before _ => ?_
      obtain ⟨L, leader⟩ := (sim.nodes i).leader before
      exact absurd ended (leader.fibers fibers leading).running
  | reject call place _ _ _ _ =>
      refine node rfl fun _ role => ?_
      rw [Node.enter_state] at role
      cases role
  | accept call place _ _ _ _ _ result _ =>
      refine node rfl fun _ role => ?_
      have follows := (c.nodes call.callee).enter_state call.request.term
      cases follows.symm.trans role
  | commit i after _ updated =>
      have nodes : (Cluster.noteCommit (c.nodes i).commitIndex i (c.setNode i after)).nodes = (c.setNode i after).nodes := by
        rw [Cluster.noteCommit_eq]
      refine node nodes fun _ _ => ?_
      obtain ⟨result, _, rfl⟩ := Option.map_eq_some_iff.mp updated
      exact ⟨List.prefix_rfl, List.prefix_rfl⟩
  | save i fibers leading _ role =>
      refine node rfl fun _ _ => ?_
      have values : ((c.nodes i).save i fibers).values = (c.nodes i).values ++ (c.nodes i).pendingLog := by
        rw [Node.values, sim.saved_log leading role, OrderedMap.ofList_values]
      constructor
      · rw [values]
        exact List.prefix_append ..
      · rw [values]
        exact List.prefix_append ..
  | append i request entry ext _ _ _ _ =>
      refine node rfl fun _ _ => ⟨List.prefix_rfl, ?_⟩
      change _ <+: (c.nodes i).values ++ ((c.nodes i).pendingLog ++ [entry])
      rw [← List.append_assoc]
      exact List.prefix_append ..
  | replyVote call result _ _ => exact .refl _
  | refuse call _ _ => exact .refl _
  | answer i request response _ _ => exact .refl _
  | tick => exact .refl _
  | _ => exact node rfl fun _ _ => ⟨List.prefix_rfl, List.prefix_rfl⟩

/-- A node that leads at two times of one term has only added to its log in between, whatever the other nodes sent to
it. This holds of the saved log and of the saved log together with the pending one. -/
theorem leader_appends (P : Copies S) {c d : Cluster S} (reached : Cluster.Run Cluster.Any (.initial S) c)
    (later : Cluster.Run Cluster.Any c d) {x : Fin n} (leads : (c.nodes x).state = .leader)
    (still : (d.nodes x).state = .leader) (same : (d.nodes x).currentTerm = (c.nodes x).currentTerm) :
    (c.nodes x).Extends (d.nodes x) := by
  obtain ⟨a, sim⟩ := reached.any_sim P
  obtain ⟨L, leader⟩ := (sim.nodes x).leader leads
  -- The node that has led the term once leads it at every moment in between.
  obtain ⟨_, _, _, _, extended⟩ := Sim.invariant
    (fun e b => (∃ M, b.lead (c.nodes x).currentTerm = some M ∧ M.node = x) ∧ ((e.nodes x).state = .leader →
      (e.nodes x).currentTerm = (c.nodes x).currentTerm → (c.nodes x).Extends (e.nodes x)))
    (fun {e d b _} simE _ steps taken held => by
      obtain ⟨⟨M, led, self⟩, extended⟩ := held
      obtain ⟨K, ledK, node, _⟩ := steps.leadsGrow _ M led
      refine ⟨⟨K, ledK, node.trans self⟩, fun role term => ?_⟩
      obtain ⟨before, sameTerm⟩ := simE.led_before taken led self role term
      exact (extended before sameTerm).trans (simE.leader_extends taken before role))
    False.elim sim ⟨⟨L, leader.led, leader.self⟩, fun _ _ => .refl _⟩ (later.atomics reached.fresh).1
  exact extended still same

/-- The leader takes another request and saves it. -/
theorem storedScript_possible :
    (committedCluster.play Cluster.Any [(none, .execute 0 ⟨2, 1, (7 : Nat)⟩), (none, .mainRound 0)]).isSome = true := by
  decide +kernel

/-- The cluster with the saved request. -/
def storedCluster : RaftCluster adder 3 := committedCluster.endOf Cluster.Any _ storedScript_possible

/-- The leader has saved one more entry. -/
theorem leader_appends_saved : (storedCluster.nodes 0).values = (committedCluster.nodes 0).values ++ [⟨1, 2, 1, (7 : Nat)⟩] ∧
    (committedCluster.nodes 0).Extends (storedCluster.nodes 0) := by
  have later : Cluster.Run Cluster.Any committedCluster storedCluster := Cluster.endOf_run storedScript_possible
  have leads : (committedCluster.nodes 0).state = .leader := by decide +kernel
  have still : (storedCluster.nodes 0).state = .leader := by decide +kernel
  have same : (storedCluster.nodes 0).currentTerm = (committedCluster.nodes 0).currentTerm := by decide +kernel
  exact ⟨by decide +kernel, leader_appends (raftCopies adder 3) committedCluster_any later leads still same⟩

end Metamorphosis
