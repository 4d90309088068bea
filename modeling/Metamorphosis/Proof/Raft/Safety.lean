import Metamorphosis.Construction.RaftNode
import Metamorphosis.Proof.Decisions
import Metamorphosis.Proof.Scripts

/-!
Election safety, log matching and commit safety of `RaftNode` clusters.
-/

namespace Metamorphosis
open ReplicatedLog
variable {M : StateMachine} {n : Nat}

/-- A `RaftNode` stores the entries as their leader made them. -/
def raftCopies (M : StateMachine) (n : Nat) : Copies (raftService M n) where
  Copy := Eq
  refl _ := rfl
  term same := by rw [same]
  encode same := same
  newEntry made := by
    cases made
    rfl

/-- An entry of a RaftNode is a copy without any change. -/
theorem stores_get? {map : OrderedMap (LogEntry M.Cmd)} {items : List (Item (raftService M n))}
    (stores : Stores (raftCopies M n) map items) {index : Nat} (positive : 1 ≤ index) :
    map.get? index = (items[index - 1]?).map Prod.fst := by
  cases present : map.get? index with
  | some entry =>
      obtain ⟨_, item, found, same⟩ := stores.found present
      rw [found]
      exact congrArg some same
  | none =>
      rcases Nat.lt_or_ge (index - 1) items.length with inside | outside
      · obtain ⟨copy, _, found, _⟩ := stores.present positive (by omega)
        cases present.symm.trans found
      · rw [List.getElem?_eq_none outside]
        rfl

/-- In every run at most one node executes `BecomeLeader` in a term. A candidate is still in the term
of its election and the counted votes were given for that term, so a majority granted its vote for
the term of every new leader. -/
theorem election_safety (M : StateMachine) (n : Nat) {c : RaftCluster M n}
    (run : Cluster.Run Cluster.Any (.initial _) c) :
    (∀ first ∈ c.elected, ∀ second ∈ c.elected, first.term = second.term → first.node = second.node) ∧
    (∀ i election, (c.nodes i).mainFiber = .startCandidate election → (c.nodes i).state = .candidate →
      election.request.term = (c.nodes i).currentTerm ∧ ∃ voters : Finset (Fin n),
        voters.card = election.votesCount ∧ ∀ x ∈ voters, (x, (c.nodes i).currentTerm, i) ∈ c.granted) ∧
    (∀ record ∈ c.elected, ∃ voters : Finset (Fin n), majorityCount n ≤ voters.card ∧
      ∀ x ∈ voters, (x, record.term, record.node) ∈ c.granted) := by
  obtain ⟨a, sim⟩ := run.any_sim (raftCopies M n)
  refine ⟨?_, ?_, ?_⟩
  · intro first member second memberSecond same
    obtain ⟨L, led, node, _⟩ := sim.records.elected first member
    obtain ⟨K, ledK, nodeK, _⟩ := sim.records.elected second memberSecond
    rw [same] at led
    cases led.symm.trans ledK
    exact node.symm.trans nodeK
  · intro i election electing role
    have running := (sim.nodes i).election election electing
    obtain ⟨term, _⟩ := running.standing role
    obtain ⟨voters, count, all⟩ := running.votes
    refine ⟨term, voters, count, fun x member => ?_⟩
    rw [← term]
    exact (all x member).2.2
  · intro record member
    obtain ⟨_, _, _, _, voters⟩ := sim.records.elected record member
    exact voters

/-- A state machine that adds numbers. -/
abbrev adder : StateMachine := ⟨Nat, Nat, Nat, inferInstance, 0, 0, fun sum number => (sum + number, sum + number)⟩

/-- The first of three nodes leads, and its first entry is stored and committed with the second node. -/
def committedScript : List (Option Nat × Action (raftService adder 3)) :=
  Cluster.firstLeads _ ++ Cluster.firstSends (raftService adder 3) ⟨1, 1, (5 : Nat)⟩ ++
    [(none, .handleAppend 0), (none, .appendAnswered 0 1 (some 0))]

theorem committedScript_possible :
    ((Cluster.initial (raftService adder 3)).play Cluster.InOrder committedScript).isSome = true := by
  decide +kernel

/-- The cluster after the script. -/
def committedCluster : RaftCluster adder 3 :=
  (Cluster.initial _).endOf Cluster.InOrder committedScript committedScript_possible

theorem committedCluster_run : Cluster.Run Cluster.InOrder (.initial _) committedCluster :=
  Cluster.endOf_run committedScript_possible

theorem committedCluster_any : Cluster.Run Cluster.Any (.initial _) committedCluster :=
  committedCluster_run.weaken fun _ _ _ => trivial

/-- The only leader was elected by two of three nodes. -/
theorem election_safety_committed : (committedCluster.elected.map fun record => (record.node, record.term)) = [(0, 1)] ∧
    ∀ record ∈ committedCluster.elected, ∃ voters : Finset (Fin 3), majorityCount 3 ≤ voters.card ∧
      ∀ x ∈ voters, (x, record.term, record.node) ∈ committedCluster.granted :=
  ⟨by decide +kernel, (election_safety adder 3 committedCluster_any).2.2⟩

/-- Two logs with entries of one term at one index are identical up to that index. -/
theorem log_matching (M : StateMachine) (n : Nat) {c : RaftCluster M n}
    (run : Cluster.Run Cluster.Any (.initial _) c) {x y : Fin n} {index : Nat} {entry other : LogEntry M.Cmd}
    (found : (c.nodes x).raftLog.get? index = some entry) (foundOther : (c.nodes y).raftLog.get? index = some other)
    (sameTerm : entry.term = other.term) :
    ∀ k, k ≤ index → (c.nodes x).raftLog.get? k = (c.nodes y).raftLog.get? k := by
  obtain ⟨a, sim⟩ := run.any_sim (raftCopies M n)
  have storesX := (sim.nodes x).log
  have storesY := (sim.nodes y).log
  obtain ⟨positive, item, atX, rfl⟩ := storesX.found found
  obtain ⟨_, itemY, atY, rfl⟩ := storesY.found foundOther
  have same := (sim.wf.logLinked x).matching (sim.wf.logLinked y) atX atY sameTerm
  rw [Nat.sub_add_cancel positive] at same
  intro k below
  cases k with
  | zero =>
      have none_ {z : Fin n} : (c.nodes z).raftLog.get? 0 = none := by
        cases present : (c.nodes z).raftLog.get? 0 with
        | none => rfl
        | some copy => exact absurd ((sim.nodes z).log.found present).1 (by omega)
      rw [none_, none_]
  | succ k =>
      rw [stores_get? storesX (by omega), stores_get? storesY (by omega),
        getElem?_of_take (by omega) (take_of_take below same)]

/-- Two nodes store the request, and it is committed. -/
theorem committedCluster_log :
    (committedCluster.nodes 0).raftLog.get? 1 = some ⟨1, 1, 1, (5 : Nat)⟩ ∧
      (committedCluster.nodes 1).raftLog.get? 1 = some ⟨1, 1, 1, (5 : Nat)⟩ ∧
      (committedCluster.nodes 0).commitIndex = 1 := by
  decide +kernel

/-- Both nodes have the same entry. -/
theorem log_matching_committed : (committedCluster.nodes 0).raftLog.get? 1 = some ⟨1, 1, 1, (5 : Nat)⟩ ∧
    (committedCluster.nodes 0).raftLog.get? 1 = (committedCluster.nodes 1).raftLog.get? 1 :=
  ⟨committedCluster_log.1,
    log_matching adder 3 committedCluster_any committedCluster_log.1 committedCluster_log.2.1 rfl 1 (Nat.le_refl 1)⟩

/-- Once a node has committed an entry, every leader of a later term than the one whose leader first
committed the index stores that entry, and no node commits another entry at the index. -/
theorem commit_safety (M : StateMachine) (n : Nat) {c d : RaftCluster M n}
    (reached : Cluster.Run Cluster.InOrder (.initial _) c) (later : Cluster.Run Cluster.InOrder c d)
    {x : Fin n} {index : Nat} {entry : LogEntry M.Cmd} (committed : index ≤ (c.nodes x).commitIndex)
    (stored : (c.nodes x).raftLog.get? index = some entry) :
    ∃ T m, (d.commits.find? fun commit => index ≤ commit.2) = some (T, m) ∧
      (∀ y, (d.nodes y).state = .leader → T < (d.nodes y).currentTerm →
        (d.nodes y).raftLog.get? index = some entry) ∧
      ∀ y, index ≤ (d.nodes y).commitIndex → (d.nodes y).raftLog.get? index = some entry := by
  obtain ⟨a, simC⟩ := reached.ordered_sim (raftCopies M n) fun _ _ condition => condition
  obtain ⟨b, steps, sim⟩ := simC.run (fun _ _ _ condition => condition) reached.fresh later
  obtain ⟨positive, item, atX, rfl⟩ := (simC.nodes x).log.found stored
  have decided : Decided d b index item := by
    obtain ⟨other, decided, found⟩ := simC.decided positive committed
    cases atX.symm.trans found
    exact decided.later (later.atomics reached.fresh).1.extends steps.leadsGrow
  obtain ⟨T₀, m₀, _, recorded, inside, _⟩ := id decided
  have some_ : (d.commits.find? fun commit => index ≤ commit.2).isSome = true :=
    List.find?_isSome.mpr ⟨(T₀, m₀), recorded, decide_eq_true inside⟩
  obtain ⟨⟨T, m⟩, first⟩ := Option.isSome_iff_exists.mp some_
  have within : index ≤ m := by simpa using List.find?_some first
  refine ⟨T, m, first, fun y role laterTerm => ?_, fun y committedY => ?_⟩
  · rw [stores_get? (sim.nodes y).log positive,
      sim.leader_holds role (List.mem_of_find?_eq_some first) laterTerm positive within decided]
    rfl
  · obtain ⟨other, decidedOther, found⟩ := sim.decided positive committedY
    rw [stores_get? (sim.nodes y).log positive, found, decidedOther.unique sim positive decided]
    rfl

/-- The committed entry is in the log of every later leader. -/
theorem commit_safety_committed :
    ∃ T m, (committedCluster.commits.find? fun commit => 1 ≤ commit.2) = some (T, m) ∧
      (∀ y, (committedCluster.nodes y).state = .leader → T < (committedCluster.nodes y).currentTerm →
        (committedCluster.nodes y).raftLog.get? 1 = some ⟨1, 1, 1, (5 : Nat)⟩) ∧
      ∀ y, 1 ≤ (committedCluster.nodes y).commitIndex →
        (committedCluster.nodes y).raftLog.get? 1 = some ⟨1, 1, 1, (5 : Nat)⟩ :=
  commit_safety adder 3 committedCluster_run .refl committedCluster_log.2.2.ge committedCluster_log.1

end Metamorphosis
