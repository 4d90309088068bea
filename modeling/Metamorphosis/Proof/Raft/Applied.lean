import Metamorphosis.Proof.Calls
import Metamorphosis.Proof.Clients.ExactlyOnce
import Metamorphosis.Proof.Lifetimes
import Metamorphosis.Proof.Raft.Safety

/-!
A `RaftNode` stores its log without gaps, and its state machine has received exactly the committed part
of the log, whatever is delivered late, twice or out of order.
-/

namespace Metamorphosis
open ReplicatedLog
variable {M : StateMachine} {n : Nat}

/-- A `RaftNode` applies its committed entries to the wrapped state machine. -/
def raftReplay (M : StateMachine) (n : Nat) : Replay (raftService M n) where
  State := ExactlyOnceStateMachine M
  read rsm := rsm
  initial := .initial M
  next rsm entry := (rsm.apply entry.request).2
  output _ rsm entry := (rsm.apply entry.request).1
  construct _ := rfl
  commit commits := by
    cases commits
    rfl
  payload commits := by
    cases commits
    rfl
  becomeLeader _ := rfl
  startLeader _ := rfl
  newEntry made := by
    cases made
    rfl
  rewrite _ _ _ := rfl
  saved _ _ := rfl
  callFailed _ _ _ := rfl
  callAnswered _ _ _ := rfl
  release _ _ := rfl
  committed _ _ _ := rfl

/-- The replay of a log is the replay of its requests. -/
theorem raftReplay_run (entries : List (LogEntry M.Cmd)) :
    (raftReplay M n).run entries = (ExactlyOnceStateMachine.initial M).replay (entries.map LogEntry.request) := by
  unfold Replay.run ExactlyOnceStateMachine.replay
  rw [List.foldl_map]
  rfl

/-- The requests of the entries from one to the commit index. -/
def Node.committedRequests (node : Node (raftService M n)) : List (Request M.Cmd) :=
  (node.values.take node.commitIndex).map LogEntry.request

/-- The log of a node has the keys from one on, and what is committed of it was applied in order. -/
structure Node.Applied (node : Node (raftService M n)) : Prop where
  keys : node.raftLog.entries.map Prod.fst = List.range' 1 node.raftLog.entries.length
  commitIndex : node.commitIndex ≤ node.raftLog.entries.length
  replayed : node.ext = (ExactlyOnceStateMachine.initial M).replay node.committedRequests
  received : node.ext.stateMachine =
    M.object.run ((ExactlyOnceStateMachine.initial M).passed node.committedRequests)

/-- In every run, a node stores its log without gaps and has applied exactly what it has committed, and
while its process goes on, it commits more and keeps what it has committed. -/
theorem committed_applied (M : StateMachine) (n : Nat) {c : RaftCluster M n}
    (run : Cluster.Run Cluster.Any (.initial _) c) (x : Fin n) :
    (c.nodes x).Applied ∧ ∀ d, Cluster.Lifetime x c d → (c.nodes x).Lasts (d.nodes x) := by
  obtain ⟨a, _, sim, _, calls⟩ := Sim.invariant
    (fun c _ => c.Stamps ∧ ∀ x, CallsOk (raftReplay M n) c x (c.nodes x))
    (fun sim _ _ taken held => ⟨held.1.step taken, CallsOk.step sim held.1 taken held.2⟩)
    False.elim (Sim.initial (raftCopies M n) False) ⟨.initial _, fun _ => .construct ..⟩
    (run.atomics (Cluster.fresh_initial _)).1
  obtain ⟨log, mirrors⟩ := (sim.nodes x).log.values
  have length : (c.nodes x).raftLog.entries.length = (c.nodes x).values.length := List.length_map .. |>.symm
  have replayed : (c.nodes x).ext = (ExactlyOnceStateMachine.initial M).replay (c.nodes x).committedRequests :=
    (calls x).replayed.trans (raftReplay_run _)
  refine ⟨⟨?_, ?_, replayed, ?_⟩, fun d lifetime => (lifetime.lasts (raftCopies M n) run).1⟩
  · rw [length]
    conv_lhs => rw [log]
    exact OrderedMap.ofList_keys _
  · rw [length, mirrors.length]
    exact (sim.nodes x).commit
  · rw [replayed]
    exact ExactlyOnceStateMachine.replay_stateMachine _

/-- A crash of one node leaves the state machine of another one as it was. -/
theorem committed_applied_crash : (committedCluster.nodes 0).commitIndex = 1 ∧ (committedCluster.nodes 0).Applied ∧
    ∀ d, committedCluster.step none (.crash 1) = some d → (committedCluster.nodes 0).Lasts (d.nodes 0) := by
  obtain ⟨applied, lasts⟩ := committed_applied adder 3 committedCluster_any 0
  refine ⟨by decide +kernel, applied, fun d stepped => lasts d (.single ⟨none, .crash 1, ?_, stepped⟩)⟩
  rintro ⟨_, ran, _⟩
  exact absurd (Prod.mk.inj (Option.some.inj ran)).1 (by decide)

end Metamorphosis
