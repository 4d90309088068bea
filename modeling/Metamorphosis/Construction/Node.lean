import Mathlib.Data.Fintype.Card
import Mathlib.Logic.Function.Basic
import Metamorphosis.Construction.Service
import Metamorphosis.Library.Process

namespace Metamorphosis

/-- `State`. -/
inductive Role where
  | leader
  | follower
  | candidate
deriving DecidableEq

/-- The two databases of a node: `raft_state` with its two keys, and `raft_log`. -/
structure Disk {n : Nat} (S : Service n) where
  currentTerm : Option Nat
  votedFor : Option (Fin n)
  raftLog : OrderedMap S.Entry

/-- A fiber inside `Execute` or `Append` that waits on its `PendingRequest`. -/
structure Call {n : Nat} (S : Service n) where
  tag : Nat
  request : S.Request
  newLogIndex : Nat
  currentTerm : Nat
  signaled : Bool
  payload : Option S.Payload

/-- The local state of `StartCandidate`; `waiting` names the vote fibers that still run. -/
structure Election (n : Nat) where
  request : RequestVoteRequest n
  votesCount : Nat
  waiting : Fin n → Bool

/-- A fiber of `StartLeaderNodeSession`: at the loop head, inside its call, or returned. -/
inductive Session (n : Nat) (Entry : Type) where
  | loop
  | calling (seq : Nat) (request : AppendEntriesRequest n Entry)
  | finished

/-- The fiber of `StartLeaderMainSession`: not run yet, woken, inside `wake_up.Await`, or returned. -/
inductive MainSession where
  | starting
  | ready
  | awaiting
  | finished
deriving DecidableEq

/-- The fibers that `StartLeader` joins. `issued` numbers the calls of every session. -/
structure LeaderFibers {n : Nat} (S : Service n) where
  session : Fin n → Session n S.Entry
  issued : Fin n → Nat
  mainSession : MainSession

/-- Where the fiber of `StartNode` stands. -/
inductive MainFiber {n : Nat} (S : Service n) where
  | startFollower
  | startCandidate (election : Election n)
  | startLeader (fibers : LeaderFibers S)

/-- The members of a node. -/
structure Node {n : Nat} (S : Service n) where
  currentTerm : Nat
  votedFor : Option (Fin n)
  raftLog : OrderedMap S.Entry
  state : Role
  commitIndex : Nat
  matchIndex : Fin n → Nat
  nextIndex : Fin n → Nat
  currentTermStartIndex : Nat
  pendingRequests : Nat → Option Nat
  pendingLog : List S.Entry
  calls : List (Call S)
  mainFiber : MainFiber S
  ext : S.Ext

variable {n : Nat} {S : Service n}

/-- A process of one node writes to the node's disk. -/
abbrev NodeProcess (S : Service n) (A : Type) := Process (Disk S) (Node S) A

/-- The databases keep these members. -/
def Node.disk (node : Node S) : Disk S := ⟨some node.currentTerm, node.votedFor, node.raftLog⟩

/-- The constructor of the node and the start of `StartNode`. -/
def construct (disk : Disk S) : Node S where
  currentTerm := disk.currentTerm.getD 0
  votedFor := disk.votedFor
  raftLog := disk.raftLog
  state := .follower
  commitIndex := 0
  matchIndex _ := 0
  nextIndex _ := 0
  currentTermStartIndex := 0
  pendingRequests _ := none
  pendingLog := []
  calls := []
  mainFiber := .startFollower
  ext := S.construct disk.raftLog

namespace Node

/-- `GetSavedLogSize`: the last key of `raft_log`. -/
def getSavedLogSize (node : Node S) : Nat :=
  match node.raftLog.last? with
  | none => 0
  | some (key, _) => key

/-- `GetLastSavedLogTerm`. -/
def getLastSavedLogTerm (node : Node S) : Nat :=
  match node.raftLog.last? with
  | none => 0
  | some (_, entry) => S.term entry

/-- `GetLogEntry` reads the saved log and then the pending one. -/
def getLogEntry (node : Node S) (index : Nat) : Option S.Entry :=
  if 0 < index ∧ index ≤ node.getSavedLogSize + node.pendingLog.length then
    if index ≤ node.getSavedLogSize then node.raftLog.get? index
    else node.pendingLog[index - node.getSavedLogSize - 1]?
  else none

end Node

/-- `UpdateTerm` writes the term and the vote in one batch. -/
def updateTerm (term : Nat) (votedFor : Option (Fin n)) : NodeProcess S Unit := do
  let node ← Process.get
  Process.verify (node.currentTerm < term)
  Process.write Node.disk fun node => { node with currentTerm := term, votedFor := votedFor }

/-- The event `replication_finished` is signaled. -/
def Call.signal (call : Call S) : Call S := { call with signaled := true }

/-- A stopped `reset_heartbeat_timeout` wakes the main session. -/
def MainFiber.wake : MainFiber S → MainFiber S
  | .startLeader fibers =>
      .startLeader { fibers with
        mainSession := if fibers.mainSession = .awaiting then .ready else fibers.mainSession }
  | fiber => fiber

/-- `stop_leader.Stop()` signals every waiting call and wakes the main session. -/
def Node.stopLeader (node : Node S) : Node S :=
  { node with calls := node.calls.map Call.signal, mainFiber := node.mainFiber.wake }

/-- `BecomeFollower`. -/
def becomeFollower : NodeProcess S Unit := do
  let node ← Process.get
  Process.verify (node.state ≠ .follower)
  Process.modify fun node =>
    if node.state = .leader then { node.stopLeader with state := .follower }
    else { node with state := .follower }

/-- `BecomeCandidate`. -/
def becomeCandidate : NodeProcess S Unit := do
  let node ← Process.get
  Process.verify (node.state = .follower)
  Process.modify fun node => { node with state := .candidate }

/-- `BecomeLeader`. -/
def becomeLeader : NodeProcess S Unit := do
  let node ← Process.get
  Process.verify (node.state = .candidate)
  Process.modify fun node =>
    { node with
      pendingLog := []
      currentTermStartIndex := node.getSavedLogSize + 1
      nextIndex := fun _ => node.getSavedLogSize + 1
      matchIndex := fun _ => 0
      ext := S.becomeLeader node.ext
      state := .leader }

/-- A greater term in an answer turns the node into a follower of that term. -/
def followTerm (term : Nat) : NodeProcess S Unit := do
  updateTerm term none
  let node ← Process.get
  if node.state ≠ .follower then becomeFollower else pure ()

end Metamorphosis
