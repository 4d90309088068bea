import Metamorphosis.Library.ReplicatedLog.Frame
import Metamorphosis.Proof.Atomic
import Metamorphosis.Proof.Copies

/-!
The relation between a cluster and the history of its replicated log. Most of it holds in every
run. `OrderedOk` holds as long as the calls of every session are handled in order.
-/

namespace Metamorphosis
open ReplicatedLog
variable {n : Nat} {S : Service n}

/-- The history that a cluster goes through. -/
abbrev Hist (S : Service n) := History (Fin n) (Item S)

/-- An election that still runs: the counted voters gave their votes, and while the node is a
candidate it is still in the election's term with the log it stood with. -/
structure ElectionOk (c : Cluster S) (a : Hist S) (i : Fin n) (node : Node S) (election : Election n) : Prop where
  candidate : election.request.candidateId = i
  voted : a.vote election.request.term i = some i
  votes : ∃ voters : Finset (Fin n), voters.card = election.votesCount ∧ ∀ x ∈ voters,
    election.waiting x = false ∧ a.vote election.request.term x = some i ∧ (x, election.request.term, i) ∈ c.granted
  standing : node.state = .candidate → election.request.term = node.currentTerm ∧
    a.log i = a.stood election.request.term i ∧ ∀ L, a.lead election.request.term = some L → L.node ≠ i

/-- The sessions of a leader: calls are numbered, and a waiting call is the last one. -/
structure FibersOk (c : Cluster S) (a : Hist S) (i : Fin n) (node : Node S) (fibers : LeaderFibers S) : Prop where
  running : fibers.mainSession ≠ .finished
  saved : fibers.mainSession ≠ .starting → node.matchIndex i = (a.log i).length
  own : fibers.session i = .finished
  issued : ∀ call ∈ c.appendRequests, call.request.term = node.currentTerm → call.seq < fibers.issued call.callee
  calling : ∀ j seq request, fibers.session j = .calling seq request →
    ⟨j, seq, request⟩ ∈ c.appendRequests ∧ seq + 1 = fibers.issued j ∧ request.term = node.currentTerm ∧
      request.leaderId = i ∧ request.prevLogIndex + 1 = node.nextIndex j

variable (P : Copies S)

/-- A leader and its leadership: the saved and the pending log together are the leader's log. -/
structure LeaderOk (c : Cluster S) (a : Hist S) (i : Fin n) (node : Node S) (L : Leadership (Fin n) (Item S)) :
    Prop where
  led : a.lead node.currentTerm = some L
  self : L.node = i
  start : node.currentTermStartIndex = L.start + 1
  next : node.nextIndex i = L.entries.length + 1
  pending : Mirrors P node.pendingLog (L.entries.drop (a.log i).length)
  matched : node.matchIndex i ≤ (a.log i).length
  counted : (a.log i).length ≤ L.counted i
  place : node.mainFiber ≠ .startFollower
  unsent : ∀ election, node.mainFiber = .startCandidate election → ∀ call ∈ c.appendRequests,
    call.request.term ≠ node.currentTerm
  fibers : ∀ fibers, node.mainFiber = .startLeader fibers → FibersOk c a i node fibers

/-- A node and its part of the history. -/
structure NodeOk (c : Cluster S) (a : Hist S) (i : Fin n) (node : Node S) : Prop where
  term : a.term i = node.currentTerm
  vote : a.vote node.currentTerm i = node.votedFor
  log : Stores P node.raftLog (a.log i)
  commit : node.commitIndex ≤ (a.log i).length
  election : ∀ election, node.mainFiber = .startCandidate election → ElectionOk c a i node election
  leader : node.state = .leader → ∃ L, LeaderOk P c a i node L

/-- A request carries consecutive entries of its leader's log. -/
structure RequestOf (call : AppendCall S) (L : Leadership (Fin n) (Item S)) : Prop where
  sender : L.node = call.request.leaderId
  other : call.callee ≠ L.node
  within : call.request.prevLogIndex + call.request.entries.length ≤ L.entries.length
  mirrors : Mirrors P call.request.entries
    ((L.entries.drop call.request.prevLogIndex).take call.request.entries.length)
  previous : call.request.prevLogTerm = lastTerm itemTerm (L.entries.take call.request.prevLogIndex)

/-- Every message that was ever sent. -/
structure MessagesOk (c : Cluster S) (a : Hist S) : Prop where
  voteRequests : ∀ call ∈ c.voteRequests,
    a.vote call.request.term call.request.candidateId = some call.request.candidateId ∧
    call.request.lastLogIndex = (a.stood call.request.term call.request.candidateId).length ∧
    call.request.lastLogTerm = lastTerm itemTerm (a.stood call.request.term call.request.candidateId)
  voteReplies : ∀ reply ∈ c.voteReplies, reply.2.voteGranted = true →
    a.vote reply.1.request.term reply.1.callee = some reply.1.request.candidateId ∧
    (reply.1.callee, reply.1.request.term, reply.1.request.candidateId) ∈ c.granted
  requests : ∀ call ∈ c.appendRequests, ∃ L, a.lead call.request.term = some L ∧ RequestOf P call L
  numbered : ∀ first ∈ c.appendRequests, ∀ second ∈ c.appendRequests, first.SameSession second →
    first.seq = second.seq → first = second
  handled : ∀ call ∈ c.handled, call ∈ c.appendRequests
  replies : ∀ reply ∈ c.appendReplies, reply.1 ∈ c.handled ∧ reply.1.request.term ≤ a.term reply.1.callee

/-- The records of elections and of client calls. -/
structure RecordsOk (c : Cluster S) (a : Hist S) : Prop where
  elected : ∀ record ∈ c.elected, ∃ L, a.lead record.term = some L ∧ L.node = record.node ∧
    Mirrors P record.log (L.entries.take L.start) ∧ ∃ voters : Finset (Fin n),
      majorityCount n ≤ voters.card ∧ ∀ x ∈ voters, (x, record.term, record.node) ∈ c.granted
  distinct : c.elected.Pairwise fun first second => first.term ≠ second.term
  led : ∀ T L, a.lead T = some L → ∃ record ∈ c.elected, record.term = T
  created : ∀ T L, a.lead T = some L →
    L.entries.drop L.start = (c.created.filter fun record => record.term = T).map fun record =>
      (record.entry, record.time)
  createdAt : ∀ record ∈ c.created, ∃ L, a.lead record.term = some L ∧ L.node = record.node ∧
    L.start < record.index ∧ L.entries[record.index - 1]? = some (record.entry, record.time)

/-- A request from `prev` on takes nothing from a follower that its leader counts or that the
follower shared with the leader when it entered the term. -/
structure Floor (a : Hist S) (L : Leadership (Fin n) (Item S)) (j : Fin n) (prev : Nat) : Prop where
  counted : L.counted j ≤ prev
  shared : ∀ m, m ≤ L.start → (a.base j).take m = L.entries.take m → m ≤ prev

/-- A follower that has not entered the term gets entries from the leader's start on. -/
structure PrevOk (a : Hist S) (L : Leadership (Fin n) (Item S)) (T : Nat) (j : Fin n) (prev : Nat) : Prop where
  behind : a.term j < T → prev = L.start
  current : a.term j = T → Floor a L j prev

/-- An index that is committed by the leader of some term up to `bound`. -/
def Covered (c : Cluster S) (bound index : Nat) : Prop :=
  index = 0 ∨ ∃ T m, (T, m) ∈ c.commits ∧ T ≤ bound ∧ index ≤ m

/-- A committed prefix of a node's log is a prefix of the log of a leader that committed it. -/
def Certified (c : Cluster S) (a : Hist S) (i : Fin n) (index : Nat) : Prop :=
  index = 0 ∨ ∃ T m L, (T, m) ∈ c.commits ∧ T ≤ a.term i ∧ index ≤ m ∧ a.lead T = some L ∧
    (a.log i).take index = L.entries.take index

/-- Every handled call of the same session is older. -/
def Deliverable (c : Cluster S) (call : AppendCall S) : Prop :=
  ∀ earlier ∈ c.handled, earlier.SameSession call → earlier.seq < call.seq

/-- No handled call of the same session is newer. -/
def Latest (c : Cluster S) (call : AppendCall S) : Prop :=
  ∀ other ∈ c.handled, other.SameSession call → other.seq ≤ call.seq

/-- What the last answer of a session says about the follower. -/
structure ReplyOk (a : Hist S) (L : Leadership (Fin n) (Item S)) (call : AppendCall S)
    (result : AppendEntriesResult) : Prop where
  success : result.success = true →
    call.request.prevLogIndex + call.request.entries.length ≤ a.ack call.request.term call.callee
  failure : result.success = false → result.term ≤ call.request.term → a.term call.callee = call.request.term →
    (a.log call.callee).take call.request.prevLogIndex ≠ L.entries.take call.request.prevLogIndex

/-- What in-order handling adds. -/
structure OrderedOk (c : Cluster S) (a : Hist S) : Prop where
  leaders : ∀ i L, (c.nodes i).state = .leader → a.lead (c.nodes i).currentTerm = some L → ∀ j, j ≠ i →
    (c.nodes i).matchIndex j ≤ L.counted j ∧
      PrevOk a L (c.nodes i).currentTerm j ((c.nodes i).nextIndex j - 1)
  requests : ∀ call ∈ c.appendRequests, Deliverable c call → ∀ L, a.lead call.request.term = some L →
    PrevOk a L call.request.term call.callee call.request.prevLogIndex
  replies : ∀ reply ∈ c.appendReplies, Latest c reply.1 → ∀ L, a.lead reply.1.request.term = some L →
    ReplyOk a L reply.1 reply.2
  commits : ∀ T m, (T, m) ∈ c.commits → Chosen (QuorumSystem.majority n) a T m
  covered : ∀ call ∈ c.appendRequests, Covered c call.request.term call.request.leaderCommit
  certified : ∀ i, Certified c a i (c.nodes i).commitIndex

/-- A cluster and its history. -/
structure Sim (strict : Prop) (c : Cluster S) (a : Hist S) : Prop where
  wf : Wf itemTerm (QuorumSystem.majority n) a
  safe : strict → Safe (QuorumSystem.majority n) a
  nodes : ∀ i, NodeOk P c a i (c.nodes i)
  messages : MessagesOk P c a
  records : RecordsOk P c a
  ordered : strict → OrderedOk c a

/-- The history can go on so that it matches a later cluster. -/
def Matched (strict : Prop) (a : Hist S) (d : Cluster S) : Prop :=
  ∃ b, Steps itemTerm (QuorumSystem.majority n) strict a b ∧ Sim P strict d b

/-- A node alone moves in the history, and no follower rewrites its log. -/
structure Calm (strict : Prop) (i : Fin n) (a b : Hist S) : Prop where
  steps : Steps itemTerm (QuorumSystem.majority n) strict a b
  grows : Grows a b
  frame : Frame i a b
  quiet : Quiet a b
  counts : SameCounts a b

end Metamorphosis
