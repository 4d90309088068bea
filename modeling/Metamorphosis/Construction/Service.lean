import Metamorphosis.Library.OrderedMap

/-!
`raft::RaftNode` and `mtf::MetamorphosisNode` are two copies of one node. This file holds the
messages that both exchange and, as a `Service`, the places where the copies differ.
-/

namespace Metamorphosis

/-- A candidate asks for a vote with the end of its saved log. -/
structure RequestVoteRequest (n : Nat) where
  term : Nat
  candidateId : Fin n
  lastLogIndex : Nat
  lastLogTerm : Nat
deriving DecidableEq

structure RequestVoteResult where
  term : Nat
  voteGranted : Bool
deriving DecidableEq

/-- A leader sends the entries after `prevLogIndex`. -/
structure AppendEntriesRequest (n : Nat) (Entry : Type) where
  term : Nat
  leaderId : Fin n
  prevLogIndex : Nat
  prevLogTerm : Nat
  entries : List Entry
  leaderCommit : Nat
deriving DecidableEq

structure AppendEntriesResult where
  term : Nat
  success : Bool
deriving DecidableEq

/-- `MajorityCount`. -/
def majorityCount (n : Nat) : Nat := n / 2 + 1

/-- The parts of a node that the two programs write differently. Everything they may change is
the extra state `Ext`, which the shared code only carries along. -/
structure Service (n : Nat) where
  /-- `LogEntry`. -/
  Entry : Type
  /-- The volatile members that only one of the two nodes has. -/
  Ext : Type
  /-- The argument of `Execute` or `Append`. -/
  Request : Type
  /-- What a committed index hands to the call that waits for it. -/
  Payload : Type
  /-- The answer of `Execute` or `Append`. -/
  Response : Type
  /-- `MessageDifferencer::Equals`. -/
  sameEntry : DecidableEq Entry
  term : Entry → Nat
  /-- The constructor sets the extra members from the stored log. -/
  construct : OrderedMap Entry → Ext
  /-- `BecomeLeader`. -/
  becomeLeader : Ext → Ext
  /-- `StartLeader` starts a session for every other node. -/
  startLeader : Ext → Ext
  /-- A leader answers a client at once or makes a log entry of the current term. -/
  newEntry : Ext → Nat → Request → Response ⊕ (Entry × Ext)
  /-- `AppendEntries` removes the first entries from the log and writes the second ones. -/
  rewrite : Ext → List Entry → List Entry → Ext
  /-- `StartLeaderMainSession` saves the pending entries. -/
  saved : Ext → List Entry → Ext
  /-- One index becomes committed. The entry that the log stores there is read if the node needs it. -/
  commit : Ext → Nat → Option Entry → Option (Payload × Ext)
  /-- A stored entry becomes committed without an abort. -/
  commit_stored : ∀ ext index entry, (commit ext index (some entry)).isSome
  /-- The last index of a request: leader, follower, `commit_index`, `next_index` of the leader. -/
  lastLogEntryIndex : Ext → Fin n → Fin n → Nat → Nat → Nat
  /-- The copy of an entry that a request carries: `commit_index`, index, entry. -/
  encode : Nat → Nat → Entry → Entry
  /-- A session sees that its call failed. -/
  callFailed : Ext → Fin n → Fin n → Ext
  /-- A session sees that its call was answered. -/
  callAnswered : Ext → Fin n → Fin n → Ext
  notALeader : Response
  /-- A waiting call leaves because the term has changed. -/
  release : Ext → Request → Ext
  /-- A waiting call leaves with `Commited`. -/
  committed : Ext → Request → Option Payload → Response × Ext

instance {n : Nat} (S : Service n) : DecidableEq S.Entry := S.sameEntry

end Metamorphosis
