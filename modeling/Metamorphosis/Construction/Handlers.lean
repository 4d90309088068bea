import Metamorphosis.Construction.Node

namespace Metamorphosis
variable {n : Nat} {S : Service n}

/-- `RequestVote` compares the ends of the two logs. -/
def Node.grantsVote (node : Node S) (request : RequestVoteRequest n) : Bool :=
  if node.getLastSavedLogTerm > request.lastLogTerm then false
  else if node.getLastSavedLogTerm = request.lastLogTerm then
    node.getSavedLogSize ≤ request.lastLogIndex
  else true

/-- The node with its vote for a candidate. -/
def Node.vote (node : Node S) (candidate : Fin n) : Node S := { node with votedFor := some candidate }

/-- `RequestVote` once the terms agree. The vote is a write of its own. -/
def castVote (term : Nat) (request : RequestVoteRequest n) : NodeProcess S RequestVoteResult := do
  let voter ← Process.get
  match voter.votedFor with
  | some candidate => pure ⟨term, candidate = request.candidateId⟩
  | none =>
      if voter.grantsVote request then do
        Process.write Node.disk fun node => node.vote request.candidateId
        pure ⟨term, true⟩
      else pure ⟨term, false⟩

/-- `RequestVote`. The answer carries the term from before the call. -/
def requestVote (request : RequestVoteRequest n) : NodeProcess S RequestVoteResult := do
  let node ← Process.get
  if request.term < node.currentTerm then pure ⟨node.currentTerm, false⟩
  else do
    if node.currentTerm < request.term then followTerm request.term else pure ()
    castVote node.currentTerm request

/-- The entry before the request's entries has the term that the leader names. -/
def prevLogMatches (request : AppendEntriesRequest n S.Entry) : NodeProcess S Bool := do
  let node ← Process.get
  if request.prevLogIndex = 0 then pure true
  else do
    let entry ← Process.value (node.raftLog.get? request.prevLogIndex)
    pure (S.term entry = request.prevLogTerm)

/-- The entries of a request that the follower has already committed are the ones it stores. -/
def Node.OverlapConsistent (node : Node S) (request : AppendEntriesRequest n S.Entry) : Prop :=
  ∀ k ∈ List.range request.entries.length, request.prevLogIndex + 1 + k ≤ node.commitIndex →
    node.raftLog.get? (request.prevLogIndex + 1 + k) = request.entries[k]?

instance (node : Node S) (request : AppendEntriesRequest n S.Entry) :
    Decidable (node.OverlapConsistent request) :=
  inferInstanceAs (Decidable (∀ _ ∈ _, _))

/-- The stored entries after an index. -/
def Node.entriesAfter (node : Node S) (index : Nat) : List S.Entry :=
  (List.range' (index + 1) (node.getSavedLogSize - index)).filterMap node.raftLog.get?

/-- A committed index is handed to the call that waits for it. -/
def Node.finish (node : Node S) (index : Nat) (payload : S.Payload) : Node S :=
  { node with
    calls := node.calls.map fun call =>
      if node.pendingRequests index = some call.tag then
        { call with payload := some payload, signaled := true }
      else call }

/-- One index becomes committed; only a leader has calls that wait for it. -/
def commitEntry (wakes : Bool) (index : Nat) : NodeProcess S Unit := do
  let node ← Process.get
  let (payload, ext) ← Process.value (S.commit node.ext index (node.raftLog.get? index))
  Process.modify fun node =>
    if wakes then { node.finish index payload with ext := ext } else { node with ext := ext }

def commitEntries (wakes : Bool) : List Nat → NodeProcess S Unit
  | [] => pure ()
  | index :: rest => do
      commitEntry wakes index
      commitEntries wakes rest

/-- The loop from `commit_index + 1` to the new commit index, and the assignment after it. -/
def commitUpTo (wakes : Bool) (newCommitIndex : Nat) : NodeProcess S Unit := do
  let node ← Process.get
  commitEntries wakes (List.range' (node.commitIndex + 1) (newCommitIndex - node.commitIndex))
  Process.modify fun node => { node with commitIndex := newCommitIndex }

/-- The batch of `AppendEntries`: the log is cut off after what it keeps, and the other entries are written. -/
def Node.writeEntries (node : Node S) (prevLogIndex commitIndex : Nat) (entries : List S.Entry) : Node S :=
  let kept := max prevLogIndex commitIndex
  let written := entries.drop (kept - prevLogIndex)
  { node with
    raftLog := (node.raftLog.deleteFrom (kept + 1)).putAll (kept + 1) written
    ext := S.rewrite node.ext (node.entriesAfter prevLogIndex) written }

/-- `AppendEntries` after its checks: the log is truncated and written in one batch, and the
commit index follows the leader's. -/
def acceptEntries (request : AppendEntriesRequest n S.Entry) : NodeProcess S Unit := do
  let node ← Process.get
  Process.verify (node.OverlapConsistent request)
  Process.write Node.disk fun node => node.writeEntries request.prevLogIndex node.commitIndex request.entries
  let node ← Process.get
  commitUpTo false (max node.commitIndex (min request.leaderCommit node.getSavedLogSize))

/-- `AppendEntries` once the node follows the leader's term. -/
def checkEntries (term : Nat) (request : AppendEntriesRequest n S.Entry) :
    NodeProcess S AppendEntriesResult := do
  Process.verify (request.prevLogIndex ≠ 0 ∨ request.prevLogTerm = 0)
  let follower ← Process.get
  if follower.getSavedLogSize < request.prevLogIndex then pure ⟨term, false⟩
  else do
    let matched ← prevLogMatches request
    if matched then do
      acceptEntries request
      pure ⟨term, true⟩
    else pure ⟨term, false⟩

/-- `AppendEntries`. The answer carries the term from before the call. -/
def appendEntries (request : AppendEntriesRequest n S.Entry) : NodeProcess S AppendEntriesResult := do
  let node ← Process.get
  if request.term < node.currentTerm then pure ⟨node.currentTerm, false⟩
  else do
    if node.state ≠ .follower then becomeFollower else pure ()
    if node.currentTerm < request.term then updateTerm request.term none else pure ()
    checkEntries node.currentTerm request

end Metamorphosis
