import Metamorphosis.Construction.Handlers

namespace Metamorphosis
variable {n : Nat} {S : Service n}

/-- `StartCandidate` up to its joins: a new term, the own vote and one fiber for every other node. -/
def startCandidate (self : Fin n) : NodeProcess S (RequestVoteRequest n) := do
  let node ← Process.get
  updateTerm (node.currentTerm + 1) (some self)
  let node ← Process.get
  let request : RequestVoteRequest n :=
    ⟨node.currentTerm, self, node.getSavedLogSize, node.getLastSavedLogTerm⟩
  Process.modify fun node =>
    { node with mainFiber := .startCandidate ⟨request, 1, fun j => j ≠ self⟩ }
  pure request

/-- `StartLeader` up to its joins. -/
def startLeader (self : Fin n) : NodeProcess S Unit :=
  Process.modify fun node =>
    { node with
      mainFiber := .startLeader
        ⟨fun j => if j = self then .finished else .loop, fun _ => 0, .starting⟩
      ext := S.startLeader node.ext }

/-- `StartFollower` ends with an expired timeout. The loop of `StartNode` enters `StartCandidate`. -/
def electionTimeout (self : Fin n) : NodeProcess S (RequestVoteRequest n) := do
  becomeCandidate
  startCandidate self

/-- The loop of `StartNode` chooses by `state` what to run next. -/
def startNode (self : Fin n) : NodeProcess S (Option (RequestVoteRequest n)) := do
  let node ← Process.get
  match node.state with
  | .leader => do
      startLeader self
      pure none
  | .follower => do
      Process.modify fun node => { node with mainFiber := .startFollower }
      pure none
  | .candidate => do
      let request ← startCandidate self
      pure (some request)

/-- A vote fiber of `StartCandidate` gets the result of its call. -/
def voteAnswered (election : Election n) (j : Fin n) (result : Option RequestVoteResult) :
    NodeProcess S Unit := do
  let left := { election with waiting := Function.update election.waiting j false }
  Process.modify fun node => { node with mainFiber := .startCandidate left }
  let node ← Process.get
  match result with
  | none => pure ()
  | some answer =>
      if node.currentTerm < answer.term then followTerm answer.term
      else if answer.voteGranted then do
        let counted := { left with votesCount := left.votesCount + 1 }
        Process.modify fun node => { node with mainFiber := .startCandidate counted }
        if counted.votesCount = majorityCount n ∧ node.state = .candidate then becomeLeader else pure ()
      else pure ()

/-- The nodes that store an index as far as the leader knows. -/
def Node.matchCount (node : Node S) (index : Nat) : Nat :=
  (Finset.univ.filter fun j => index ≤ node.matchIndex j).card

/-- The loop of `UpdateCommitIndex` that searches downwards. -/
def Node.findCommitIndex (node : Node S) : Nat → Nat
  | 0 => node.commitIndex
  | index + 1 =>
      if node.commitIndex < index + 1 ∧ node.currentTermStartIndex ≤ index + 1 then
        if majorityCount n ≤ node.matchCount (index + 1) then index + 1
        else node.findCommitIndex index
      else node.commitIndex

/-- `UpdateCommitIndex`. -/
def updateCommitIndex : NodeProcess S Unit := do
  let node ← Process.get
  commitUpTo true (node.findCommitIndex node.getSavedLogSize)

/-- The entries of a request, from an index on. -/
def Node.collectEntries (node : Node S) (index : Nat) : Nat → Option (List S.Entry)
  | 0 => some []
  | count + 1 => do
      let entry ← node.getLogEntry index
      let rest ← node.collectEntries (index + 1) count
      some (S.encode node.commitIndex index entry :: rest)

/-- The term of the entry before `next_index`. -/
def Node.prevLogTerm (node : Node S) (j : Fin n) : Option Nat :=
  if node.nextIndex j = 1 then some 0 else (node.raftLog.get? (node.nextIndex j - 1)).map S.term

/-- One round of `StartLeaderNodeSession` up to its call. -/
def sessionSend (self j : Fin n) (fibers : LeaderFibers S) :
    NodeProcess S (AppendEntriesRequest n S.Entry) := do
  let node ← Process.get
  Process.verify (1 ≤ node.nextIndex j)
  let prevLogTerm ← Process.value (node.prevLogTerm j)
  let last := S.lastLogEntryIndex node.ext self j node.commitIndex (node.nextIndex self)
  let entries ← Process.value (node.collectEntries (node.nextIndex j) (last + 1 - node.nextIndex j))
  let request : AppendEntriesRequest n S.Entry :=
    ⟨node.currentTerm, self, node.nextIndex j - 1, prevLogTerm, entries, node.commitIndex⟩
  Process.modify fun node =>
    { node with
      mainFiber := .startLeader { fibers with
        session := Function.update fibers.session j (.calling (fibers.issued j) request)
        issued := Function.update fibers.issued j (fibers.issued j + 1) } }
  pure request

/-- A session returns to the head of its loop or leaves it. -/
def setSession (j : Fin n) (fibers : LeaderFibers S) (session : Session n S.Entry) :
    NodeProcess S Unit :=
  Process.modify fun node =>
    { node with
      mainFiber := .startLeader { fibers with session := Function.update fibers.session j session } }

/-- One round of `StartLeaderNodeSession` after its call. -/
def appendAnswered (self j : Fin n) (fibers : LeaderFibers S)
    (request : AppendEntriesRequest n S.Entry) (result : Option AppendEntriesResult) :
    NodeProcess S Unit := do
  setSession j fibers .loop
  let node ← Process.get
  if node.state ≠ .leader then pure ()
  else match result with
    | none => Process.modify fun node => { node with ext := S.callFailed node.ext self j }
    | some response => do
        Process.modify fun node => { node with ext := S.callAnswered node.ext self j }
        if node.currentTerm < response.term then followTerm response.term
        else if response.success then do
          Process.modify fun node =>
            { node with
              matchIndex := Function.update node.matchIndex j (request.prevLogIndex + request.entries.length)
              nextIndex := Function.update node.nextIndex j (node.nextIndex j + request.entries.length) }
          updateCommitIndex
        else do
          Process.verify (2 ≤ node.nextIndex j)
          Process.modify fun node =>
            { node with nextIndex := Function.update node.nextIndex j (node.nextIndex j - 1) }

/-- The main session changes its place. -/
def setMainSession (fibers : LeaderFibers S) (mainSession : MainSession) : NodeProcess S Unit :=
  Process.modify fun node => { node with mainFiber := .startLeader { fibers with mainSession := mainSession } }

/-- The batch of `StartLeaderMainSession`: the pending entries are written after the saved ones. -/
def Node.saveEntries (node : Node S) (matchIndex : Nat) (pendingLog : List S.Entry) : Node S :=
  { node with
    raftLog := node.raftLog.putAll (matchIndex + 1) pendingLog
    ext := S.saved node.ext pendingLog }

/-- One round of `StartLeaderMainSession`: the pending entries are saved in one batch. -/
def saveRound (self : Fin n) (fibers : LeaderFibers S) : NodeProcess S Unit := do
  let node ← Process.get
  if node.state = .leader then do
    Process.write Node.disk fun node =>
      { node.saveEntries (node.matchIndex self) node.pendingLog with
        matchIndex := Function.update node.matchIndex self (node.matchIndex self + node.pendingLog.length)
        pendingLog := [] }
    updateCommitIndex
    setMainSession fibers .awaiting
  else setMainSession fibers .finished

/-- `StartLeaderMainSession` from its start or from a wake-up to its next wait. -/
def mainRound (self : Fin n) (fibers : LeaderFibers S) : NodeProcess S Unit := do
  if fibers.mainSession = .starting then
    Process.modify fun node =>
      { node with matchIndex := Function.update node.matchIndex self node.getSavedLogSize }
  else pure ()
  saveRound self fibers

/-- `StartLeader` after its joins. -/
def leaderEnd (self : Fin n) : NodeProcess S (Option (RequestVoteRequest n)) := do
  Process.modify fun node => { node with pendingLog := [] }
  startNode self

/-- `Execute` or `Append` up to the wait; an answer is given only when the call does not wait. -/
def execute (self : Fin n) (tag : Nat) (request : S.Request) :
    NodeProcess S (Option S.Response) := do
  let node ← Process.get
  if node.state ≠ .leader then pure (some S.notALeader)
  else match S.newEntry node.ext node.currentTerm request with
    | .inl response => pure (some response)
    | .inr (entry, ext) => do
        Process.modify fun node =>
          { node with
            nextIndex := Function.update node.nextIndex self (node.nextIndex self + 1)
            pendingLog := node.pendingLog ++ [entry]
            calls := node.calls ++ [⟨tag, request, node.nextIndex self, node.currentTerm, false, none⟩]
            pendingRequests := Function.update node.pendingRequests (node.nextIndex self) (some tag)
            mainFiber := node.mainFiber.wake
            ext := ext }
        pure none

/-- `Execute` or `Append` after the wait. -/
def resume (call : Call S) : NodeProcess S S.Response := do
  Process.modify fun node =>
    { node with
      calls := node.calls.filter fun other => other.tag ≠ call.tag
      pendingRequests := Function.update node.pendingRequests call.newLogIndex none }
  let node ← Process.get
  if call.currentTerm ≠ node.currentTerm then do
    Process.modify fun node => { node with ext := S.release node.ext call.request }
    pure S.notALeader
  else do
    Process.verify (node.state = .leader)
    let (response, ext) := S.committed node.ext call.request call.payload
    Process.modify fun node => { node with ext := ext }
    pure response

end Metamorphosis
