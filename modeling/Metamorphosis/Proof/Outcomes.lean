import Metamorphosis.Construction.Cluster

/-!
What every process of a node leaves behind, as functions of the node before it.
-/

namespace Metamorphosis
variable {n : Nat} {S : Service n}

namespace Node

/-- The node gives up its role. -/
def yield (node : Node S) : Node S :=
  { (if node.state = .leader then node.stopLeader else node) with state := .follower }

/-- The node follows a later term. -/
def follow (node : Node S) (term : Nat) : Node S :=
  { node.yield with currentTerm := term, votedFor := none }

/-- The node before the checks of `AppendEntries`. -/
def enter (node : Node S) (term : Nat) : Node S :=
  if node.currentTerm < term then node.follow term else node.yield

/-- A follower has no role to give up. -/
theorem yield_of_follower {node : Node S} (follower : node.state = .follower) : node.yield = node := by
  cases node
  simp only at follower
  simp [yield, follower]

end Node

section Yield
variable (node : Node S)

@[simp] theorem Node.yield_currentTerm : node.yield.currentTerm = node.currentTerm := by
  simp only [yield]
  split <;> rfl

@[simp] theorem Node.yield_votedFor : node.yield.votedFor = node.votedFor := by
  simp only [yield]
  split <;> rfl

@[simp] theorem Node.yield_raftLog : node.yield.raftLog = node.raftLog := by
  simp only [yield]
  split <;> rfl

@[simp] theorem Node.yield_commitIndex : node.yield.commitIndex = node.commitIndex := by
  simp only [yield]
  split <;> rfl

@[simp] theorem Node.yield_ext : node.yield.ext = node.ext := by
  simp only [yield]
  split <;> rfl

@[simp] theorem Node.yield_pendingRequests : node.yield.pendingRequests = node.pendingRequests := by
  simp only [yield]
  split <;> rfl

/-- `AppendEntries` is handled by a follower. -/
theorem Node.enter_state (term : Nat) : (node.enter term).state = .follower := by
  rw [enter]
  split <;> rfl

@[simp] theorem Node.enter_raftLog (term : Nat) : (node.enter term).raftLog = node.raftLog := by
  rw [enter]
  split
  · exact node.yield_raftLog
  · exact node.yield_raftLog

@[simp] theorem Node.enter_commitIndex (term : Nat) : (node.enter term).commitIndex = node.commitIndex := by
  rw [enter]
  split
  · exact node.yield_commitIndex
  · exact node.yield_commitIndex

@[simp] theorem Node.enter_ext (term : Nat) : (node.enter term).ext = node.ext := by
  rw [enter]
  split
  · exact node.yield_ext
  · exact node.yield_ext

variable {node}

/-- A node that gives up its role and is in an election was in it before. -/
theorem Node.electing_of_yield {election : Election n} (electing : node.yield.mainFiber = .startCandidate election) :
    node.mainFiber = .startCandidate election := by
  simp only [yield] at electing
  split at electing
  · rw [stopLeader] at electing
    cases place : node.mainFiber <;> simp_all [MainFiber.wake]
  · exact electing

/-- The node is in the term of the request. -/
theorem Node.enter_currentTerm {term : Nat} (current : node.currentTerm ≤ term) :
    (node.enter term).currentTerm = term := by
  rw [enter]
  split
  · rfl
  · rw [yield_currentTerm]
    omega

end Yield

/-- `BecomeFollower` writes nothing. -/
theorem becomeFollower_run (node : Node S) (role : node.state ≠ .follower) :
    becomeFollower node = ⟨[], some ((), node.yield)⟩ := by
  simp only [becomeFollower, Process.bind_get, Process.bind_verify, if_pos role, Process.modify_run]
  congr 3
  simp only [Node.yield]
  split <;> rfl

/-- `UpdateTerm` writes the term and the vote at once. -/
theorem updateTerm_run {node : Node S} {term : Nat} (votedFor : Option (Fin n)) (later : node.currentTerm < term) :
    updateTerm term votedFor node =
      ⟨[(Node.disk { node with currentTerm := term, votedFor := votedFor })],
        some ((), { node with currentTerm := term, votedFor := votedFor })⟩ := by
  simp only [updateTerm, Process.bind_get, Process.bind_verify, if_pos later, Process.write_run]

/-- A later term starts without a vote. -/
theorem Node.follow_disk (node : Node S) (term : Nat) :
    (node.follow term).disk = ⟨some term, none, node.raftLog⟩ := by
  simp only [follow, yield, disk]
  split <;> rfl

/-- A later term is written before the role changes. -/
theorem followTerm_run (node : Node S) {term : Nat} (later : node.currentTerm < term) :
    followTerm term node = ⟨[(node.follow term).disk], some ((), node.follow term)⟩ := by
  rw [followTerm, Process.bind_done (updateTerm_run none later), Process.bind_get, Node.follow_disk]
  by_cases role : node.state = .follower
  · rw [if_neg (not_not.mpr role), Process.pure_run, Node.follow, Node.yield_of_follower role]
    rfl
  · rw [if_pos role, becomeFollower_run { node with currentTerm := term, votedFor := none } role]
    simp only [Node.follow, Node.yield]
    split <;> rfl

/-- The voter of `RequestVote` in the term of the request. -/
def Node.voter (node : Node S) (term : Nat) : Node S :=
  if node.currentTerm < term then node.follow term else node

/-- What a change of the term to `term` writes. -/
def Node.termWrites (node : Node S) (term : Nat) : List (Disk S) :=
  if node.currentTerm < term then [⟨some term, none, node.raftLog⟩] else []

/-- A request of an older term is refused. -/
theorem requestVote_old {request : RequestVoteRequest n} {node : Node S}
    (old : request.term < node.currentTerm) :
    requestVote request node = ⟨[], some (⟨node.currentTerm, false⟩, node)⟩ := by
  rw [requestVote, Process.bind_get, if_pos old, Process.pure_run]

/-- Any other request is answered in its term. -/
theorem requestVote_run {request : RequestVoteRequest n} {node : Node S}
    (current : node.currentTerm ≤ request.term) :
    requestVote request node =
      let outcome := castVote node.currentTerm request (node.voter request.term)
      ⟨node.termWrites request.term ++ outcome.writes, outcome.result⟩ := by
  rw [requestVote, Process.bind_get, if_neg (Nat.not_lt.mpr current)]
  by_cases later : node.currentTerm < request.term
  · simp only [if_pos later, Process.bind_done (followTerm_run node later), Node.voter, Node.termWrites, Node.follow_disk]
  · simp [Node.voter, Node.termWrites, later]

/-- A vote is repeated, given or refused. -/
theorem castVote_cases (term : Nat) (request : RequestVoteRequest n) (voter : Node S) :
    (∃ candidate, voter.votedFor = some candidate ∧ castVote term request voter =
      ⟨[], some (⟨term, candidate = request.candidateId⟩, voter)⟩) ∨
    (voter.votedFor = none ∧ voter.grantsVote request = true ∧ castVote term request voter =
      ⟨[(voter.vote request.candidateId).disk], some (⟨term, true⟩, voter.vote request.candidateId)⟩) ∨
    (voter.votedFor = none ∧ castVote term request voter = ⟨[], some (⟨term, false⟩, voter)⟩) := by
  rw [castVote, Process.bind_get]
  cases vote : voter.votedFor with
  | some candidate => exact Or.inl ⟨candidate, rfl, rfl⟩
  | none =>
      by_cases grants : voter.grantsVote request = true
      · refine Or.inr (Or.inl ⟨rfl, grants, ?_⟩)
        simp only [if_pos grants]
        rfl
      · refine Or.inr (Or.inr ⟨rfl, ?_⟩)
        simp only [if_neg grants]
        rfl

/-- The calls after a committed index was handed to the one that waits for it. -/
def finishCalls (pending : Nat → Option Nat) (index : Nat) (payload : S.Payload) (calls : List (Call S)) :
    List (Call S) :=
  calls.map fun call =>
    if pending index = some call.tag then { call with payload := some payload, signaled := true } else call

/-- The loop over new committed indices, on the members that it changes. -/
def commitLoop (wakes : Bool) (log : OrderedMap S.Entry) (pending : Nat → Option Nat) :
    List Nat → S.Ext → List (Call S) → Option (S.Ext × List (Call S))
  | [], ext, calls => some (ext, calls)
  | index :: rest, ext, calls =>
      match S.commit ext index (log.get? index) with
      | none => none
      | some committed =>
          commitLoop wakes log pending rest committed.2
            (if wakes then finishCalls pending index committed.1 calls else calls)

/-- The loop of commits writes nothing, and it changes the service and the calls only. -/
theorem commitEntries_run (wakes : Bool) (indices : List Nat) (node : Node S) :
    commitEntries wakes indices node =
      ⟨[], (commitLoop wakes node.raftLog node.pendingRequests indices node.ext node.calls).map
        fun result => ((), { node with ext := result.1, calls := result.2 })⟩ := by
  induction indices generalizing node with
  | nil => rfl
  | cons index rest ih =>
      rw [commitEntries, commitLoop]
      cases commits : S.commit node.ext index (node.raftLog.get? index) with
      | none =>
          apply Process.bind_abort
          rw [commitEntry, Process.bind_get, Process.bind_value, commits]
      | some committed =>
          have first : commitEntry wakes index node =
              ⟨[], some ((), { node with
                ext := committed.2
                calls := if wakes then finishCalls node.pendingRequests index committed.1 node.calls
                  else node.calls })⟩ := by
            rw [commitEntry, Process.bind_get, Process.bind_value, commits]
            simp only [Process.modify_run]
            cases wakes <;> rfl
          rw [Process.bind_done first, ih]
          rfl

/-- The indices that a new commit index adds. -/
def Node.newlyCommitted (node : Node S) (newCommitIndex : Nat) : List Nat :=
  List.range' (node.commitIndex + 1) (newCommitIndex - node.commitIndex)

/-- The commit index is set, and the loop runs over what is newly committed. -/
theorem commitUpTo_run (wakes : Bool) (newCommitIndex : Nat) (node : Node S) :
    commitUpTo wakes newCommitIndex node =
      ⟨[], (commitLoop wakes node.raftLog node.pendingRequests (node.newlyCommitted newCommitIndex)
          node.ext node.calls).map
        fun result => ((), { node with commitIndex := newCommitIndex, ext := result.1, calls := result.2 })⟩ := by
  rw [commitUpTo, Process.bind_get]
  have entries := commitEntries_run wakes (node.newlyCommitted newCommitIndex) node
  rw [Node.newlyCommitted] at entries ⊢
  cases loop : commitLoop wakes node.raftLog node.pendingRequests
      (List.range' (node.commitIndex + 1) (newCommitIndex - node.commitIndex)) node.ext node.calls with
  | none =>
      rw [loop] at entries
      exact Process.bind_abort entries
  | some result =>
      rw [loop] at entries
      rw [Process.bind_done entries]
      rfl

namespace Node

/-- The follower stores the entry before the request's entries. -/
def PrevMatches (node : Node S) (request : AppendEntriesRequest n S.Entry) : Prop :=
  request.prevLogIndex ≤ node.getSavedLogSize ∧ (request.prevLogIndex = 0 ∨
    ∃ entry, node.raftLog.get? request.prevLogIndex = some entry ∧ S.term entry = request.prevLogTerm)

/-- The last index that a request cannot change. -/
def keptIndex (node : Node S) (request : AppendEntriesRequest n S.Entry) : Nat :=
  max request.prevLogIndex node.commitIndex

/-- The entries of a request that are written. -/
def writtenEntries (node : Node S) (request : AppendEntriesRequest n S.Entry) : List S.Entry :=
  request.entries.drop (node.keptIndex request - request.prevLogIndex)

/-- The follower after it truncated and wrote its log. -/
def rewritten (node : Node S) (request : AppendEntriesRequest n S.Entry) : Node S :=
  node.writeEntries request.prevLogIndex node.commitIndex request.entries

/-- The commit index that follows the leader's. -/
def followedCommit (node : Node S) (request : AppendEntriesRequest n S.Entry) : Nat :=
  max node.commitIndex (min request.leaderCommit node.getSavedLogSize)

end Node

/-- The check of the entry before the request aborts, or says whether it matches. -/
theorem prevLogMatches_cases (request : AppendEntriesRequest n S.Entry) (node : Node S)
    (inside : request.prevLogIndex ≤ node.getSavedLogSize) :
    prevLogMatches request node = ⟨[], none⟩ ∨
    (node.PrevMatches request ∧ prevLogMatches request node = ⟨[], some (true, node)⟩) ∨
    (¬ node.PrevMatches request ∧ prevLogMatches request node = ⟨[], some (false, node)⟩) := by
  rw [prevLogMatches, Process.bind_get]
  by_cases zero : request.prevLogIndex = 0
  · rw [if_pos zero]
    exact Or.inr (Or.inl ⟨⟨inside, Or.inl zero⟩, rfl⟩)
  · rw [if_neg zero, Process.bind_value]
    cases found : node.raftLog.get? request.prevLogIndex with
    | none => exact Or.inl rfl
    | some entry =>
        by_cases same : S.term entry = request.prevLogTerm
        · refine Or.inr (Or.inl ⟨⟨inside, Or.inr ⟨entry, found, same⟩⟩, ?_⟩)
          simp [same]
        · refine Or.inr (Or.inr ⟨?_, ?_⟩)
          · rintro ⟨_, isZero | ⟨other, foundOther, sameOther⟩⟩
            · exact zero isZero
            · rw [found, Option.some.injEq] at foundOther
              exact same (foundOther ▸ sameOther)
          · simp [same]

/-- The follower after it committed what the leader has committed. -/
def Node.committedTo (node : Node S) (commitIndex : Nat) (result : S.Ext × List (Call S)) : Node S :=
  { node with commitIndex := commitIndex, ext := result.1, calls := result.2 }

/-- The log is rewritten in one write, and then entries are committed. -/
theorem acceptEntries_run {request : AppendEntriesRequest n S.Entry} {node : Node S}
    (consistent : node.OverlapConsistent request) :
    acceptEntries request node =
      let after := node.rewritten request
      ⟨[after.disk], (commitLoop false after.raftLog after.pendingRequests
        (after.newlyCommitted (after.followedCommit request)) after.ext after.calls).map
          fun result => ((), after.committedTo (after.followedCommit request) result)⟩ := by
  simp only [acceptEntries, Process.bind_get, Process.bind_verify, if_pos consistent, Process.bind_write,
    commitUpTo_run]
  rfl

/-- The checks abort, refuse the entries, or let them be written and then committed. -/
theorem checkEntries_cases (term : Nat) (request : AppendEntriesRequest n S.Entry) (node : Node S) :
    checkEntries term request node = ⟨[], none⟩ ∨
    (¬ node.PrevMatches request ∧ checkEntries term request node = ⟨[], some (⟨term, false⟩, node)⟩) ∨
    (node.PrevMatches request ∧ node.OverlapConsistent request ∧
      let after := node.rewritten request
      checkEntries term request node = ⟨[after.disk], (commitLoop false after.raftLog after.pendingRequests
        (after.newlyCommitted (after.followedCommit request)) after.ext after.calls).map
          fun result => (⟨term, true⟩, after.committedTo (after.followedCommit request) result)⟩) := by
  rw [checkEntries, Process.bind_verify]
  by_cases valid : request.prevLogIndex ≠ 0 ∨ request.prevLogTerm = 0
  swap
  · rw [if_neg valid]
    exact Or.inl rfl
  rw [if_pos valid, Process.bind_get]
  by_cases short : node.getSavedLogSize < request.prevLogIndex
  · rw [if_pos short]
    exact Or.inr (Or.inl ⟨fun matched => absurd matched.1 (by omega), rfl⟩)
  rw [if_neg short]
  rcases prevLogMatches_cases request node (by omega) with aborted | ⟨matched, run⟩ | ⟨unmatched, run⟩
  · exact Or.inl (Process.bind_abort aborted)
  · simp only [Process.bind_done run, if_true, Process.bind_value_right]
    by_cases consistent : node.OverlapConsistent request
    · refine Or.inr (Or.inr ⟨matched, consistent, ?_⟩)
      rw [acceptEntries_run consistent]
      simp only [Option.map_map, List.nil_append]
      rfl
    · left
      rw [acceptEntries, Process.bind_get, Process.bind_verify, if_neg consistent]
      rfl
  · rw [Process.bind_done run]
    exact Or.inr (Or.inl ⟨unmatched, rfl⟩)

/-- A request of an older term is refused. -/
theorem appendEntries_old {request : AppendEntriesRequest n S.Entry} {node : Node S}
    (old : request.term < node.currentTerm) :
    appendEntries request node = ⟨[], some (⟨node.currentTerm, false⟩, node)⟩ := by
  rw [appendEntries, Process.bind_get, if_pos old, Process.pure_run]

/-- Any other request is checked by a follower of its term. -/
theorem appendEntries_run {request : AppendEntriesRequest n S.Entry} {node : Node S}
    (current : node.currentTerm ≤ request.term) :
    appendEntries request node =
      let outcome := checkEntries node.currentTerm request (node.enter request.term)
      ⟨node.termWrites request.term ++ outcome.writes, outcome.result⟩ := by
  rw [appendEntries, Process.bind_get, if_neg (Nat.not_lt.mpr current)]
  simp only [Node.enter, Node.termWrites]
  by_cases later : node.currentTerm < request.term
  · have updated : updateTerm request.term none node.yield =
        ⟨[⟨some request.term, none, node.raftLog⟩], some ((), node.follow request.term)⟩ := by
      rw [updateTerm_run none (by rwa [Node.yield_currentTerm]), ← Node.follow_disk]
      rfl
    by_cases role : node.state = .follower
    · rw [Node.yield_of_follower role] at updated
      simp only [if_pos later, if_neg (not_not.mpr role), Process.bind_done updated]
    · simp only [if_pos later, if_pos role, Process.bind_done (becomeFollower_run node role),
        Process.bind_done updated, List.nil_append]
  · by_cases role : node.state = .follower
    · simp only [if_neg later, if_neg (not_not.mpr role), Node.yield_of_follower role, List.nil_append]
    · simp only [if_neg later, if_pos role, Process.bind_done (becomeFollower_run node role), List.nil_append]

namespace Node

/-- The request with which a node stands for the next term. -/
def electionRequest (node : Node S) (self : Fin n) : RequestVoteRequest n :=
  ⟨node.currentTerm + 1, self, node.getSavedLogSize, node.getLastSavedLogTerm⟩

/-- The node after it stood for the next term. -/
def candidacy (node : Node S) (self : Fin n) : Node S :=
  { node with
    state := .candidate
    currentTerm := node.currentTerm + 1
    votedFor := some self
    mainFiber := .startCandidate ⟨node.electionRequest self, 1, fun j => j ≠ self⟩ }

/-- The node after it started its sessions. -/
def leading (node : Node S) (self : Fin n) : Node S :=
  { node with
    mainFiber := .startLeader ⟨fun j => if j = self then .finished else .loop, fun _ => 0, .starting⟩
    ext := S.startLeader node.ext }

/-- The node back in `StartFollower`. -/
def following (node : Node S) : Node S := { node with mainFiber := .startFollower }

/-- The node after `BecomeLeader`. -/
def lead (node : Node S) : Node S :=
  { node with
    pendingLog := []
    currentTermStartIndex := node.getSavedLogSize + 1
    nextIndex := fun _ => node.getSavedLogSize + 1
    matchIndex := fun _ => 0
    ext := S.becomeLeader node.ext
    state := .leader }

end Node

/-- A candidate writes its new term with a vote for itself, and then it asks the others. -/
theorem startCandidate_run {node : Node S} (self : Fin n) (candidate : node.state = .candidate) :
    startCandidate self node =
      ⟨[(node.candidacy self).disk], some (node.electionRequest self, node.candidacy self)⟩ := by
  rw [startCandidate, Process.bind_get, Process.bind_done (updateTerm_run (some self) (Nat.lt_succ_self _))]
  simp only [Process.bind_get, Process.bind_modify, Process.pure_run, Node.candidacy, ← candidate]
  rfl

/-- The timeout of a follower makes it a candidate; in any other role the process aborts. -/
theorem electionTimeout_cases (node : Node S) (self : Fin n) :
    (node.state = .follower ∧ electionTimeout self node =
      ⟨[(node.candidacy self).disk], some (node.electionRequest self, node.candidacy self)⟩) ∨
    electionTimeout self node = ⟨[], none⟩ := by
  rw [electionTimeout, becomeCandidate]
  by_cases role : node.state = .follower
  · left
    have first : (do
        let node ← Process.get
        Process.verify (node.state = .follower)
        Process.modify fun node => { node with state := .candidate } : NodeProcess S Unit) node =
        ⟨[], some ((), { node with state := .candidate })⟩ := by
      rw [Process.bind_get, Process.bind_verify, if_pos role, Process.modify_run]
    rw [Process.bind_done first, startCandidate_run self rfl]
    exact ⟨role, rfl⟩
  · right
    apply Process.bind_abort
    rw [Process.bind_get, Process.bind_verify, if_neg role]

/-- The loop of `StartNode` starts what fits the role. -/
theorem startNode_cases (node : Node S) (self : Fin n) :
    (node.state = .leader ∧ startNode self node = ⟨[], some (none, node.leading self)⟩) ∨
    (node.state = .follower ∧ startNode self node = ⟨[], some (none, node.following)⟩) ∨
    (node.state = .candidate ∧ startNode self node =
      ⟨[(node.candidacy self).disk], some (some (node.electionRequest self), node.candidacy self)⟩) := by
  rw [startNode, Process.bind_get]
  cases role : node.state with
  | leader => exact Or.inl ⟨rfl, rfl⟩
  | follower => exact Or.inr (Or.inl ⟨rfl, rfl⟩)
  | candidate =>
      refine Or.inr (Or.inr ⟨rfl, ?_⟩)
      simp only [Process.bind_done (startCandidate_run self role), Process.pure_run, List.append_nil]

/-- `BecomeLeader` writes nothing. -/
theorem becomeLeader_run (node : Node S) (candidate : node.state = .candidate) :
    becomeLeader node = ⟨[], some ((), node.lead)⟩ := by
  rw [becomeLeader, Process.bind_get, Process.bind_verify, if_pos candidate]
  rfl

/-- The vote fiber of one node has ended. -/
def Election.left (election : Election n) (j : Fin n) : Election n :=
  { election with waiting := Function.update election.waiting j false }

/-- The vote of one node is counted. -/
def Election.counted (election : Election n) (j : Fin n) : Election n :=
  { election.left j with votesCount := election.votesCount + 1 }

/-- The node inside an election. -/
def Node.electing (node : Node S) (election : Election n) : Node S :=
  { node with mainFiber := .startCandidate election }

/-- A vote fiber sees an error or a refusal, a greater term, one more vote, or the deciding vote. -/
theorem voteAnswered_cases (election : Election n) (j : Fin n) (result : Option RequestVoteResult)
    (node : Node S) :
    voteAnswered election j result node = ⟨[], some ((), node.electing (election.left j))⟩ ∨
    (∃ term, node.currentTerm < term ∧ voteAnswered election j result node =
      ⟨[((node.electing (election.left j)).follow term).disk],
        some ((), (node.electing (election.left j)).follow term)⟩) ∨
    (∃ term, result = some ⟨term, true⟩ ∧
      ((voteAnswered election j result node = ⟨[], some ((), node.electing (election.counted j))⟩) ∨
        (node.state = .candidate ∧ election.votesCount + 1 = majorityCount n ∧
          voteAnswered election j result node =
            ⟨[], some ((), (node.electing (election.counted j)).lead)⟩))) := by
  rw [voteAnswered, Process.bind_modify, Process.bind_get]
  rcases result with _ | ⟨term, granted⟩
  · exact Or.inl rfl
  by_cases later : node.currentTerm < term
  · refine Or.inr (Or.inl ⟨term, later, ?_⟩)
    simp only [if_pos later]
    exact followTerm_run (node.electing (election.left j)) later
  cases granted with
  | false =>
      left
      simp only [if_neg later]
      rfl
  | true =>
      refine Or.inr (Or.inr ⟨term, rfl, ?_⟩)
      simp only [if_neg later, if_true, Process.bind_modify]
      by_cases deciding : election.votesCount + 1 = majorityCount n ∧ node.state = .candidate
      · refine Or.inr ⟨deciding.2, deciding.1, ?_⟩
        rw [if_pos deciding]
        exact becomeLeader_run (node.electing (election.counted j)) deciding.2
      · left
        rw [if_neg deciding]
        rfl

namespace Node

/-- The request of one round of `StartLeaderNodeSession`. -/
def sessionRequest (node : Node S) (self j : Fin n) (prevLogTerm : Nat) (entries : List S.Entry) :
    AppendEntriesRequest n S.Entry :=
  ⟨node.currentTerm, self, node.nextIndex j - 1, prevLogTerm, entries, node.commitIndex⟩

/-- The node whose session waits for its call. -/
def calling (node : Node S) (j : Fin n) (fibers : LeaderFibers S) (request : AppendEntriesRequest n S.Entry) :
    Node S :=
  { node with
    mainFiber := .startLeader { fibers with
      session := Function.update fibers.session j (.calling (fibers.issued j) request)
      issued := Function.update fibers.issued j (fibers.issued j + 1) } }

/-- The node whose session is at another place. -/
def withSession (node : Node S) (j : Fin n) (fibers : LeaderFibers S) (session : Session n S.Entry) : Node S :=
  { node with
    mainFiber := .startLeader { fibers with session := Function.update fibers.session j session } }

/-- The node with other extra members. -/
def withExt (node : Node S) (ext : S.Ext) : Node S := { node with ext := ext }

/-- The leader after a successful answer. -/
def acknowledged (node : Node S) (j : Fin n) (request : AppendEntriesRequest n S.Entry) : Node S :=
  { node with
    matchIndex := Function.update node.matchIndex j (request.prevLogIndex + request.entries.length)
    nextIndex := Function.update node.nextIndex j (node.nextIndex j + request.entries.length) }

/-- The leader after a refusal. -/
def stepBack (node : Node S) (j : Fin n) : Node S :=
  { node with nextIndex := Function.update node.nextIndex j (node.nextIndex j - 1) }

/-- The leader after `UpdateCommitIndex`, where its loop ends. -/
def updatedCommit (node : Node S) : Option (Node S) :=
  (commitLoop true node.raftLog node.pendingRequests
    (node.newlyCommitted (node.findCommitIndex node.getSavedLogSize)) node.ext node.calls).map
      (node.committedTo (node.findCommitIndex node.getSavedLogSize))

/-- The last saved index as the main session knows it. -/
def savedIndex (node : Node S) (self : Fin n) (fibers : LeaderFibers S) : Nat :=
  if fibers.mainSession = .starting then node.getSavedLogSize else node.matchIndex self

/-- The leader after it saved its pending log. -/
def save (node : Node S) (self : Fin n) (fibers : LeaderFibers S) : Node S :=
  { node with
    raftLog := node.raftLog.putAll (node.savedIndex self fibers + 1) node.pendingLog
    matchIndex := Function.update node.matchIndex self (node.savedIndex self fibers + node.pendingLog.length)
    pendingLog := []
    ext := S.saved node.ext node.pendingLog
    mainFiber := .startLeader { fibers with mainSession := .awaiting } }

/-- The node after its main session has ended. -/
def endMain (node : Node S) (self : Fin n) (fibers : LeaderFibers S) : Node S :=
  { node with
    matchIndex := Function.update node.matchIndex self (node.savedIndex self fibers)
    mainFiber := .startLeader { fibers with mainSession := .finished } }

end Node

/-- The search of `UpdateCommitIndex` ends at the old index or at one that a majority stores. -/
theorem Node.findCommitIndex_cases (node : Node S) (index : Nat) :
    node.findCommitIndex index = node.commitIndex ∨
      node.commitIndex < node.findCommitIndex index ∧ node.findCommitIndex index ≤ index ∧
        node.currentTermStartIndex ≤ node.findCommitIndex index ∧
        majorityCount n ≤ node.matchCount (node.findCommitIndex index) := by
  induction index with
  | zero => exact Or.inl rfl
  | succ index ih =>
      rw [findCommitIndex]
      split
      · rename_i range
        split
        · rename_i majority
          exact Or.inr ⟨range.1, Nat.le_refl _, range.2, majority⟩
        · rcases ih with same | ⟨later, bound, rest⟩
          · exact Or.inl same
          · exact Or.inr ⟨later, by omega, rest⟩
      · exact Or.inl rfl

/-- `UpdateCommitIndex` never goes back. -/
theorem Node.commitIndex_le (node : Node S) (index : Nat) : node.commitIndex ≤ node.findCommitIndex index := by
  rcases node.findCommitIndex_cases index with same | ⟨later, _⟩
  · exact same.ge
  · exact later.le

/-- `UpdateCommitIndex` writes nothing. -/
theorem updateCommitIndex_run (node : Node S) :
    updateCommitIndex node = ⟨[], node.updatedCommit.map fun after => ((), after)⟩ := by
  rw [updateCommitIndex, Process.bind_get, commitUpTo_run, Node.updatedCommit, Option.map_map]
  rfl

/-- A session sends the entries that it can read, or the process aborts. -/
theorem sessionSend_cases (node : Node S) (self j : Fin n) (fibers : LeaderFibers S) :
    sessionSend self j fibers node = ⟨[], none⟩ ∨
    ∃ prevLogTerm entries, 1 ≤ node.nextIndex j ∧ node.prevLogTerm j = some prevLogTerm ∧
      node.collectEntries (node.nextIndex j)
        (S.lastLogEntryIndex node.ext self j node.commitIndex (node.nextIndex self) + 1 - node.nextIndex j) =
          some entries ∧
      sessionSend self j fibers node = ⟨[], some (node.sessionRequest self j prevLogTerm entries,
        node.calling j fibers (node.sessionRequest self j prevLogTerm entries))⟩ := by
  rw [sessionSend, Process.bind_get, Process.bind_verify]
  by_cases positive : 1 ≤ node.nextIndex j
  swap
  · exact Or.inl (if_neg positive)
  rw [if_pos positive, Process.bind_value]
  cases previous : node.prevLogTerm j with
  | none => exact Or.inl rfl
  | some prevLogTerm =>
      simp only [Process.bind_value]
      cases collected : node.collectEntries (node.nextIndex j)
          (S.lastLogEntryIndex node.ext self j node.commitIndex (node.nextIndex self) + 1 - node.nextIndex j) with
      | none => exact Or.inl rfl
      | some entries => exact Or.inr ⟨prevLogTerm, entries, positive, rfl, rfl, rfl⟩

/-- A node that leads no longer ignores the answer. -/
theorem appendAnswered_notLeader {node : Node S} (self j : Fin n) (fibers : LeaderFibers S)
    (request : AppendEntriesRequest n S.Entry) (result : Option AppendEntriesResult)
    (role : node.state ≠ .leader) :
    appendAnswered self j fibers request result node = ⟨[], some ((), node.withSession j fibers .loop)⟩ := by
  rw [appendAnswered, setSession, Process.bind_modify, Process.bind_get, if_pos role]
  rfl

/-- A failed call is noted, and the session goes on. -/
theorem appendAnswered_failed {node : Node S} (self j : Fin n) (fibers : LeaderFibers S)
    (request : AppendEntriesRequest n S.Entry) (role : node.state = .leader) :
    appendAnswered self j fibers request none node =
      ⟨[], some ((), (node.withSession j fibers .loop).withExt (S.callFailed node.ext self j))⟩ := by
  rw [appendAnswered, setSession, Process.bind_modify, Process.bind_get, if_neg (not_not.mpr role)]
  rfl

/-- The session of a leader, right after its call was answered. -/
def Node.answered (node : Node S) (self j : Fin n) (fibers : LeaderFibers S) : Node S :=
  (node.withSession j fibers .loop).withExt (S.callAnswered node.ext self j)

/-- A leader learns a greater term, an acknowledgement or a refusal. -/
theorem appendAnswered_cases {node : Node S} (self j : Fin n) (fibers : LeaderFibers S)
    (request : AppendEntriesRequest n S.Entry) (response : AppendEntriesResult) (role : node.state = .leader) :
    (node.currentTerm < response.term ∧ appendAnswered self j fibers request (some response) node =
      ⟨[((node.answered self j fibers).follow response.term).disk],
        some ((), (node.answered self j fibers).follow response.term)⟩) ∨
    (response.term ≤ node.currentTerm ∧ response.success = true ∧
      appendAnswered self j fibers request (some response) node =
        ⟨[], ((node.answered self j fibers).acknowledged j request).updatedCommit.map fun after => ((), after)⟩) ∨
    (response.term ≤ node.currentTerm ∧ response.success = false ∧
      (appendAnswered self j fibers request (some response) node = ⟨[], none⟩ ∨
        (2 ≤ node.nextIndex j ∧ appendAnswered self j fibers request (some response) node =
          ⟨[], some ((), (node.answered self j fibers).stepBack j)⟩))) := by
  rw [appendAnswered, setSession, Process.bind_modify, Process.bind_get, if_neg (not_not.mpr role)]
  simp only [Process.bind_modify]
  by_cases later : node.currentTerm < response.term
  · refine Or.inl ⟨later, ?_⟩
    rw [if_pos later]
    exact followTerm_run (node.answered self j fibers) later
  cases success : response.success with
  | true =>
      refine Or.inr (Or.inl ⟨Nat.le_of_not_lt later, rfl, ?_⟩)
      rw [if_neg later, if_pos rfl, Process.bind_modify]
      exact updateCommitIndex_run ((node.answered self j fibers).acknowledged j request)
  | false =>
      refine Or.inr (Or.inr ⟨Nat.le_of_not_lt later, rfl, ?_⟩)
      rw [if_neg later, if_neg Bool.false_ne_true, Process.bind_verify]
      by_cases large : 2 ≤ node.nextIndex j
      · rw [if_pos large]
        exact Or.inr ⟨large, rfl⟩
      · rw [if_neg large]
        exact Or.inl rfl

/-- A refusal does not end the process if there is an entry to go back to. -/
theorem appendAnswered_refused {node : Node S} (self j : Fin n) (fibers : LeaderFibers S)
    (request : AppendEntriesRequest n S.Entry) {response : AppendEntriesResult} (role : node.state = .leader)
    (notLater : response.term ≤ node.currentTerm) (failure : response.success = false)
    (large : 2 ≤ node.nextIndex j) :
    appendAnswered self j fibers request (some response) node =
      ⟨[], some ((), (node.answered self j fibers).stepBack j)⟩ := by
  have later : ¬ node.currentTerm < response.term := Nat.not_lt.mpr notLater
  rw [appendAnswered, setSession, Process.bind_modify, Process.bind_get, if_neg (not_not.mpr role)]
  simp only [Process.bind_modify, if_neg later, failure, if_neg Bool.false_ne_true, Process.bind_verify, if_pos large]
  rfl

/-- `UpdateCommitIndex` does not look at the place of the fibers. -/
theorem Node.updatedCommit_mainFiber (node : Node S) (fiber : MainFiber S) :
    updatedCommit { node with mainFiber := fiber } =
      node.updatedCommit.map fun after => { after with mainFiber := fiber } := by
  have found (index : Nat) : findCommitIndex { node with mainFiber := fiber } index = node.findCommitIndex index := by
    induction index with
    | zero => rfl
    | succ index ih =>
        simp only [findCommitIndex, ih]
        rfl
  simp only [updatedCommit, found, Option.map_map]
  rfl

/-- A leader saves all pending entries in one write. -/
theorem saveRound_leader {node : Node S} (self : Fin n) (fibers : LeaderFibers S)
    (role : node.state = .leader) :
    saveRound self fibers node =
      let after : Node S := { node with
        raftLog := node.raftLog.putAll (node.matchIndex self + 1) node.pendingLog
        matchIndex := Function.update node.matchIndex self (node.matchIndex self + node.pendingLog.length)
        pendingLog := []
        ext := S.saved node.ext node.pendingLog
        mainFiber := .startLeader { fibers with mainSession := .awaiting } }
      ⟨[after.disk], after.updatedCommit.map fun result => ((), result)⟩ := by
  rw [saveRound, Process.bind_get, if_pos role, Process.bind_write, setMainSession, Process.bind_modify_right,
    updateCommitIndex_run]
  have awaiting := Node.updatedCommit_mainFiber
    { node with
      raftLog := node.raftLog.putAll (node.matchIndex self + 1) node.pendingLog
      matchIndex := Function.update node.matchIndex self (node.matchIndex self + node.pendingLog.length)
      pendingLog := []
      ext := S.saved node.ext node.pendingLog }
    (.startLeader { fibers with mainSession := .awaiting })
  simp only at awaiting
  simp only [awaiting, Option.map_map]
  rfl

/-- The first round of the main session learns the saved size. -/
theorem mainRound_run (node : Node S) (self : Fin n) (fibers : LeaderFibers S) :
    mainRound self fibers node =
      saveRound self fibers
        { node with matchIndex := Function.update node.matchIndex self (node.savedIndex self fibers) } := by
  rw [mainRound]
  by_cases starting : fibers.mainSession = .starting
  · simp only [if_pos starting, Process.bind_modify, Node.savedIndex]
  · simp only [if_neg starting, Node.savedIndex, Function.update_eq_self]

/-- The main session of a leader saves the pending log and updates the commit index. -/
theorem mainRound_leader {node : Node S} (self : Fin n) (fibers : LeaderFibers S)
    (role : node.state = .leader) :
    mainRound self fibers node =
      ⟨[(node.save self fibers).disk], (node.save self fibers).updatedCommit.map fun after => ((), after)⟩ := by
  rw [mainRound_run, saveRound_leader self fibers (by exact role)]
  simp only [Function.update_self, Function.update_idem]
  rfl

/-- The main session of a node that leads no longer ends. -/
theorem mainRound_notLeader {node : Node S} (self : Fin n) (fibers : LeaderFibers S)
    (role : node.state ≠ .leader) :
    mainRound self fibers node = ⟨[], some ((), node.endMain self fibers)⟩ := by
  rw [mainRound_run, saveRound, Process.bind_get, if_neg (by exact role)]
  rfl

namespace Node

/-- The leader after it took a new entry. -/
def appended (node : Node S) (self : Fin n) (tag : Nat) (request : S.Request) (entry : S.Entry) (ext : S.Ext) :
    Node S :=
  { node with
    nextIndex := Function.update node.nextIndex self (node.nextIndex self + 1)
    pendingLog := node.pendingLog ++ [entry]
    calls := node.calls ++ [⟨tag, request, node.nextIndex self, node.currentTerm, false, none⟩]
    pendingRequests := Function.update node.pendingRequests (node.nextIndex self) (some tag)
    mainFiber := node.mainFiber.wake
    ext := ext }

/-- The node without a call that has ended. -/
def dropCall (node : Node S) (call : Call S) : Node S :=
  { node with
    calls := node.calls.filter fun other => other.tag ≠ call.tag
    pendingRequests := Function.update node.pendingRequests call.newLogIndex none }

end Node

/-- A client call is answered at once or waits for its new entry. -/
theorem execute_cases (node : Node S) (self : Fin n) (tag : Nat) (request : S.Request) :
    (node.state ≠ .leader ∧ execute self tag request node = ⟨[], some (some S.notALeader, node)⟩) ∨
    (∃ response, node.state = .leader ∧ S.newEntry node.ext node.currentTerm request = .inl response ∧
      execute self tag request node = ⟨[], some (some response, node)⟩) ∨
    (∃ entry ext, node.state = .leader ∧ S.newEntry node.ext node.currentTerm request = .inr (entry, ext) ∧
      execute self tag request node = ⟨[], some (none, node.appended self tag request entry ext)⟩) := by
  rw [execute, Process.bind_get]
  by_cases role : node.state = .leader
  · rw [if_neg (not_not.mpr role)]
    rcases made : S.newEntry node.ext node.currentTerm request with response | ⟨entry, ext⟩
    · exact Or.inr (Or.inl ⟨response, role, rfl, rfl⟩)
    · exact Or.inr (Or.inr ⟨entry, ext, role, rfl, rfl⟩)
  · rw [if_pos role]
    exact Or.inl ⟨role, rfl⟩

/-- A call that wakes up leaves as a stranger to the term, as committed, or aborts. -/
theorem resume_cases (node : Node S) (call : Call S) :
    (call.currentTerm ≠ node.currentTerm ∧ resume call node =
      ⟨[], some (S.notALeader, (node.dropCall call).withExt (S.release node.ext call.request))⟩) ∨
    (call.currentTerm = node.currentTerm ∧ node.state = .leader ∧ resume call node =
      ⟨[], some ((S.committed node.ext call.request call.payload).1,
        (node.dropCall call).withExt (S.committed node.ext call.request call.payload).2)⟩) ∨
    resume call node = ⟨[], none⟩ := by
  rw [resume, Process.bind_modify, Process.bind_get]
  by_cases same : call.currentTerm = node.currentTerm
  · rw [if_neg (not_not.mpr same), Process.bind_verify]
    by_cases role : node.state = .leader
    · rw [if_pos role]
      exact Or.inr (Or.inl ⟨same, role, rfl⟩)
    · rw [if_neg role]
      exact Or.inr (Or.inr rfl)
  · rw [if_pos same]
    exact Or.inl ⟨same, rfl⟩

end Metamorphosis
