import Metamorphosis.Proof.Actions
import Metamorphosis.Proof.Outcomes

/-!
Every step of the cluster is a sequence of indivisible changes. The invariants of the cluster are
proved for each of these changes.
-/

namespace Metamorphosis
variable {n : Nat} {S : Service n}

namespace Cluster

@[simp] theorem setNode_self (c : Cluster S) (i : Fin n) (node : Node S) : (c.setNode i node).nodes i = node :=
  Function.update_self ..

theorem setNode_other (c : Cluster S) {i x : Fin n} (node : Node S) (other : x ≠ i) :
    (c.setNode i node).nodes x = c.nodes x := Function.update_of_ne other ..

/-- The later change of a node counts. -/
@[simp] theorem setNode_setNode (c : Cluster S) (i : Fin n) (first second : Node S) :
    (c.setNode i first).setNode i second = c.setNode i second := by
  simp only [setNode, Function.update_idem]

@[simp] theorem setNode_same (c : Cluster S) (i : Fin n) : c.setNode i (c.nodes i) = c := by
  simp only [setNode, Function.update_eq_self]

/-- A commit of a leader is a record only. -/
theorem noteCommit_eq (before : Nat) (i : Fin n) (c : Cluster S) :
    noteCommit before i c = { c with commits := (noteCommit before i c).commits } := by
  rw [noteCommit]
  split
  · rfl
  · rfl

/-- The call was handled, whatever became of it. -/
def handle (c : Cluster S) (call : AppendCall S) : Cluster S := { c with handled := c.handled ++ [call] }

/-- The call was handled and answered. -/
def replyAppend (c : Cluster S) (call : AppendCall S) (result : AppendEntriesResult) : Cluster S :=
  { c.handle call with appendReplies := c.appendReplies ++ [(call, result)] }

/-- A candidate executed `BecomeLeader`. -/
def noteLeader (c : Cluster S) (i : Fin n) : Cluster S :=
  { c with elected := c.elected ++
      [⟨i, (c.nodes i).currentTerm, (c.nodes i).raftLog.entries.map Prod.snd⟩] }

/-- A leader made an entry for a client call. -/
def noteCreated (c : Cluster S) (i : Fin n) (term index : Nat) (entry : S.Entry) : Cluster S :=
  { c with created := c.created ++ [⟨i, c.clock, term, index, entry, c.clock⟩] }

/-- A client call was answered. -/
def noteAnswered (c : Cluster S) (i : Fin n) (tag : Nat) (request : S.Request) (response : S.Response) :
    Cluster S :=
  { c with answered := c.answered ++ [⟨i, tag, request, response, c.clock⟩] }

/-- The follower's log after a request of a term that the follower has entered. -/
def rewritten (c : Cluster S) (call : AppendCall S) : Node S :=
  ((c.nodes call.callee).enter call.request.term).rewritten call.request

/-- Every entry was made at an earlier time. -/
def Fresh (c : Cluster S) : Prop := ∀ record ∈ c.created, record.time < c.clock

/-- The indivisible changes. Client calls, requests that are not from an older term, and
acknowledgements happen in permitted steps only. -/
inductive Atomic (allowed : Cluster S → Action S → Prop) : Cluster S → Cluster S → Prop where
  | restart (c : Cluster S) (i : Fin n) : Atomic allowed c (c.restart i (c.nodes i).disk)
  | follow (c : Cluster S) (i : Fin n) (term : Nat) (later : (c.nodes i).currentTerm < term) :
      Atomic allowed c (c.setNode i ((c.nodes i).follow term))
  | stand (c : Cluster S) (i : Fin n)
      (role : (c.nodes i).state = .candidate ∨
        (c.nodes i).state = .follower ∧ (c.nodes i).mainFiber = .startFollower) :
      Atomic allowed c ((c.setNode i ((c.nodes i).candidacy i)).sendVotes ((c.nodes i).electionRequest i))
  | standCrash (c : Cluster S) (i : Fin n) :
      Atomic allowed c (c.restart i ((c.nodes i).candidacy i).disk)
  | grant (c : Cluster S) (call : VoteCall n) (sent : call ∈ c.voteRequests)
      (current : (c.nodes call.callee).currentTerm = call.request.term)
      (unvoted : (c.nodes call.callee).votedFor = none)
      (grants : (c.nodes call.callee).grantsVote call.request = true) :
      Atomic allowed c (c.setNode call.callee ((c.nodes call.callee).vote call.request.candidateId))
  | replyVote (c : Cluster S) (call : VoteCall n) (result : RequestVoteResult) (sent : call ∈ c.voteRequests)
      (granted : result.voteGranted = true → (c.nodes call.callee).currentTerm = call.request.term ∧
        (c.nodes call.callee).votedFor = some call.request.candidateId) :
      Atomic allowed c (c.replyVote call result)
  | voteLost (c : Cluster S) (i j : Fin n) (election : Election n)
      (electing : (c.nodes i).mainFiber = .startCandidate election) :
      Atomic allowed c (c.setNode i ((c.nodes i).electing (election.left j)))
  | voteCounted (c : Cluster S) (i : Fin n) (election : Election n) (call : VoteCall n) (term : Nat)
      (electing : (c.nodes i).mainFiber = .startCandidate election)
      (waiting : election.waiting call.callee = true) (asked : call.request = election.request)
      (replied : (call, ⟨term, true⟩) ∈ c.voteReplies) :
      Atomic allowed c (c.setNode i ((c.nodes i).electing (election.counted call.callee)))
  | elect (c : Cluster S) (i : Fin n) (election : Election n)
      (electing : (c.nodes i).mainFiber = .startCandidate election)
      (role : (c.nodes i).state = .candidate) (deciding : election.votesCount = majorityCount n) :
      Atomic allowed c ((c.setNode i (c.nodes i).lead).noteLeader i)
  | startLeader (c : Cluster S) (i : Fin n) (role : (c.nodes i).state = .leader)
      (joined : ∀ fibers, (c.nodes i).mainFiber = .startLeader fibers → fibers.mainSession = .finished) :
      Atomic allowed c (c.setNode i ((c.nodes i).leading i))
  | startFollower (c : Cluster S) (i : Fin n) (role : (c.nodes i).state = .follower) :
      Atomic allowed c (c.setNode i (c.nodes i).following)
  | clearPending (c : Cluster S) (i : Fin n) (fibers : LeaderFibers S)
      (leading : (c.nodes i).mainFiber = .startLeader fibers) (ended : fibers.mainSession = .finished) :
      Atomic allowed c (c.setNode i { c.nodes i with pendingLog := [] })
  | send (c : Cluster S) (i j : Fin n) (fibers : LeaderFibers S) (prevLogTerm : Nat) (entries : List S.Entry)
      (leading : (c.nodes i).mainFiber = .startLeader fibers) (session : fibers.session j = .loop)
      (role : (c.nodes i).state = .leader) (positive : 1 ≤ (c.nodes i).nextIndex j)
      (previous : (c.nodes i).prevLogTerm j = some prevLogTerm)
      (collected : (c.nodes i).collectEntries ((c.nodes i).nextIndex j)
        (S.lastLogEntryIndex (c.nodes i).ext i j (c.nodes i).commitIndex ((c.nodes i).nextIndex i) + 1 -
          (c.nodes i).nextIndex j) = some entries) :
      Atomic allowed c
        ((c.setNode i ((c.nodes i).calling j fibers ((c.nodes i).sessionRequest i j prevLogTerm entries))).sendAppend
          j (fibers.issued j) ((c.nodes i).sessionRequest i j prevLogTerm entries))
  | sessionEnd (c : Cluster S) (i j : Fin n) (fibers : LeaderFibers S)
      (leading : (c.nodes i).mainFiber = .startLeader fibers) (role : (c.nodes i).state ≠ .leader)
      (session : Session n S.Entry) :
      Atomic allowed c (c.setNode i ((c.nodes i).withSession j fibers session))
  | refuse (c : Cluster S) (call : AppendCall S) (sent : call ∈ c.appendRequests)
      (old : call.request.term < (c.nodes call.callee).currentTerm) :
      Atomic allowed c (c.replyAppend call ⟨(c.nodes call.callee).currentTerm, false⟩)
  | drop (c : Cluster S) (call : AppendCall S) (sent : call ∈ c.appendRequests) :
      Atomic allowed c ((c.handle call).restart call.callee (c.nodes call.callee).disk)
  | reject (c : Cluster S) (call : AppendCall S) (place : Nat) (sent : c.appendRequests[place]? = some call)
      (permitted : allowed c (.handleAppend place))
      (current : (c.nodes call.callee).currentTerm ≤ call.request.term)
      (unmatched : ¬ ((c.nodes call.callee).enter call.request.term).PrevMatches call.request) :
      Atomic allowed c
        ((c.setNode call.callee ((c.nodes call.callee).enter call.request.term)).replyAppend call
          ⟨(c.nodes call.callee).currentTerm, false⟩)
  | accept (c : Cluster S) (call : AppendCall S) (place : Nat) (sent : c.appendRequests[place]? = some call)
      (permitted : allowed c (.handleAppend place))
      (current : (c.nodes call.callee).currentTerm ≤ call.request.term)
      (matched : ((c.nodes call.callee).enter call.request.term).PrevMatches call.request)
      (consistent : ((c.nodes call.callee).enter call.request.term).OverlapConsistent call.request)
      (result : S.Ext × List (Call S))
      (loop : commitLoop false (c.rewritten call).raftLog (c.rewritten call).pendingRequests
        ((c.rewritten call).newlyCommitted ((c.rewritten call).followedCommit call.request))
        (c.rewritten call).ext (c.rewritten call).calls = some result) :
      Atomic allowed c
        ((c.setNode call.callee
          ((c.rewritten call).committedTo ((c.rewritten call).followedCommit call.request) result)).replyAppend call
            ⟨(c.nodes call.callee).currentTerm, true⟩)
  | acceptCrash (c : Cluster S) (call : AppendCall S) (place : Nat)
      (sent : c.appendRequests[place]? = some call) (permitted : allowed c (.handleAppend place))
      (current : (c.nodes call.callee).currentTerm ≤ call.request.term)
      (matched : ((c.nodes call.callee).enter call.request.term).PrevMatches call.request)
      (consistent : ((c.nodes call.callee).enter call.request.term).OverlapConsistent call.request) :
      Atomic allowed c ((c.handle call).restart call.callee (c.rewritten call).disk)
  | callFailed (c : Cluster S) (i j : Fin n) (fibers : LeaderFibers S) (seq : Nat)
      (request : AppendEntriesRequest n S.Entry)
      (leading : (c.nodes i).mainFiber = .startLeader fibers) (session : fibers.session j = .calling seq request)
      (role : (c.nodes i).state = .leader) :
      Atomic allowed c
        (c.setNode i (((c.nodes i).withSession j fibers .loop).withExt (S.callFailed (c.nodes i).ext i j)))
  | callAnswered (c : Cluster S) (i j : Fin n) (fibers : LeaderFibers S) (seq : Nat)
      (request : AppendEntriesRequest n S.Entry)
      (leading : (c.nodes i).mainFiber = .startLeader fibers) (session : fibers.session j = .calling seq request)
      (role : (c.nodes i).state = .leader) :
      Atomic allowed c (c.setNode i ((c.nodes i).answered i j fibers))
  | acknowledge (c : Cluster S) (i : Fin n) (fibers : LeaderFibers S) (call : AppendCall S)
      (request : AppendEntriesRequest n S.Entry) (response : AppendEntriesResult)
      (leading : (c.nodes i).mainFiber = .startLeader fibers)
      (session : fibers.session call.callee = .calling call.seq request)
      (role : (c.nodes i).state = .leader) (replied : (call, response) ∈ c.appendReplies)
      (own : call.request.leaderId = i) (asked : call.request.term = request.term)
      (notLater : response.term ≤ (c.nodes i).currentTerm) (success : response.success = true) (place : Nat)
      (permitted : allowed c (.appendAnswered i call.callee (some place))) :
      Atomic allowed c
        (c.setNode i (((c.nodes i).answered i call.callee fibers).acknowledged call.callee request))
  | stepBack (c : Cluster S) (i : Fin n) (fibers : LeaderFibers S) (call : AppendCall S)
      (request : AppendEntriesRequest n S.Entry) (response : AppendEntriesResult)
      (leading : (c.nodes i).mainFiber = .startLeader fibers)
      (session : fibers.session call.callee = .calling call.seq request)
      (role : (c.nodes i).state = .leader) (replied : (call, response) ∈ c.appendReplies)
      (own : call.request.leaderId = i) (asked : call.request.term = request.term)
      (notLater : response.term ≤ (c.nodes i).currentTerm) (failure : response.success = false)
      (large : 2 ≤ (c.nodes i).nextIndex call.callee) :
      Atomic allowed c (c.setNode i (((c.nodes i).answered i call.callee fibers).stepBack call.callee))
  | commit (c : Cluster S) (i : Fin n) (after : Node S) (role : (c.nodes i).state = .leader)
      (updated : (c.nodes i).updatedCommit = some after) :
      Atomic allowed c (noteCommit (c.nodes i).commitIndex i (c.setNode i after))
  | save (c : Cluster S) (i : Fin n) (fibers : LeaderFibers S)
      (leading : (c.nodes i).mainFiber = .startLeader fibers)
      (awake : fibers.mainSession = .starting ∨ fibers.mainSession = .ready)
      (role : (c.nodes i).state = .leader) :
      Atomic allowed c (c.setNode i ((c.nodes i).save i fibers))
  | endMain (c : Cluster S) (i : Fin n) (fibers : LeaderFibers S)
      (leading : (c.nodes i).mainFiber = .startLeader fibers) (role : (c.nodes i).state ≠ .leader) :
      Atomic allowed c (c.setNode i ((c.nodes i).endMain i fibers))
  | append (c : Cluster S) (i : Fin n) (request : S.Request) (entry : S.Entry) (ext : S.Ext)
      (permitted : allowed c (.execute i request)) (fresh : c.Fresh) (role : (c.nodes i).state = .leader)
      (made : S.newEntry (c.nodes i).ext (c.nodes i).currentTerm request = .inr (entry, ext)) :
      Atomic allowed c
        ((c.setNode i ((c.nodes i).appended i c.clock request entry ext)).noteCreated i (c.nodes i).currentTerm
          ((c.nodes i).nextIndex i) entry)
  | answer (c : Cluster S) (i : Fin n) (request : S.Request) (response : S.Response)
      (permitted : allowed c (.execute i request))
      (given : (c.nodes i).state ≠ .leader ∧ response = S.notALeader ∨ (c.nodes i).state = .leader ∧
        S.newEntry (c.nodes i).ext (c.nodes i).currentTerm request = .inl response) :
      Atomic allowed c (c.noteAnswered i c.clock request response)
  | release (c : Cluster S) (i : Fin n) (call : Call S) (permitted : allowed c (.resume i call.tag))
      (waits : call ∈ (c.nodes i).calls) (signaled : call.signaled = true)
      (different : call.currentTerm ≠ (c.nodes i).currentTerm) :
      Atomic allowed c
        ((c.setNode i (((c.nodes i).dropCall call).withExt (S.release (c.nodes i).ext call.request))).noteAnswered
          i call.tag call.request S.notALeader)
  | committed (c : Cluster S) (i : Fin n) (call : Call S) (permitted : allowed c (.resume i call.tag))
      (waits : call ∈ (c.nodes i).calls) (signaled : call.signaled = true)
      (same : call.currentTerm = (c.nodes i).currentTerm) (role : (c.nodes i).state = .leader) :
      Atomic allowed c
        ((c.setNode i (((c.nodes i).dropCall call).withExt
          (S.committed (c.nodes i).ext call.request call.payload).2)).noteAnswered i call.tag call.request
            (S.committed (c.nodes i).ext call.request call.payload).1)
  | tick (c : Cluster S) : Atomic allowed c { c with clock := c.clock + 1 }

/-- Any number of indivisible changes. -/
abbrev Atomics (allowed : Cluster S → Action S → Prop) : Cluster S → Cluster S → Prop :=
  Relation.ReflTransGen (Atomic allowed)

/-- After a crash the databases are as after one of the writes, or as before. -/
theorem diskAfter_cases (node : Node S) (writes : List (Disk S)) :
    diskAfter node writes = node.disk ∨ diskAfter node writes ∈ writes := by
  rw [diskAfter]
  cases last : writes.getLast? with
  | none => exact Or.inl rfl
  | some disk => exact Or.inr (List.mem_of_getLast? last)

/-- A process runs to its end, or the node restarts on some databases that it had on the way. -/
theorem perform_cases {A : Type} (c : Cluster S) (i : Fin n) (stop : Option Nat) (process : NodeProcess S A)
    (done : A → Cluster S → Cluster S) :
    (∃ disk, (disk = (c.nodes i).disk ∨ disk ∈ (process (c.nodes i)).writes) ∧
      c.perform i stop process done = c.restart i disk) ∨
    (∃ value node, (process (c.nodes i)).result = some (value, node) ∧
      c.perform i stop process done = done value (c.setNode i node)) := by
  cases stop with
  | some count =>
      refine Or.inl ⟨_, ?_, rfl⟩
      rcases diskAfter_cases (c.nodes i) ((process (c.nodes i)).writes.take count) with same | written
      · exact Or.inl same
      · exact Or.inr (List.mem_of_mem_take written)
  | none =>
      rcases finished : (process (c.nodes i)).result with _ | ⟨value, node⟩
      · refine Or.inl ⟨_, diskAfter_cases _ _, ?_⟩
        simp only [perform, finished]
      · refine Or.inr ⟨value, node, rfl, ?_⟩
        simp only [perform, finished]

section Steps
variable {allowed : Cluster S → Action S → Prop}

/-- A process is accounted for by its restarts and its end. -/
theorem perform_atomics {A : Type} {start c : Cluster S} {i : Fin n} {stop : Option Nat}
    {process : NodeProcess S A} {done : A → Cluster S → Cluster S} {outcome : Outcome (Disk S) (Node S) A}
    (run : process (c.nodes i) = outcome) (idle : Atomics allowed start (c.restart i (c.nodes i).disk))
    (crashes : ∀ disk ∈ outcome.writes, Atomics allowed start (c.restart i disk))
    (ends : ∀ value node, outcome.result = some (value, node) →
      Atomics allowed start (done value (c.setNode i node))) :
    Atomics allowed start (c.perform i stop process done) := by
  subst run
  rcases perform_cases c i stop process done with ⟨disk, from_, same⟩ | ⟨value, node, finished, same⟩
  · rw [same]
    rcases from_ with rfl | written
    · exact idle
    · exact crashes disk written
  · rw [same]
    exact ends value node finished

/-- A process that writes nothing ends or restarts on the databases from before. -/
theorem perform_quiet {A : Type} {c : Cluster S} {i : Fin n} {stop : Option Nat} {process : NodeProcess S A}
    {done : A → Cluster S → Cluster S} {result : Option (A × Node S)}
    (run : process (c.nodes i) = ⟨[], result⟩)
    (ends : ∀ value node, result = some (value, node) → Atomics allowed c (done value (c.setNode i node))) :
    Atomics allowed c (c.perform i stop process done) :=
  perform_atomics run (.single (.restart c i)) (fun _ written => absurd written (by simp)) ends

/-- A process with one write may also restart on what it wrote. -/
theorem perform_write {A : Type} {c : Cluster S} {i : Fin n} {stop : Option Nat} {process : NodeProcess S A}
    {done : A → Cluster S → Cluster S} {result : Option (A × Node S)} {written : Disk S}
    (run : process (c.nodes i) = ⟨[written], result⟩) (crashes : Atomics allowed c (c.restart i written))
    (ends : ∀ value node, result = some (value, node) → Atomics allowed c (done value (c.setNode i node))) :
    Atomics allowed c (c.perform i stop process done) :=
  perform_atomics run (.single (.restart c i))
    (fun _ member => List.mem_singleton.mp member ▸ crashes) ends

/-- A restart right after a change of one node. -/
theorem Atomics.restart {c : Cluster S} {i : Fin n} {node : Node S}
    (reached : Atomics allowed c (c.setNode i node)) : Atomics allowed c (c.restart i node.disk) := by
  have last : Atomic allowed _ _ := .restart (c.setNode i node) i
  rw [setNode_self, Cluster.restart, setNode_setNode] at last
  exact reached.tail last

/-- A follower whose timeout ends writes its vote for itself and then sends its requests. -/
theorem electionTimeout_atomics {c : Cluster S} {i : Fin n} (stop : Option Nat)
    (waits : (c.nodes i).mainFiber = .startFollower) :
    Atomics allowed c (c.perform i stop (electionTimeout i) fun request c => c.sendVotes request) := by
  rcases electionTimeout_cases (c.nodes i) i with ⟨role, run⟩ | aborted
  · refine perform_write run (.single (.standCrash c i)) ?_
    rintro _ _ ⟨⟩
    exact .single (.stand c i (Or.inr ⟨role, waits⟩))
  · exact perform_quiet aborted (by rintro _ _ ⟨⟩)

/-- `StartNode` chooses what to run next. -/
theorem startNode_atomics {c : Cluster S} {i : Fin n} (stop : Option Nat)
    (joined : ∀ fibers, (c.nodes i).mainFiber = .startLeader fibers → fibers.mainSession = .finished) :
    Atomics allowed c (c.perform i stop (startNode i) fun request c => c.sendVotes? request) := by
  rcases startNode_cases (c.nodes i) i with ⟨role, run⟩ | ⟨role, run⟩ | ⟨role, run⟩
  · refine perform_quiet run ?_
    rintro _ _ ⟨⟩
    exact .single (.startLeader c i role joined)
  · refine perform_quiet run ?_
    rintro _ _ ⟨⟩
    exact .single (.startFollower c i role)
  · refine perform_write run (.single (.standCrash c i)) ?_
    rintro _ _ ⟨⟩
    exact .single (.stand c i (Or.inl role))

/-- A node writes a new term only if the term is later than its own. -/
theorem mem_termWrites {node : Node S} {term : Nat} {disk : Disk S} (written : disk ∈ node.termWrites term) :
    node.currentTerm < term ∧ disk = (node.follow term).disk := by
  rw [Node.termWrites] at written
  split at written
  · rename_i later
    exact ⟨later, by rw [List.mem_singleton.mp written, Node.follow_disk]⟩
  · exact absurd written (by simp)

/-- A node may stop right after it wrote a later term. -/
theorem termWrites_atomics {c : Cluster S} {i : Fin n} {term : Nat} {disk : Disk S}
    (written : disk ∈ (c.nodes i).termWrites term) : Atomics allowed c (c.restart i disk) := by
  obtain ⟨later, rfl⟩ := mem_termWrites written
  exact Atomics.restart (.single (.follow c i term later))

/-- A node that hears of a later term becomes a follower of it, in one step or in none. -/
theorem voter_atomics (c : Cluster S) (i : Fin n) (term : Nat) :
    Atomics allowed c (c.setNode i ((c.nodes i).voter term)) := by
  rw [Node.voter]
  split
  · rename_i later
    exact .single (.follow c i term later)
  · rw [setNode_same]

/-- After this the node is in the term of the request. -/
theorem voter_currentTerm {node : Node S} {term : Nat} (current : node.currentTerm ≤ term) :
    (node.voter term).currentTerm = term := by
  rw [Node.voter]
  split
  · rfl
  · omega

/-- `RequestVote` enters the term, writes the vote and replies. A crash may come between any two of these. -/
theorem handleVote_atomics {c : Cluster S} {call : VoteCall n} (stop : Option Nat)
    (sent : call ∈ c.voteRequests) :
    Atomics allowed c
      (c.perform call.callee stop (requestVote call.request) fun result c => c.replyVote call result) := by
  by_cases old : call.request.term < (c.nodes call.callee).currentTerm
  · refine perform_quiet (requestVote_old old) ?_
    rintro _ _ ⟨⟩
    rw [setNode_same]
    exact .single (.replyVote c call _ sent (by rintro ⟨⟩))
  have current : (c.nodes call.callee).currentTerm ≤ call.request.term := Nat.le_of_not_lt old
  have term := voter_currentTerm current
  have entered : Atomics allowed c _ := voter_atomics c call.callee call.request.term
  have run := requestVote_run current
  generalize (c.nodes call.callee).voter call.request.term = voter at run term entered
  rcases castVote_cases (c.nodes call.callee).currentTerm call.request voter with
    ⟨candidate, voted, cast⟩ | ⟨unvoted, grants, cast⟩ | ⟨unvoted, cast⟩
  · simp only [cast, List.append_nil] at run
    refine perform_atomics run (.single (.restart c _)) (fun _ written => termWrites_atomics written) ?_
    rintro _ _ ⟨⟩
    refine entered.tail (.replyVote _ call _ sent fun granted => ?_)
    rw [setNode_self]
    exact ⟨term, by rw [voted, of_decide_eq_true granted]⟩
  · simp only [cast] at run
    have given : Atomics allowed c (c.setNode call.callee (voter.vote call.request.candidateId)) := by
      have last : Atomic allowed _ _ := .grant (c.setNode call.callee voter) call sent
        (by rwa [setNode_self]) (by rwa [setNode_self]) (by rwa [setNode_self])
      rw [setNode_self, setNode_setNode] at last
      exact entered.tail last
    refine perform_atomics run (.single (.restart c _)) ?_ ?_
    · intro disk written
      rcases List.mem_append.mp written with first | second
      · exact termWrites_atomics first
      · rw [List.mem_singleton.mp second]
        exact given.restart
    · rintro _ _ ⟨⟩
      refine given.tail (.replyVote _ call _ sent fun _ => ?_)
      rw [setNode_self]
      exact ⟨term, rfl⟩
  · simp only [cast, List.append_nil] at run
    refine perform_atomics run (.single (.restart c _)) (fun _ written => termWrites_atomics written) ?_
    rintro _ _ ⟨⟩
    exact entered.tail (.replyVote _ call _ sent (by rintro ⟨⟩))

/-- An answered vote request makes the candidate a follower, counts, or elects it. -/
theorem voteAnswered_atomics {c : Cluster S} {i j : Fin n} {election : Election n} (stop : Option Nat)
    (result : Option RequestVoteResult) (electing : (c.nodes i).mainFiber = .startCandidate election)
    (waiting : election.waiting j = true)
    (replied : ∀ term, result = some ⟨term, true⟩ → ∃ call, call.callee = j ∧
      call.request = election.request ∧ (call, (⟨term, true⟩ : RequestVoteResult)) ∈ c.voteReplies) :
    Atomics allowed c
      (c.perform i stop (voteAnswered election j result) fun _ => noteElected (c.nodes i).state i) := by
  have lost : Atomics allowed c _ := .single (.voteLost c i j election electing)
  have notElected (node : Node S) (same : node.state = .leader → (c.nodes i).state = .leader) :
      noteElected (c.nodes i).state i (c.setNode i node) = c.setNode i node := by
    rw [noteElected, setNode_self, if_neg]
    rintro ⟨before, after⟩
    exact before (same after)
  rcases voteAnswered_cases election j result (c.nodes i) with run | ⟨term, later, run⟩ | ⟨term, answer, run⟩
  · refine perform_quiet run ?_
    rintro _ _ ⟨⟩
    rw [notElected ((c.nodes i).electing _) id]
    exact lost
  · have followed : Atomics allowed c
        (c.setNode i (((c.nodes i).electing (election.left j)).follow term)) := by
      have last : Atomic allowed _ _ := .follow (c.setNode i ((c.nodes i).electing (election.left j))) i term
        (by rw [setNode_self]; exact later)
      rw [setNode_self, setNode_setNode] at last
      exact lost.tail last
    refine perform_write run followed.restart ?_
    rintro _ _ ⟨⟩
    rw [notElected _ (by rintro ⟨⟩)]
    exact followed
  · obtain ⟨call, rfl, asked, present⟩ := replied term answer
    have counted : Atomics allowed c _ := .single (.voteCounted c i election call term electing waiting asked present)
    rcases run with run | ⟨role, deciding, run⟩
    · refine perform_quiet run ?_
      rintro _ _ ⟨⟩
      rw [notElected ((c.nodes i).electing _) id]
      exact counted
    · refine perform_quiet run ?_
      rintro _ _ ⟨⟩
      have last : Atomic allowed _ _ := .elect (c.setNode i ((c.nodes i).electing (election.counted call.callee))) i
        (election.counted call.callee) (by rw [setNode_self]; rfl) (by rw [setNode_self]; exact role) deciding
      rw [setNode_self, setNode_setNode] at last
      rw [noteElected, setNode_self, if_pos ⟨by rw [role]; decide, rfl⟩]
      refine counted.tail ?_
      rw [noteLeader, setNode_self] at last
      exact last

/-- A session of a leader sends its next request. -/
theorem sessionSend_atomics {c : Cluster S} {i j : Fin n} {fibers : LeaderFibers S} (stop : Option Nat)
    (leading : (c.nodes i).mainFiber = .startLeader fibers) (session : fibers.session j = .loop)
    (role : (c.nodes i).state = .leader) :
    Atomics allowed c (c.perform i stop (sessionSend i j fibers)
      fun request c => c.sendAppend j (fibers.issued j) request) := by
  rcases sessionSend_cases (c.nodes i) i j fibers with
    aborted | ⟨prevLogTerm, entries, positive, previous, collected, run⟩
  · exact perform_quiet aborted (by rintro _ _ ⟨⟩)
  · refine perform_quiet run ?_
    rintro _ _ ⟨⟩
    exact .single (.send c i j fibers prevLogTerm entries leading session role positive previous collected)

/-- `AppendEntries` enters the term, refuses or rewrites the log, and commits. -/
theorem handleAppend_atomics {c : Cluster S} {call : AppendCall S} {place : Nat} (stop : Option Nat)
    (sent : c.appendRequests[place]? = some call) (permitted : allowed c (.handleAppend place)) :
    Atomics allowed c ((c.handle call).perform call.callee stop (appendEntries call.request)
      fun result c => { c with appendReplies := c.appendReplies ++ [(call, result)] }) := by
  have member : call ∈ c.appendRequests := List.mem_of_getElem? sent
  have idle : Atomics allowed c ((c.handle call).restart call.callee (c.nodes call.callee).disk) :=
    .single (.drop c call member)
  by_cases old : call.request.term < (c.nodes call.callee).currentTerm
  · refine perform_atomics (appendEntries_old old) idle (fun _ written => absurd written (by simp)) ?_
    rintro _ _ ⟨⟩
    have same := setNode_same (c.handle call) call.callee
    change Atomics allowed c { (c.handle call).setNode call.callee ((c.handle call).nodes call.callee) with
      appendReplies := _ }
    rw [same]
    exact .single (.refuse c call member old)
  have current : (c.nodes call.callee).currentTerm ≤ call.request.term := Nat.le_of_not_lt old
  have run := appendEntries_run current
  have termCrash (disk : Disk S) (written : disk ∈ (c.nodes call.callee).termWrites call.request.term) :
      Atomics allowed c ((c.handle call).restart call.callee disk) := by
    obtain ⟨later, rfl⟩ := mem_termWrites written
    have last : Atomic allowed _ _ :=
      .drop (c.setNode call.callee ((c.nodes call.callee).follow call.request.term)) call member
    have first : Atomic allowed _ _ := .follow c call.callee call.request.term later
    rw [setNode_self] at last
    refine Relation.ReflTransGen.tail (.single first) ?_
    have same : ((c.setNode call.callee ((c.nodes call.callee).follow call.request.term)).handle call).restart
        call.callee ((c.nodes call.callee).follow call.request.term).disk =
        (c.handle call).restart call.callee ((c.nodes call.callee).follow call.request.term).disk :=
      setNode_setNode (c.handle call) ..
    rwa [same] at last
  rcases checkEntries_cases (c.nodes call.callee).currentTerm call.request
      ((c.nodes call.callee).enter call.request.term) with aborted | ⟨unmatched, check⟩ | ⟨matched, consistent, check⟩
  · simp only [aborted, List.append_nil] at run
    exact perform_atomics run idle termCrash (by rintro _ _ ⟨⟩)
  · simp only [check, List.append_nil] at run
    refine perform_atomics run idle termCrash ?_
    rintro _ _ ⟨⟩
    exact .single (.reject c call place sent permitted current unmatched)
  · simp only [check] at run
    refine perform_atomics run idle ?_ ?_
    · intro disk written
      rcases List.mem_append.mp written with first | second
      · exact termCrash disk first
      · rw [List.mem_singleton.mp second]
        exact .single (.acceptCrash c call place sent permitted current matched consistent)
    · intro value node finished
      obtain ⟨result, loop, same⟩ := Option.map_eq_some_iff.mp finished
      cases same
      exact .single (.accept c call place sent permitted current matched consistent result loop)

/-- An answered request makes the leader a follower, goes back in the log, or counts the entries as stored. -/
theorem appendAnswered_atomics {c : Cluster S} {i j : Fin n} {fibers : LeaderFibers S} {seq : Nat}
    {request : AppendEntriesRequest n S.Entry} (stop : Option Nat)
    (leading : (c.nodes i).mainFiber = .startLeader fibers) (session : fibers.session j = .calling seq request)
    {call : AppendCall S} {response : AppendEntriesResult} (replied : (call, response) ∈ c.appendReplies)
    (callee : call.callee = j) (number : call.seq = seq) (own : call.request.leaderId = i)
    (asked : call.request.term = request.term) {place : Nat} (permitted : allowed c (.appendAnswered i j (some place))) :
    Atomics allowed c (c.perform i stop (appendAnswered i j fibers request (some response))
      fun _ => noteCommit (c.nodes i).commitIndex i) := by
  subst callee number
  have uncommitted (node : Node S) (same : node.commitIndex = (c.nodes i).commitIndex) :
      noteCommit (c.nodes i).commitIndex i (c.setNode i node) = c.setNode i node := by
    rw [noteCommit, setNode_self, if_neg]
    omega
  by_cases role : (c.nodes i).state = .leader
  swap
  · refine perform_quiet (appendAnswered_notLeader i call.callee fibers request _ role) ?_
    rintro _ _ ⟨⟩
    rw [uncommitted ((c.nodes i).withSession ..) rfl]
    exact .single (.sessionEnd c i call.callee fibers leading role .loop)
  rcases appendAnswered_cases i call.callee fibers request response role with
    ⟨later, run⟩ | ⟨notLater, success, run⟩ | ⟨notLater, failure, aborted | ⟨large, run⟩⟩
  · have followed : Atomics allowed c
        (c.setNode i (((c.nodes i).answered i call.callee fibers).follow response.term)) := by
      have first : Atomic allowed _ _ := .callAnswered c i call.callee fibers call.seq request leading session role
      have last : Atomic allowed _ _ := .follow (c.setNode i ((c.nodes i).answered i call.callee fibers)) i
        response.term (by rw [setNode_self]; exact later)
      rw [setNode_self, setNode_setNode] at last
      exact Relation.ReflTransGen.tail (.single first) last
    refine perform_write run followed.restart ?_
    rintro _ _ ⟨⟩
    rw [uncommitted]
    · exact followed
    · simp only [Node.follow, Node.yield]
      split <;> rfl
  · refine perform_quiet run ?_
    intro value node finished
    obtain ⟨after, updated, same⟩ := Option.map_eq_some_iff.mp finished
    cases same
    have first : Atomic allowed _ _ := .acknowledge c i fibers call request response leading session role replied
      own asked notLater success place permitted
    have last : Atomic allowed _ _ := .commit
      (c.setNode i (((c.nodes i).answered i call.callee fibers).acknowledged call.callee request)) i node
      (by rw [setNode_self]; exact role) (by rw [setNode_self]; exact updated)
    rw [setNode_self, setNode_setNode] at last
    exact Relation.ReflTransGen.tail (.single first) last
  · exact perform_quiet aborted (by rintro _ _ ⟨⟩)
  · refine perform_quiet run ?_
    rintro _ _ ⟨⟩
    rw [uncommitted (((c.nodes i).answered ..).stepBack ..) rfl]
    exact .single (.stepBack c i fibers call request response leading session role replied own asked notLater
      failure large)

/-- A failed call only ends. -/
theorem appendFailed_atomics {c : Cluster S} {i j : Fin n} {fibers : LeaderFibers S} {seq : Nat}
    {request : AppendEntriesRequest n S.Entry} (stop : Option Nat)
    (leading : (c.nodes i).mainFiber = .startLeader fibers) (session : fibers.session j = .calling seq request) :
    Atomics allowed c (c.perform i stop (appendAnswered i j fibers request none) fun _ c => c) := by
  by_cases role : (c.nodes i).state = .leader
  · refine perform_quiet (appendAnswered_failed i j fibers request role) ?_
    rintro _ _ ⟨⟩
    exact .single (.callFailed c i j fibers seq request leading session role)
  · refine perform_quiet (appendAnswered_notLeader i j fibers request _ role) ?_
    rintro _ _ ⟨⟩
    exact .single (.sessionEnd c i j fibers leading role .loop)

/-- The main session saves what is pending and may commit it. -/
theorem mainRound_atomics {c : Cluster S} {i : Fin n} {fibers : LeaderFibers S} (stop : Option Nat)
    (leading : (c.nodes i).mainFiber = .startLeader fibers)
    (awake : fibers.mainSession = .starting ∨ fibers.mainSession = .ready) :
    Atomics allowed c
      (c.perform i stop (mainRound i fibers) fun _ => noteCommit (c.nodes i).commitIndex i) := by
  by_cases role : (c.nodes i).state = .leader
  · have saved : Atomics allowed c _ := .single (.save c i fibers leading awake role)
    refine perform_write (mainRound_leader i fibers role) saved.restart ?_
    intro value node finished
    obtain ⟨after, updated, same⟩ := Option.map_eq_some_iff.mp finished
    cases same
    have last : Atomic allowed _ _ := .commit (c.setNode i ((c.nodes i).save i fibers)) i node
      (by rw [setNode_self]; exact role) (by rw [setNode_self]; exact updated)
    rw [setNode_self, setNode_setNode] at last
    exact saved.tail last
  · refine perform_quiet (mainRound_notLeader i fibers role) ?_
    rintro _ _ ⟨⟩
    have same : noteCommit (c.nodes i).commitIndex i (c.setNode i ((c.nodes i).endMain i fibers)) =
        c.setNode i ((c.nodes i).endMain i fibers) := by
      rw [noteCommit, setNode_self, if_neg]
      exact Nat.lt_irrefl _
    rw [same]
    exact .single (.endMain c i fibers leading role)

/-- A leader that was stopped goes on as a follower or a candidate. -/
theorem leaderEnd_atomics {c : Cluster S} {i : Fin n} {fibers : LeaderFibers S} (stop : Option Nat)
    (leading : (c.nodes i).mainFiber = .startLeader fibers) (ended : fibers.mainSession = .finished) :
    Atomics allowed c (c.perform i stop (leaderEnd i) fun request c => c.sendVotes? request) := by
  have cleared : Atomic allowed _ _ := .clearPending c i fibers leading ended
  have joined : ∀ others, ((c.setNode i { c.nodes i with pendingLog := [] }).nodes i).mainFiber =
      .startLeader others → others.mainSession = .finished := by
    intro others same
    rw [setNode_self] at same
    cases leading.symm.trans same
    exact ended
  refine Relation.ReflTransGen.head cleared ?_
  have run : leaderEnd i (c.nodes i) = startNode i { c.nodes i with pendingLog := [] } := by
    rw [leaderEnd, Process.bind_modify]
  have same : c.perform i stop (leaderEnd i) (fun request c => c.sendVotes? request) =
      (c.setNode i { c.nodes i with pendingLog := [] }).perform i stop (startNode i)
        (fun request c => c.sendVotes? request) := by
    simp only [perform, run, setNode_self, Cluster.restart, setNode_setNode]
    rfl
  rw [same]
  exact startNode_atomics stop joined

/-- `Execute` refuses a request, or creates an entry with the present time. -/
theorem execute_atomics {c : Cluster S} {i : Fin n} {request : S.Request} (stop : Option Nat)
    (permitted : allowed c (.execute i request)) (fresh : c.Fresh) :
    Atomics allowed c
      (c.perform i stop (execute i c.clock request) fun response => noteExecute i request response) := by
  rcases execute_cases (c.nodes i) i c.clock request with
    ⟨role, run⟩ | ⟨response, role, made, run⟩ | ⟨entry, ext, role, made, run⟩
  · refine perform_quiet run ?_
    rintro _ _ ⟨⟩
    rw [setNode_same]
    exact .single (.answer c i request _ permitted (Or.inl ⟨role, rfl⟩))
  · refine perform_quiet run ?_
    rintro _ _ ⟨⟩
    rw [setNode_same]
    exact .single (.answer c i request response permitted (Or.inr ⟨role, made⟩))
  · refine perform_quiet run ?_
    rintro _ _ ⟨⟩
    have last : Atomic allowed _ _ := .append c i request entry ext permitted fresh role made
    have same : noteExecute i request none (c.setNode i ((c.nodes i).appended i c.clock request entry ext)) =
        (c.setNode i ((c.nodes i).appended i c.clock request entry ext)).noteCreated i (c.nodes i).currentTerm
          ((c.nodes i).nextIndex i) entry := by
      simp only [noteExecute, setNode_self, Node.appended, List.getLast?_append, List.getLast?_singleton,
        Option.some_or, Function.update_self, Nat.add_sub_cancel]
      rfl
    rw [same]
    exact .single last

/-- A woken call answers its client. -/
theorem resume_atomics {c : Cluster S} {i : Fin n} {tag : Nat} {call : Call S} (stop : Option Nat)
    (permitted : allowed c (.resume i tag)) (waits : call ∈ (c.nodes i).calls) (named : call.tag = tag)
    (signaled : call.signaled = true) :
    Atomics allowed c (c.perform i stop (resume call)
      fun response c => { c with answered := c.answered ++ [⟨i, tag, call.request, response, c.clock⟩] }) := by
  subst named
  rcases resume_cases (c.nodes i) call with ⟨different, run⟩ | ⟨same, role, run⟩ | aborted
  · refine perform_quiet run ?_
    rintro _ _ ⟨⟩
    exact .single (.release c i call permitted waits signaled different)
  · refine perform_quiet run ?_
    rintro _ _ ⟨⟩
    exact .single (.committed c i call permitted waits signaled same role)
  · exact perform_quiet aborted (by rintro _ _ ⟨⟩)

/-- Every permitted step without the clock is a sequence of indivisible changes. -/
theorem act_atomics {c d : Cluster S} {stop : Option Nat} {action : Action S} (permitted : allowed c action)
    (fresh : c.Fresh) (acted : c.act stop action = some d) : Atomics allowed c d := by
  cases act_acts acted with
  | electionTimeout i waits => exact electionTimeout_atomics stop waits
  | handleVote place call sent => exact handleVote_atomics stop (List.mem_of_getElem? sent)
  | voteFailed i j election electing waiting =>
      exact voteAnswered_atomics stop none electing waiting (by rintro _ ⟨⟩)
  | voteAnswered i j place election call result electing waiting replied callee asked =>
      refine voteAnswered_atomics stop (some result) electing waiting ?_
      rintro term ⟨⟩
      exact ⟨call, callee, asked, List.mem_of_getElem? replied⟩
  | electionEnd i election electing _ => exact startNode_atomics stop (by rw [electing]; rintro _ ⟨⟩)
  | sessionSend i j fibers leading session role => exact sessionSend_atomics stop leading session role
  | sessionEnd i j fibers leading _ role =>
      refine perform_quiet rfl ?_
      rintro _ _ ⟨⟩
      exact .single (.sessionEnd c i j fibers leading role .finished)
  | handleAppend place call sent => exact handleAppend_atomics stop sent permitted
  | appendFailed i j fibers seq request leading session => exact appendFailed_atomics stop leading session
  | appendAnswered i j place fibers seq request call result leading session replied callee number own asked =>
      exact appendAnswered_atomics stop leading session (List.mem_of_getElem? replied) callee number own asked permitted
  | mainRound i fibers leading awake => exact mainRound_atomics stop leading awake
  | leaderEnd i fibers leading _ ended => exact leaderEnd_atomics stop leading ended
  | execute i request => exact execute_atomics stop permitted fresh
  | resume i tag call found signaled =>
      exact resume_atomics stop permitted (List.mem_of_find?_eq_some found) (by simpa using List.find?_some found) signaled
  | crash i => exact .single (.restart c i)

/-- No entry is created in the future. -/
theorem Atomic.stamped {c d : Cluster S} (taken : Atomic allowed c d)
    (stamped : ∀ record ∈ c.created, record.time ≤ c.clock) : ∀ record ∈ d.created, record.time ≤ d.clock := by
  cases taken with
  | append i request entry ext _ _ _ _ =>
      intro record member
      rcases List.mem_append.mp member with old | new
      · exact stamped record old
      · rw [List.mem_singleton.mp new]
        exact Nat.le_refl _
  | commit i after _ _ =>
      rw [noteCommit_eq]
      exact stamped
  | tick => exact fun record member => Nat.le_succ_of_le (stamped record member)
  | _ => exact stamped

/-- Nor does any number of steps create one. -/
theorem Atomics.stamped {c d : Cluster S} (taken : Atomics allowed c d)
    (stamped : ∀ record ∈ c.created, record.time ≤ c.clock) : ∀ record ∈ d.created, record.time ≤ d.clock := by
  induction taken with
  | refl => exact stamped
  | tail _ last ih => exact last.stamped ih

theorem fresh_initial (S : Service n) : (initial S).Fresh := fun _ member => absurd member List.not_mem_nil

/-- A step ends with a tick, so what it made is in the past then. -/
theorem Next.atomics {c d : Cluster S} (next : Next allowed c d) (fresh : c.Fresh) :
    Atomics allowed c d ∧ d.Fresh := by
  obtain ⟨stop, action, permitted, stepped⟩ := next
  obtain ⟨after, acted, rfl⟩ := Option.map_eq_some_iff.mp stepped
  have taken := act_atomics permitted fresh acted
  refine ⟨taken.tail (.tick after), fun record member => ?_⟩
  exact Nat.lt_succ_of_le (taken.stamped (fun record member => (fresh record member).le) record member)

/-- Every run with permitted steps is a sequence of indivisible changes. -/
theorem Run.atomics {c d : Cluster S} (run : Run allowed c d) (fresh : c.Fresh) :
    Atomics allowed c d ∧ d.Fresh := by
  induction run with
  | refl => exact ⟨.refl, fresh⟩
  | tail _ last ih =>
      obtain ⟨taken, now⟩ := ih
      obtain ⟨more, after⟩ := last.atomics now
      exact ⟨taken.trans more, after⟩

/-- In every run, the time has gone on since the last entry was made. -/
theorem Run.fresh {c : Cluster S} (run : Run allowed (.initial S) c) : c.Fresh :=
  (run.atomics (fresh_initial S)).2

end Steps

end Cluster

end Metamorphosis
