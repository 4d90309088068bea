import Metamorphosis.Construction.Fibers

namespace Metamorphosis
variable {n : Nat}

/-- A `RequestVote` call; its caller is the candidate. -/
structure VoteCall (n : Nat) where
  callee : Fin n
  request : RequestVoteRequest n

/-- An `AppendEntries` call; its caller is the leader, and `seq` numbers the calls of one session. -/
structure AppendCall {n : Nat} (S : Service n) where
  callee : Fin n
  seq : Nat
  request : AppendEntriesRequest n S.Entry
deriving DecidableEq

/-- Two calls of one leader session to one follower. -/
def AppendCall.SameSession {S : Service n} (first second : AppendCall S) : Prop :=
  first.callee = second.callee ∧ first.request.leaderId = second.request.leaderId ∧
    first.request.term = second.request.term

instance {S : Service n} (first second : AppendCall S) : Decidable (first.SameSession second) :=
  inferInstanceAs (Decidable (_ ∧ _ ∧ _))

/-- A node executed `BecomeLeader` with this saved log. -/
structure Elected {n : Nat} (S : Service n) where
  node : Fin n
  term : Nat
  log : List S.Entry

/-- A leader made an entry for a client call. -/
structure Created {n : Nat} (S : Service n) where
  node : Fin n
  tag : Nat
  term : Nat
  index : Nat
  entry : S.Entry
  time : Nat

/-- A client call was answered. -/
structure Answered {n : Nat} (S : Service n) where
  node : Fin n
  tag : Nat
  request : S.Request
  response : S.Response
  time : Nat

/-- All nodes, every message that was ever sent, and a record of what happened. A message stays
in its list, so it can be delivered late, never, or more than once. -/
structure Cluster {n : Nat} (S : Service n) where
  nodes : Fin n → Node S
  voteRequests : List (VoteCall n)
  voteReplies : List (VoteCall n × RequestVoteResult)
  appendRequests : List (AppendCall S)
  appendReplies : List (AppendCall S × AppendEntriesResult)
  handled : List (AppendCall S)
  granted : List (Fin n × Nat × Fin n)
  elected : List (Elected S)
  created : List (Created S)
  commits : List (Nat × Nat)
  answered : List (Answered S)
  clock : Nat

/-- Every process starts on empty databases. -/
def Cluster.initial (S : Service n) : Cluster S where
  nodes _ := construct ⟨none, none, OrderedMap.empty⟩
  voteRequests := []
  voteReplies := []
  appendRequests := []
  appendReplies := []
  handled := []
  granted := []
  elected := []
  created := []
  commits := []
  answered := []
  clock := 0

/-- What can happen next. Replies are named by their place in the list, and `none` stands for a
call that ends with an error. -/
inductive Action {n : Nat} (S : Service n) where
  | electionTimeout (i : Fin n)
  | handleVote (place : Nat)
  | voteAnswered (i j : Fin n) (reply : Option Nat)
  | electionEnd (i : Fin n)
  | sessionSend (i j : Fin n)
  | sessionEnd (i j : Fin n)
  | handleAppend (place : Nat)
  | appendAnswered (i j : Fin n) (reply : Option Nat)
  | mainRound (i : Fin n)
  | leaderEnd (i : Fin n)
  | execute (i : Fin n) (request : S.Request)
  | resume (i : Fin n) (tag : Nat)
  | crash (i : Fin n)

namespace Cluster
variable {S : Service n}

def setNode (c : Cluster S) (i : Fin n) (node : Node S) : Cluster S :=
  { c with nodes := Function.update c.nodes i node }

/-- The process of a node ends and a new one starts on the node's databases. -/
def restart (c : Cluster S) (i : Fin n) (disk : Disk S) : Cluster S :=
  c.setNode i (construct disk)

/-- The databases after the first writes of a process. -/
def diskAfter (node : Node S) (writes : List (Disk S)) : Disk S :=
  writes.getLast?.getD node.disk

/-- A node runs a process to its end, or stops after some of its writes and restarts. A failed
`VERIFY` stops it as well. -/
def perform {A : Type} (c : Cluster S) (i : Fin n) (stop : Option Nat) (process : NodeProcess S A)
    (done : A → Cluster S → Cluster S) : Cluster S :=
  let outcome := process (c.nodes i)
  match stop with
  | some count => c.restart i (diskAfter (c.nodes i) (outcome.writes.take count))
  | none =>
      match outcome.result with
      | none => c.restart i (diskAfter (c.nodes i) outcome.writes)
      | some (value, node) => done value (c.setNode i node)

/-- The candidate's fibers call every other node. -/
def sendVotes (c : Cluster S) (request : RequestVoteRequest n) : Cluster S :=
  { c with
    voteRequests := c.voteRequests ++
      ((List.finRange n).filter fun j => j ≠ request.candidateId).map fun j => ⟨j, request⟩
    granted := c.granted ++ [(request.candidateId, request.term, request.candidateId)] }

/-- A node that enters `StartCandidate` calls the others; in the other cases nothing is sent. -/
def sendVotes? (c : Cluster S) : Option (RequestVoteRequest n) → Cluster S
  | none => c
  | some request => c.sendVotes request

/-- The reply to a vote request is sent back. -/
def replyVote (c : Cluster S) (call : VoteCall n) (result : RequestVoteResult) : Cluster S :=
  { c with
    voteReplies := c.voteReplies ++ [(call, result)]
    granted := if result.voteGranted then
        c.granted ++ [(call.callee, call.request.term, call.request.candidateId)]
      else c.granted }

/-- A node that was no leader before its step and is one now executed `BecomeLeader`. -/
def noteElected (before : Role) (i : Fin n) (c : Cluster S) : Cluster S :=
  let node := c.nodes i
  if before ≠ .leader ∧ node.state = .leader then
    { c with elected := c.elected ++ [⟨i, node.currentTerm, node.raftLog.entries.map Prod.snd⟩] }
  else c

/-- A leader that advanced its commit index in `UpdateCommitIndex`. -/
def noteCommit (before : Nat) (i : Fin n) (c : Cluster S) : Cluster S :=
  let node := c.nodes i
  if before < node.commitIndex then
    { c with commits := c.commits ++ [(node.currentTerm, node.commitIndex)] }
  else c

/-- A new call is sent to its follower. -/
def sendAppend (c : Cluster S) (j : Fin n) (seq : Nat) (request : AppendEntriesRequest n S.Entry) :
    Cluster S :=
  { c with appendRequests := c.appendRequests ++ [⟨j, seq, request⟩] }

/-- A client call is answered at once, or its entry is the last one of the pending log. -/
def noteExecute (i : Fin n) (request : S.Request) (response : Option S.Response) (c : Cluster S) :
    Cluster S :=
  match response with
  | some response => { c with answered := c.answered ++ [⟨i, c.clock, request, response, c.clock⟩] }
  | none =>
      let node := c.nodes i
      match node.pendingLog.getLast? with
      | none => c
      | some entry =>
          { c with created := c.created ++
            [⟨i, c.clock, node.currentTerm, node.nextIndex i - 1, entry, c.clock⟩] }

/-- One step without the clock; `none` where the step is not possible. -/
def act (c : Cluster S) (stop : Option Nat) : Action S → Option (Cluster S)
  | .electionTimeout i =>
      match (c.nodes i).mainFiber with
      | .startFollower => some (c.perform i stop (electionTimeout i) fun request c => c.sendVotes request)
      | _ => none
  | .handleVote place => do
      let call ← c.voteRequests[place]?
      some (c.perform call.callee stop (requestVote call.request) fun result c => c.replyVote call result)
  | .voteAnswered i j reply =>
      match (c.nodes i).mainFiber with
      | .startCandidate election =>
          if election.waiting j then
            match reply with
            | none => some (c.perform i stop (voteAnswered election j none) fun _ => noteElected (c.nodes i).state i)
            | some place => do
                let (call, result) ← c.voteReplies[place]?
                if call.callee = j ∧ call.request = election.request then
                  some (c.perform i stop (voteAnswered election j (some result))
                    fun _ => noteElected (c.nodes i).state i)
                else none
          else none
      | _ => none
  | .electionEnd i =>
      match (c.nodes i).mainFiber with
      | .startCandidate election =>
          if ∀ j, election.waiting j = false then
            some (c.perform i stop (startNode i) fun request c => c.sendVotes? request)
          else none
      | _ => none
  | .sessionSend i j =>
      match (c.nodes i).mainFiber with
      | .startLeader fibers =>
          match fibers.session j with
          | .loop =>
              if (c.nodes i).state = .leader then
                some (c.perform i stop (sessionSend i j fibers)
                  fun request c => c.sendAppend j (fibers.issued j) request)
              else none
          | _ => none
      | _ => none
  | .sessionEnd i j =>
      match (c.nodes i).mainFiber with
      | .startLeader fibers =>
          match fibers.session j with
          | .loop =>
              if (c.nodes i).state ≠ .leader then
                some (c.perform i stop (setSession j fibers .finished) fun _ c => c)
              else none
          | _ => none
      | _ => none
  | .handleAppend place => do
      let call ← c.appendRequests[place]?
      some ({ c with handled := c.handled ++ [call] }.perform call.callee stop (appendEntries call.request)
        fun result c => { c with appendReplies := c.appendReplies ++ [(call, result)] })
  | .appendAnswered i j reply =>
      match (c.nodes i).mainFiber with
      | .startLeader fibers =>
          match fibers.session j with
          | .calling seq request =>
              match reply with
              | none => some (c.perform i stop (appendAnswered i j fibers request none) fun _ c => c)
              | some place => do
                  let (call, result) ← c.appendReplies[place]?
                  if call.callee = j ∧ call.seq = seq ∧ call.request.leaderId = i ∧
                      call.request.term = request.term then
                    some (c.perform i stop (appendAnswered i j fibers request (some result))
                      fun _ => noteCommit (c.nodes i).commitIndex i)
                  else none
          | _ => none
      | _ => none
  | .mainRound i =>
      match (c.nodes i).mainFiber with
      | .startLeader fibers =>
          if fibers.mainSession = .starting ∨ fibers.mainSession = .ready then
            some (c.perform i stop (mainRound i fibers) fun _ => noteCommit (c.nodes i).commitIndex i)
          else none
      | _ => none
  | .leaderEnd i =>
      match (c.nodes i).mainFiber with
      | .startLeader fibers =>
          if (∀ j, fibers.session j matches .finished) ∧ fibers.mainSession = .finished then
            some (c.perform i stop (leaderEnd i) fun request c => c.sendVotes? request)
          else none
      | _ => none
  | .execute i request =>
      some (c.perform i stop (execute i c.clock request) fun response => noteExecute i request response)
  | .resume i tag => do
      let call ← (c.nodes i).calls.find? fun call => call.tag = tag
      if call.signaled then
        some (c.perform i stop (resume call)
          fun response c => { c with answered := c.answered ++ [⟨i, tag, call.request, response, c.clock⟩] })
      else none
  | .crash i => some (c.restart i (c.nodes i).disk)

/-- One step of the cluster. -/
def step (c : Cluster S) (stop : Option Nat) (action : Action S) : Option (Cluster S) :=
  (c.act stop action).map fun c => { c with clock := c.clock + 1 }

/-- A step that meets a condition on the state before it. -/
def Next (allowed : Cluster S → Action S → Prop) (c d : Cluster S) : Prop :=
  ∃ stop action, allowed c action ∧ c.step stop action = some d

/-- A run whose steps all meet the condition. -/
abbrev Run (allowed : Cluster S → Action S → Prop) : Cluster S → Cluster S → Prop :=
  Relation.ReflTransGen (Next allowed)

/-- Any step is allowed. -/
def Any (_ : Cluster S) (_ : Action S) : Prop := True

/-- The calls of one leader session to one follower are handled at most once and in issue order. -/
def InOrder (c : Cluster S) : Action S → Prop
  | .handleAppend place => ∀ call ∈ c.appendRequests[place]?, ∀ earlier ∈ c.handled,
      earlier.SameSession call → earlier.seq < call.seq
  | _ => True

end Cluster

end Metamorphosis
