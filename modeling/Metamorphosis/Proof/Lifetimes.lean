import Metamorphosis.Proof.Decisions

/-!
What a process of a node keeps from its start to its end: the commit index only grows, and committed
entries stay as they are.
-/

namespace Metamorphosis
open ReplicatedLog
variable {n : Nat} {S : Service n}

/-- The node that a process runs on, and its state if the process gets to its end. -/
def Cluster.resultOf {A : Type} (c : Cluster S) (i : Fin n) (process : NodeProcess S A) : Fin n × Option (Node S) :=
  (i, (process (c.nodes i)).result.map Prod.snd)

/-- The node that an action runs on, and the state in which it leaves the node unless a `VERIFY` fails. -/
def Cluster.runs (c : Cluster S) : Action S → Option (Fin n × Option (Node S))
  | .electionTimeout i => some (c.resultOf i (electionTimeout i))
  | .handleVote place => (c.voteRequests[place]?).map fun call => c.resultOf call.callee (requestVote call.request)
  | .voteAnswered i j reply =>
      match (c.nodes i).mainFiber, reply with
      | .startCandidate election, none => some (c.resultOf i (voteAnswered election j none))
      | .startCandidate election, some place =>
          (c.voteReplies[place]?).map fun reply => c.resultOf i (voteAnswered election j (some reply.2))
      | _, _ => none
  | .electionEnd i => some (c.resultOf i (startNode i))
  | .sessionSend i j =>
      match (c.nodes i).mainFiber with
      | .startLeader fibers => some (c.resultOf i (sessionSend i j fibers))
      | _ => none
  | .sessionEnd i j =>
      match (c.nodes i).mainFiber with
      | .startLeader fibers => some (c.resultOf i (setSession j fibers .finished))
      | _ => none
  | .handleAppend place =>
      (c.appendRequests[place]?).map fun call => c.resultOf call.callee (appendEntries call.request)
  | .appendAnswered i j reply =>
      match (c.nodes i).mainFiber with
      | .startLeader fibers =>
          match fibers.session j, reply with
          | .calling _ request, none => some (c.resultOf i (appendAnswered i j fibers request none))
          | .calling _ request, some place =>
              (c.appendReplies[place]?).map fun reply => c.resultOf i (appendAnswered i j fibers request (some reply.2))
          | _, _ => none
      | _ => none
  | .mainRound i =>
      match (c.nodes i).mainFiber with
      | .startLeader fibers => some (c.resultOf i (mainRound i fibers))
      | _ => none
  | .leaderEnd i => some (c.resultOf i (leaderEnd i))
  | .execute i request => some (c.resultOf i (execute i c.clock request))
  | .resume i tag => ((c.nodes i).calls.find? fun call => call.tag = tag).map fun call => c.resultOf i (resume call)
  | .crash i => some (i, none)

/-- A step ends the process of a node: it is stopped, or a `VERIFY` fails. -/
def Cluster.Ends (c : Cluster S) (x : Fin n) (stop : Option Nat) (action : Action S) : Prop :=
  ∃ result, c.runs action = some (x, result) ∧ (stop ≠ none ∨ result = none)

/-- A step that does not end the process of a node. -/
def Cluster.Lives (x : Fin n) (c d : Cluster S) : Prop :=
  ∃ stop action, ¬ c.Ends x stop action ∧ c.step stop action = some d

/-- A run within the lifetime of one process of a node. -/
abbrev Cluster.Lifetime (x : Fin n) : Cluster S → Cluster S → Prop := Relation.ReflTransGen (Cluster.Lives x)

/-- What a step does to the nodes: one of them runs to its end, or its process is replaced. -/
def Cluster.Runs (c d : Cluster S) (stop : Option Nat) (run : Fin n × Option (Node S)) : Prop :=
  (∃ node, stop = none ∧ run.2 = some node ∧ d.nodes = (c.setNode run.1 node).nodes) ∨
    ((stop ≠ none ∨ run.2 = none) ∧ ∃ disk, d.nodes = (c.setNode run.1 (construct disk)).nodes)

/-- A process that runs on one node changes no other one. -/
theorem Cluster.perform_runs {A : Type} (c : Cluster S) (i : Fin n) (stop : Option Nat) (process : NodeProcess S A)
    (done : A → Cluster S → Cluster S) (silent : ∀ value d, (done value d).nodes = d.nodes) :
    c.Runs (c.perform i stop process done) stop (c.resultOf i process) := by
  cases stop with
  | some count => exact Or.inr ⟨Or.inl nofun, _, rfl⟩
  | none =>
      rcases finished : (process (c.nodes i)).result with _ | ⟨value, node⟩
      · refine Or.inr ⟨Or.inr ?_, ?_⟩
        · rw [resultOf, finished]
          rfl
        · simp only [perform, finished]
          exact ⟨_, rfl⟩
      · refine Or.inl ⟨node, rfl, ?_, ?_⟩
        · rw [resultOf, finished]
          rfl
        · simp only [perform, finished]
          exact silent ..

/-- A record changes no node. -/
theorem Cluster.noteCommit_nodes (before : Nat) (i : Fin n) (c : Cluster S) : (noteCommit before i c).nodes = c.nodes := by
  rw [noteCommit_eq]

theorem Cluster.noteElected_nodes (before : Role) (i : Fin n) (c : Cluster S) : (noteElected before i c).nodes = c.nodes := by
  rw [noteElected]
  split
  · rfl
  · rfl

theorem Cluster.noteExecute_nodes (i : Fin n) (request : S.Request) (response : Option S.Response) (c : Cluster S) :
    (noteExecute i request response c).nodes = c.nodes := by
  cases response with
  | some _ => rfl
  | none =>
      simp only [noteExecute]
      split
      · rfl
      · rfl

theorem Cluster.sendVotes?_nodes (c : Cluster S) (request : Option (RequestVoteRequest n)) :
    (c.sendVotes? request).nodes = c.nodes := by
  cases request with
  | none => rfl
  | some _ => rfl

/-- A process sends only what is sent after its end. -/
theorem Cluster.perform_requests {A : Type} (c : Cluster S) (i : Fin n) (stop : Option Nat) (process : NodeProcess S A)
    (done : A → Cluster S → Cluster S) (silent : ∀ value d, (done value d).appendRequests = d.appendRequests) :
    (c.perform i stop process done).appendRequests = c.appendRequests := by
  rcases perform_cases c i stop process done with ⟨disk, _, same⟩ | ⟨value, node, _, same⟩
  · rw [same]
    rfl
  · rw [same, silent]
    rfl

theorem Cluster.noteCommit_requests (before : Nat) (i : Fin n) (c : Cluster S) :
    (noteCommit before i c).appendRequests = c.appendRequests := by
  rw [noteCommit_eq]

theorem Cluster.noteElected_requests (before : Role) (i : Fin n) (c : Cluster S) :
    (noteElected before i c).appendRequests = c.appendRequests := by
  rw [noteElected]
  split
  · rfl
  · rfl

theorem Cluster.noteExecute_requests (i : Fin n) (request : S.Request) (response : Option S.Response) (c : Cluster S) :
    (noteExecute i request response c).appendRequests = c.appendRequests := by
  cases response with
  | some _ => rfl
  | none =>
      simp only [noteExecute]
      split
      · rfl
      · rfl

theorem Cluster.sendVotes?_requests (c : Cluster S) (request : Option (RequestVoteRequest n)) :
    (c.sendVotes? request).appendRequests = c.appendRequests := by
  cases request with
  | none => rfl
  | some _ => rfl

/-- Every step runs what `runs` says, and only the sessions of leaders send requests. -/
theorem Cluster.act_runs {c d : Cluster S} {stop : Option Nat} {action : Action S} (acted : c.act stop action = some d) :
    ∃ run, c.runs action = some run ∧ c.Runs d stop run ∧
      (d.appendRequests = c.appendRequests ∨ ∃ i j, action = .sessionSend i j) := by
  cases act_acts acted with
  | electionTimeout i _ =>
      exact ⟨_, rfl, perform_runs _ _ _ _ _ fun _ _ => rfl, Or.inl (perform_requests _ _ _ _ _ fun _ _ => rfl)⟩
  | handleVote place call sent =>
      exact ⟨_, by rw [runs, sent]; rfl, perform_runs _ _ _ _ _ fun _ _ => rfl,
        Or.inl (perform_requests _ _ _ _ _ fun _ _ => rfl)⟩
  | voteFailed i j election electing _ =>
      exact ⟨_, by simp only [runs, electing], perform_runs _ _ _ _ _ fun _ => noteElected_nodes _ _,
        Or.inl (perform_requests _ _ _ _ _ fun _ => noteElected_requests _ _)⟩
  | voteAnswered i j place election call result electing _ replied _ _ =>
      exact ⟨_, by simp only [runs, electing, replied, Option.map_some],
        perform_runs _ _ _ _ _ fun _ => noteElected_nodes _ _,
        Or.inl (perform_requests _ _ _ _ _ fun _ => noteElected_requests _ _)⟩
  | electionEnd i election _ _ =>
      exact ⟨_, rfl, perform_runs _ _ _ _ _ fun request c => sendVotes?_nodes c request,
        Or.inl (perform_requests _ _ _ _ _ fun request c => sendVotes?_requests c request)⟩
  | sessionSend i j fibers leading _ _ =>
      exact ⟨_, by simp only [runs, leading], perform_runs _ _ _ _ _ fun _ _ => rfl, Or.inr ⟨i, j, rfl⟩⟩
  | sessionEnd i j fibers leading _ _ =>
      exact ⟨_, by simp only [runs, leading], perform_runs _ _ _ _ _ fun _ _ => rfl,
        Or.inl (perform_requests _ _ _ _ _ fun _ _ => rfl)⟩
  | handleAppend place call sent =>
      exact ⟨_, by rw [runs, sent]; rfl, perform_runs (c.handle call) _ _ _ _ fun _ _ => rfl,
        Or.inl (perform_requests (c.handle call) _ _ _ _ fun _ _ => rfl)⟩
  | appendFailed i j fibers seq request leading session =>
      exact ⟨_, by simp only [runs, leading, session], perform_runs _ _ _ _ _ fun _ _ => rfl,
        Or.inl (perform_requests _ _ _ _ _ fun _ _ => rfl)⟩
  | appendAnswered i j place fibers seq request call result leading session replied _ _ _ _ =>
      exact ⟨_, by simp only [runs, leading, session, replied, Option.map_some],
        perform_runs _ _ _ _ _ fun _ => noteCommit_nodes _ _,
        Or.inl (perform_requests _ _ _ _ _ fun _ => noteCommit_requests _ _)⟩
  | mainRound i fibers leading _ =>
      exact ⟨_, by simp only [runs, leading], perform_runs _ _ _ _ _ fun _ => noteCommit_nodes _ _,
        Or.inl (perform_requests _ _ _ _ _ fun _ => noteCommit_requests _ _)⟩
  | leaderEnd i fibers _ _ _ =>
      exact ⟨_, rfl, perform_runs _ _ _ _ _ fun request c => sendVotes?_nodes c request,
        Or.inl (perform_requests _ _ _ _ _ fun request c => sendVotes?_requests c request)⟩
  | execute i request =>
      exact ⟨_, rfl, perform_runs _ _ _ _ _ fun response => noteExecute_nodes i request response,
        Or.inl (perform_requests _ _ _ _ _ fun response => noteExecute_requests i request response)⟩
  | resume i tag call found _ =>
      exact ⟨_, by simp only [runs, found, Option.map_some], perform_runs _ _ _ _ _ fun _ _ => rfl,
        Or.inl (perform_requests _ _ _ _ _ fun _ _ => rfl)⟩
  | crash i => exact ⟨_, rfl, Or.inr ⟨Or.inr rfl, _, rfl⟩, Or.inl rfl⟩

/-- The actions whose processes get to their end, with the node that they leave. -/
inductive Cluster.Completes (c : Cluster S) : Action S → Fin n → Node S → Prop where
  | electionTimeout {i : Fin n} {after : Node S}
      (ends : (electionTimeout i (c.nodes i)).result.map Prod.snd = some after) :
      Completes c (.electionTimeout i) i after
  | requestVote {place : Nat} {call : VoteCall n} {after : Node S}
      (ends : (requestVote call.request (c.nodes call.callee)).result.map Prod.snd = some after) :
      Completes c (.handleVote place) call.callee after
  | voteAnswered {i j : Fin n} {reply : Option Nat} {election : Election n} {result : Option RequestVoteResult}
      {after : Node S} (electing : (c.nodes i).mainFiber = .startCandidate election)
      (ends : (voteAnswered election j result (c.nodes i)).result.map Prod.snd = some after) :
      Completes c (.voteAnswered i j reply) i after
  | electionEnd {i : Fin n} {election : Election n} {after : Node S}
      (electing : (c.nodes i).mainFiber = .startCandidate election)
      (ends : (startNode i (c.nodes i)).result.map Prod.snd = some after) : Completes c (.electionEnd i) i after
  | sessionSend {i j : Fin n} {fibers : LeaderFibers S} {after : Node S}
      (leading : (c.nodes i).mainFiber = .startLeader fibers)
      (ends : (sessionSend i j fibers (c.nodes i)).result.map Prod.snd = some after) :
      Completes c (.sessionSend i j) i after
  | sessionEnd {i j : Fin n} {fibers : LeaderFibers S} (leading : (c.nodes i).mainFiber = .startLeader fibers) :
      Completes c (.sessionEnd i j) i ((c.nodes i).withSession j fibers .finished)
  | appendEntries {place : Nat} {call : AppendCall S} {after : Node S}
      (ends : (appendEntries call.request (c.nodes call.callee)).result.map Prod.snd = some after) :
      Completes c (.handleAppend place) call.callee after
  | appendAnswered {i j : Fin n} {reply : Option Nat} {fibers : LeaderFibers S} {seq : Nat}
      {request : AppendEntriesRequest n S.Entry} {result : Option AppendEntriesResult} {after : Node S}
      (leading : (c.nodes i).mainFiber = .startLeader fibers) (session : fibers.session j = .calling seq request)
      (answered : reply.isNone = result.isNone)
      (ends : (appendAnswered i j fibers request result (c.nodes i)).result.map Prod.snd = some after) :
      Completes c (.appendAnswered i j reply) i after
  | mainRound {i : Fin n} {fibers : LeaderFibers S} {after : Node S}
      (leading : (c.nodes i).mainFiber = .startLeader fibers)
      (ends : (mainRound i fibers (c.nodes i)).result.map Prod.snd = some after) : Completes c (.mainRound i) i after
  | leaderEnd {i : Fin n} {fibers : LeaderFibers S} {after : Node S}
      (leading : (c.nodes i).mainFiber = .startLeader fibers) (ended : fibers.mainSession = .finished)
      (ends : (startNode i { c.nodes i with pendingLog := [] }).result.map Prod.snd = some after) :
      Completes c (.leaderEnd i) i after
  | execute {i : Fin n} {request : S.Request} {after : Node S}
      (ends : (execute i c.clock request (c.nodes i)).result.map Prod.snd = some after) :
      Completes c (.execute i request) i after
  | resume {i : Fin n} {tag : Nat} {call : Call S} {after : Node S}
      (ends : (resume call (c.nodes i)).result.map Prod.snd = some after) : Completes c (.resume i tag) i after

/-- An action that comes to its end leaves the node as its process says. -/
theorem Cluster.act_completes {c d : Cluster S} {stop : Option Nat} {action : Action S} {i : Fin n} {after : Node S}
    (acted : c.act stop action = some d) (ran : c.runs action = some (i, some after)) : c.Completes action i after := by
  cases act_acts acted with
  | electionTimeout i _ =>
      obtain ⟨rfl, ends⟩ := Prod.mk.inj (Option.some.inj ran)
      exact .electionTimeout ends
  | handleVote place call sent =>
      rw [runs, sent] at ran
      obtain ⟨rfl, ends⟩ := Prod.mk.inj (Option.some.inj ran)
      exact .requestVote ends
  | voteFailed i j election electing _ =>
      simp only [runs, electing] at ran
      obtain ⟨rfl, ends⟩ := Prod.mk.inj (Option.some.inj ran)
      exact .voteAnswered electing ends
  | voteAnswered i j place election call result electing _ replied _ _ =>
      simp only [runs, electing, replied, Option.map_some] at ran
      obtain ⟨rfl, ends⟩ := Prod.mk.inj (Option.some.inj ran)
      exact .voteAnswered electing ends
  | electionEnd i election electing _ =>
      obtain ⟨rfl, ends⟩ := Prod.mk.inj (Option.some.inj ran)
      exact .electionEnd electing ends
  | sessionSend i j fibers leading _ _ =>
      simp only [runs, leading] at ran
      obtain ⟨rfl, ends⟩ := Prod.mk.inj (Option.some.inj ran)
      exact .sessionSend leading ends
  | sessionEnd i j fibers leading _ _ =>
      simp only [runs, leading] at ran
      obtain ⟨rfl, ends⟩ := Prod.mk.inj (Option.some.inj ran)
      cases ends
      exact .sessionEnd leading
  | handleAppend place call sent =>
      rw [runs, sent] at ran
      obtain ⟨rfl, ends⟩ := Prod.mk.inj (Option.some.inj ran)
      exact .appendEntries ends
  | appendFailed i j fibers seq request leading session =>
      simp only [runs, leading, session] at ran
      obtain ⟨rfl, ends⟩ := Prod.mk.inj (Option.some.inj ran)
      exact .appendAnswered leading session rfl ends
  | appendAnswered i j place fibers seq request call result leading session replied _ _ _ _ =>
      simp only [runs, leading, session, replied, Option.map_some] at ran
      obtain ⟨rfl, ends⟩ := Prod.mk.inj (Option.some.inj ran)
      exact .appendAnswered leading session rfl ends
  | mainRound i fibers leading _ =>
      simp only [runs, leading] at ran
      obtain ⟨rfl, ends⟩ := Prod.mk.inj (Option.some.inj ran)
      exact .mainRound leading ends
  | leaderEnd i fibers leading _ ended =>
      obtain ⟨rfl, ends⟩ := Prod.mk.inj (Option.some.inj ran)
      rw [Metamorphosis.leaderEnd, Process.bind_modify] at ends
      exact .leaderEnd leading ended ends
  | execute i request =>
      obtain ⟨rfl, ends⟩ := Prod.mk.inj (Option.some.inj ran)
      exact .execute ends
  | resume i tag call found _ =>
      simp only [runs, found, Option.map_some] at ran
      obtain ⟨rfl, ends⟩ := Prod.mk.inj (Option.some.inj ran)
      exact .resume ends
  | crash i => cases ran

/-- What one node keeps: it commits more, and what it has committed stays as it is. -/
structure Node.Lasts (before after : Node S) : Prop where
  commitIndex : before.commitIndex ≤ after.commitIndex
  log : ∀ index, 1 ≤ index → index ≤ before.commitIndex → after.raftLog.get? index = before.raftLog.get? index

/-- A process that touches neither the log nor the commit index. -/
theorem Node.Lasts.same {before after : Node S} (commitIndex : after.commitIndex = before.commitIndex)
    (log : after.raftLog = before.raftLog) : before.Lasts after :=
  ⟨commitIndex.ge, fun _ _ _ => by rw [log]⟩

theorem Node.Lasts.refl (node : Node S) : node.Lasts node := .same rfl rfl

/-- Committed entries last through two processes. -/
theorem Node.Lasts.trans {first second third : Node S} (earlier : first.Lasts second) (later : second.Lasts third) :
    first.Lasts third where
  commitIndex := earlier.commitIndex.trans later.commitIndex
  log index positive inside :=
    (later.log index positive (inside.trans earlier.commitIndex)).trans (earlier.log index positive inside)

/-- Something else happens before the part that matters. -/
theorem Node.Lasts.head {before middle after : Node S} (later : middle.Lasts after)
    (commitIndex : middle.commitIndex = before.commitIndex) (log : middle.raftLog = before.raftLog) : before.Lasts after :=
  .trans (.same commitIndex log) later

theorem Node.Lasts.follow (node : Node S) (term : Nat) : node.Lasts (node.follow term) :=
  .same (Node.yield_commitIndex node) (Node.yield_raftLog node)

/-- A new candidate or leader keeps its log. -/
theorem Node.Lasts.startNode {node after : Node S} {self : Fin n}
    (ends : (startNode self node).result.map Prod.snd = some after) : node.Lasts after := by
  rcases startNode_cases node self with ⟨_, run⟩ | ⟨_, run⟩ | ⟨_, run⟩
  · rw [run] at ends
    cases ends
    exact .same rfl rfl
  · rw [run] at ends
    cases ends
    exact .same rfl rfl
  · rw [run] at ends
    cases ends
    exact .same rfl rfl

/-- A vote keeps the log. -/
theorem Node.Lasts.requestVote {node after : Node S} {request : RequestVoteRequest n}
    (ends : (requestVote request node).result.map Prod.snd = some after) : node.Lasts after := by
  by_cases old : request.term < node.currentTerm
  · rw [requestVote_old old] at ends
    cases ends
    exact .refl node
  · have voter : node.Lasts (node.voter request.term) := by
      rw [Node.voter]
      split
      · exact .follow node _
      · exact .refl node
    rw [requestVote_run (Nat.le_of_not_lt old)] at ends
    rcases castVote_cases node.currentTerm request (node.voter request.term) with
      ⟨_, _, cast⟩ | ⟨_, _, cast⟩ | ⟨_, cast⟩
    · simp only [cast] at ends
      cases ends
      exact voter
    · simp only [cast] at ends
      cases ends
      exact voter.trans (.same rfl rfl)
    · simp only [cast] at ends
      cases ends
      exact voter

/-- A counted vote keeps the log. -/
theorem Node.Lasts.voteAnswered {node after : Node S} {election : Election n} {j : Fin n}
    {result : Option RequestVoteResult}
    (ends : (voteAnswered election j result node).result.map Prod.snd = some after) : node.Lasts after := by
  rcases voteAnswered_cases election j result node with run | ⟨term, _, run⟩ | ⟨_, _, run | ⟨_, _, run⟩⟩
  · rw [run] at ends
    cases ends
    exact .same rfl rfl
  · rw [run] at ends
    cases ends
    exact (Lasts.follow (node.electing (election.left j)) term).head rfl rfl
  · rw [run] at ends
    cases ends
    exact .same rfl rfl
  · rw [run] at ends
    cases ends
    exact .same rfl rfl

/-- `UpdateCommitIndex` only adds to what is committed. -/
theorem Node.Lasts.updatedCommit {node after : Node S} (updated : node.updatedCommit = some after) : node.Lasts after := by
  obtain ⟨result, _, rfl⟩ := Option.map_eq_some_iff.mp updated
  exact ⟨node.commitIndex_le _, fun _ _ _ => rfl⟩

/-- An answered request can only raise the commit index. -/
theorem Node.Lasts.appendAnswered {node after : Node S} {self j : Fin n} {fibers : LeaderFibers S}
    {request : AppendEntriesRequest n S.Entry} {result : Option AppendEntriesResult}
    (ends : (appendAnswered self j fibers request result node).result.map Prod.snd = some after) : node.Lasts after := by
  by_cases role : node.state = .leader
  swap
  · rw [appendAnswered_notLeader self j fibers request result role] at ends
    cases ends
    exact .same rfl rfl
  cases result with
  | none =>
      rw [appendAnswered_failed self j fibers request role] at ends
      cases ends
      exact .same rfl rfl
  | some response =>
      rcases appendAnswered_cases self j fibers request response role with
        ⟨_, run⟩ | ⟨_, _, run⟩ | ⟨_, _, aborted | ⟨_, run⟩⟩
      · rw [run] at ends
        cases ends
        exact (Lasts.follow (node.answered self j fibers) response.term).head rfl rfl
      · rw [run, Option.map_map] at ends
        obtain ⟨committed, updated, rfl⟩ := Option.map_eq_some_iff.mp ends
        exact (Lasts.updatedCommit updated).head rfl rfl
      · rw [aborted] at ends
        cases ends
      · rw [run] at ends
        cases ends
        exact .same rfl rfl

/-- A client's request is pending first. -/
theorem Node.Lasts.execute {node after : Node S} {self : Fin n} {tag : Nat} {request : S.Request}
    (ends : (execute self tag request node).result.map Prod.snd = some after) : node.Lasts after := by
  rcases execute_cases node self tag request with ⟨_, run⟩ | ⟨_, _, _, run⟩ | ⟨_, _, _, _, run⟩
  · rw [run] at ends
    cases ends
    exact .refl node
  · rw [run] at ends
    cases ends
    exact .refl node
  · rw [run] at ends
    cases ends
    exact .same rfl rfl

/-- The end of a client's call keeps the log. -/
theorem Node.Lasts.resume {node after : Node S} {call : Call S}
    (ends : (resume call node).result.map Prod.snd = some after) : node.Lasts after := by
  rcases resume_cases node call with ⟨_, run⟩ | ⟨_, _, run⟩ | aborted
  · rw [run] at ends
    cases ends
    exact .same rfl rfl
  · rw [run] at ends
    cases ends
    exact .same rfl rfl
  · rw [aborted] at ends
    cases ends

variable {P : Copies S} {strict : Prop} {c d : Cluster S} {a : Hist S}

/-- A follower rewrites its log after its commit index only. -/
theorem Sim.lasts_append (sim : Sim P strict c a) {call : AppendCall S} {after : Node S}
    (ends : (appendEntries call.request (c.nodes call.callee)).result.map Prod.snd = some after) :
    (c.nodes call.callee).Lasts after := by
  by_cases old : call.request.term < (c.nodes call.callee).currentTerm
  · rw [appendEntries_old old] at ends
    cases ends
    exact .refl _
  have current : (c.nodes call.callee).currentTerm ≤ call.request.term := Nat.le_of_not_lt old
  have entered : (c.nodes call.callee).Lasts ((c.nodes call.callee).enter call.request.term) :=
    .same (Node.enter_commitIndex ..) (Node.enter_raftLog ..)
  rw [appendEntries_run current] at ends
  rcases checkEntries_cases (c.nodes call.callee).currentTerm call.request
      ((c.nodes call.callee).enter call.request.term) with aborted | ⟨_, check⟩ | ⟨matched, consistent, check⟩
  · simp only [aborted] at ends
    cases ends
  · simp only [check] at ends
    cases ends
    exact entered
  · simp only [check, Option.map_map] at ends
    obtain ⟨result, _, rfl⟩ := Option.map_eq_some_iff.mp ends
    obtain ⟨log, inside⟩ := sim.entered_log ⟨current, matched, consistent⟩
    refine entered.trans ⟨Nat.le_max_left .., fun index positive committed => ?_⟩
    change (Node.rewritten _ call.request).raftLog.get? index = _
    rw [Node.rewritten_get? log inside positive]
    exact if_pos (committed.trans (Nat.le_max_right ..))

/-- A leader saves its pending entries after the stored ones. -/
theorem Sim.lasts_main (sim : Sim P strict c a) {i : Fin n} {fibers : LeaderFibers S} {after : Node S}
    (leading : (c.nodes i).mainFiber = .startLeader fibers)
    (ends : (mainRound i fibers (c.nodes i)).result.map Prod.snd = some after) : (c.nodes i).Lasts after := by
  by_cases role : (c.nodes i).state = .leader
  · rw [mainRound_leader i fibers role, Option.map_map] at ends
    obtain ⟨committed, updated, rfl⟩ := Option.map_eq_some_iff.mp ends
    have saved : (c.nodes i).Lasts ((c.nodes i).save i fibers) := by
      refine ⟨Nat.le_refl _, fun index positive inside => ?_⟩
      obtain ⟨index, rfl⟩ : ∃ k, index = k + 1 := ⟨index - 1, by omega⟩
      have bound := (sim.nodes i).commit
      rw [← (sim.nodes i).log.size, sim.size i] at bound
      have log := (sim.nodes i).log.values.1
      rw [sim.saved_log leading role, OrderedMap.ofList_get?, List.getElem?_append_left (by omega),
        ← OrderedMap.ofList_get?, ← log]
    exact saved.trans (Node.Lasts.updatedCommit updated)
  · rw [mainRound_notLeader i fibers role] at ends
    cases ends
    exact .same rfl rfl

/-- A process that gets to its end has kept what was committed. -/
theorem Sim.completes_lasts (sim : Sim P strict c a) {action : Action S} {i : Fin n} {after : Node S}
    (completes : c.Completes action i after) : (c.nodes i).Lasts after := by
  cases completes with
  | electionTimeout ends =>
      rcases electionTimeout_cases (c.nodes i) i with ⟨_, run⟩ | aborted
      · rw [run] at ends
        cases ends
        exact .same rfl rfl
      · rw [aborted] at ends
        cases ends
  | requestVote ends => exact .requestVote ends
  | voteAnswered electing ends => exact .voteAnswered ends
  | electionEnd electing ends => exact .startNode ends
  | @sessionSend _ j fibers _ leading ends =>
      rcases sessionSend_cases (c.nodes i) i j fibers with aborted | ⟨_, _, _, _, _, run⟩
      · rw [aborted] at ends
        cases ends
      · rw [run] at ends
        cases ends
        exact .same rfl rfl
  | sessionEnd leading => exact .same rfl rfl
  | appendEntries ends => exact sim.lasts_append ends
  | appendAnswered leading session answered ends => exact .appendAnswered ends
  | mainRound leading ends => exact sim.lasts_main leading ends
  | leaderEnd leading ended ends => exact (Node.Lasts.startNode ends).head rfl rfl
  | execute ends => exact .execute ends
  | resume ends => exact .resume ends

/-- A step within the lifetime of a node's process keeps what the node has committed. -/
theorem Sim.lives_lasts (sim : Sim P strict c a) {x : Fin n} (lives : Cluster.Lives x c d) :
    (c.nodes x).Lasts (d.nodes x) := by
  obtain ⟨stop, action, goesOn, stepped⟩ := lives
  obtain ⟨after, acted, rfl⟩ := Option.map_eq_some_iff.mp stepped
  obtain ⟨⟨i, result⟩, ran, ⟨node, _, rfl, nodes⟩ | ⟨ends, disk, nodes⟩, _⟩ := Cluster.act_runs acted
  · change (c.nodes x).Lasts (after.nodes x)
    rw [nodes]
    by_cases self : x = i
    · subst self
      rw [Cluster.setNode_self]
      exact sim.completes_lasts (Cluster.act_completes acted ran)
    · rw [Cluster.setNode_other c node self]
      exact .refl _
  · change (c.nodes x).Lasts (after.nodes x)
    rw [nodes]
    by_cases self : x = i
    · subst self
      exact absurd ⟨result, ran, ends⟩ goesOn
    · rw [Cluster.setNode_other c _ self]
      exact .refl _

/-- Through the whole lifetime of its process, a node keeps what it has committed. -/
theorem Cluster.Lifetime.lasts (P : Copies S) {x : Fin n} (run : Cluster.Run Cluster.Any (.initial S) c)
    (lifetime : Cluster.Lifetime x c d) : (c.nodes x).Lasts (d.nodes x) ∧ Cluster.Run Cluster.Any (.initial S) d := by
  induction lifetime with
  | refl => exact ⟨.refl _, run⟩
  | tail _ last ih =>
      obtain ⟨lasts, reached⟩ := ih
      obtain ⟨a, sim⟩ := reached.any_sim P
      obtain ⟨stop, action, _, stepped⟩ := id last
      exact ⟨lasts.trans (sim.lives_lasts last), reached.tail ⟨stop, action, trivial, stepped⟩⟩

end Metamorphosis
