import Metamorphosis.Proof.Atomic

/-!
What an indivisible change does to the records of a cluster and to the logs of its nodes.
-/

namespace Metamorphosis
variable {n : Nat} {S : Service n} {c d : Cluster S} {allowed : Cluster S → Action S → Prop}

/-- The records of a cluster only grow. -/
structure Cluster.Extends (c d : Cluster S) : Prop where
  requests : c.appendRequests <+: d.appendRequests
  replies : c.appendReplies <+: d.appendReplies
  elected : c.elected <+: d.elected
  created : c.created <+: d.created
  commits : c.commits <+: d.commits
  answered : c.answered <+: d.answered
  clock : c.clock ≤ d.clock

theorem Cluster.Extends.refl (c : Cluster S) : c.Extends c :=
  ⟨List.prefix_rfl, List.prefix_rfl, List.prefix_rfl, List.prefix_rfl, List.prefix_rfl, List.prefix_rfl, Nat.le_refl _⟩

/-- Records that grow twice have grown. -/
theorem Cluster.Extends.trans {e : Cluster S} (first : c.Extends d) (second : d.Extends e) : c.Extends e where
  requests := first.requests.trans second.requests
  replies := first.replies.trans second.replies
  elected := first.elected.trans second.elected
  created := first.created.trans second.created
  commits := first.commits.trans second.commits
  answered := first.answered.trans second.answered
  clock := first.clock.trans second.clock

/-- A change of a node leaves the records as they are. -/
theorem Cluster.Extends.setNode (c : Cluster S) (i : Fin n) (node : Node S) : c.Extends (c.setNode i node) :=
  ⟨List.prefix_rfl, List.prefix_rfl, List.prefix_rfl, List.prefix_rfl, List.prefix_rfl, List.prefix_rfl, Nat.le_refl _⟩

/-- One step extends the records. -/
theorem Cluster.Atomic.extends (taken : Cluster.Atomic allowed c d) : c.Extends d := by
  cases taken with
  | commit i after _ _ =>
      refine (Extends.setNode c i after).trans ?_
      rw [noteCommit]
      split
      · exact ⟨List.prefix_rfl, List.prefix_rfl, List.prefix_rfl, List.prefix_rfl, List.prefix_append ..,
          List.prefix_rfl, Nat.le_refl _⟩
      · exact .refl _
  | tick => exact ⟨List.prefix_rfl, List.prefix_rfl, List.prefix_rfl, List.prefix_rfl, List.prefix_rfl,
      List.prefix_rfl, Nat.le_succ _⟩
  | _ => constructor <;> first | exact List.prefix_rfl | exact List.prefix_append .. | exact Nat.le_refl _

/-- Many steps extend the records. -/
theorem Cluster.Atomics.extends (taken : Cluster.Atomics allowed c d) : c.Extends d := by
  induction taken with
  | refl => exact .refl c
  | tail _ last ih => exact ih.trans last.extends

/-- Only a leader that takes a client's request makes an entry. -/
theorem Cluster.Atomic.created_cases (taken : Cluster.Atomic allowed c d) :
    d.created = c.created ∨ ∃ i request entry ext, allowed c (.execute i request) ∧ c.Fresh ∧
      (c.nodes i).state = .leader ∧
      S.newEntry (c.nodes i).ext (c.nodes i).currentTerm request = .inr (entry, ext) ∧
      d = (c.setNode i ((c.nodes i).appended i c.clock request entry ext)).noteCreated i (c.nodes i).currentTerm
        ((c.nodes i).nextIndex i) entry := by
  cases taken with
  | append i request entry ext permitted fresh role made =>
      exact Or.inr ⟨i, request, entry, ext, permitted, fresh, role, made, rfl⟩
  | commit i after _ _ =>
      rw [noteCommit_eq]
      exact Or.inl rfl
  | _ => exact Or.inl rfl

/-- A client gets an answer at once, or its call is woken: after a change of the term or by a commit. -/
theorem Cluster.Atomic.answered_cases (taken : Cluster.Atomic allowed c d) :
    d.answered = c.answered ∨
    (∃ i request response, allowed c (.execute i request) ∧
      ((c.nodes i).state ≠ .leader ∧ response = S.notALeader ∨ (c.nodes i).state = .leader ∧
        S.newEntry (c.nodes i).ext (c.nodes i).currentTerm request = .inl response) ∧
      d = c.noteAnswered i c.clock request response) ∨
    (∃ i call, allowed c (.resume i call.tag) ∧ call ∈ (c.nodes i).calls ∧
      call.currentTerm ≠ (c.nodes i).currentTerm ∧
      d = (c.setNode i (((c.nodes i).dropCall call).withExt (S.release (c.nodes i).ext call.request))).noteAnswered
        i call.tag call.request S.notALeader) ∨
    ∃ i call, call ∈ (c.nodes i).calls ∧ call.signaled = true ∧ call.currentTerm = (c.nodes i).currentTerm ∧
      allowed c (.resume i call.tag) ∧ (c.nodes i).state = .leader ∧
      d = (c.setNode i (((c.nodes i).dropCall call).withExt
        (S.committed (c.nodes i).ext call.request call.payload).2)).noteAnswered i call.tag call.request
          (S.committed (c.nodes i).ext call.request call.payload).1 := by
  cases taken with
  | answer i request response permitted given => exact Or.inr (Or.inl ⟨i, request, response, permitted, given, rfl⟩)
  | release i call permitted waits _ different =>
      exact Or.inr (Or.inr (Or.inl ⟨i, call, permitted, waits, different, rfl⟩))
  | committed i call permitted waits signaled same role =>
      exact Or.inr (Or.inr (Or.inr ⟨i, call, waits, signaled, same, permitted, role, rfl⟩))
  | commit i after _ _ =>
      rw [noteCommit_eq]
      exact Or.inl rfl
  | _ => exact Or.inl rfl

/-- The call's entries are accepted: its follower has entered the term and the checks have passed. -/
structure Cluster.Accepts (c : Cluster S) (call : AppendCall S) : Prop where
  current : (c.nodes call.callee).currentTerm ≤ call.request.term
  matched : ((c.nodes call.callee).enter call.request.term).PrevMatches call.request
  consistent : ((c.nodes call.callee).enter call.request.term).OverlapConsistent call.request

instance (node : Node S) (request : AppendEntriesRequest n S.Entry) : Decidable (node.PrevMatches request) :=
  decidable_of_iff (request.prevLogIndex ≤ node.getSavedLogSize ∧ (request.prevLogIndex = 0 ∨
      ((node.raftLog.get? request.prevLogIndex).any fun entry => S.term entry = request.prevLogTerm) = true)) (by
    rw [Node.PrevMatches, Option.any_eq_true]
    simp)

instance (c : Cluster S) (call : AppendCall S) : Decidable (c.Accepts call) :=
  decidable_of_iff ((c.nodes call.callee).currentTerm ≤ call.request.term ∧
      ((c.nodes call.callee).enter call.request.term).PrevMatches call.request ∧
      ((c.nodes call.callee).enter call.request.term).OverlapConsistent call.request)
    ⟨fun ⟨current, matched, consistent⟩ => ⟨current, matched, consistent⟩,
      fun accepts => ⟨accepts.current, accepts.matched, accepts.consistent⟩⟩

/-- Nobody writes a log and nobody answers with success. -/
structure Cluster.Unwritten (c d : Cluster S) : Prop where
  log : ∀ x, (d.nodes x).raftLog = (c.nodes x).raftLog
  term : ∀ x, (c.nodes x).currentTerm ≤ (d.nodes x).currentTerm
  replies : ∀ reply ∈ d.appendReplies, reply.2.success = true → reply ∈ c.appendReplies

/-- Only one node differs, and it keeps its log. -/
theorem Cluster.Unwritten.node {i : Fin n} {node : Node S} (nodes : d.nodes = (c.setNode i node).nodes)
    (replies : d.appendReplies = c.appendReplies) (log : node.raftLog = (c.nodes i).raftLog)
    (term : (c.nodes i).currentTerm ≤ node.currentTerm) : c.Unwritten d where
  log x := by
    rw [nodes]
    by_cases self : x = i
    · rw [self, setNode_self, log]
    · rw [setNode_other c node self]
  term x := by
    rw [nodes]
    by_cases self : x = i
    · rw [self, setNode_self]
      exact term
    · rw [setNode_other c node self]
  replies _ member _ := replies ▸ member

/-- No node differs. -/
theorem Cluster.Unwritten.same (nodes : d.nodes = c.nodes) (replies : d.appendReplies = c.appendReplies) :
    c.Unwritten d :=
  ⟨fun _ => by rw [nodes], fun _ => by rw [nodes], fun _ member _ => replies ▸ member⟩

/-- A refusal is recorded. -/
theorem Cluster.Unwritten.fail {e : Cluster S} {reply : AppendCall S × AppendEntriesResult}
    (unwritten : c.Unwritten d) (nodes : e.nodes = d.nodes) (failed : reply.2.success = false)
    (replies : e.appendReplies = d.appendReplies ++ [reply]) : c.Unwritten e where
  log := nodes ▸ unwritten.log
  term := nodes ▸ unwritten.term
  replies other member success := by
    rw [replies] at member
    rcases List.mem_append.mp member with old | new
    · exact unwritten.replies other old success
    · rw [List.mem_singleton.mp new, failed] at success
      cases success

/-- A follower has accepted the entries of a call and has written them, and it may have crashed then. -/
structure Cluster.Accepted (c d : Cluster S) (call : AppendCall S) : Prop where
  accepts : c.Accepts call
  others : ∀ x, x ≠ call.callee → d.nodes x = c.nodes x
  node : (∃ result, commitLoop false (c.rewritten call).raftLog (c.rewritten call).pendingRequests
      ((c.rewritten call).newlyCommitted ((c.rewritten call).followedCommit call.request))
      (c.rewritten call).ext (c.rewritten call).calls = some result ∧ d.nodes call.callee =
        (c.rewritten call).committedTo ((c.rewritten call).followedCommit call.request) result) ∨
    d.nodes call.callee = construct (c.rewritten call).disk
  replies : ∀ reply ∈ d.appendReplies, reply ∈ c.appendReplies ∨ reply.1 = call
  requests : d.appendRequests = c.appendRequests
  elected : d.elected = c.elected
  created : d.created = c.created
  commits : d.commits = c.commits

/-- The log is the rewritten one. -/
theorem Cluster.Accepted.log {call : AppendCall S} (accepted : c.Accepted d call) :
    (d.nodes call.callee).raftLog = (c.rewritten call).raftLog := by
  rcases accepted.node with ⟨result, _, now⟩ | now
  · rw [now]
    rfl
  · rw [now]
    rfl

/-- The callee is in the term of the request. -/
theorem Cluster.Accepted.term {call : AppendCall S} (accepted : c.Accepted d call) :
    (d.nodes call.callee).currentTerm = call.request.term := by
  rw [← Node.enter_currentTerm accepted.accepts.current]
  rcases accepted.node with ⟨result, _, now⟩ | now
  · rw [now]
    rfl
  · rw [now]
    rfl

/-- The callee is a follower. -/
theorem Cluster.Accepted.follows {call : AppendCall S} (accepted : c.Accepted d call) :
    (d.nodes call.callee).state = .follower := by
  rcases accepted.node with ⟨result, _, now⟩ | now
  · rw [now]
    exact Node.enter_state ..
  · rw [now]
    rfl

/-- A change writes no log, or a leader saves its pending log, or a follower accepts entries. -/
theorem Cluster.Atomic.log_cases (taken : Atomic allowed c d) :
    c.Unwritten d ∨
    (∃ i fibers, (c.nodes i).mainFiber = .startLeader fibers ∧ (c.nodes i).state = .leader ∧
      d = c.setNode i ((c.nodes i).save i fibers)) ∨
    ∃ call place, c.appendRequests[place]? = some call ∧ allowed c (.handleAppend place) ∧ c.Accepted d call := by
  cases taken with
  | save i fibers leading _ role => exact Or.inr (Or.inl ⟨i, fibers, leading, role, rfl⟩)
  | accept call place sent permitted current matched consistent result loop =>
      refine Or.inr (Or.inr ⟨call, place, sent, permitted, ⟨current, matched, consistent⟩, ?_, Or.inl ⟨result, loop, ?_⟩,
        ?_, rfl, rfl, rfl, rfl⟩)
      · exact fun x other => Function.update_of_ne other ..
      · exact Function.update_self ..
      · intro reply replied
        rcases List.mem_append.mp replied with old | new
        · exact Or.inl old
        · exact Or.inr (by rw [List.mem_singleton.mp new])
  | acceptCrash call place sent permitted current matched consistent =>
      refine Or.inr (Or.inr ⟨call, place, sent, permitted, ⟨current, matched, consistent⟩, ?_, Or.inr ?_,
        fun _ replied => Or.inl replied, rfl, rfl, rfl, rfl⟩)
      · exact fun x other => Function.update_of_ne other ..
      · exact Function.update_self ..
  | follow i term later => exact Or.inl (.node rfl rfl (Node.yield_raftLog _) (Nat.le_of_lt later))
  | stand i _ => exact Or.inl (.node rfl rfl rfl (Nat.le_succ _))
  | standCrash i => exact Or.inl (.node rfl rfl rfl (Nat.le_succ _))
  | replyVote call result _ _ => exact Or.inl (.same rfl rfl)
  | refuse call sent old => exact Or.inl ((Unwritten.same rfl rfl : c.Unwritten c).fail rfl rfl rfl)
  | reject call place _ _ current _ =>
      have entered : c.Unwritten (c.setNode call.callee ((c.nodes call.callee).enter call.request.term)) :=
        .node rfl rfl (Node.enter_raftLog _ _) (current.trans_eq (Node.enter_currentTerm current).symm)
      exact Or.inl (entered.fail rfl rfl rfl)
  | commit i after role updated =>
      obtain ⟨result, _, rfl⟩ := Option.map_eq_some_iff.mp updated
      rw [noteCommit_eq]
      exact Or.inl (.node rfl rfl rfl (Nat.le_refl _))
  | answer i request response _ _ => exact Or.inl (.same rfl rfl)
  | tick => exact Or.inl (.same rfl rfl)
  | _ => exact Or.inl (.node rfl rfl rfl (Nat.le_refl _))

/-- A leader records its new commit index without a change of any log. -/
theorem Cluster.Atomic.commits_cases (taken : Atomic allowed c d) :
    d.commits = c.commits ∨ c.Unwritten d ∧ ∃ i, (d.nodes i).state = .leader ∧
      ∀ commit ∈ d.commits, commit ∈ c.commits ∨ commit = ((d.nodes i).currentTerm, (d.nodes i).commitIndex) := by
  cases taken with
  | commit i after role updated =>
      obtain ⟨result, _, rfl⟩ := Option.map_eq_some_iff.mp updated
      right
      simp only [noteCommit, setNode_self]
      split
      · refine ⟨.node rfl rfl rfl (Nat.le_refl _), i, by rw [setNode_self]; exact role, fun commit member => ?_⟩
        rw [setNode_self]
        rcases List.mem_append.mp member with old | new
        · exact Or.inl old
        · exact Or.inr (List.mem_singleton.mp new)
      · exact ⟨.node rfl rfl rfl (Nat.le_refl _), i, by rw [setNode_self]; exact role, fun _ member => Or.inl member⟩
  | _ => exact Or.inl rfl

/-- Requests are sent by the sessions of leaders. -/
theorem Cluster.Atomic.requests_cases (taken : Atomic allowed c d) :
    d.appendRequests = c.appendRequests ∨ ∃ i j seq prevLogTerm entries, (c.nodes i).state = .leader ∧
      1 ≤ (c.nodes i).nextIndex j ∧ (c.nodes i).collectEntries ((c.nodes i).nextIndex j)
        (S.lastLogEntryIndex (c.nodes i).ext i j (c.nodes i).commitIndex ((c.nodes i).nextIndex i) + 1 -
          (c.nodes i).nextIndex j) = some entries ∧
      d.appendRequests = c.appendRequests ++ [⟨j, seq, (c.nodes i).sessionRequest i j prevLogTerm entries⟩] := by
  cases taken with
  | send i j fibers prevLogTerm entries _ _ role positive _ collected =>
      exact Or.inr ⟨i, j, _, prevLogTerm, entries, role, positive, collected, rfl⟩
  | commit i after _ _ =>
      rw [noteCommit_eq]
      exact Or.inl rfl
  | _ => exact Or.inl rfl

/-- A node that leads now has the pending log it had as a leader before, or an empty one. -/
def Node.KeepsPending (before after : Node S) : Prop :=
  after.state = .leader → before.state = .leader ∧ after.pendingLog = before.pendingLog ∨ after.pendingLog = []

/-- Only leaders have pending entries to keep. -/
theorem Node.KeepsPending.follower {before after : Node S} (role : after.state ≠ .leader) :
    KeepsPending before after := fun leads => absurd leads role

/-- A step changes one node, and the others keep their pending entries. -/
theorem Cluster.keepPending_node {i : Fin n} {node : Node S} (nodes : d.nodes = (c.setNode i node).nodes)
    (kept : Node.KeepsPending (c.nodes i) node) (x : Fin n) : Node.KeepsPending (c.nodes x) (d.nodes x) := by
  rw [nodes]
  by_cases self : x = i
  · subst self
    rw [setNode_self]
    exact kept
  · rw [setNode_other c node self]
    exact fun role => Or.inl ⟨role, rfl⟩

/-- Only client calls add to the pending log of a leader. -/
theorem Cluster.Atomic.pending_cases (taken : Atomic allowed c d) :
    (∀ x, Node.KeepsPending (c.nodes x) (d.nodes x)) ∨ d.created ≠ c.created := by
  have unchanged (nodes : d.nodes = c.nodes) : ∀ x, Node.KeepsPending (c.nodes x) (d.nodes x) := by
    intro x
    rw [nodes]
    exact fun role => Or.inl ⟨role, rfl⟩
  cases taken with
  | append i request entry ext _ _ _ _ => exact Or.inr (by simp [noteCreated, setNode])
  | restart i => exact Or.inl (keepPending_node rfl (.follower (by rintro ⟨⟩)))
  | follow i term _ => exact Or.inl (keepPending_node rfl (.follower (by rintro ⟨⟩)))
  | stand i _ => exact Or.inl (keepPending_node rfl (.follower (by rintro ⟨⟩)))
  | standCrash i => exact Or.inl (keepPending_node rfl (.follower (by rintro ⟨⟩)))
  | elect i election _ _ _ => exact Or.inl (keepPending_node rfl fun _ => Or.inr rfl)
  | clearPending i fibers _ _ => exact Or.inl (keepPending_node rfl fun _ => Or.inr rfl)
  | save i fibers _ _ _ => exact Or.inl (keepPending_node rfl fun _ => Or.inr rfl)
  | drop call _ => exact Or.inl (keepPending_node rfl (.follower (by rintro ⟨⟩)))
  | reject call place _ _ _ _ => exact Or.inl (keepPending_node rfl (.follower (by rw [Node.enter_state]; rintro ⟨⟩)))
  | accept call place _ _ _ _ _ result _ =>
      have role : ((c.nodes call.callee).enter call.request.term).state ≠ .leader := by
        rw [Node.enter_state]
        rintro ⟨⟩
      exact Or.inl (keepPending_node rfl (.follower role))
  | acceptCrash call place _ _ _ _ _ => exact Or.inl (keepPending_node rfl (.follower (by rintro ⟨⟩)))
  | replyVote call result _ _ => exact Or.inl (unchanged rfl)
  | refuse call _ _ => exact Or.inl (unchanged rfl)
  | answer i request response _ _ => exact Or.inl (unchanged rfl)
  | tick => exact Or.inl (unchanged rfl)
  | commit i after role updated =>
      obtain ⟨result, _, rfl⟩ := Option.map_eq_some_iff.mp updated
      rw [noteCommit_eq]
      exact Or.inl (keepPending_node rfl fun leads => Or.inl ⟨leads, rfl⟩)
  | _ => exact Or.inl (keepPending_node rfl fun leads => Or.inl ⟨leads, rfl⟩)

/-- A node that leads now has led before and knows as much about its followers as before. -/
def Node.StillLeads (i : Fin n) (before after : Node S) : Prop :=
  after.state = .leader → before.state = .leader ∧ after.currentTerm = before.currentTerm ∧
    before.commitIndex ≤ after.commitIndex ∧ ∀ j, j ≠ i → after.matchIndex j = before.matchIndex j

theorem Node.StillLeads.follower {i : Fin n} {before after : Node S} (role : after.state = .follower) :
    StillLeads i before after := by
  intro leads
  rw [role] at leads
  cases leads

/-- A step changes one node, and the others lead as before. -/
theorem Cluster.stillLead_node {i : Fin n} {node : Node S} (nodes : d.nodes = (c.setNode i node).nodes)
    (still : Node.StillLeads i (c.nodes i) node) (x : Fin n) : Node.StillLeads x (c.nodes x) (d.nodes x) := by
  rw [nodes]
  by_cases self : x = i
  · subst self
    rw [setNode_self]
    exact still
  · rw [setNode_other c node self]
    exact fun role => ⟨role, rfl, Nat.le_refl _, fun _ _ => rfl⟩

/-- What leaders know about their followers changes with an election and with an acknowledgement. -/
theorem Cluster.Atomic.match_cases (taken : Atomic allowed c d) :
    (∀ i, Node.StillLeads i (c.nodes i) (d.nodes i)) ∨
    (∃ i election, (c.nodes i).mainFiber = .startCandidate election ∧ (c.nodes i).state = .candidate ∧
      d.nodes = (c.setNode i (c.nodes i).lead).nodes) ∨
    ∃ i fibers call request response, (c.nodes i).mainFiber = .startLeader fibers ∧
      fibers.session call.callee = .calling call.seq request ∧ (c.nodes i).state = .leader ∧
      (call, response) ∈ c.appendReplies ∧ call.request.leaderId = i ∧ call.request.term = request.term ∧
      response.success = true ∧
      d = c.setNode i (((c.nodes i).answered i call.callee fibers).acknowledged call.callee request) := by
  have same {i : Fin n} {node : Node S} (nodes : d.nodes = (c.setNode i node).nodes)
      (state : node.state = (c.nodes i).state) (term : node.currentTerm = (c.nodes i).currentTerm)
      (commitIndex : node.commitIndex = (c.nodes i).commitIndex)
      (matched : ∀ j, j ≠ i → node.matchIndex j = (c.nodes i).matchIndex j) :
      ∀ x, Node.StillLeads x (c.nodes x) (d.nodes x) :=
    stillLead_node nodes fun role => ⟨state ▸ role, term, commitIndex.ge, matched⟩
  have unchanged (nodes : d.nodes = c.nodes) : ∀ x, Node.StillLeads x (c.nodes x) (d.nodes x) := by
    intro x
    rw [nodes]
    exact fun role => ⟨role, rfl, Nat.le_refl _, fun _ _ => rfl⟩
  cases taken with
  | elect i election electing role _ => exact Or.inr (Or.inl ⟨i, election, electing, role, rfl⟩)
  | acknowledge i fibers call request response leading session role replied own asked _ success place _ =>
      exact Or.inr (Or.inr ⟨i, fibers, call, request, response, leading, session, role, replied, own, asked, success, rfl⟩)
  | restart i => exact Or.inl (stillLead_node rfl (.follower rfl))
  | follow i term _ => exact Or.inl (stillLead_node rfl (.follower rfl))
  | stand i _ => exact Or.inl (stillLead_node rfl (by rintro ⟨⟩))
  | standCrash i => exact Or.inl (stillLead_node rfl (.follower rfl))
  | drop call _ => exact Or.inl (stillLead_node rfl (.follower rfl))
  | reject call place _ _ _ _ => exact Or.inl (stillLead_node rfl (.follower (Node.enter_state _ _)))
  | accept call place _ _ _ _ _ result _ => exact Or.inl (stillLead_node rfl (.follower (Node.enter_state _ _)))
  | acceptCrash call place _ _ _ _ _ => exact Or.inl (stillLead_node rfl (.follower rfl))
  | replyVote call result _ _ => exact Or.inl (unchanged rfl)
  | refuse call _ _ => exact Or.inl (unchanged rfl)
  | answer i request response _ _ => exact Or.inl (unchanged rfl)
  | tick => exact Or.inl (unchanged rfl)
  | commit i after role updated =>
      obtain ⟨result, _, rfl⟩ := Option.map_eq_some_iff.mp updated
      rw [noteCommit_eq]
      exact Or.inl (stillLead_node rfl fun leads => ⟨leads, rfl, (c.nodes i).commitIndex_le _, fun _ _ => rfl⟩)
  | save i fibers _ _ _ => exact Or.inl (same rfl rfl rfl rfl fun _ other => Function.update_of_ne other ..)
  | endMain i fibers _ _ => exact Or.inl (same rfl rfl rfl rfl fun _ other => Function.update_of_ne other ..)
  | _ => exact Or.inl (same rfl rfl rfl rfl fun _ _ => rfl)

/-- A node that leads now has led before and will ask its followers for the same entries. -/
def Node.KeepsNext (i : Fin n) (before after : Node S) : Prop :=
  after.state = .leader → before.state = .leader ∧ after.currentTerm = before.currentTerm ∧
    before.commitIndex ≤ after.commitIndex ∧
    ∀ j, j ≠ i → after.nextIndex j = before.nextIndex j ∧ after.matchIndex j = before.matchIndex j

theorem Node.KeepsNext.follower {i : Fin n} {before after : Node S} (role : after.state = .follower) :
    KeepsNext i before after := by
  intro leads
  rw [role] at leads
  cases leads

/-- A step changes one node, and the others keep their next indices. -/
theorem Cluster.keepNext_node {i : Fin n} {node : Node S} (nodes : d.nodes = (c.setNode i node).nodes)
    (kept : Node.KeepsNext i (c.nodes i) node) (x : Fin n) : Node.KeepsNext x (c.nodes x) (d.nodes x) := by
  rw [nodes]
  by_cases self : x = i
  · subst self
    rw [setNode_self]
    exact kept
  · rw [setNode_other c node self]
    exact fun role => ⟨role, rfl, Nat.le_refl _, fun _ _ => ⟨rfl, rfl⟩⟩

/-- Where a leader's next requests start changes with an election and with an answer. -/
theorem Cluster.Atomic.next_cases (taken : Atomic allowed c d) :
    (∀ i, Node.KeepsNext i (c.nodes i) (d.nodes i)) ∨
    (∃ i election, (c.nodes i).mainFiber = .startCandidate election ∧ d.appendRequests = c.appendRequests ∧
      d.nodes = (c.setNode i (c.nodes i).lead).nodes) ∨
    ∃ i fibers call request response node, (c.nodes i).mainFiber = .startLeader fibers ∧
      fibers.session call.callee = .calling call.seq request ∧ (c.nodes i).state = .leader ∧
      (call, response) ∈ c.appendReplies ∧ call.request.leaderId = i ∧ call.request.term = request.term ∧
      response.term ≤ (c.nodes i).currentTerm ∧ d = c.setNode i node ∧
      (response.success = true ∧ (∃ place, allowed c (.appendAnswered i call.callee (some place))) ∧
          node = ((c.nodes i).answered i call.callee fibers).acknowledged call.callee request ∨
        response.success = false ∧ 2 ≤ (c.nodes i).nextIndex call.callee ∧
          node = ((c.nodes i).answered i call.callee fibers).stepBack call.callee) := by
  have same {i : Fin n} {node : Node S} (nodes : d.nodes = (c.setNode i node).nodes)
      (state : node.state = (c.nodes i).state) (term : node.currentTerm = (c.nodes i).currentTerm)
      (commitIndex : node.commitIndex = (c.nodes i).commitIndex)
      (next : ∀ j, j ≠ i → node.nextIndex j = (c.nodes i).nextIndex j ∧ node.matchIndex j = (c.nodes i).matchIndex j) :
      ∀ x, Node.KeepsNext x (c.nodes x) (d.nodes x) :=
    keepNext_node nodes fun role => ⟨state ▸ role, term, commitIndex.ge, next⟩
  have unchanged (nodes : d.nodes = c.nodes) : ∀ x, Node.KeepsNext x (c.nodes x) (d.nodes x) := by
    intro x
    rw [nodes]
    exact fun role => ⟨role, rfl, Nat.le_refl _, fun _ _ => ⟨rfl, rfl⟩⟩
  cases taken with
  | elect i election electing _ _ => exact Or.inr (Or.inl ⟨i, election, electing, rfl, rfl⟩)
  | acknowledge i fibers call request response leading session role replied own asked notLater success place permitted =>
      exact Or.inr (Or.inr ⟨i, fibers, call, request, response, _, leading, session, role, replied, own, asked, notLater,
        rfl, Or.inl ⟨success, ⟨place, permitted⟩, rfl⟩⟩)
  | stepBack i fibers call request response leading session role replied own asked notLater failure large =>
      exact Or.inr (Or.inr ⟨i, fibers, call, request, response, _, leading, session, role, replied, own, asked, notLater,
        rfl, Or.inr ⟨failure, large, rfl⟩⟩)
  | restart i => exact Or.inl (keepNext_node rfl (.follower rfl))
  | follow i term _ => exact Or.inl (keepNext_node rfl (.follower rfl))
  | stand i _ => exact Or.inl (keepNext_node rfl (by rintro ⟨⟩))
  | standCrash i => exact Or.inl (keepNext_node rfl (.follower rfl))
  | drop call _ => exact Or.inl (keepNext_node rfl (.follower rfl))
  | reject call place _ _ _ _ => exact Or.inl (keepNext_node rfl (.follower (Node.enter_state _ _)))
  | accept call place _ _ _ _ _ result _ => exact Or.inl (keepNext_node rfl (.follower (Node.enter_state _ _)))
  | acceptCrash call place _ _ _ _ _ => exact Or.inl (keepNext_node rfl (.follower rfl))
  | replyVote call result _ _ => exact Or.inl (unchanged rfl)
  | refuse call _ _ => exact Or.inl (unchanged rfl)
  | answer i request response _ _ => exact Or.inl (unchanged rfl)
  | tick => exact Or.inl (unchanged rfl)
  | commit i after role updated =>
      obtain ⟨result, _, rfl⟩ := Option.map_eq_some_iff.mp updated
      rw [noteCommit_eq]
      exact Or.inl (keepNext_node rfl fun leads => ⟨leads, rfl, (c.nodes i).commitIndex_le _, fun _ _ => ⟨rfl, rfl⟩⟩)
  | append i request entry ext _ _ _ _ =>
      exact Or.inl (same rfl rfl rfl rfl fun _ other => ⟨Function.update_of_ne other .., rfl⟩)
  | save i fibers _ _ _ => exact Or.inl (same rfl rfl rfl rfl fun _ other => ⟨rfl, Function.update_of_ne other ..⟩)
  | endMain i fibers _ _ => exact Or.inl (same rfl rfl rfl rfl fun _ other => ⟨rfl, Function.update_of_ne other ..⟩)
  | _ => exact Or.inl (same rfl rfl rfl rfl fun _ _ => ⟨rfl, rfl⟩)

/-- A new request is the next one of a session that was at the head of its loop. -/
theorem Cluster.Atomic.send_cases (taken : Atomic allowed c d) :
    d.appendRequests = c.appendRequests ∨ ∃ i j fibers prevLogTerm entries,
      (c.nodes i).mainFiber = .startLeader fibers ∧ (c.nodes i).state = .leader ∧ fibers.session j = .loop ∧
      1 ≤ (c.nodes i).nextIndex j ∧ (c.nodes i).collectEntries ((c.nodes i).nextIndex j)
        (S.lastLogEntryIndex (c.nodes i).ext i j (c.nodes i).commitIndex ((c.nodes i).nextIndex i) + 1 -
          (c.nodes i).nextIndex j) = some entries ∧
      d = (c.setNode i ((c.nodes i).calling j fibers ((c.nodes i).sessionRequest i j prevLogTerm entries))).sendAppend
        j (fibers.issued j) ((c.nodes i).sessionRequest i j prevLogTerm entries) := by
  cases taken with
  | send i j fibers prevLogTerm entries leading session role positive _ collected =>
      exact Or.inr ⟨i, j, fibers, prevLogTerm, entries, leading, role, session, positive, collected, rfl⟩
  | commit i after _ _ =>
      rw [noteCommit_eq]
      exact Or.inl rfl
  | _ => exact Or.inl rfl

/-- Handled calls stay handled. -/
theorem Cluster.Atomic.handled_grows (taken : Atomic allowed c d) : c.handled <+: d.handled := by
  cases taken with
  | commit i after _ _ =>
      rw [noteCommit_eq]
      exact List.prefix_rfl
  | _ => first | exact List.prefix_rfl | exact List.prefix_append ..

/-- The committed part of a node's log: the process ends, or nothing changes except for the term, or
the node works on it as a leader, or it follows a request. -/
inductive Cluster.CommitTurn (allowed : Cluster S → Action S → Prop) (c d : Cluster S) (x : Fin n) : Prop where
  | construct (disk : Disk S) (now : d.nodes x = Metamorphosis.construct disk)
  | keep (commitIndex : (d.nodes x).commitIndex = (c.nodes x).commitIndex)
      (log : (d.nodes x).raftLog = (c.nodes x).raftLog) (term : (c.nodes x).currentTerm ≤ (d.nodes x).currentTerm)
  | lead (led : (c.nodes x).state = .leader) (leads : (d.nodes x).state = .leader)
      (term : (d.nodes x).currentTerm = (c.nodes x).currentTerm)
      (commitIndex : (c.nodes x).commitIndex ≤ (d.nodes x).commitIndex)
  | follow (call : AppendCall S) (place : Nat) (result : S.Ext × List (Call S))
      (sent : c.appendRequests[place]? = some call) (permitted : allowed c (.handleAppend place))
      (accepts : c.Accepts call) (handled : call ∈ d.handled) (callee : call.callee = x)
      (now : d.nodes x = (c.rewritten call).committedTo ((c.rewritten call).followedCommit call.request) result)

/-- In every step every node takes one of these turns. -/
theorem Cluster.Atomic.commit_turn (taken : Atomic allowed c d) (x : Fin n) : CommitTurn allowed c d x := by
  have unchanged (nodes : d.nodes x = c.nodes x) : CommitTurn allowed c d x :=
    .keep (by rw [nodes]) (by rw [nodes]) (by rw [nodes])
  -- Only one node differs, so its own turn is enough.
  have node {i : Fin n} {after : Node S} (nodes : d.nodes = (c.setNode i after).nodes)
      (turn : d.nodes i = after → CommitTurn allowed c d i) : CommitTurn allowed c d x := by
    by_cases self : x = i
    · subst self
      exact turn (by rw [nodes, setNode_self])
    · exact unchanged (by rw [nodes, setNode_other c after self])
  have keeps {i : Fin n} {after : Node S} (nodes : d.nodes = (c.setNode i after).nodes)
      (commitIndex : after.commitIndex = (c.nodes i).commitIndex) (log : after.raftLog = (c.nodes i).raftLog)
      (term : (c.nodes i).currentTerm ≤ after.currentTerm) : CommitTurn allowed c d x :=
    node nodes fun now => .keep (by rw [now, commitIndex]) (by rw [now, log]) (by rw [now]; exact term)
  have restarts {i : Fin n} {disk : Disk S} (nodes : d.nodes = (c.setNode i (construct disk)).nodes) :
      CommitTurn allowed c d x := node nodes fun now => .construct disk now
  cases taken with
  | restart i => exact restarts rfl
  | standCrash i => exact restarts rfl
  | drop call _ => exact restarts rfl
  | acceptCrash call place _ _ _ _ _ => exact restarts rfl
  | accept call place sent permitted current matched consistent result _ =>
      exact node rfl fun now => .follow call place result sent permitted ⟨current, matched, consistent⟩
        (List.mem_append_right _ (List.mem_singleton_self _)) rfl now
  | commit i after role updated =>
      obtain ⟨result, _, rfl⟩ := Option.map_eq_some_iff.mp updated
      rw [noteCommit_eq] at *
      refine node rfl fun now => .lead role ?_ ?_ ?_
      · rw [now]
        exact role
      · rw [now]
        rfl
      · rw [now]
        exact (c.nodes i).commitIndex_le _
  | save i fibers _ _ role =>
      refine node rfl fun now => .lead role ?_ ?_ ?_
      · rw [now]
        exact role
      · rw [now]
        rfl
      · rw [now]
        exact Nat.le_refl _
  | follow i term later =>
      exact keeps rfl (Node.yield_commitIndex _) (Node.yield_raftLog _) (Nat.le_of_lt later)
  | stand i _ => exact keeps rfl rfl rfl (Nat.le_succ _)
  | reject call place _ _ current _ =>
      exact keeps rfl (Node.enter_commitIndex ..) (Node.enter_raftLog ..)
        (current.trans_eq (Node.enter_currentTerm current).symm)
  | replyVote call result _ _ => exact unchanged rfl
  | refuse call _ _ => exact unchanged rfl
  | answer i request response _ _ => exact unchanged rfl
  | tick => exact unchanged rfl
  | _ => exact keeps rfl rfl rfl (Nat.le_refl _)

/-- New answers: a refusal with a greater term, a refusal by a follower of the term whose log does not
match, or an acceptance. -/
theorem Cluster.Atomic.replies_cases (taken : Atomic allowed c d) :
    (∀ reply ∈ d.appendReplies, reply ∈ c.appendReplies ∨
      reply.2.success = false ∧ reply.1.request.term < reply.2.term) ∨
    ∃ call place response, c.appendRequests[place]? = some call ∧ allowed c (.handleAppend place) ∧
      d.appendReplies = c.appendReplies ++ [(call, response)] ∧ (response.success = true ∨
        (c.nodes call.callee).currentTerm ≤ call.request.term ∧
        ¬ ((c.nodes call.callee).enter call.request.term).PrevMatches call.request ∧
        d.nodes call.callee = (c.nodes call.callee).enter call.request.term) := by
  cases taken with
  | accept call place sent permitted _ _ _ _ _ => exact Or.inr ⟨call, place, _, sent, permitted, rfl, Or.inl rfl⟩
  | reject call place sent permitted current unmatched =>
      exact Or.inr ⟨call, place, _, sent, permitted, rfl, Or.inr ⟨current, unmatched, Function.update_self ..⟩⟩
  | refuse call _ old =>
      left
      intro reply member
      rcases List.mem_append.mp member with known | new
      · exact Or.inl known
      · rw [List.mem_singleton.mp new]
        exact Or.inr ⟨rfl, old⟩
  | commit i after _ _ =>
      rw [noteCommit_eq]
      exact Or.inl fun _ member => Or.inl member
  | _ => exact Or.inl fun _ member => Or.inl member

/-- A main session that was just woken does not wait. -/
theorem MainFiber.wake_awaiting {fiber : MainFiber S} {fibers : LeaderFibers S}
    (wakes : fiber.wake = .startLeader fibers) : fibers.mainSession ≠ .awaiting := by
  cases fiber with
  | startFollower => cases wakes
  | startCandidate _ => cases wakes
  | startLeader old =>
      cases wakes
      simp only
      split
      · nofun
      · assumption

/-- A leader whose main session waits with something pending was in the same position before. -/
def Node.StaysIdle (before after : Node S) : Prop :=
  after.state = .leader → ∀ fibers, after.mainFiber = .startLeader fibers → fibers.mainSession = .awaiting →
    after.pendingLog = [] ∨ before.state = .leader ∧ after.pendingLog = before.pendingLog ∧
      ∃ old, before.mainFiber = .startLeader old ∧ old.mainSession = .awaiting

theorem Node.StaysIdle.follower {before after : Node S} (role : after.state ≠ .leader) : StaysIdle before after :=
  fun leads => absurd leads role

/-- A node whose pending entries and fiber are as before. -/
theorem Node.StaysIdle.same {before after : Node S} (state : after.state = before.state)
    (pending : after.pendingLog = before.pendingLog) (fiber : after.mainFiber = before.mainFiber) :
    StaysIdle before after :=
  fun role fibers leading waits => Or.inr ⟨state ▸ role, pending, fibers, fiber ▸ leading, waits⟩

/-- The fibers of the sessions move, but not the main session. -/
theorem Node.StaysIdle.session {before after : Node S} {old new : LeaderFibers S} (state : after.state = before.state)
    (pending : after.pendingLog = before.pendingLog) (leading : before.mainFiber = .startLeader old)
    (now : after.mainFiber = .startLeader new) (main : new.mainSession = old.mainSession) : StaysIdle before after := by
  intro role fibers leads waits
  cases now.symm.trans leads
  exact Or.inr ⟨state ▸ role, pending, old, leading, main ▸ waits⟩

/-- A step changes one node, and the others are as idle as before. -/
theorem Cluster.stayIdle_node {i : Fin n} {node : Node S} (nodes : d.nodes = (c.setNode i node).nodes)
    (idle : Node.StaysIdle (c.nodes i) node) (x : Fin n) : Node.StaysIdle (c.nodes x) (d.nodes x) := by
  rw [nodes]
  by_cases self : x = i
  · subst self
    rw [setNode_self]
    exact idle
  · rw [setNode_other c node self]
    exact .same rfl rfl rfl

/-- The main session waits only after it has saved everything, and a new entry wakes it. -/
theorem Cluster.Atomic.stays_idle (taken : Atomic allowed c d) (x : Fin n) :
    Node.StaysIdle (c.nodes x) (d.nodes x) := by
  have node {i : Fin n} {after : Node S} (nodes : d.nodes = (c.setNode i after).nodes)
      (idle : Node.StaysIdle (c.nodes i) after) := stayIdle_node nodes idle x
  have unchanged (nodes : d.nodes = c.nodes) : Node.StaysIdle (c.nodes x) (d.nodes x) := by
    rw [nodes]
    exact .same rfl rfl rfl
  cases taken with
  | restart i => exact node rfl (.follower (by rintro ⟨⟩))
  | follow i term _ => exact node rfl (.follower (by rintro ⟨⟩))
  | stand i _ => exact node rfl (.follower (by rintro ⟨⟩))
  | standCrash i => exact node rfl (.follower (by rintro ⟨⟩))
  | drop call _ => exact node rfl (.follower (by rintro ⟨⟩))
  | reject call place _ _ _ _ => exact node rfl (.follower (by rw [Node.enter_state]; rintro ⟨⟩))
  | accept call place _ _ _ _ _ result _ =>
      have role : ((c.nodes call.callee).enter call.request.term).state ≠ .leader := by
        rw [Node.enter_state]
        rintro ⟨⟩
      exact node rfl (.follower role)
  | acceptCrash call place _ _ _ _ _ => exact node rfl (.follower (by rintro ⟨⟩))
  | grant call _ _ _ _ => exact node rfl (.same rfl rfl rfl)
  | replyVote call result _ _ => exact unchanged rfl
  | refuse call _ _ => exact unchanged rfl
  | answer i request response _ _ => exact unchanged rfl
  | tick => exact unchanged rfl
  | voteLost i j election _ => exact node rfl fun _ _ leading => by cases leading
  | voteCounted i election call term _ _ _ _ => exact node rfl fun _ _ leading => by cases leading
  | elect i election _ _ _ => exact node rfl fun _ _ _ _ => Or.inl rfl
  | startLeader i _ _ =>
      refine node rfl fun _ fibers leading waits => ?_
      cases leading
      cases waits
  | startFollower i _ => exact node rfl fun _ _ leading => by cases leading
  | clearPending i fibers _ _ => exact node rfl fun _ _ _ _ => Or.inl rfl
  | send i j fibers prevLogTerm entries leading _ _ _ _ _ => exact node rfl (.session rfl rfl leading rfl rfl)
  | sessionEnd i j fibers leading _ session => exact node rfl (.session rfl rfl leading rfl rfl)
  | callFailed i j fibers seq request leading _ _ => exact node rfl (.session rfl rfl leading rfl rfl)
  | callAnswered i j fibers seq request leading _ _ => exact node rfl (.session rfl rfl leading rfl rfl)
  | acknowledge i fibers call request response leading _ _ _ _ _ _ _ place _ =>
      exact node rfl (.session rfl rfl leading rfl rfl)
  | stepBack i fibers call request response leading _ _ _ _ _ _ _ _ =>
      exact node rfl (.session rfl rfl leading rfl rfl)
  | commit i after role updated =>
      obtain ⟨result, _, rfl⟩ := Option.map_eq_some_iff.mp updated
      have committed : Node.StaysIdle (c.nodes i)
          ((c.nodes i).committedTo ((c.nodes i).findCommitIndex (c.nodes i).getSavedLogSize) result) :=
        .same rfl rfl rfl
      refine node ?_ committed
      rw [noteCommit_eq]
  | save i fibers _ _ _ => exact node rfl fun _ _ _ _ => Or.inl rfl
  | endMain i fibers _ role => exact node rfl (.follower role)
  | append i request entry ext _ _ _ _ =>
      refine node rfl fun _ fibers leading waits => ?_
      change (c.nodes i).mainFiber.wake = .startLeader fibers at leading
      exact absurd waits (MainFiber.wake_awaiting leading)
  | release i call _ _ _ _ => exact node rfl (.same rfl rfl rfl)
  | committed i call _ _ _ _ _ => exact node rfl (.same rfl rfl rfl)

end Metamorphosis
