import Metamorphosis.Proof.Lifetimes
import Metamorphosis.Proof.Raft.Waiting

/-!
Runs in which only some of the nodes take part and none of their processes ends, and how one of them gets elected: it
stands for later and later terms until its term is new to the others, and then it collects their votes.
-/

namespace Metamorphosis
variable {n : Nat} {S : Service n} {up : Finset (Fin n)}

/-- A step of one of the nodes that are up, whose process does not end. Requests are handled in order, and woken calls
run before votes arrive. -/
def Cluster.Works (up : Finset (Fin n)) (c d : Cluster S) : Prop :=
  ∃ action i node, c.InOrder action ∧ c.Attentive action ∧ i ∈ up ∧ c.runs action = some (i, some node) ∧
    c.step none action = some d

/-- A run of the nodes that are up, without an end of their processes. -/
abbrev Cluster.Working (up : Finset (Fin n)) : Cluster S → Cluster S → Prop :=
  Relation.ReflTransGen (Cluster.Works up)

variable {c d : Cluster S} {i j : Fin n}

/-- A step of the working nodes is a step of the cluster. -/
theorem Cluster.Works.next (works : c.Works up d) : Cluster.Next Cluster.Any c d := by
  obtain ⟨action, _, _, _, _, _, _, stepped⟩ := works
  exact ⟨none, action, trivial, stepped⟩

/-- Steps of the working nodes are a run of the cluster. -/
theorem Cluster.Working.run (working : c.Working up d) : Cluster.Run Cluster.Any c d :=
  working.lift id fun _ _ works => works.next

/-- A process that gets to its end is such a step. -/
theorem Cluster.works {A : Type} {e : Cluster S} {action : Action S} {process : NodeProcess S A}
    {done : A → Cluster S → Cluster S} {value : A} {node : Node S} (alive : i ∈ up)
    (acts : c.act none action = some (e.perform i none process done)) (nodes : e.nodes = c.nodes)
    (runs : c.runs action = some (c.resultOf i process))
    (ended : (process (c.nodes i)).result = some (value, node)) (inOrder : c.InOrder action)
    (attentive : c.Attentive action) :
    c.Works up { done value (e.setNode i node) with clock := (done value (e.setNode i node)).clock + 1 } := by
  refine ⟨action, i, node, inOrder, attentive, alive, ?_, ?_⟩
  · rw [runs, resultOf, ended]
    rfl
  · rw [step, acts]
    simp only [perform, nodes, ended, Option.map_some]

/-- Every other node is asked for its vote. -/
theorem Cluster.mem_sendVotes (c : Cluster S) (request : RequestVoteRequest n) (other : j ≠ request.candidateId) :
    ⟨j, request⟩ ∈ (c.sendVotes request).voteRequests := by
  apply List.mem_append_right
  exact List.mem_map.mpr ⟨j, List.mem_filter.mpr ⟨List.mem_finRange j, decide_eq_true other⟩, rfl⟩

/-- The node stands for a term. -/
def Node.campaign (node : Node S) (self : Fin n) (term : Nat) : Node S :=
  { node with
    state := .candidate
    currentTerm := term
    votedFor := some self
    mainFiber := .startCandidate
      ⟨⟨term, self, node.getSavedLogSize, node.getLastSavedLogTerm⟩, 1, fun j => j ≠ self⟩ }

/-- The request with which it asks for votes. -/
def Node.campaignRequest (node : Node S) (self : Fin n) (term : Nat) : RequestVoteRequest n :=
  ⟨term, self, node.getSavedLogSize, node.getLastSavedLogTerm⟩

/-- The node stands, and every other node is asked. -/
def Cluster.Stands (c : Cluster S) (i : Fin n) (term : Nat) (d : Cluster S) : Prop :=
  d.nodes = (c.setNode i ((c.nodes i).campaign i term)).nodes ∧
    ∀ j, j ≠ i → ⟨j, (c.nodes i).campaignRequest i term⟩ ∈ d.voteRequests

/-- A follower stands for the next term. -/
theorem Cluster.works_timeout (alive : i ∈ up) (waits : (c.nodes i).mainFiber = .startFollower)
    (role : (c.nodes i).state = .follower) :
    ∃ d, c.Works up d ∧ c.Stands i ((c.nodes i).currentTerm + 1) d := by
  have ended : (electionTimeout i (c.nodes i)).result =
      some ((c.nodes i).electionRequest i, (c.nodes i).candidacy i) := by
    have candidate : becomeCandidate (c.nodes i) = ⟨[], some ((), { c.nodes i with state := .candidate })⟩ := by
      simp only [becomeCandidate, Process.bind_get, Process.bind_verify, if_pos role, Process.modify_run]
    rw [electionTimeout, Process.bind_done candidate, startCandidate_run i rfl]
    rfl
  have acts : c.act none (.electionTimeout i) =
      some (c.perform i none (electionTimeout i) fun request c => c.sendVotes request) := by
    simp only [act, waits]
  refine ⟨_, Cluster.works alive acts rfl rfl ended trivial trivial, rfl, fun j other => ?_⟩
  exact Cluster.mem_sendVotes (c.setNode i _) ((c.nodes i).electionRequest i) other

/-- A vote fiber may get no answer. -/
theorem Cluster.works_lost {election : Election n} (alive : i ∈ up)
    (electing : (c.nodes i).mainFiber = .startCandidate election) (waiting : election.waiting j = true) (idle : (c.nodes i).calls = []) :
    ∃ d, c.Works up d ∧ d.nodes = (c.setNode i ((c.nodes i).electing (election.left j))).nodes := by
  have attentive : c.Attentive (.voteAnswered i j none) := by
    intro call member
    rw [idle] at member
    cases member
  have ended : (voteAnswered election j none (c.nodes i)).result =
      some ((), (c.nodes i).electing (election.left j)) := rfl
  have acts : c.act none (.voteAnswered i j none) =
      some (c.perform i none (voteAnswered election j none) fun _ => noteElected (c.nodes i).state i) := by
    simp only [act, electing, if_pos waiting]
  have runs : c.runs (.voteAnswered i j none) = some (c.resultOf i (voteAnswered election j none)) := by
    simp only [runs, electing]
  exact ⟨_, Cluster.works alive acts rfl runs ended trivial attentive, noteElected_nodes ..⟩

/-- A candidate is in its own election. -/
theorem Node.electing_self {node : Node S} {election : Election n} (electing : node.mainFiber = .startCandidate election) :
    node.electing election = node := by
  rw [Node.electing, ← electing]

/-- All vote fibers of some nodes may get no answer. -/
theorem Cluster.working_lost {election : Election n} (alive : i ∈ up)
    (electing : (c.nodes i).mainFiber = .startCandidate election) (idle : (c.nodes i).calls = []) (silent : List (Fin n)) :
    ∃ d, c.Working up d ∧ d.nodes = (c.setNode i ((c.nodes i).electing
      { election with waiting := fun j => election.waiting j && decide (j ∉ silent) })).nodes := by
  induction silent generalizing c election with
  | nil =>
      refine ⟨c, .refl, ?_⟩
      have same : { election with waiting := fun j => election.waiting j && decide (j ∉ []) } = election := by simp
      rw [same, Node.electing_self electing, setNode_same]
  | cons j rest ih =>
      by_cases waiting : election.waiting j = true
      · obtain ⟨d, works, nodes⟩ := works_lost alive electing waiting idle
        have here : d.nodes i = (c.nodes i).electing (election.left j) := by rw [nodes, setNode_self]
        have left : (d.nodes i).mainFiber = .startCandidate (election.left j) := by rw [here]; rfl
        obtain ⟨e, working, after⟩ := ih left (by rw [here]; exact idle)
        refine ⟨e, .head works working, ?_⟩
        have same : (fun x => (election.left j).waiting x && decide (x ∉ rest)) =
            fun x => election.waiting x && decide (x ∉ j :: rest) := by
          funext x
          by_cases this : x = j
          · simp [Election.left, this]
          · simp [Election.left, this]
        simp only [after, here, same, setNode, nodes, Function.update_idem]
        rfl
      · obtain ⟨d, working, nodes⟩ := ih electing idle
        refine ⟨d, working, ?_⟩
        have same : (fun x => election.waiting x && decide (x ∉ rest)) =
            fun x => election.waiting x && decide (x ∉ j :: rest) := by
          funext x
          by_cases this : x = j
          · simp [this, waiting]
          · simp [this]
        rw [nodes, same]

/-- A candidate whose vote fibers have ended stands again. -/
theorem Cluster.works_again {election : Election n} (alive : i ∈ up)
    (electing : (c.nodes i).mainFiber = .startCandidate election) (ended : ∀ j, election.waiting j = false) (role : (c.nodes i).state = .candidate) :
    ∃ d, c.Works up d ∧ c.Stands i ((c.nodes i).currentTerm + 1) d := by
  have run : (startNode i (c.nodes i)).result =
      some (some ((c.nodes i).electionRequest i), (c.nodes i).candidacy i) := by
    rcases startNode_cases (c.nodes i) i with ⟨leads, _⟩ | ⟨follows, _⟩ | ⟨_, run⟩
    · cases role.symm.trans leads
    · cases role.symm.trans follows
    · rw [run]
  have acts : c.act none (.electionEnd i) =
      some (c.perform i none (startNode i) fun request c => c.sendVotes? request) := by
    simp only [act, electing, if_pos ended]
  refine ⟨_, Cluster.works alive acts rfl rfl run trivial trivial, rfl, fun j other => ?_⟩
  exact Cluster.mem_sendVotes (c.setNode i _) ((c.nodes i).electionRequest i) other

/-- A follower can stand for any later term. -/
theorem Cluster.working_stands (alive : i ∈ up) (waits : (c.nodes i).mainFiber = .startFollower)
    (role : (c.nodes i).state = .follower) (idle : (c.nodes i).calls = []) (more : Nat) :
    ∃ d, c.Working up d ∧ c.Stands i ((c.nodes i).currentTerm + more + 1) d := by
  induction more with
  | zero =>
      obtain ⟨d, works, stands⟩ := works_timeout alive waits role
      exact ⟨d, .single works, stands⟩
  | succ more ih =>
      obtain ⟨d, working, nodes, _⟩ := ih
      have here : d.nodes i = (c.nodes i).campaign i ((c.nodes i).currentTerm + more + 1) := by rw [nodes, setNode_self]
      have electing : (d.nodes i).mainFiber = .startCandidate
          ⟨(c.nodes i).campaignRequest i ((c.nodes i).currentTerm + more + 1), 1, fun j => j ≠ i⟩ := by rw [here]; rfl
      obtain ⟨e, silent, after⟩ := working_lost alive electing (by rw [here]; exact idle) (List.finRange n)
      have lost : e.nodes i = (d.nodes i).electing
          ⟨(c.nodes i).campaignRequest i ((c.nodes i).currentTerm + more + 1), 1, fun j => decide (j ≠ i) && decide (j ∉ List.finRange n)⟩ := by
        rw [after, setNode_self]
      have ended (j : Fin n) : (decide (j ≠ i) && decide (j ∉ List.finRange n)) = false := by simp
      obtain ⟨f, again, next, asked⟩ := works_again alive (by rw [lost]; rfl) ended (by rw [lost, here]; rfl)
      refine ⟨f, (working.trans silent).tail again, ?_, ?_⟩
      · rw [next, lost, here]
        simp only [setNode, after, nodes, Function.update_idem]
        rfl
      · intro j other
        have sent := asked j other
        rw [lost, here] at sent
        exact sent

/-- A granted vote is counted, and the deciding one makes a leader. -/
def Node.afterVote (node : Node S) (election : Election n) (j : Fin n) : Node S :=
  if election.votesCount + 1 = majorityCount n ∧ node.state = .candidate then (node.electing (election.counted j)).lead
  else node.electing (election.counted j)

/-- A granted vote is counted. -/
theorem voteAnswered_granted {node : Node S} (election : Election n) (j : Fin n) {term : Nat}
    (notLater : ¬ node.currentTerm < term) :
    voteAnswered election j (some ⟨term, true⟩) node = ⟨[], some ((), node.afterVote election j)⟩ := by
  rw [voteAnswered, Process.bind_modify, Process.bind_get, Node.afterVote]
  simp only [if_neg notLater, if_true, Process.bind_modify]
  by_cases deciding : election.votesCount + 1 = majorityCount n ∧ node.state = .candidate
  · rw [if_pos deciding, if_pos deciding]
    exact becomeLeader_run (node.electing (election.counted j)) deciding.2
  · rw [if_neg deciding, if_neg deciding]
    rfl

/-- A follower that is behind grants its vote to a candidate whose log is not behind. -/
theorem requestVote_granted {node : Node S} {request : RequestVoteRequest n} (behind : node.currentTerm < request.term)
    (grants : node.grantsVote request = true) : (requestVote request node).result =
      some (⟨node.currentTerm, true⟩, (node.follow request.term).vote request.candidateId) := by
  have voter : node.voter request.term = node.follow request.term := if_pos behind
  have willing : (node.follow request.term).grantsVote request = true := by
    have log : (node.follow request.term).raftLog = node.raftLog := node.yield_raftLog
    simp only [Node.grantsVote, Node.getLastSavedLogTerm, Node.getSavedLogSize, log]
    exact grants
  rw [requestVote_run behind.le, voter]
  rcases castVote_cases node.currentTerm request (node.follow request.term) with
    ⟨candidate, voted, _⟩ | ⟨_, _, run⟩ | ⟨unvoted, run⟩
  · cases voted
  · simp only [run]
  · rw [castVote, Process.bind_get, unvoted] at run ⊢
    simp only [if_pos willing] at run ⊢
    cases run

/-- The record of an election sends nothing. -/
theorem Cluster.noteElected_voteRequests (before : Role) (i : Fin n) (c : Cluster S) :
    (noteElected before i c).voteRequests = c.voteRequests := by
  rw [noteElected]
  split <;> rfl

/-- The vote of one node is asked for, granted and counted. -/
theorem Cluster.working_vote (election : Election n) (alive : i ∈ up) (aliveJ : j ∈ up)
    (electing : (c.nodes i).mainFiber = .startCandidate election) (waiting : election.waiting j = true) (other : j ≠ i) (self : election.request.candidateId = i)
    (current : (c.nodes i).currentTerm = election.request.term) (idle : (c.nodes i).calls = [])
    (sent : ⟨j, election.request⟩ ∈ c.voteRequests) (behind : (c.nodes j).currentTerm < election.request.term)
    (grants : (c.nodes j).grantsVote election.request = true) :
    ∃ d, c.Working up d ∧ d.voteRequests = c.voteRequests ∧ d.nodes i = (c.nodes i).afterVote election j ∧
      d.nodes j = ((c.nodes j).follow election.request.term).vote i ∧ ∀ x, x ≠ i → x ≠ j → d.nodes x = c.nodes x := by
  obtain ⟨place, found⟩ := List.mem_iff_getElem?.mp sent
  -- The voter answers, and its answer is the last one.
  obtain ⟨e, works, requests, replies, nodes⟩ : ∃ e, c.Works up e ∧ e.voteRequests = c.voteRequests ∧
      e.voteReplies = c.voteReplies ++ [(⟨j, election.request⟩, ⟨(c.nodes j).currentTerm, true⟩)] ∧
      e.nodes = (c.setNode j (((c.nodes j).follow election.request.term).vote i)).nodes := by
    have ended := requestVote_granted behind grants
    rw [self] at ended
    have acts : c.act none (.handleVote place) = some (c.perform j none (requestVote election.request)
        fun result c => c.replyVote ⟨j, election.request⟩ result) := by
      simp only [act, found, Option.bind_eq_bind, Option.bind_some]
    have runs : c.runs (.handleVote place) = some (c.resultOf j (requestVote election.request)) := by
      simp only [runs, found, Option.map_some]
    exact ⟨_, Cluster.works aliveJ acts rfl runs ended trivial trivial, rfl, rfl, rfl⟩
  have here : e.nodes i = c.nodes i := by rw [nodes, setNode_other c _ other.symm]
  have last : e.voteReplies[c.voteReplies.length]? =
      some (⟨j, election.request⟩, ⟨(c.nodes j).currentTerm, true⟩) := by
    rw [replies]
    exact List.getElem?_concat_length ..
  have attentive : e.Attentive (.voteAnswered i j (some c.voteReplies.length)) := by
    intro call member
    rw [here, idle] at member
    cases member
  have notLater : ¬ (e.nodes i).currentTerm < (c.nodes j).currentTerm := by
    rw [here, current]
    omega
  have counted := congrArg Outcome.result (voteAnswered_granted election j notLater)
  have waits : (e.nodes i).mainFiber = .startCandidate election := by rw [here, electing]
  have acts : e.act none (.voteAnswered i j (some c.voteReplies.length)) =
      some (e.perform i none (voteAnswered election j (some ⟨(c.nodes j).currentTerm, true⟩))
        fun _ => noteElected (e.nodes i).state i) := by
    simp only [act, waits, if_pos waiting, last, Option.bind_eq_bind, Option.bind_some, and_self, if_true]
  have runs : e.runs (.voteAnswered i j (some c.voteReplies.length)) =
      some (e.resultOf i (voteAnswered election j (some ⟨(c.nodes j).currentTerm, true⟩))) := by
    simp only [runs, waits, last, Option.map_some]
  refine ⟨_, .tail (.single works) (Cluster.works alive acts rfl runs counted trivial attentive), ?_, ?_, ?_, ?_⟩
  · rw [noteElected_voteRequests]
    exact requests
  · rw [noteElected_nodes, setNode_self, here]
  · rw [noteElected_nodes, setNode_other _ _ other, nodes, setNode_self]
  · intro x notI notJ
    rw [noteElected_nodes, setNode_other _ _ notI, nodes, setNode_other _ _ notJ]

/-- A candidate with some votes; with a majority of them it leads. -/
def Node.polled (base : Node S) (request : RequestVoteRequest n) (count : Nat) (waiting : Fin n → Bool) : Node S :=
  (if majorityCount n ≤ count then base.lead else base).electing ⟨request, count, waiting⟩

/-- The candidate has polled one node more. -/
theorem Node.polled_afterVote {base : Node S} (candidate : base.state = .candidate) (request : RequestVoteRequest n)
    (count : Nat) (waiting : Fin n → Bool) (j : Fin n) :
    (base.polled request count waiting).afterVote ⟨request, count, waiting⟩ j =
      base.polled request (count + 1) (Function.update waiting j false) := by
  rw [afterVote]
  by_cases enough : majorityCount n ≤ count
  · have led : majorityCount n ≤ count + 1 := by omega
    have decided : ¬ count + 1 = majorityCount n := by omega
    rw [if_neg fun deciding => decided deciding.1]
    simp only [polled, if_pos enough, if_pos led]
    rfl
  · by_cases deciding : count + 1 = majorityCount n
    · have led : majorityCount n ≤ count + 1 := by omega
      have role : (base.polled request count waiting).state = .candidate := by
        simp only [polled, if_neg enough]
        exact candidate
      rw [if_pos ⟨deciding, role⟩]
      simp only [polled, if_neg enough, if_pos led]
      rfl
    · have fewer : ¬ majorityCount n ≤ count + 1 := by omega
      rw [if_neg (fun both => deciding both.1)]
      simp only [polled, if_neg enough, if_neg fewer]
      rfl

/-- A node that can be asked for its vote and will grant it. -/
structure Cluster.Willing (up : Finset (Fin n)) (c : Cluster S) (request : RequestVoteRequest n) (j : Fin n) : Prop where
  alive : j ∈ up
  other : j ≠ request.candidateId
  sent : ⟨j, request⟩ ∈ c.voteRequests
  behind : (c.nodes j).currentTerm < request.term
  grants : (c.nodes j).grantsVote request = true

/-- The votes of willing nodes are collected one after the other. -/
theorem Cluster.working_votes {base : Node S} {request : RequestVoteRequest n} (alive : request.candidateId ∈ up)
    (candidate : base.state = .candidate) (current : base.currentTerm = request.term) (idle : base.calls = []) {voters : List (Fin n)} (nodup : voters.Nodup)
    {count : Nat} {waiting : Fin n → Bool} (here : c.nodes request.candidateId = base.polled request count waiting)
    (willing : ∀ j ∈ voters, waiting j = true ∧ c.Willing up request j) :
    ∃ d, c.Working up d ∧
      d.nodes request.candidateId =
        base.polled request (count + voters.length) (fun j => waiting j && decide (j ∉ voters)) ∧
      (∀ j ∈ voters, d.nodes j = ((c.nodes j).follow request.term).vote request.candidateId) ∧
      ∀ x, x ≠ request.candidateId → x ∉ voters → d.nodes x = c.nodes x := by
  induction voters generalizing c count waiting with
  | nil => exact ⟨c, .refl, by simpa using here, by simp, fun _ _ _ => rfl⟩
  | cons j rest ih =>
      obtain ⟨fresh, nodup⟩ := List.nodup_cons.mp nodup
      obtain ⟨waits, asked⟩ := willing j List.mem_cons_self
      have term : (c.nodes request.candidateId).currentTerm = request.term := by
        rw [here, ← current, Node.polled]
        split <;> rfl
      have calls : (c.nodes request.candidateId).calls = [] := by
        rw [here, ← idle, Node.polled]
        split <;> rfl
      obtain ⟨e, working, requests, counted, voted, others⟩ := working_vote
        ⟨request, count, waiting⟩ alive asked.alive (by rw [here]; rfl) waits asked.other rfl term calls asked.sent asked.behind asked.grants
      rw [here, Node.polled_afterVote candidate] at counted
      have still (x : Fin n) (member : x ∈ rest) : e.nodes x = c.nodes x := by
        obtain ⟨_, later⟩ := willing x (List.mem_cons_of_mem j member)
        exact others x later.other fun same => fresh (same ▸ member)
      obtain ⟨d, more, elected, granted, unasked⟩ := ih nodup counted fun x member => by
        obtain ⟨waitsX, later⟩ := willing x (List.mem_cons_of_mem j member)
        refine ⟨?_, later.alive, later.other, requests ▸ later.sent, ?_, ?_⟩
        · have notJ : x ≠ j := fun same => fresh (same ▸ member)
          rw [Function.update_of_ne notJ]
          exact waitsX
        · rw [still x member]
          exact later.behind
        · rw [still x member]
          exact later.grants
      refine ⟨d, working.trans more, ?_, ?_, ?_⟩
      · have same : (fun x => Function.update waiting j false x && decide (x ∉ rest)) =
            fun x => waiting x && decide (x ∉ j :: rest) := by
          funext x
          by_cases this : x = j
          · simp [this]
          · simp [this]
        have total : count + 1 + rest.length = count + (j :: rest).length := by
          rw [List.length_cons]
          omega
        rw [elected, same, total]
      · intro x member
        rcases List.mem_cons.mp member with rfl | later
        · rw [unasked x asked.other fresh]
          exact voted
        · rw [granted x later, still x later]
      · intro x notSelf outside
        obtain ⟨notJ, notLater⟩ := List.ne_and_not_mem_of_not_mem_cons outside
        rw [unasked x notSelf notLater]
        exact others x notSelf notJ

/-- A node that waits for its election timeout, without a client call. -/
structure Node.Resting (node : Node S) : Prop where
  role : node.state = .follower
  waits : node.mainFiber = .startFollower
  idle : node.calls = []

/-- A node that was just built rests. -/
theorem Node.Resting.construct (disk : Disk S) : (construct disk).Resting := ⟨rfl, rfl, rfl⟩

/-- An elected node starts to lead once its vote fibers have ended. The fibers that still run may get no answer. -/
theorem Cluster.working_leads {election : Election n} (alive : i ∈ up)
    (electing : (c.nodes i).mainFiber = .startCandidate election) (idle : (c.nodes i).calls = [])
    (role : (c.nodes i).state = .leader) :
    ∃ d, c.Working up d ∧ d.nodes = (c.setNode i ((c.nodes i).leading i)).nodes := by
  obtain ⟨e, silent, nodes⟩ := working_lost alive electing idle (List.finRange n)
  have here : e.nodes i = (c.nodes i).electing
      { election with waiting := fun j => election.waiting j && decide (j ∉ List.finRange n) } := by
    rw [nodes, setNode_self]
  have electing : (e.nodes i).mainFiber = .startCandidate
      { election with waiting := fun j => election.waiting j && decide (j ∉ List.finRange n) } := by
    rw [here]
    rfl
  have ended (j : Fin n) : (election.waiting j && decide (j ∉ List.finRange n)) = false := by simp
  have run : (startNode i (e.nodes i)).result = some (none, (e.nodes i).leading i) := by
    have leads : (e.nodes i).state = .leader := by
      rw [here]
      exact role
    rcases startNode_cases (e.nodes i) i with ⟨_, run⟩ | ⟨follows, _⟩ | ⟨stands, _⟩
    · rw [run]
    · cases leads.symm.trans follows
    · cases leads.symm.trans stands
  have acts : e.act none (.electionEnd i) =
      some (e.perform i none (startNode i) fun request c => c.sendVotes? request) := by
    simp only [act, electing, if_pos ended]
  refine ⟨_, silent.tail (Cluster.works alive acts rfl rfl run trivial trivial), ?_⟩
  simp only [sendVotes?, setNode, nodes, here, Function.update_idem]
  rfl

/-- Of a majority of resting nodes, one whose log nobody is ahead of can be elected in a term that is new to them. -/
theorem Cluster.working_elected (several : 2 ≤ n) (majority : majorityCount n ≤ up.card) (alive : i ∈ up)
    (resting : (c.nodes i).Resting)
    (best : ∀ j ∈ up, j ≠ i → ∀ term, (c.nodes j).grantsVote ((c.nodes i).campaignRequest i term) = true) :
    ∃ d term, c.Working up d ∧ (∀ x ∈ up, (c.nodes x).currentTerm < term) ∧
      d.nodes i = ((c.nodes i).campaign i term).lead.leading i ∧
      ∀ j ∈ up, j ≠ i → d.nodes j = ((c.nodes j).follow term).vote i := by
  obtain ⟨top, above⟩ : ∃ top, ∀ x ∈ up, (c.nodes x).currentTerm ≤ top :=
    ⟨up.sup fun x => (c.nodes x).currentTerm, fun x member => Finset.le_sup (f := fun x => (c.nodes x).currentTerm) member⟩
  have total : (c.nodes i).currentTerm + (top - (c.nodes i).currentTerm) + 1 = top + 1 := by
    have own := above i alive
    omega
  obtain ⟨d, working, nodes, asked⟩ := working_stands alive resting.waits resting.role resting.idle
    (top - (c.nodes i).currentTerm)
  rw [total] at nodes asked
  let voters := (up.erase i).toList
  have member (j : Fin n) : j ∈ voters ↔ j ≠ i ∧ j ∈ up := by rw [Finset.mem_toList, Finset.mem_erase]
  have count : 1 + voters.length = up.card := by
    have positive := Finset.card_pos.mpr ⟨i, alive⟩
    rw [Finset.length_toList, Finset.card_erase_of_mem alive]
    omega
  have other (x : Fin n) (notSelf : x ≠ i) : d.nodes x = c.nodes x := by rw [nodes, setNode_other c _ notSelf]
  have start : d.nodes i = ((c.nodes i).campaign i (top + 1)).polled ((c.nodes i).campaignRequest i (top + 1)) 1
      fun j => j ≠ i := by
    have few : ¬ majorityCount n ≤ 1 := by
      rw [majorityCount]
      omega
    rw [nodes, setNode_self, Node.polled, if_neg few]
    rfl
  have idle : ((c.nodes i).campaign i (top + 1)).calls = [] := resting.idle
  obtain ⟨e, polling, elected, granted, _⟩ := working_votes (c := d) alive rfl rfl idle (Finset.nodup_toList _) start
    fun j among => by
      obtain ⟨notSelf, aliveJ⟩ := (member j).mp among
      refine ⟨decide_eq_true notSelf, aliveJ, notSelf, asked j notSelf, ?_, ?_⟩
      · rw [other j notSelf]
        exact Nat.lt_succ_of_le (above j aliveJ)
      · rw [other j notSelf]
        exact best j aliveJ notSelf _
  rw [count, Node.polled, if_pos majority] at elected
  replace elected : e.nodes i = ((c.nodes i).campaign i (top + 1)).lead.electing _ := elected
  obtain ⟨f, leading, after⟩ := working_leads alive (congrArg Node.mainFiber elected) (by rw [elected]; exact idle)
    (by rw [elected]; rfl)
  refine ⟨f, top + 1, (working.trans polling).trans leading, fun x aliveX => Nat.lt_succ_of_le (above x aliveX), ?_, ?_⟩
  · rw [after, setNode_self, elected]
    rfl
  · intro j aliveJ notSelf
    rw [after, setNode_other e _ notSelf, granted j ((member j).mpr ⟨notSelf, aliveJ⟩), other j notSelf]
    rfl

end Metamorphosis
