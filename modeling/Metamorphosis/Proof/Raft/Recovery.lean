import Mathlib.Data.Prod.Lex
import Metamorphosis.Proof.Campaigns

/-!
Clusters come back: after a majority of the nodes has restarted, these nodes alone can elect a leader, bring their logs
in line with it and commit a new request.
-/

namespace Metamorphosis
open ReplicatedLog
variable {n : Nat} {S : Service n} {up : Finset (Fin n)}

/-- The part of a waiting call that `UpdateCommitIndex` does not change. -/
def Call.signature (call : Call S) : Nat × S.Request × Nat × Nat :=
  (call.tag, call.request, call.newLogIndex, call.currentTerm)

/-- The loop of commits wakes calls and changes nothing else about them. -/
theorem commitLoop_signature {wakes : Bool} {log : OrderedMap S.Entry} {pending : Nat → Option Nat} {indices : List Nat}
    {ext : S.Ext} {calls : List (Call S)} {result : S.Ext × List (Call S)}
    (loop : commitLoop wakes log pending indices ext calls = some result) :
    result.2.map Call.signature = calls.map Call.signature := by
  induction indices generalizing ext calls with
  | nil =>
      cases loop
      rfl
  | cons index rest ih =>
      rw [commitLoop] at loop
      split at loop
      · cases loop
      · rw [ih loop]
        split
        · rw [finishCalls, List.map_map]
          apply List.map_congr_left
          intro call _
          simp only [Function.comp_apply]
          split <;> rfl
        · rfl

/-- So does a new commit index. -/
theorem Node.updatedCommit_signature {node after : Node S} (updated : node.updatedCommit = some after) :
    after.calls.map Call.signature = node.calls.map Call.signature := by
  obtain ⟨result, loop, rfl⟩ := Option.map_eq_some_iff.mp updated
  exact commitLoop_signature loop

/-- A committed index wakes the call that the table names for it. -/
theorem Node.updatedCommit_wakes {node after : Node S} (updated : node.updatedCommit = some after) {call : Call S}
    (waits : call ∈ after.calls) {index : Nat} (registered : node.pendingRequests index = some call.tag)
    (above : node.commitIndex < index) (within : index ≤ node.findCommitIndex node.getSavedLogSize) :
    call.signaled = true := by
  obtain ⟨result, loop, rfl⟩ := Option.map_eq_some_iff.mp updated
  obtain ⟨before, _, tag, _, _, unnamed⟩ := commitLoop_wakes loop call waits
  by_contra silent
  obtain ⟨_, missed⟩ := unnamed (Bool.eq_false_iff.mpr silent)
  refine missed index ?_ (tag ▸ registered)
  rw [Node.newlyCommitted, List.mem_range'_1]
  omega

/-- What the sessions of some followers leave alone in their leader. -/
structure Node.Tends (js : List (Fin n)) (before after : Node S) : Prop where
  role : after.state = before.state
  saved : after.raftLog = before.raftLog
  pending : after.pendingLog = before.pendingLog
  term : after.currentTerm = before.currentTerm
  start : after.currentTermStartIndex = before.currentTermStartIndex
  requests : after.pendingRequests = before.pendingRequests
  calls : after.calls.map Call.signature = before.calls.map Call.signature
  nextIndex : ∀ k, k ∉ js → after.nextIndex k = before.nextIndex k
  matchIndex : ∀ k, k ∉ js → after.matchIndex k = before.matchIndex k
  fibers : ∀ fibers, before.mainFiber = .startLeader fibers → ∃ next, after.mainFiber = .startLeader next ∧
    next.mainSession = fibers.mainSession ∧ ∀ k, k ∉ js → next.session k = fibers.session k

namespace Node.Tends
variable {js ks : List (Fin n)} {before middle after : Node S}

theorem refl (node : Node S) : node.Tends [] node :=
  ⟨rfl, rfl, rfl, rfl, rfl, rfl, rfl, fun _ _ => rfl, fun _ _ => rfl, fun fibers leads => ⟨fibers, leads, rfl, fun _ _ => rfl⟩⟩

/-- Sessions that are tended one after another. -/
theorem trans (first : before.Tends js middle) (second : middle.Tends ks after) : before.Tends (js ++ ks) after where
  role := second.role.trans first.role
  saved := second.saved.trans first.saved
  pending := second.pending.trans first.pending
  term := second.term.trans first.term
  start := second.start.trans first.start
  requests := second.requests.trans first.requests
  calls := second.calls.trans first.calls
  nextIndex k outside := by
    rw [List.mem_append, not_or] at outside
    exact (second.nextIndex k outside.2).trans (first.nextIndex k outside.1)
  matchIndex k outside := by
    rw [List.mem_append, not_or] at outside
    exact (second.matchIndex k outside.2).trans (first.matchIndex k outside.1)
  fibers fibers leads := by
    obtain ⟨next, leadsNext, main, others⟩ := first.fibers fibers leads
    obtain ⟨last, leadsLast, mainLast, othersLast⟩ := second.fibers next leadsNext
    refine ⟨last, leadsLast, mainLast.trans main, fun k outside => ?_⟩
    rw [List.mem_append, not_or] at outside
    exact (othersLast k outside.2).trans (others k outside.1)

/-- A leader that tends some sessions leaves all others alone. -/
theorem weaken (tends : before.Tends js after) (subset : js ⊆ ks) : before.Tends ks after :=
  { tends with
    nextIndex := fun k outside => tends.nextIndex k fun inside => outside (subset inside)
    matchIndex := fun k outside => tends.matchIndex k fun inside => outside (subset inside)
    fibers := fun fibers leads => by
      obtain ⟨next, leadsNext, main, others⟩ := tends.fibers fibers leads
      exact ⟨next, leadsNext, main, fun k outside => others k fun inside => outside (subset inside)⟩ }

/-- The session of a follower is at another place. -/
theorem session (node : Node S) {fibers next : LeaderFibers S} (j : Fin n) (ext : S.Ext)
    (leads : node.mainFiber = .startLeader fibers) (main : next.mainSession = fibers.mainSession)
    (others : ∀ k, k ≠ j → next.session k = fibers.session k) :
    node.Tends [j] { node with mainFiber := .startLeader next, ext := ext } where
  role := rfl
  saved := rfl
  pending := rfl
  term := rfl
  start := rfl
  requests := rfl
  calls := rfl
  nextIndex _ _ := rfl
  matchIndex _ _ := rfl
  fibers other same := by
    cases leads.symm.trans same
    exact ⟨next, rfl, main, fun k outside => others k (mt List.mem_singleton.mpr outside)⟩

/-- The leader knows something else about a follower. -/
theorem indices (node : Node S) {nextIndex matchIndex : Fin n → Nat} (j : Fin n)
    (next : ∀ k, k ≠ j → nextIndex k = node.nextIndex k) (matched : ∀ k, k ≠ j → matchIndex k = node.matchIndex k) :
    node.Tends [j] { node with nextIndex := nextIndex, matchIndex := matchIndex } where
  role := rfl
  saved := rfl
  pending := rfl
  term := rfl
  start := rfl
  requests := rfl
  calls := rfl
  nextIndex k outside := next k (mt List.mem_singleton.mpr outside)
  matchIndex k outside := matched k (mt List.mem_singleton.mpr outside)
  fibers fibers leads := ⟨fibers, leads, rfl, fun _ _ => rfl⟩

/-- A new commit index changes no session. -/
theorem updatedCommit (updated : before.updatedCommit = some after) : before.Tends [] after := by
  have calls := updatedCommit_signature updated
  obtain ⟨result, _, rfl⟩ := Option.map_eq_some_iff.mp updated
  exact ⟨rfl, rfl, rfl, rfl, rfl, rfl, calls, fun _ _ => rfl, fun _ _ => rfl,
    fun fibers leads => ⟨fibers, leads, rfl, fun _ _ => rfl⟩⟩

end Node.Tends

/-- The answer of one follower leaves the other sessions of the leader alone. -/
theorem appendAnswered_tends {i j : Fin n} {leader next : Node S} {fibers : LeaderFibers S}
    {request : AppendEntriesRequest n S.Entry} {result : AppendEntriesResult}
    (leading : leader.mainFiber = .startLeader fibers) (role : leader.state = .leader)
    (answered : (appendAnswered i j fibers request (some result) leader).result = some ((), next))
    (still : next.state = .leader) : leader.Tends [j] next := by
  have looping : leader.Tends [j] (leader.answered i j fibers) :=
    .session leader j _ leading rfl fun k other => Function.update_of_ne other ..
  rcases appendAnswered_cases i j fibers request result role with ⟨_, run⟩ | ⟨_, _, run⟩ | ⟨_, _, aborted | ⟨_, run⟩⟩
  · rw [run] at answered
    cases answered
    cases still
  · rw [run] at answered
    obtain ⟨_, updated, same⟩ := Option.map_eq_some_iff.mp answered
    cases same
    have counted : (leader.answered i j fibers).Tends [j] ((leader.answered i j fibers).acknowledged j request) :=
      .indices _ j (fun k other => Function.update_of_ne other ..) (fun k other => Function.update_of_ne other ..)
    exact (looping.trans (counted.trans (.updatedCommit updated))).weaken (by simp)
  · rw [aborted] at answered
    cases answered
  · rw [run] at answered
    cases answered
    have back : (leader.answered i j fibers).Tends [j] ((leader.answered i j fibers).stepBack j) :=
      .indices _ j (fun k other => Function.update_of_ne other ..) (fun _ _ => rfl)
    exact (looping.trans back).weaken (by simp)

/-- A round in parts: the request, the follower after it and the answer. -/
theorem sessionRound_parts {i j : Fin n} {leader follower : Node S} {fibers : LeaderFibers S} {round : Round S}
    (leading : leader.mainFiber = .startLeader fibers) (found : sessionRound i j leader follower = some round) :
    ∃ called result, round.request.leaderId = i ∧ round.request.term = leader.currentTerm ∧
      (leader.calling j fibers round.request).mainFiber = .startLeader called ∧
      called.session j = .calling (fibers.issued j) round.request ∧
      (sessionSend i j fibers leader).result = some (round.request, leader.calling j fibers round.request) ∧
      (appendEntries round.request follower).result = some (result, round.follower) ∧
      (appendAnswered i j called round.request (some result) (leader.calling j fibers round.request)).result =
        some ((), round.leader) := by
  rw [sessionRound, leading] at found
  simp only [Option.bind_eq_bind, Option.bind_eq_some_iff, Prod.exists] at found
  obtain ⟨request, caller, sent, result, after, handled, found⟩ := found
  obtain ⟨own, term, rfl⟩ : request.leaderId = i ∧ request.term = leader.currentTerm ∧
      caller = leader.calling j fibers request := by
    rcases sessionSend_cases leader i j fibers with aborted | ⟨term, entries, _, _, _, run⟩
    · rw [aborted] at sent
      cases sent
    · rw [run] at sent
      cases sent
      exact ⟨rfl, rfl, rfl⟩
  obtain ⟨called, place, waiting⟩ : ∃ called, (leader.calling j fibers request).mainFiber = .startLeader called ∧
      called.session j = .calling (fibers.issued j) request := ⟨_, rfl, Function.update_self ..⟩
  rw [place] at found
  obtain ⟨⟨_, next⟩, answered, same⟩ := Option.bind_eq_some_iff.mp found
  cases same
  exact ⟨called, result, own, term, place, waiting, sent, handled, answered⟩

/-- A round with one follower leaves the other sessions of the leader alone. -/
theorem sessionRound_tends {i j : Fin n} {leader follower : Node S} {fibers : LeaderFibers S} {round : Round S}
    (leading : leader.mainFiber = .startLeader fibers) (found : sessionRound i j leader follower = some round)
    (role : leader.state = .leader) (still : round.leader.state = .leader) : leader.Tends [j] round.leader := by
  obtain ⟨called, result, _, _, place, _, _, _, answered⟩ := sessionRound_parts leading found
  have asked : leader.Tends [j] (leader.calling j fibers round.request) :=
    .session leader j leader.ext leading rfl fun k other => Function.update_of_ne other ..
  exact (asked.trans (appendAnswered_tends place role answered still)).weaken (by simp)

/-- The requests of a leader get greater numbers than the ones that were handled. -/
theorem Sim.issued_inOrder {P : Copies S} {strict : Prop} {c : Cluster S} {a : Hist S} (sim : Sim P strict c a) {i j : Fin n}
    {fibers : LeaderFibers S} (leading : (c.nodes i).mainFiber = .startLeader fibers)
    (role : (c.nodes i).state = .leader) {request : AppendEntriesRequest n S.Entry}
    (term : request.term = (c.nodes i).currentTerm) :
    ∀ earlier ∈ c.handled, earlier.SameSession ⟨j, fibers.issued j, request⟩ → earlier.seq < fibers.issued j := by
  intro earlier member same
  obtain ⟨L, leader⟩ := (sim.nodes i).leader role
  have issued := (leader.fibers fibers leading).issued earlier (sim.messages.handled earlier member)
    (same.2.2.trans term)
  rwa [same.1] at issued

/-- A round is three steps of the leader and the follower. -/
theorem Cluster.working_round {c : Cluster S} {i j : Fin n} {fibers : LeaderFibers S} {round : Round S} (P : Copies S)
    (reached : Cluster.Run Cluster.Any (.initial S) c) (aliveI : i ∈ up) (aliveJ : j ∈ up) (other : j ≠ i)
    (leading : (c.nodes i).mainFiber = .startLeader fibers) (session : fibers.session j = .loop)
    (role : (c.nodes i).state = .leader) (found : sessionRound i j (c.nodes i) (c.nodes j) = some round) :
    ∃ d, c.Working up d ∧ d.nodes i = round.leader ∧ d.nodes j = round.follower ∧
      ∀ x, x ≠ i → x ≠ j → d.nodes x = c.nodes x := by
  obtain ⟨called, result, own, term, place, waiting, sent, handled, answered⟩ := sessionRound_parts leading found
  obtain ⟨a, sim⟩ := reached.any_sim P
  have order := sim.issued_inOrder (j := j) leading role term
  -- The request and the reply are the last ones in their lists.
  let call : AppendCall S := ⟨j, fibers.issued j, round.request⟩
  obtain ⟨asking, sends, requests, handledBefore, replies, nodes⟩ : ∃ d, c.Works up d ∧
      d.appendRequests = c.appendRequests ++ [call] ∧ d.handled = c.handled ∧ d.appendReplies = c.appendReplies ∧
      d.nodes = (c.setNode i ((c.nodes i).calling j fibers round.request)).nodes := by
    have acts : c.act none (.sessionSend i j) = some (c.perform i none (sessionSend i j fibers)
        fun request c => c.sendAppend j (fibers.issued j) request) := by
      simp only [act, leading, session, if_pos role]
    have runs : c.runs (.sessionSend i j) = some (c.resultOf i (sessionSend i j fibers)) := by
      simp only [runs, leading]
    exact ⟨_, Cluster.works aliveI acts rfl runs sent trivial trivial, rfl, rfl, rfl, rfl⟩
  have follower : asking.nodes j = c.nodes j := by rw [nodes, setNode_other c _ other]
  have last : asking.appendRequests[c.appendRequests.length]? = some call := by
    rw [requests]
    exact List.getElem?_concat_length ..
  obtain ⟨replying, handles, repliesNow, nodesNow⟩ : ∃ d, asking.Works up d ∧
      d.appendReplies = c.appendReplies ++ [(call, result)] ∧ d.nodes = (asking.setNode j round.follower).nodes := by
    have acts : asking.act none (.handleAppend c.appendRequests.length) =
        some ({ asking with handled := asking.handled ++ [call] }.perform j none (appendEntries round.request)
          fun result c => { c with appendReplies := c.appendReplies ++ [(call, result)] }) := by
      simp only [act, last, Option.bind_eq_bind, Option.bind_some, call]
    have runs : asking.runs (.handleAppend c.appendRequests.length) =
        some (asking.resultOf j (appendEntries round.request)) := by
      simp only [runs, last, Option.map_some, call]
    have ended : (appendEntries round.request (asking.nodes j)).result = some (result, round.follower) := by
      rw [follower]
      exact handled
    have inOrder : asking.InOrder (.handleAppend c.appendRequests.length) := by
      intro found member earlier among same
      cases last.symm.trans (Option.mem_def.mp member)
      rw [handledBefore] at among
      exact order earlier among same
    refine ⟨_, Cluster.works aliveJ acts rfl runs ended inOrder trivial, ?_, rfl⟩
    exact congrArg (· ++ [(call, result)]) replies
  have caller : replying.nodes i = (c.nodes i).calling j fibers round.request := by
    rw [nodesNow, setNode_other asking _ other.symm, nodes, setNode_self]
  have leads : (replying.nodes i).mainFiber = .startLeader called := by
    rw [caller]
    exact place
  have reply : replying.appendReplies[c.appendReplies.length]? = some (call, result) := by
    rw [repliesNow]
    exact List.getElem?_concat_length ..
  have mine : call.callee = j ∧ call.seq = fibers.issued j ∧ call.request.leaderId = i ∧
      call.request.term = round.request.term := ⟨rfl, rfl, own, rfl⟩
  have acts : replying.act none (.appendAnswered i j (some c.appendReplies.length)) =
      some (replying.perform i none (appendAnswered i j called round.request (some result))
        fun _ => noteCommit (replying.nodes i).commitIndex i) := by
    simp only [act, leads, waiting, reply, Option.bind_eq_bind, Option.bind_some, if_pos mine]
  have runs : replying.runs (.appendAnswered i j (some c.appendReplies.length)) =
      some (replying.resultOf i (appendAnswered i j called round.request (some result))) := by
    simp only [runs, leads, waiting, reply, Option.map_some]
  rw [← caller] at answered
  refine ⟨_, .tail (.tail (.single sends) handles) (Cluster.works aliveI acts rfl runs answered trivial trivial), ?_, ?_, ?_⟩
  · rw [noteCommit_nodes, setNode_self]
  · rw [noteCommit_nodes, setNode_other _ _ other, nodesNow, setNode_self]
  · intro x notI notJ
    rw [noteCommit_nodes, setNode_other _ _ notI, nodesNow, setNode_other _ _ notJ, nodes, setNode_other _ _ notI]

section Raft
variable {M : StateMachine} {i j k : Fin n}

/-- A follower that waits for its turn does not notice the sessions of the others. -/
theorem Reconciling.tends {leader next follower : Node (raftService M n)} {js : List (Fin n)}
    (reconciling : Reconciling i j leader follower) (tends : leader.Tends js next) (self : i ∉ js) (waits : j ∉ js) :
    Reconciling i j next follower := by
  have values : next.values = leader.values := by rw [Node.values, tends.saved, Node.values]
  have log : next.log = leader.log := by rw [Node.log, values, tends.pending, Node.log]
  obtain ⟨fibers, leading, session⟩ := reconciling.sessions
  obtain ⟨fibersNext, leadingNext, _, others⟩ := tends.fibers fibers leading
  constructor
  · exact reconciling.other
  · exact tends.role.trans reconciling.role
  · exact ⟨fibersNext, leadingNext, (others j waits).trans session⟩
  · rw [values, tends.saved]
    exact reconciling.saved
  · rw [log, tends.nextIndex i self]
    exact reconciling.next
  · rw [tends.nextIndex j waits]
    exact reconciling.positive
  · rw [tends.nextIndex j waits, values]
    exact reconciling.bound
  · rw [tends.term]
    exact reconciling.term
  · exact reconciling.stored
  · rw [log]
    exact reconciling.matching
  · rw [log]
    exact reconciling.committed
  · rw [log]
    exact reconciling.agreed

/-- The rounds with one follower end when the leader knows that it stores the log. -/
theorem Reconciling.working {c : RaftCluster M n} (reached : Cluster.Run Cluster.Any (.initial _) c) (aliveI : i ∈ up)
    (aliveJ : j ∈ up) (reconciling : Reconciling i j (c.nodes i) (c.nodes j)) :
    ∃ d, c.Working up d ∧ (c.nodes i).Tends [j] (d.nodes i) ∧ (d.nodes i).matchIndex j = (c.nodes i).log.length ∧
      (d.nodes j).raftLog = OrderedMap.ofList (c.nodes i).log ∧ ∀ x, x ≠ i → x ≠ j → d.nodes x = c.nodes x := by
  induction place : (c.nodes i).nextIndex j generalizing c with
  | zero => exact absurd reconciling.positive (by omega)
  | succ k ih =>
      obtain ⟨fibers, leading, session⟩ := reconciling.sessions
      by_cases matched : (c.nodes i).nextIndex j = 1 ∨
          SameTerm (c.nodes i).log (c.nodes j).values ((c.nodes i).nextIndex j - 1)
      · obtain ⟨last, round, _, _, _, matchIndex, leads, log, _⟩ := reconciling.accepted matched
        have tends := sessionRound_tends leading round reconciling.role (leads.role.trans reconciling.role)
        obtain ⟨d, working, leader, follower, others⟩ := Cluster.working_round (raftCopies M n) reached aliveI aliveJ
          reconciling.other leading session reconciling.role round
        rw [← leader] at tends matchIndex
        rw [← follower] at log
        exact ⟨d, working, tends, matchIndex, log, others⟩
      · obtain ⟨first, round, _, back, leads, _, _, again⟩ := reconciling.refused matched
        have tends := sessionRound_tends leading round reconciling.role (leads.role.trans reconciling.role)
        obtain ⟨d, working, leader, follower, others⟩ := Cluster.working_round (raftCopies M n) reached aliveI aliveJ
          reconciling.other leading session reconciling.role round
        rw [← leader, ← follower] at again
        rw [← leader] at leads tends back
        obtain ⟨e, more, tendsOn, matchIndex, log, othersOn⟩ := ih (reached.trans working.run) again (by omega)
        refine ⟨e, working.trans more, (tends.trans tendsOn).weaken (by simp), ?_, ?_, ?_⟩
        · rw [matchIndex, leads.log]
        · rw [log, leads.log]
        · intro x notI notJ
          rw [othersOn x notI notJ, others x notI notJ]

/-- The leader brings the logs of several followers in line, one after the other. -/
theorem working_followers {c : RaftCluster M n} (reached : Cluster.Run Cluster.Any (.initial _) c) (aliveI : i ∈ up)
    {js : List (Fin n)} (nodup : js.Nodup) (self : i ∉ js)
    (reconciling : ∀ j ∈ js, j ∈ up ∧ Reconciling i j (c.nodes i) (c.nodes j)) :
    ∃ d, c.Working up d ∧ (c.nodes i).Tends js (d.nodes i) ∧
      ∀ j ∈ js, (d.nodes i).matchIndex j = (c.nodes i).log.length := by
  induction js generalizing c with
  | nil => exact ⟨c, .refl, .refl _, by simp⟩
  | cons j rest ih =>
      obtain ⟨fresh, nodup⟩ := List.nodup_cons.mp nodup
      obtain ⟨notJ, notRest⟩ := List.ne_and_not_mem_of_not_mem_cons self
      obtain ⟨aliveJ, first⟩ := reconciling j List.mem_cons_self
      obtain ⟨d, working, tends, matched, _, others⟩ := first.working reached aliveI aliveJ
      have log : (d.nodes i).log = (c.nodes i).log := by
        rw [Node.log, Node.values, tends.saved, tends.pending, Node.log, Node.values]
      obtain ⟨e, more, tendsOn, matchedOn⟩ := ih (reached.trans working.run) nodup notRest fun k member => by
        obtain ⟨aliveK, waiting⟩ := reconciling k (List.mem_cons_of_mem j member)
        have apart : k ∉ [j] := fun same => fresh (List.mem_singleton.mp same ▸ member)
        refine ⟨aliveK, ?_⟩
        rw [others k waiting.other (mt List.mem_singleton.mpr apart)]
        exact waiting.tends tends (mt List.mem_singleton.mp notJ) apart
      refine ⟨e, working.trans more, tends.trans tendsOn, ?_⟩
      intro k member
      rcases List.mem_cons.mp member with rfl | later
      · rw [tendsOn.matchIndex k fresh, matched]
      · rw [matchedOn k later, log]

/-- The log of a leader and the saved log of any node match. -/
theorem Sim.logMatching {strict : Prop} {c : RaftCluster M n} {a : Hist (raftService M n)}
    (sim : Sim (raftCopies M n) strict c a) (role : (c.nodes i).state = .leader) (j : Fin n) :
    LogMatching (c.nodes i).log (c.nodes j).values := by
  rintro index ⟨positive, entry, other, found, stored, same⟩
  obtain ⟨L, leader⟩ := (sim.nodes i).leader role
  have values : (c.nodes j).values = (a.log j).map Prod.fst := (sim.nodes j).log.values.2.values_eq
  have log := sim.leader_entries leader
  rw [log, List.getElem?_map] at found
  rw [values, List.getElem?_map] at stored
  obtain ⟨item, atLeader, rfl⟩ := Option.map_eq_some_iff.mp found
  obtain ⟨itemJ, atJ, rfl⟩ := Option.map_eq_some_iff.mp stored
  have equal := (sim.wf.leadLinked leader.led).matching (sim.wf.logLinked j) atLeader atJ same
  rw [Nat.sub_add_cancel positive] at equal
  rw [log, values, ← List.map_take, ← List.map_take, equal]

/-- A leader can bring the log of a follower in line that has committed nothing else. -/
theorem Sim.reconciling {strict : Prop} {c : RaftCluster M n} {a : Hist (raftService M n)}
    (sim : Sim (raftCopies M n) strict c a) (role : (c.nodes i).state = .leader) (other : j ≠ i)
    (sessions : ∃ fibers, (c.nodes i).mainFiber = .startLeader fibers ∧ fibers.session j = .loop)
    (positive : 1 ≤ (c.nodes i).nextIndex j) (bound : (c.nodes i).nextIndex j ≤ (c.nodes i).values.length + 1)
    (term : (c.nodes j).currentTerm ≤ (c.nodes i).currentTerm)
    (agreed : (c.nodes i).log.take (c.nodes j).commitIndex = (c.nodes j).values.take (c.nodes j).commitIndex) :
    Reconciling i j (c.nodes i) (c.nodes j) := by
  obtain ⟨L, leader⟩ := (sim.nodes i).leader role
  obtain ⟨stored, mirrors⟩ := (sim.nodes j).log.values
  have committed : (c.nodes j).commitIndex ≤ (c.nodes j).values.length := by
    rw [mirrors.length]
    exact (sim.nodes j).commit
  refine ⟨other, role, sessions, (sim.nodes i).log.values.1, ?_, positive, bound, term, stored, sim.logMatching role j,
    ⟨committed, ?_⟩, agreed⟩
  · rw [leader.next, sim.leader_entries leader, List.length_map]
  · have lengths := congrArg List.length agreed
    rw [List.length_take, List.length_take] at lengths
    omega

/-- The main session knows that the leader stores its own log. -/
theorem Sim.saved_matchIndex {P : Copies S} {strict : Prop} {c : Cluster S} {a : Hist S} (sim : Sim P strict c a)
    {fibers : LeaderFibers S} (leading : (c.nodes i).mainFiber = .startLeader fibers)
    (role : (c.nodes i).state = .leader) : ((c.nodes i).save i fibers).matchIndex i = (c.nodes i).log.length := by
  obtain ⟨L, leader⟩ := (sim.nodes i).leader role
  have place := (leader.fibers fibers leading).savedIndex (sim.nodes i).log
  rw [← (sim.nodes i).log.values.2.length] at place
  refine (Function.update_self ..).trans ?_
  rw [place, Node.log, List.length_append]

end Raft

/-- A node grants its vote when the candidate's log is not behind its own. -/
theorem Node.grantsVote_iff {node : Node S} {request : RequestVoteRequest n} : node.grantsVote request = true ↔
    node.getLastSavedLogTerm < request.lastLogTerm ∨
      node.getLastSavedLogTerm = request.lastLogTerm ∧ node.getSavedLogSize ≤ request.lastLogIndex := by
  rw [grantsVote]
  split
  · rename_i ahead
    simp only [Bool.false_eq_true, false_iff]
    omega
  · split
    · rename_i same
      simp only [decide_eq_true_iff, same, lt_irrefl, true_and, false_or]
    · simp only [true_iff]
      omega

/-- Some node of a set has a log that nobody in the set is ahead of. -/
theorem Cluster.exists_best {c : Cluster S} (nonempty : up.Nonempty) :
    ∃ i ∈ up, ∀ j ∈ up, ∀ term, (c.nodes j).grantsVote ((c.nodes i).campaignRequest i term) = true := by
  obtain ⟨i, alive, best⟩ := up.exists_max_image
    (fun x => toLex ((c.nodes x).getLastSavedLogTerm, (c.nodes x).getSavedLogSize)) nonempty
  refine ⟨i, alive, fun j aliveJ term => ?_⟩
  have order := Prod.Lex.toLex_le_toLex.mp (best j aliveJ)
  apply Node.grantsVote_iff.mpr
  exact order

/-- `UpdateCommitIndex` reaches the end of the saved log when a majority stores it. -/
theorem Node.findCommitIndex_reaches {node : Node S} {size : Nat} (start : node.currentTermStartIndex ≤ size)
    (majority : majorityCount n ≤ node.matchCount size) : size ≤ node.findCommitIndex size := by
  cases size with
  | zero => exact Nat.zero_le _
  | succ size =>
      rw [findCommitIndex]
      rw [if_pos majority]
      split
      · exact Nat.le_refl _
      · rename_i low
        have committed : ¬ node.commitIndex < size + 1 := fun below => low ⟨below, start⟩
        omega

/-- A leader that takes a request. -/
theorem Cluster.works_execute {c : Cluster S} {i : Fin n} (request : S.Request) {entry : S.Entry} {ext : S.Ext}
    (alive : i ∈ up) (role : (c.nodes i).state = .leader)
    (made : S.newEntry (c.nodes i).ext (c.nodes i).currentTerm request = .inr (entry, ext)) :
    ∃ d, c.Works up d ∧ d.nodes = (c.setNode i ((c.nodes i).appended i c.clock request entry ext)).nodes := by
  have run : (execute i c.clock request (c.nodes i)).result =
      some (none, (c.nodes i).appended i c.clock request entry ext) := by
    rcases execute_cases (c.nodes i) i c.clock request with ⟨other, _⟩ | ⟨_, _, answer, _⟩ | ⟨_, _, _, same, run⟩
    · exact absurd role other
    · cases made.symm.trans answer
    · cases made.symm.trans same
      rw [run]
  have acts : c.act none (.execute i request) =
      some (c.perform i none (execute i c.clock request) fun response => noteExecute i request response) := rfl
  exact ⟨_, Cluster.works alive acts rfl rfl run trivial trivial, noteExecute_nodes ..⟩

/-- A leader whose main session starts saves its log. -/
theorem Cluster.works_save {c : Cluster S} {i : Fin n} {fibers : LeaderFibers S} {after : Node S} (alive : i ∈ up)
    (leading : (c.nodes i).mainFiber = .startLeader fibers) (starts : fibers.mainSession = .starting)
    (role : (c.nodes i).state = .leader) (updated : ((c.nodes i).save i fibers).updatedCommit = some after) :
    ∃ d, c.Works up d ∧ d.nodes = (c.setNode i after).nodes := by
  have run : (mainRound i fibers (c.nodes i)).result = some ((), after) := by
    rw [mainRound_leader i fibers role, updated]
    rfl
  have acts : c.act none (.mainRound i) =
      some (c.perform i none (mainRound i fibers) fun _ => noteCommit (c.nodes i).commitIndex i) := by
    simp only [act, leading, if_pos (Or.inl starts)]
  have runs : c.runs (.mainRound i) = some (c.resultOf i (mainRound i fibers)) := by
    simp only [runs, leading]
  exact ⟨_, Cluster.works alive acts rfl runs run trivial trivial, noteCommit_nodes ..⟩

/-- The only call of a leader wakes up and is answered. -/
theorem Cluster.works_resume {c : Cluster S} {i : Fin n} {call : Call S} (alive : i ∈ up)
    (only : (c.nodes i).calls = [call]) (signaled : call.signaled = true) (role : (c.nodes i).state = .leader)
    (current : call.currentTerm = (c.nodes i).currentTerm) :
    ∃ d, c.Works up d ∧ ⟨i, call.tag, call.request, (S.committed (c.nodes i).ext call.request call.payload).1, c.clock⟩ ∈
      d.answered := by
  have found : (c.nodes i).calls.find? (fun other => other.tag = call.tag) = some call := by
    rw [only]
    exact List.find?_cons_of_pos (decide_eq_true rfl)
  have run : (resume call (c.nodes i)).result = some ((S.committed (c.nodes i).ext call.request call.payload).1,
      ((c.nodes i).dropCall call).withExt (S.committed (c.nodes i).ext call.request call.payload).2) := by
    rw [resume, Process.bind_modify, Process.bind_get, if_neg (not_not.mpr current), Process.bind_verify, if_pos role]
    rfl
  have acts : c.act none (.resume i call.tag) = some (c.perform i none (resume call) fun response c =>
      { c with answered := c.answered ++ [⟨i, call.tag, call.request, response, c.clock⟩] }) := by
    simp only [act, found, Option.bind_eq_bind, Option.bind_some, if_pos signaled]
  have runs : c.runs (.resume i call.tag) = some (c.resultOf i (resume call)) := by
    simp only [runs, found, Option.map_some]
  exact ⟨_, Cluster.works alive acts rfl runs run trivial trivial, List.mem_append_right _ (List.mem_singleton_self _)⟩

variable {M : StateMachine} {i : Fin n}

/-- A leader with one new request, and followers that store its log: the leader commits the request and answers it. -/
structure Cluster.Agreed (c : RaftCluster M n) (up : Finset (Fin n)) (i : Fin n) (tag : Nat) (request : Request M.Cmd) :
    Prop where
  role : (c.nodes i).state = .leader
  sessions : ∃ fibers, (c.nodes i).mainFiber = .startLeader fibers ∧ fibers.mainSession = .starting
  start : (c.nodes i).currentTermStartIndex ≤ (c.nodes i).log.length
  matched : ∀ j ∈ up, j ≠ i → (c.nodes i).matchIndex j = (c.nodes i).log.length
  calls : (c.nodes i).calls.map Call.signature =
    [(tag, request, (c.nodes i).log.length, (c.nodes i).currentTerm)]
  registered : (c.nodes i).pendingRequests (c.nodes i).log.length = some tag
  uncommitted : (c.nodes i).commitIndex < (c.nodes i).log.length

/-- When the majority has the entry, the leader commits it and the call is answered. -/
theorem Cluster.Agreed.answers {c : RaftCluster M n} {tag : Nat} {request : Request M.Cmd}
    (agreed : c.Agreed up i tag request) (reached : Cluster.Run Cluster.Any (.initial _) c)
    (majority : majorityCount n ≤ up.card) (alive : i ∈ up) :
    ∃ d, c.Working up d ∧ ∃ answer ∈ d.answered, answer.tag = tag ∧ answer.request = request ∧
      answer.response.status = .commited := by
  obtain ⟨a, sim⟩ := reached.any_sim (raftCopies M n)
  obtain ⟨fibers, leading, starts⟩ := agreed.sessions
  have log := sim.saved_log leading agreed.role
  obtain ⟨saved, same⟩ : ∃ saved, saved = (c.nodes i).save i fibers := ⟨_, rfl⟩
  have values : saved.values = (c.nodes i).log := by rw [same, Node.values, log, OrderedMap.ofList_values, Node.log]
  have stored : saved.raftLog = OrderedMap.ofList saved.values := by
    rw [values, same]
    exact log
  have size : saved.getSavedLogSize = (c.nodes i).log.length := by rw [Node.getSavedLogSize_stored stored, values]
  have counted : majorityCount n ≤ saved.matchCount (c.nodes i).log.length := by
    refine majority.trans (Finset.card_le_card fun j member => Finset.mem_filter.mpr ⟨Finset.mem_univ j, ?_⟩)
    rw [same]
    by_cases self : j = i
    · rw [self, sim.saved_matchIndex leading agreed.role]
    · rw [← agreed.matched j member self]
      exact (Function.update_of_ne self ..).ge
  have reaches : (c.nodes i).log.length ≤ saved.findCommitIndex saved.getSavedLogSize := by
    rw [size]
    apply Node.findCommitIndex_reaches _ counted
    rw [same]
    exact agreed.start
  obtain ⟨result, updated⟩ := Node.updatedCommit_stored stored
  obtain ⟨d, works, nodes⟩ := works_save alive leading starts agreed.role (same ▸ updated)
  have here : d.nodes i = saved.committedTo (saved.findCommitIndex saved.getSavedLogSize) result := by
    rw [nodes, setNode_self, same]
  -- The call is the only one, and the new commit index wakes it.
  have calls := Node.updatedCommit_signature updated
  rw [← here, same] at calls
  obtain ⟨call, only, named⟩ := List.map_eq_singleton_iff.mp (calls.trans agreed.calls)
  simp only [Call.signature, Prod.mk.injEq] at named
  obtain ⟨tagged, asked, _, term⟩ := named
  have signaled : call.signaled = true := by
    rw [← here] at updated
    apply Node.updatedCommit_wakes updated (only ▸ List.mem_singleton_self call) _ _ reaches
    · rw [same, tagged]
      exact agreed.registered
    · rw [same]
      exact agreed.uncommitted
  have role : (d.nodes i).state = .leader := by
    rw [here, same]
    exact agreed.role
  have current : call.currentTerm = (d.nodes i).currentTerm := by
    rw [term, here, same]
    rfl
  obtain ⟨e, more, answered⟩ := works_resume alive only signaled role current
  exact ⟨e, .tail (.single works) more, _, answered, tagged, asked, rfl⟩

/-- A node that was elected right after its start and has taken a request. -/
def Disk.elected (disk : Disk (raftService M n)) (i : Fin n) (term tag : Nat) (request : Request M.Cmd) :
    Node (raftService M n) :=
  (((construct disk).campaign i term).lead.leading i).appended i tag request ⟨term, request⟩ (.initial M)

/-- A leader that was just elected brings the log of a restarted follower in line. -/
theorem Sim.elected_reconciling {strict : Prop} {c : RaftCluster M n} {a : Hist (raftService M n)}
    (sim : Sim (raftCopies M n) strict c a) {disk : Disk (raftService M n)} {term tag : Nat} {request : Request M.Cmd}
    (leader : c.nodes i = disk.elected i term tag request) {j : Fin n} (other : j ≠ i)
    (current : (c.nodes j).currentTerm = term) (uncommitted : (c.nodes j).commitIndex = 0) :
    Reconciling i j (c.nodes i) (c.nodes j) := by
  have role : (c.nodes i).state = .leader := by
    rw [leader]
    rfl
  have size := sim.size i
  rw [leader] at size
  have next : (c.nodes i).nextIndex j = (construct disk).getSavedLogSize + 1 := by
    rw [leader]
    exact Function.update_of_ne other ..
  refine sim.reconciling role other ?_ ?_ ?_ ?_ ?_
  · rw [leader]
    exact ⟨_, rfl, if_neg other⟩
  · rw [next]
    exact Nat.le_add_left ..
  · rw [next, leader, ← size]
    rfl
  · rw [current, leader]
    exact Nat.le_refl _
  · rw [uncommitted]
    rfl

/-- The leader is ready to commit its request when it knows that the followers store its log. -/
theorem Sim.agreed {strict : Prop} {c d : RaftCluster M n} {a b : Hist (raftService M n)}
    (sim : Sim (raftCopies M n) strict c a) (later : Sim (raftCopies M n) strict d b) {disk : Disk (raftService M n)} {term tag : Nat} {request : Request M.Cmd}
    (leader : c.nodes i = disk.elected i term tag request) {js : List (Fin n)} (tends : (c.nodes i).Tends js (d.nodes i))
    (matched : ∀ j ∈ up, j ≠ i → (d.nodes i).matchIndex j = (c.nodes i).log.length) :
    d.Agreed up i tag request := by
  have size := sim.size i
  rw [leader] at size
  have log : (d.nodes i).log = (c.nodes i).log := by
    rw [Node.log, Node.values, tends.saved, tends.pending, Node.log, Node.values]
  have length : (c.nodes i).log.length = (construct disk).getSavedLogSize + 1 := by
    rw [leader, Node.log, List.length_append, ← size]
    rfl
  rw [← log] at matched length
  have uncommitted : (d.nodes i).commitIndex < (d.nodes i).log.length := by
    have committed := (later.nodes i).commit
    rw [← (later.nodes i).log.values.2.length] at committed
    rw [Node.log, List.length_append, tends.pending, leader]
    exact Nat.lt_succ_of_le committed
  refine ⟨?_, ?_, ?_, matched, ?_, ?_, uncommitted⟩
  · rw [tends.role, leader]
    rfl
  · obtain ⟨fibers, leading, main, _⟩ := tends.fibers _ (congrArg Node.mainFiber leader)
    exact ⟨fibers, leading, main⟩
  · rw [tends.start, length, leader]
    exact Nat.le_refl _
  · rw [tends.calls, length, tends.term, leader]
    rfl
  · rw [tends.requests, length, leader]
    exact Function.update_self ..

/-- A leader with an idle session to a follower whose term is not later can bring the follower's log in line, whatever
has happened before: the two of them take steps after which the follower stores the leader's log and the leader knows
it. No other node takes part, and no process ends on the way. -/
theorem leader_reconciles (M : StateMachine) (n : Nat) {c : RaftCluster M n}
    (run : Cluster.Run Cluster.Prompt (.initial _) c) {i j : Fin n} (role : (c.nodes i).state = .leader) (other : j ≠ i)
    {fibers : LeaderFibers (raftService M n)} (leading : (c.nodes i).mainFiber = .startLeader fibers)
    (session : fibers.session j = .loop) (term : (c.nodes j).currentTerm ≤ (c.nodes i).currentTerm) :
    ∃ d, c.Working {i, j} d ∧ (d.nodes j).raftLog = OrderedMap.ofList (c.nodes i).log ∧
      (d.nodes i).matchIndex j = (c.nodes i).log.length := by
  obtain ⟨a, _, sim, books⟩ := Sim.invariant (fun c _ => Books c)
    (fun sim simD _ taken held => held.step sim simD (fun _ _ prompt => prompt) taken)
    (fun _ _ _ prompt => prompt.inOrder) (Sim.initial (raftCopies M n) True) (.initial _)
    (run.atomics (Cluster.fresh_initial _)).1
  obtain ⟨positive, bound, _⟩ := books.bounds i role j other
  rw [sim.size i] at bound
  obtain ⟨L, leader⟩ := (sim.nodes i).leader role
  have agreed : (c.nodes i).log.take (c.nodes j).commitIndex = (c.nodes j).values.take (c.nodes j).commitIndex := by
    rw [sim.leader_entries leader, (sim.nodes j).log.values.2.values_eq, ← List.map_take, ← List.map_take,
      sim.commit_shared leader.led term]
  have reconciling := sim.reconciling role other ⟨fibers, leading, session⟩ positive bound term agreed
  have reached : Cluster.Run Cluster.Any (.initial _) c := run.weaken fun _ _ _ => trivial
  obtain ⟨d, working, _, matched, log, _⟩ :=
    reconciling.working reached (Finset.mem_insert_self i {j}) (Finset.mem_insert_of_mem (Finset.mem_singleton_self j))
  exact ⟨d, working, log, matched⟩

/-- The leader after a committed request, whose session to the third node has not begun. -/
def promptCluster : RaftCluster adder 3 :=
  (Cluster.initial _).endOf Cluster.Prompt committedScript committedScript_prompt

/-- The session to the third node is between two calls. -/
theorem promptCluster_idle : ∃ fibers, (promptCluster.nodes 0).mainFiber = .startLeader fibers ∧
    fibers.session 2 = .loop := by
  have sends : (promptCluster.act none (.sessionSend 0 2)).isSome = true := by decide +kernel
  rw [Cluster.act] at sends
  split at sends
  · rename_i fibers leading
    split at sends
    · rename_i session
      exact ⟨fibers, leading, session⟩
    · cases sends
  · cases sends

/-- The third node gets the committed request. -/
theorem leader_reconciles_prompt : (promptCluster.nodes 2).raftLog.entries = [] ∧
    ∃ d, promptCluster.Working {0, 2} d ∧ (d.nodes 2).raftLog.entries.length = 1 := by
  obtain ⟨fibers, leading, session⟩ := promptCluster_idle
  obtain ⟨d, working, log, _⟩ := leader_reconciles adder 3 (Cluster.endOf_run committedScript_prompt)
    (show (promptCluster.nodes 0).state = .leader by decide +kernel) (show (2 : Fin 3) ≠ 0 by decide) leading session
    (by decide +kernel)
  refine ⟨by decide +kernel, d, working, ?_⟩
  rw [log]
  decide +kernel

/-- A majority of nodes that have just started can elect a leader by themselves, and a request to the leader gets
committed and answered. The nodes that are down do nothing, and no process ends on the way. -/
theorem majority_recovers (M : StateMachine) (n : Nat) (several : 2 ≤ n) {c : RaftCluster M n}
    (reached : Cluster.Run Cluster.Any (.initial _) c) (up : Finset (Fin n)) (majority : majorityCount n ≤ up.card)
    (restarted : ∀ x ∈ up, c.nodes x = construct (c.nodes x).disk) (request : Request M.Cmd) :
    ∃ d, c.Working up d ∧ ∃ answer ∈ d.answered, c.clock ≤ answer.tag ∧ answer.request = request ∧
      answer.response.status = .commited := by
  have nonempty : up.Nonempty := by
    rw [← Finset.card_pos]
    rw [majorityCount] at majority
    omega
  obtain ⟨i, alive, best⟩ := Cluster.exists_best (c := c) nonempty
  obtain ⟨disk, started⟩ : ∃ disk, c.nodes i = construct disk := ⟨_, restarted i alive⟩
  have resting : (c.nodes i).Resting := by
    rw [started]
    exact .construct _
  obtain ⟨d, term, working, later, elected, voted⟩ := Cluster.working_elected several majority alive resting
    fun j aliveJ _ => best j aliveJ
  have leads : (d.nodes i).state = .leader := by
    rw [elected]
    rfl
  obtain ⟨e, executes, nodes⟩ := Cluster.works_execute request alive leads rfl
  have leader : e.nodes i = disk.elected i term d.clock request := by
    rw [nodes, Cluster.setNode_self, elected, started]
    rfl
  have follower (j : Fin n) (aliveJ : j ∈ up) (other : j ≠ i) :
      (e.nodes j).currentTerm = term ∧ (e.nodes j).commitIndex = 0 := by
    rw [nodes, Cluster.setNode_other d _ other, voted j aliveJ other, restarted j aliveJ]
    exact ⟨rfl, rfl⟩
  have before : Cluster.Run Cluster.Any (.initial _) e := reached.trans (working.run.tail executes.next)
  obtain ⟨a, sim⟩ := before.any_sim (raftCopies M n)
  obtain ⟨f, following, tends, matched⟩ := working_followers before alive (Finset.nodup_toList (up.erase i))
    (by simp) fun j member => by
      obtain ⟨other, aliveJ⟩ := Finset.mem_erase.mp (Finset.mem_toList.mp member)
      exact ⟨aliveJ, sim.elected_reconciling leader other (follower j aliveJ other).1 (follower j aliveJ other).2⟩
  have after : Cluster.Run Cluster.Any (.initial _) f := before.trans following.run
  obtain ⟨b, simAfter⟩ := after.any_sim (raftCopies M n)
  have agreed : f.Agreed up i d.clock request := by
    apply sim.agreed simAfter leader tends
    intro j aliveJ other
    exact matched j (Finset.mem_toList.mpr (Finset.mem_erase.mpr ⟨other, aliveJ⟩))
  obtain ⟨g, ends, answer, answered, tag, asked, status⟩ := agreed.answers after majority alive
  refine ⟨g, ((working.tail executes).trans following).trans ends, answer, answered, ?_, asked, status⟩
  rw [tag]
  exact (working.run.atomics reached.fresh).1.extends.clock

/-- Two of three nodes are enough. -/
theorem majority_recovers_two : ∃ d, (Cluster.initial (raftService adder 3)).Working {0, 1} d ∧
    ∃ answer ∈ d.answered, answer.request = ⟨1, 1, (5 : Nat)⟩ ∧ answer.response.status = .commited := by
  obtain ⟨d, working, answer, answered, _, asked, status⟩ := majority_recovers adder 3 (by decide) .refl {0, 1}
    (by decide) (fun _ _ => rfl) ⟨1, 1, (5 : Nat)⟩
  exact ⟨d, working, answer, answered, asked, status⟩

end Metamorphosis
