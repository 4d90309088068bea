import Metamorphosis.Proof.Raft.Safety

/-!
A follower that has answered with success keeps the acknowledged entries, provided that no request
of the same term that it accepts later reaches less far.
-/

namespace Metamorphosis
open ReplicatedLog
variable {M : StateMachine} {n : Nat} {S : Service n}

/-- A node stores the first `m` entries of the leader of a term. -/
def Cluster.StoresLeaderLog (c : Cluster S) (j : Fin n) (term m : Nat) : Prop :=
  ∀ k, 1 ≤ k → k ≤ m → ∃ entry, (c.leaderLog term)[k - 1]? = some entry ∧ (c.nodes j).raftLog.get? k = some entry

/-- Every entry that a follower has acknowledged in its current term is stored on it, and so is
every entry that a leader counts as stored on a follower of its term. -/
structure Cluster.AcksStored (c : Cluster S) : Prop where
  answered : ∀ reply ∈ c.appendReplies, reply.2.success = true →
    (c.nodes reply.1.callee).currentTerm = reply.1.request.term →
    c.StoresLeaderLog reply.1.callee reply.1.request.term (reply.1.request.prevLogIndex + reply.1.request.entries.length)
  counted : ∀ i j, (c.nodes i).state = .leader → (c.nodes j).currentTerm = (c.nodes i).currentTerm →
    c.StoresLeaderLog j (c.nodes i).currentTerm ((c.nodes i).matchIndex j)

/-- A request that its follower accepts reaches at least as far as every request of the same term
that the follower has answered with success, except for entries that are committed on it. -/
def Cluster.ReachesFar (c : Cluster S) : Action S → Prop
  | .handleAppend place => ∀ call ∈ c.appendRequests[place]?, c.Accepts call → ∀ reply ∈ c.appendReplies,
      reply.2.success = true → reply.1.callee = call.callee → reply.1.request.term = call.request.term →
        reply.1.request.lastIndex ≤ max call.request.lastIndex (c.nodes call.callee).commitIndex
  | _ => True

instance (c : Cluster S) : ∀ action, Decidable (c.ReachesFar action)
  | .handleAppend place => inferInstanceAs (Decidable (∀ call ∈ c.appendRequests[place]?, c.Accepts call →
      ∀ reply ∈ c.appendReplies, reply.2.success = true → reply.1.callee = call.callee →
        reply.1.request.term = call.request.term →
          reply.1.request.lastIndex ≤ max call.request.lastIndex (c.nodes call.callee).commitIndex))
  | .electionTimeout _ | .handleVote _ | .voteAnswered .. | .electionEnd _ | .sessionSend .. | .sessionEnd ..
  | .appendAnswered .. | .mainRound _ | .leaderEnd _ | .execute .. | .resume .. | .crash _ => isTrue trivial

/-- The leader's first request to the second node is delayed until the node has answered the second one. -/
def delayedScript : List (Option Nat × Action (raftService adder 3)) :=
  Cluster.firstLeads _ ++ [(none, .sessionSend 0 1), (none, .appendAnswered 0 1 none)] ++
    Cluster.firstSends (raftService adder 3) ⟨1, 1, (5 : Nat)⟩ ++
    [(none, .handleAppend 1), (none, .appendAnswered 0 1 (some 0)), (none, .handleAppend 0)]

theorem delayedScript_possible :
    ((Cluster.initial (raftService adder 3)).play Cluster.Any delayedScript).isSome = true := by
  decide +kernel

/-- The cluster after the delayed request was handled. -/
def delayedCluster : RaftCluster adder 3 := (Cluster.initial _).endOf Cluster.Any delayedScript delayedScript_possible

/-- A follower acknowledged an entry that it does not have any more. -/
theorem delayedCluster_answered : ∃ reply ∈ delayedCluster.appendReplies, reply.2.success = true ∧
    (delayedCluster.nodes reply.1.callee).currentTerm = reply.1.request.term ∧
    1 ≤ reply.1.request.prevLogIndex + reply.1.request.entries.length ∧
    (delayedCluster.nodes reply.1.callee).raftLog.get? 1 = none := by
  decide +kernel

/-- The second node has acknowledged an entry, the leader has committed it, and the delayed request
has removed it from the second node. -/
theorem acks_lost : Cluster.Run Cluster.Any (.initial _) delayedCluster ∧
    (delayedCluster.nodes 0).commitIndex = 1 ∧ (delayedCluster.nodes 1).raftLog.get? 1 = none ∧
    ¬ delayedCluster.AcksStored := by
  refine ⟨Cluster.endOf_run delayedScript_possible, by decide +kernel, by decide +kernel, fun stored => ?_⟩
  obtain ⟨reply, replied, success, current, covers, missing⟩ := delayedCluster_answered
  obtain ⟨entry, _, found⟩ := stored.answered reply replied success current 1 (Nat.le_refl 1) covers
  cases missing.symm.trans found

/-- A follower that keeps its log still stores what it stored of the leader's log. -/
theorem Cluster.StoresLeaderLog.later {c d : Cluster S} {j : Fin n} {term m : Nat}
    (stored : c.StoresLeaderLog j term m) (extended : c.Extends d)
    (log : (d.nodes j).raftLog = (c.nodes j).raftLog) : d.StoresLeaderLog j term m := by
  intro k positive inside
  obtain ⟨entry, made, found⟩ := stored k positive inside
  obtain ⟨rest, longer⟩ := extended.leaderLog term
  refine ⟨entry, ?_, by rw [log]; exact found⟩
  rw [← longer, List.getElem?_append_left (List.getElem?_eq_some_iff.mp made).1]
  exact made

/-- The acknowledged entries are stored as soon as the log mirrors the leader's log so far. -/
theorem storesLeaderLog_of_take {strict : Prop} {c : RaftCluster M n} {a : Hist (raftService M n)} {j : Fin n}
    {T m : Nat} {L : Leadership (Fin n) (Item (raftService M n))} (sim : Sim (raftCopies M n) strict c a)
    (led : a.lead T = some L) (inside : m ≤ L.entries.length) (same : (a.log j).take m = L.entries.take m) :
    c.StoresLeaderLog j T m := by
  intro k positive below
  have found : L.entries[k - 1]? = some L.entries[k - 1] := List.getElem?_eq_getElem (by omega)
  have made : (c.leaderLog T)[k - 1]? = some L.entries[k - 1].1 := by
    have mirrors := sim.leaderLog led
    have insideLog : k - 1 < (c.leaderLog T).length := by
      rw [mirrors.length]
      omega
    obtain ⟨item, foundItem, copied⟩ := mirrors.getElem? (List.getElem?_eq_getElem insideLog)
    rw [List.getElem?_eq_getElem insideLog, ← Option.some.inj (foundItem.symm.trans found)]
    exact congrArg some copied
  refine ⟨L.entries[k - 1].1, made, ?_⟩
  rw [stores_get? (sim.nodes j).log positive, getElem?_of_take positive (take_of_take below same), found]
  rfl

/-- The first part of `AcksStored`. -/
def Cluster.AnswersStored (c : Cluster S) : Prop :=
  ∀ reply ∈ c.appendReplies, reply.2.success = true → (c.nodes reply.1.callee).currentTerm = reply.1.request.term →
    c.StoresLeaderLog reply.1.callee reply.1.request.term reply.1.request.lastIndex

section Answers
variable {c d : RaftCluster M n} {a b : Hist (raftService M n)}

/-- A follower that accepts a request keeps what it has acknowledged in the request's term. -/
theorem answersStored_accept {call : AppendCall (raftService M n)} {place : Nat}
    (sim : Sim (raftCopies M n) False c a) (stored : c.AnswersStored) (sent : c.appendRequests[place]? = some call)
    (permitted : c.ReachesFar (.handleAppend place)) (extended : c.Extends d) (change : c.Accepted d call) :
    d.AnswersStored := by
  have member := List.mem_of_getElem? sent
  obtain ⟨b, L, _, led, _, _, rewritten, accepted⟩ :=
    sim.acceptLog member False.elim change.accepts.current change.accepts.matched change.accepts.consistent
  obtain ⟨K, ledK, of⟩ := accepted.messages.requests call member
  cases led.symm.trans ledK
  have here : ((c.setNode call.callee (c.rewritten call)).handle call).nodes call.callee = c.rewritten call :=
    Cluster.setNode_self ..
  have sameLog (T : Nat) : d.leaderLog T = c.leaderLog T := by
    unfold Cluster.leaderLog
    rw [change.elected, change.created]
  -- Up to the last entry of the request the follower stores what the leader has sent.
  have covered : d.StoresLeaderLog call.callee call.request.term call.request.lastIndex := by
    have now := storesLeaderLog_of_take accepted led of.within rewritten.covered
    intro k positive below
    obtain ⟨entry, made, found⟩ := now k positive below
    refine ⟨entry, by rw [sameLog]; exact made, ?_⟩
    rw [change.log]
    rwa [here] at found
  intro reply replied success current
  by_cases same : reply.1.callee = call.callee
  · rw [same, change.term] at current
    rw [same, ← current]
    rcases change.replies reply replied with old | new
    · -- The follower was in the request's term already, since it had answered in this term.
      have before : (c.nodes reply.1.callee).currentTerm = reply.1.request.term := by
        have reached := (sim.messages.replies reply old).2
        rw [(sim.nodes _).term] at reached
        have bound := change.accepts.current
        rw [← same] at bound
        omega
      have kept := stored reply old success before
      have far := permitted call sent change.accepts reply old success same current.symm
      rw [same, ← current] at kept
      intro k positive below
      rcases Nat.lt_or_ge call.request.lastIndex k with beyond | within
      · obtain ⟨entry, made, found⟩ := kept k positive below
        refine ⟨entry, by rw [sameLog]; exact made, ?_⟩
        have committed : k ≤ (c.nodes call.callee).commitIndex := by omega
        rw [← Node.enter_commitIndex _ call.request.term] at committed
        rw [stores_get? (sim.nodes _).log positive, ← getElem?_of_take positive
          (take_of_take committed rewritten.committed)] at found
        rw [change.log, stores_get? (here ▸ (accepted.nodes call.callee).log) positive]
        exact found
      · exact covered k positive within
    · rw [new]
      exact covered
  · rcases change.replies reply replied with old | new
    · rw [change.others _ same] at current
      exact (stored reply old success current).later extended (by rw [change.others _ same])
    · rw [new] at same
      exact absurd rfl same

/-- Every step keeps what was acknowledged stored. -/
theorem answersStored_step (sim : Sim (raftCopies M n) False c a)
    (taken : Cluster.Atomic Cluster.ReachesFar c d) (stored : c.AnswersStored) : d.AnswersStored := by
  have extended := taken.extends
  rcases taken.log_cases with unwritten | ⟨i, fibers, leading, role, rfl⟩ | ⟨call, place, sent, permitted, change⟩
  · intro reply replied success current
    have old := unwritten.replies reply replied success
    have reached := (sim.messages.replies reply old).2
    rw [(sim.nodes _).term] at reached
    have grown := unwritten.term reply.1.callee
    exact (stored reply old success (by omega)).later extended (unwritten.log _)
  · intro reply replied success current
    -- A leader is not among the followers that it asks.
    have different : reply.1.callee ≠ i := by
      intro same
      rw [same, Cluster.setNode_self] at current
      obtain ⟨L, leader⟩ := (sim.nodes i).leader role
      obtain ⟨K, led, of⟩ := sim.messages.requests reply.1
        (sim.messages.handled _ (sim.messages.replies reply replied).1)
      rw [← current] at led
      cases leader.led.symm.trans led
      exact of.other (same.trans leader.self.symm)
    rw [Cluster.setNode_other c _ different] at current
    exact (stored reply replied success current).later extended
      (by rw [Cluster.setNode_other c _ different])
  · exact answersStored_accept sim stored sent permitted extended change

/-- What a leader counts of a follower was acknowledged by it in the leader's term. -/
def Cluster.CountsAnswered (c : Cluster S) : Prop :=
  ∀ i j, (c.nodes i).state = .leader → j ≠ i → (c.nodes i).matchIndex j = 0 ∨ ∃ reply ∈ c.appendReplies,
    reply.2.success = true ∧ reply.1.callee = j ∧ reply.1.request.term = (c.nodes i).currentTerm ∧
      reply.1.request.lastIndex = (c.nodes i).matchIndex j

/-- A leader counts acknowledged entries only. -/
theorem countsAnswered_step (sim : Sim (raftCopies M n) False c a)
    (taken : Cluster.Atomic Cluster.ReachesFar c d) (counted : c.CountsAnswered) : d.CountsAnswered := by
  have extended := taken.extends
  -- A leader that keeps its count finds the answer among the old ones.
  have kept {i j : Fin n} (other : j ≠ i) (led : (c.nodes i).state = .leader)
      (term : (d.nodes i).currentTerm = (c.nodes i).currentTerm)
      (matched : (d.nodes i).matchIndex j = (c.nodes i).matchIndex j) :
      (d.nodes i).matchIndex j = 0 ∨ ∃ reply ∈ d.appendReplies, reply.2.success = true ∧
        reply.1.callee = j ∧ reply.1.request.term = (d.nodes i).currentTerm ∧
          reply.1.request.lastIndex = (d.nodes i).matchIndex j := by
    rw [matched, term]
    rcases counted i j led other with zero | ⟨reply, replied, rest⟩
    · exact Or.inl zero
    · exact Or.inr ⟨reply, extended.replies.subset replied, rest⟩
  intro i j role other
  rcases taken.match_cases with still | ⟨x, _, _, _, nodes⟩ |
    ⟨x, fibers, call, request, response, leading, session, leads, replied, own, asked, success, rfl⟩
  · obtain ⟨led, term, _, matched⟩ := still i role
    exact kept other led term (matched j other)
  · by_cases self : i = x
    · left
      rw [nodes, self, Cluster.setNode_self]
      rfl
    · have same : d.nodes i = c.nodes i := by rw [nodes, Cluster.setNode_other c _ self]
      rw [same] at role
      exact kept other role (by rw [same]) (by rw [same])
  · have answer := sim.answer_known leading session leads replied own asked
    by_cases self : i = x
    · subst self
      by_cases here : j = call.callee
      · right
        refine ⟨(call, response), replied, success, here.symm, ?_, ?_⟩
        · rw [answer.asked, Cluster.setNode_self]
          exact answer.term
        · rw [answer.asked, Cluster.setNode_self, here]
          simp only [Node.acknowledged, Function.update_self]
          rfl
      · refine kept other leads ?_ ?_
        · rw [Cluster.setNode_self]
          rfl
        · rw [Cluster.setNode_self]
          exact Function.update_of_ne here ..
    · have same : (c.setNode x (((c.nodes x).answered x call.callee fibers).acknowledged call.callee request)).nodes i =
          c.nodes i := Cluster.setNode_other c _ self
      rw [same] at role
      exact kept other role (by rw [same]) (by rw [same])

end Answers

/-- In every run in which accepted requests reach far enough, acknowledged entries stay stored. -/
theorem acks_stored (M : StateMachine) (n : Nat) {c : RaftCluster M n}
    (run : Cluster.Run Cluster.ReachesFar (.initial _) c) : c.AcksStored := by
  obtain ⟨a, _, sim, stored, counted⟩ := Sim.invariant (fun c _ => c.AnswersStored ∧ c.CountsAnswered)
    (fun sim _ _ taken held => ⟨answersStored_step sim taken held.1, countsAnswered_step sim taken held.2⟩)
    False.elim (Sim.initial (raftCopies M n) False)
    ⟨fun _ replied => absurd replied List.not_mem_nil, fun _ _ role => by cases role⟩
    (run.atomics (Cluster.fresh_initial _)).1
  refine ⟨stored, fun i j role current => ?_⟩
  by_cases self : j = i
  · subst self
    obtain ⟨L, leader⟩ := (sim.nodes j).leader role
    obtain ⟨_, saved, _, _⟩ := (sim.nodes j).leader_log sim.wf leader
    exact storesLeaderLog_of_take sim leader.led (leader.matched.trans saved.length_le)
      (take_of_grows saved leader.matched).symm
  · rcases counted i j role self with zero | ⟨reply, replied, success, callee, term, last⟩
    · intro k positive inside
      omega
    · rw [← last, ← term, ← callee]
      exact stored reply replied success (by rw [callee, term, current])

theorem committedScript_far :
    ((Cluster.initial (raftService adder 3)).play Cluster.ReachesFar committedScript).isSome = true := by
  decide +kernel

/-- The leader has counted one entry of the second node, which stores it. -/
theorem acks_stored_committed :
    (((Cluster.initial _).endOf Cluster.ReachesFar committedScript committedScript_far).nodes 0).matchIndex 1 = 1 ∧
      ((Cluster.initial _).endOf Cluster.ReachesFar committedScript committedScript_far).AcksStored :=
  ⟨by decide +kernel, acks_stored adder 3 (Cluster.endOf_run committedScript_far)⟩

end Metamorphosis
