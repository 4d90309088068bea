import Metamorphosis.Proof.Simulation.Frames

namespace Metamorphosis
open ReplicatedLog
variable {n : Nat} {S : Service n} {P : Copies S} {strict : Prop} {c d : Cluster S} {a b : Hist S} {i : Fin n}

/-- A node that starts on a matching disk. -/
theorem NodeOk.construct {disk : Disk S} (term : a.term i = disk.currentTerm.getD 0)
    (vote : a.vote (disk.currentTerm.getD 0) i = disk.votedFor) (log : Stores P disk.raftLog (a.log i)) :
    NodeOk P c a i (construct disk) where
  term := term
  vote := vote
  log := log
  commit := Nat.zero_le _
  election _ electing := by cases electing
  leader role := by cases role

/-- A follower has no indices of its own to hold. -/
theorem Holds.follower {before after : Node S} (role : after.state = .follower)
    (commit : after.commitIndex = before.commitIndex ∨ after.commitIndex = 0) : Holds i before after where
  leads leader := by
    rw [role] at leader
    cases leader
  commit := commit

/-- A restarted node has the log and the term of before. -/
theorem Sim.restart (sim : Sim P strict c a) (i : Fin n) : Sim P strict (c.restart i (c.nodes i).disk) a :=
  sim.change (.construct (sim.nodes i).term (sim.nodes i).vote (sim.nodes i).log) (.follower rfl (Or.inr rfl))

/-- Nobody has voted in a term that lies ahead. -/
theorem vote_ahead (wf : Wf itemTerm (QuorumSystem.majority n) a) {t : Nat} (later : a.term i < t) :
    a.vote t i = none := by
  cases voted : a.vote t i with
  | none => rfl
  | some x =>
      have reached := wf.voteTerm voted
      omega

/-- A new term is calm. -/
theorem Calm.advance (wf : Wf itemTerm (QuorumSystem.majority n) a) {t : Nat} (later : a.term i < t) :
    Calm strict i a (a.advance i t) :=
  .step wf (.advance a i t later) (.advance a i t) (.advance later) (SameCounts.refl a)

/-- A node that gives up its role. -/
theorem NodeOk.yield {node : Node S} (ok : NodeOk P c a i node) : NodeOk P c a i node.yield where
  term := by rw [Node.yield_currentTerm]; exact ok.term
  vote := by rw [Node.yield_currentTerm, Node.yield_votedFor]; exact ok.vote
  log := by rw [Node.yield_raftLog]; exact ok.log
  commit := by rw [Node.yield_commitIndex]; exact ok.commit
  election election electing := (ok.election election (Node.electing_of_yield electing)).keep (.refl a)
    (fun _ member => member) (by rintro ⟨⟩)
  leader role := by cases role

/-- A node that gives up its role does nothing in the abstract history. -/
theorem Sim.yield (sim : Sim P strict c a) (i : Fin n) : Sim P strict (c.setNode i (c.nodes i).yield) a :=
  sim.change (sim.nodes i).yield (.follower rfl (Or.inl (Node.yield_commitIndex _)))

/-- A node that enters a later term. -/
theorem NodeOk.follow {node : Node S} {t : Nat} (ok : NodeOk P c a i node)
    (wf : Wf itemTerm (QuorumSystem.majority n) a) (later : a.term i < t) :
    NodeOk P c (a.advance i t) i (node.follow t) where
  term := Function.update_self ..
  vote := vote_ahead wf later
  log := by
    change Stores P node.yield.raftLog (a.log i)
    rw [Node.yield_raftLog]
    exact ok.log
  commit := by
    change node.yield.commitIndex ≤ (a.log i).length
    rw [Node.yield_commitIndex]
    exact ok.commit
  election election electing := (ok.election election (Node.electing_of_yield electing)).keep
    (wf.grows (.advance a i t later : Step _ _ True _ _)) (fun _ member => member) (by rintro ⟨⟩)
  leader role := by cases role

/-- A node that follows a later term advances in the abstract history. -/
theorem Sim.follow (sim : Sim P strict c a) {t : Nat} (later : (c.nodes i).currentTerm < t) :
    Sim P strict (c.setNode i ((c.nodes i).follow t)) (a.advance i t) := by
  rw [← (sim.nodes i).term] at later
  exact sim.move (.advance sim.wf later) (SameEntries.refl a) ((sim.nodes i).follow sim.wf later)
    (.follower rfl (Or.inl (Node.yield_commitIndex _)))

/-- A follower of a request's leader is in the request's term. -/
theorem Sim.enter (sim : Sim P strict c a) {t : Nat} (current : (c.nodes i).currentTerm ≤ t) :
    ∃ b, Calm strict i a b ∧ SameEntries a b ∧ b.term i = t ∧ b.log i = a.log i ∧
      Sim P strict (c.setNode i ((c.nodes i).enter t)) b := by
  rw [Node.enter]
  split
  · rename_i later
    refine ⟨a.advance i t, .advance sim.wf (by rw [(sim.nodes i).term]; exact later), SameEntries.refl a,
      Function.update_self .., rfl, sim.follow later⟩
  · refine ⟨a, .refl strict i a, SameEntries.refl a, ?_, rfl, sim.yield i⟩
    rw [(sim.nodes i).term]
    omega

/-- A candidacy is calm. -/
theorem Calm.stand (wf : Wf itemTerm (QuorumSystem.majority n) a) {t : Nat} (later : a.term i < t) :
    Calm strict i a (a.stand i t) :=
  .step wf (.stand a i t later) (.stand a i t) (.stand later) (SameCounts.refl a)

theorem stand_vote (a : Hist S) (i : Fin n) (t : Nat) : (a.stand i t).vote t i = some i := if_pos ⟨rfl, rfl⟩

theorem stand_stood (a : Hist S) (i : Fin n) (t : Nat) : (a.stand i t).stood t i = a.log i := if_pos ⟨rfl, rfl⟩

/-- A node stops right after it voted for itself. -/
theorem Sim.standCrash (sim : Sim P strict c a) (i : Fin n) :
    Matched P strict a (c.restart i ((c.nodes i).candidacy i).disk) := by
  have ok := sim.nodes i
  have later : a.term i < (c.nodes i).currentTerm + 1 := by
    rw [ok.term]
    omega
  refine ⟨a.stand i ((c.nodes i).currentTerm + 1), .single (.stand a i _ later), ?_⟩
  exact sim.move (.stand sim.wf later) (SameEntries.refl a)
    (.construct (Function.update_self ..) (stand_vote ..) ok.log) (.follower rfl (Or.inr rfl))

/-- A node stands for the next term with its saved log. -/
theorem Sim.stand (sim : Sim P strict c a) (i : Fin n) :
    Matched P strict a
      ((c.setNode i ((c.nodes i).candidacy i)).sendVotes ((c.nodes i).electionRequest i)) := by
  have ok := sim.nodes i
  have later : a.term i < (c.nodes i).currentTerm + 1 := by
    rw [ok.term]
    omega
  have calm : Calm strict i a (a.stand i ((c.nodes i).currentTerm + 1)) := .stand sim.wf later
  have messages := sim.messages.grow calm.grows
  have records := sim.records.grow calm.grows (SameEntries.refl a)
  refine ⟨_, calm.steps, sim.update ((c.nodes i).candidacy i) calm.steps calm.grows calm.frame rfl ?_ ?_ ?_ ?_ ?_⟩
  · intro x _
    exact ⟨fun _ member => List.mem_append_left _ member, fun _ member => member, fun _ member => Or.inl member⟩
  · refine ⟨Function.update_self .., stand_vote .., ok.log, ok.commit, ?_, by rintro ⟨⟩⟩
    rintro _ ⟨⟩
    refine ⟨rfl, stand_vote .., ⟨{i}, rfl, ?_⟩, fun _ => ⟨rfl, (stand_stood a i _).symm, ?_⟩⟩
    · intro x member
      rw [Finset.mem_singleton.mp member]
      exact ⟨by simp, stand_vote .., List.mem_append_right _ (List.mem_singleton.mpr rfl)⟩
    · intro L led
      have reached := sim.wf.term_le_of_lead led
      rintro rfl
      change (c.nodes L.node).currentTerm + 1 ≤ a.term L.node at reached
      omega
  · refine ⟨?_, ?_, messages.requests, messages.numbered, messages.handled,
      messages.replies⟩
    · intro call member
      rcases List.mem_append.mp member with old | new
      · exact messages.voteRequests call old
      · obtain ⟨j, _, rfl⟩ := List.mem_map.mp new
        refine ⟨stand_vote .., ?_, ?_⟩
        · exact ok.log.size.trans (congrArg List.length (stand_stood ..)).symm
        · exact ok.log.lastTerm.trans (congrArg (lastTerm itemTerm) (stand_stood ..)).symm
    · intro reply member granted
      obtain ⟨voted, recorded⟩ := messages.voteReplies reply member granted
      exact ⟨voted, List.mem_append_left _ recorded⟩
  · refine ⟨?_, records.distinct, records.led, records.created, records.createdAt⟩
    intro record member
    obtain ⟨L, led, node, log, voters, large, all⟩ := records.elected record member
    exact ⟨L, led, node, log, voters, large, fun x voter => List.mem_append_left _ (all x voter)⟩
  · intro isStrict
    have ordered := (sim.ordered isStrict).hold sim isStrict ((c.nodes i).candidacy i) calm
      ⟨by rintro ⟨⟩, Or.inl rfl⟩
    exact ordered.same rfl rfl rfl rfl rfl

/-- A voter that grants its vote finds the candidate's log up to date. -/
theorem Stores.upToDate {node : Node S} {items candidate : List (Item S)} (stores : Stores P node.raftLog items)
    {request : RequestVoteRequest n} (index : request.lastLogIndex = candidate.length)
    (term : request.lastLogTerm = ReplicatedLog.lastTerm itemTerm candidate) (grants : node.grantsVote request = true) :
    UpToDate itemTerm candidate items := by
  rw [Node.grantsVote, stores.lastTerm, stores.size, index, term] at grants
  rw [UpToDate]
  split at grants
  · cases grants
  · split at grants
    · rename_i same
      exact Or.inr ⟨same, of_decide_eq_true grants⟩
    · omega

/-- A node changes nothing but its vote. -/
theorem NodeOk.voteFor {node : Node S} {x : Fin n} (ok : NodeOk P c a i node) (grows : Grows a b)
    (vote : b.vote node.currentTerm i = some x) (term : b.term i = a.term i) (log : b.log i = a.log i)
    (lead : b.lead = a.lead) : NodeOk P c b i (node.vote x) where
  term := term.trans ok.term
  vote := vote
  log := by rw [log]; exact ok.log
  commit := by rw [log]; exact ok.commit
  election election electing := (ok.election election electing).keep grows (fun _ member => member)
    fun role => ⟨role, rfl, log, fun T L _ led => by rw [← lead]; exact led⟩
  leader role := by
    obtain ⟨L, leader⟩ := ok.leader role
    exact ⟨L, leader.keep (by rw [lead]; exact leader.led) log (.same rfl rfl) rfl rfl rfl rfl rfl rfl⟩

/-- A granted vote is a vote of the abstract history. -/
theorem Sim.grant (sim : Sim P strict c a) {call : VoteCall n} (sent : call ∈ c.voteRequests)
    (current : (c.nodes call.callee).currentTerm = call.request.term)
    (unvoted : (c.nodes call.callee).votedFor = none)
    (grants : (c.nodes call.callee).grantsVote call.request = true) :
    Matched P strict a
      (c.setNode call.callee ((c.nodes call.callee).vote call.request.candidateId)) := by
  have ok := sim.nodes call.callee
  obtain ⟨standing, index, term⟩ := sim.messages.voteRequests call sent
  have now : a.term call.callee = call.request.term := ok.term.trans current
  have fresh : a.vote (a.term call.callee) call.callee = none := by
    rw [ok.term, ok.vote, unvoted]
  have taken : Step itemTerm (QuorumSystem.majority n) strict a
      (a.recordVote (a.term call.callee) call.callee call.request.candidateId) :=
    .grant a _ _ fresh (by rw [now]; exact standing) (by rw [now]; exact ok.log.upToDate index term grants)
  have calm : Calm strict call.callee a _ :=
    .step sim.wf taken (.recordVote a _ _ _) (.recordVote ..) (SameCounts.refl a)
  refine ⟨_, calm.steps, sim.move calm (SameEntries.refl a) (ok.voteFor calm.grows ?_ rfl rfl rfl)
    ⟨fun role => ⟨role, rfl, fun _ _ => ⟨rfl, rfl⟩⟩, Or.inl rfl⟩⟩
  rw [← ok.term]
  exact if_pos ⟨rfl, rfl⟩

/-- More replies and more recorded votes. -/
theorem Sim.replyVote (sim : Sim P strict c a) {call : VoteCall n} {result : RequestVoteResult}
    (granted : result.voteGranted = true → (c.nodes call.callee).currentTerm = call.request.term ∧
      (c.nodes call.callee).votedFor = some call.request.candidateId) :
    Sim P strict (c.replyVote call result) a := by
  have grown : ∀ vote ∈ c.granted, vote ∈ (c.replyVote call result).granted := by
    intro vote member
    simp only [Cluster.replyVote]
    split
    · exact List.mem_append_left _ member
    · exact member
  refine ⟨sim.wf, sim.safe, ?_, ?_, ?_, ?_⟩
  · intro x
    exact (sim.nodes x).silent ⟨grown, fun _ member => member, fun _ member => Or.inl member⟩
  · have messages := sim.messages
    refine ⟨messages.voteRequests, ?_, messages.requests, messages.numbered, messages.handled,
      messages.replies⟩
    intro reply member accepted
    rcases List.mem_append.mp member with old | new
    · obtain ⟨voted, recorded⟩ := messages.voteReplies reply old accepted
      exact ⟨voted, grown _ recorded⟩
    · rw [List.mem_singleton.mp new] at accepted ⊢
      obtain ⟨current, vote⟩ := granted accepted
      have ok := sim.nodes call.callee
      refine ⟨by rw [← current, ok.vote, vote], ?_⟩
      simp only [Cluster.replyVote, if_pos accepted]
      exact List.mem_append_right _ (List.mem_singleton.mpr rfl)
  · have records := sim.records
    refine ⟨?_, records.distinct, records.led, records.created, records.createdAt⟩
    intro record member
    obtain ⟨L, led, node, log, voters, large, all⟩ := records.elected record member
    exact ⟨L, led, node, log, voters, large, fun x voter => grown _ (all x voter)⟩
  · intro isStrict
    have ordered := sim.ordered isStrict
    exact ordered.same rfl rfl rfl rfl rfl

/-- Another state of the running election. -/
theorem NodeOk.electing {node : Node S} {before after : Election n} (ok : NodeOk P c a i node)
    (place : node.mainFiber = .startCandidate before) (running : ElectionOk c a i node after) :
    NodeOk P c a i (node.electing after) where
  term := ok.term
  vote := ok.vote
  log := ok.log
  commit := ok.commit
  election := by
    rintro _ ⟨⟩
    exact ⟨running.candidate, running.voted, running.votes, running.standing⟩
  leader role := by
    obtain ⟨L, leader⟩ := ok.leader role
    exact ⟨L, leader.led, leader.self, leader.start, leader.next, leader.pending, leader.matched, leader.counted,
      by rintro ⟨⟩, fun _ _ => leader.unsent before place, by rintro _ ⟨⟩⟩

/-- A change that touches neither the role nor the indices. -/
theorem Holds.same {before after : Node S} (state : after.state = before.state)
    (term : after.currentTerm = before.currentTerm) (next : after.nextIndex = before.nextIndex)
    (matched : after.matchIndex = before.matchIndex) (commit : after.commitIndex = before.commitIndex) :
    Holds i before after where
  leads role := ⟨state ▸ role, term, fun _ _ => by rw [next, matched]; exact ⟨rfl, rfl⟩⟩
  commit := Or.inl commit

/-- A lost or refused vote changes no history. -/
theorem Sim.voteLost (sim : Sim P strict c a) {election : Election n} (j : Fin n)
    (place : (c.nodes i).mainFiber = .startCandidate election) :
    Sim P strict (c.setNode i ((c.nodes i).electing (election.left j))) a := by
  have running := (sim.nodes i).election election place
  refine sim.change ((sim.nodes i).electing place ⟨running.candidate, running.voted, ?_, running.standing⟩)
    (.same rfl rfl rfl rfl rfl)
  obtain ⟨voters, count, all⟩ := running.votes
  refine ⟨voters, count, fun x member => ⟨?_, (all x member).2⟩⟩
  by_cases same : x = j
  · rw [same]
    exact Function.update_self ..
  · exact (Function.update_of_ne same ..).trans (all x member).1

/-- A counted vote comes from a voter that was not counted before. -/
theorem Sim.voteCounted (sim : Sim P strict c a) {election : Election n} {call : VoteCall n} {term : Nat}
    (place : (c.nodes i).mainFiber = .startCandidate election) (waiting : election.waiting call.callee = true)
    (asked : call.request = election.request) (replied : (call, ⟨term, true⟩) ∈ c.voteReplies) :
    Sim P strict (c.setNode i ((c.nodes i).electing (election.counted call.callee))) a := by
  have running := (sim.nodes i).election election place
  refine sim.change ((sim.nodes i).electing place ⟨running.candidate, running.voted, ?_, running.standing⟩)
    (.same rfl rfl rfl rfl rfl)
  obtain ⟨voters, count, all⟩ := running.votes
  obtain ⟨voted, recorded⟩ := sim.messages.voteReplies _ replied rfl
  simp only [asked, running.candidate] at voted recorded
  have fresh : call.callee ∉ voters := by
    intro member
    rw [(all _ member).1] at waiting
    cases waiting
  refine ⟨insert call.callee voters, by rw [Finset.card_insert_of_notMem fresh, count]; rfl, fun x member => ?_⟩
  rcases Finset.mem_insert.mp member with rfl | old
  · exact ⟨Function.update_self .., voted, recorded⟩
  · have different : x ≠ call.callee := by
      rintro rfl
      exact fresh old
    exact ⟨(Function.update_of_ne different ..).trans (all x old).1, (all x old).2⟩

/-- A candidate with the votes of a majority leads a term that has no leader yet. -/
theorem Sim.elect_taken (sim : Sim P strict c a) {election : Election n}
    (place : (c.nodes i).mainFiber = .startCandidate election) (role : (c.nodes i).state = .candidate)
    (deciding : election.votesCount = majorityCount n) :
    a.lead (a.term i) = none ∧ Step itemTerm (QuorumSystem.majority n) strict a (a.elect i) := by
  have ok := sim.nodes i
  have running := ok.election election place
  obtain ⟨term, log, others⟩ := running.standing role
  rw [← ok.term] at term
  have quorum : (QuorumSystem.majority n).IsQuorum {j | a.vote (a.term i) j = some i} := by
    obtain ⟨voters, count, all⟩ := running.votes
    refine ⟨voters, fun x member => ?_, by rw [count, deciding]; exact Nat.le_refl _⟩
    rw [← term]
    exact (all x member).2.1
  have unled : a.lead (a.term i) = none := by
    cases led : a.lead (a.term i) with
    | none => rfl
    | some L => exact absurd (sim.wf.leader_unique quorum led) (others L (by rw [term]; exact led))
  exact ⟨unled, .elect a i quorum (term ▸ running.voted) unled (term ▸ log)⟩

theorem elect_lead (a : Hist S) (i : Fin n) : (a.elect i).lead (a.term i) = some (a.leadership i) :=
  Function.update_self ..

/-- A node that has just become leader knows nothing about its followers, so it starts at its own log. -/
theorem LeaderKnows.elect {node : Node S} (ok : NodeOk P c a i node) : LeaderKnows (a.elect i) i node.lead := by
  intro L _ led j other
  have now : (a.elect i).lead node.currentTerm = some (a.leadership i) := by
    rw [← ok.term]
    exact elect_lead a i
  cases now.symm.trans led
  have atStart : node.getSavedLogSize + 1 - 1 = (a.leadership i).start := by
    rw [ok.log.size]
    rfl
  refine ⟨Nat.zero_le _, ⟨fun _ => atStart, fun _ => ⟨?_, fun m inside _ => ?_⟩⟩⟩
  · exact (Nat.le_of_eq (if_neg other)).trans (Nat.zero_le _)
  · exact inside.trans_eq atStart.symm

/-- A new leader starts with its own log as the log of the term. -/
theorem NodeOk.elect {node : Node S} {election : Election n} (ok : NodeOk P c a i node)
    (messages : MessagesOk P c a) (grows : Grows a (a.elect i)) (unled : a.lead (a.term i) = none)
    (place : node.mainFiber = .startCandidate election) : NodeOk P c (a.elect i) i node.lead where
  term := ok.term
  vote := ok.vote
  log := ok.log
  commit := ok.commit
  election other electing := (ok.election other electing).keep grows (fun _ member => member) (by rintro ⟨⟩)
  leader _ := ⟨a.leadership i, {
    led := by
      change (a.elect i).lead node.currentTerm = _
      rw [← ok.term]
      exact elect_lead a i
    self := rfl
    start := congrArg (· + 1) ok.log.size
    next := congrArg (· + 1) ok.log.size
    pending := by
      change Mirrors P [] ((a.log i).drop (a.log i).length)
      rw [List.drop_length]
      exact List.Forall₂.nil
    matched := Nat.zero_le _
    counted := Nat.le_of_eq (if_pos rfl).symm
    place := by
      change node.mainFiber ≠ _
      rw [place]
      rintro ⟨⟩
    unsent := by
      intro _ _ call member same
      obtain ⟨L, led, _⟩ := messages.requests call member
      have same : call.request.term = node.currentTerm := same
      rw [same, ← ok.term, unled] at led
      cases led
    fibers := fun fibers leading => by cases place.symm.trans leading }⟩

/-- The record of an election: a new leadership without entries of its own. -/
theorem RecordsOk.elect {node : Node S} {election : Election n} (records : RecordsOk P c a) (ok : NodeOk P c a i node)
    (unled : a.lead (a.term i) = none) (running : ElectionOk c a i node election)
    (role : node.state = .candidate) (deciding : election.votesCount = majorityCount n) :
    RecordsOk P ((c.setNode i node.lead).noteLeader i) (a.elect i) := by
  have kept {T : Nat} {L : Leadership (Fin n) (Item S)} (led : a.lead T = some L) :
      T ≠ a.term i ∧ (a.elect i).lead T = some L := by
    have different : T ≠ a.term i := by
      rintro rfl
      rw [unled] at led
      cases led
    exact ⟨different, (Function.update_of_ne different ..).trans led⟩
  have new : ((c.setNode i node.lead).noteLeader i).elected =
      c.elected ++ [⟨i, a.term i, node.raftLog.entries.map Prod.snd⟩] := by
    rw [Cluster.noteLeader, Cluster.setNode_self, ok.term]
    rfl
  refine ⟨?_, ?_, ?_, ?_, ?_⟩
  · intro record member
    rw [new] at member
    rcases List.mem_append.mp member with old | new
    · obtain ⟨L, led, rest⟩ := records.elected record old
      exact ⟨L, (kept led).2, rest⟩
    · rw [List.mem_singleton.mp new]
      refine ⟨a.leadership i, elect_lead a i, rfl, ?_, ?_⟩
      · obtain ⟨copies, same, mirrors⟩ := ok.log
        rw [same, OrderedMap.ofList_values]
        exact (List.take_length (l := a.log i)).symm ▸ mirrors
      · obtain ⟨voters, count, all⟩ := running.votes
        obtain ⟨term, _⟩ := running.standing role
        refine ⟨voters, by rw [count, deciding], fun x member => ?_⟩
        rw [ok.term, ← term]
        exact (all x member).2.2
  · rw [new]
    refine List.pairwise_append.mpr ⟨records.distinct, List.pairwise_singleton _ _, ?_⟩
    intro record member other last
    obtain ⟨L, led, _⟩ := records.elected record member
    rw [List.mem_singleton.mp last]
    exact (kept led).1
  · intro T L led
    rw [new]
    rcases setLead_cases led with ⟨rfl, _⟩ | ⟨_, old⟩
    · exact ⟨_, List.mem_append_right _ (List.mem_singleton.mpr rfl), rfl⟩
    · obtain ⟨record, member, term⟩ := records.led T L old
      exact ⟨record, List.mem_append_left _ member, term⟩
  · intro T L led
    rcases setLead_cases led with ⟨rfl, rfl⟩ | ⟨_, old⟩
    · have none_ : (c.created.filter fun record => record.term = a.term i) = [] := by
        apply List.filter_eq_nil_iff.mpr
        intro record member same
        obtain ⟨L, led, _⟩ := records.createdAt record member
        exact (kept led).1 (of_decide_eq_true same)
      change (a.log i).drop (a.log i).length = (c.created.filter fun record => record.term = a.term i).map _
      rw [none_, List.drop_length]
      rfl
    · exact records.created T L old
  · intro record member
    obtain ⟨L, led, rest⟩ := records.createdAt record member
    exact ⟨L, (kept led).2, rest⟩

/-- A candidate with a majority of votes is elected in the abstract history. -/
theorem Sim.elect (sim : Sim P strict c a) {election : Election n}
    (place : (c.nodes i).mainFiber = .startCandidate election) (role : (c.nodes i).state = .candidate)
    (deciding : election.votesCount = majorityCount n) :
    Matched P strict a ((c.setNode i (c.nodes i).lead).noteLeader i) := by
  have ok := sim.nodes i
  obtain ⟨unled, taken⟩ := sim.elect_taken place role deciding
  have grows := sim.wf.grows taken
  have messages := sim.messages.grow grows
  refine ⟨_, .single taken, sim.update (c.nodes i).lead (.single taken) grows (Frame.elect i unled) rfl
    (fun _ _ => .same rfl rfl) ((ok.elect sim.messages grows unled place).silent (.same rfl rfl))
    ⟨messages.voteRequests, messages.voteReplies, messages.requests, messages.numbered, messages.handled,
      messages.replies⟩
    (sim.records.elect ok unled (ok.election election place) role deciding) fun isStrict => ?_⟩
  have ordered : OrderedOk (c.setNode i (c.nodes i).lead) (a.elect i) := by
    refine (sim.ordered isStrict).move sim isStrict (c.nodes i).lead (.single taken) grows (.elect a i) ?_
      (.elect ok) (((sim.ordered isStrict).certified i).move grows List.prefix_rfl ok.commit fun _ member => member)
    intro T L M led ledM j _ _
    rcases setLead_cases ledM with ⟨rfl, _⟩ | ⟨_, old⟩
    · rw [unled] at led
      cases led
    · cases led.symm.trans old
      rfl
  exact ordered.same rfl rfl rfl rfl rfl

end Metamorphosis
