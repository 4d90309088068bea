import Metamorphosis.Proof.Queue.Counters
import Metamorphosis.Proof.Queue.FullCopies

/-!
A follower that gets an entry again after it has committed it compares the two copies. They agree as
long as the requests of every session are handled in order.
-/

namespace Metamorphosis
open ReplicatedLog

section Repeats
variable {n : Nat} {S : Service n}

/-- The calls of one session are handled at most once, in any order. -/
def Cluster.AtMostOnce (c : Cluster S) : Action S → Prop
  | .handleAppend place => ∀ call ∈ c.appendRequests[place]?, ∀ earlier ∈ c.handled,
      earlier.SameSession call → earlier.seq ≠ call.seq
  | _ => True

instance (c : Cluster S) : ∀ action, Decidable (c.AtMostOnce action)
  | .handleAppend place => inferInstanceAs (Decidable (∀ call ∈ c.appendRequests[place]?,
      ∀ earlier ∈ c.handled, earlier.SameSession call → earlier.seq ≠ call.seq))
  | .electionTimeout _ | .handleVote _ | .voteAnswered .. | .electionEnd _ | .sessionSend .. | .sessionEnd ..
  | .appendAnswered .. | .mainRound _ | .leaderEnd _ | .execute .. | .resume .. | .crash _ => isTrue trivial

/-- The follower gets to the `VERIFY` of the entries that it has committed. -/
structure Cluster.Verifies (c : Cluster S) (call : AppendCall S) : Prop where
  current : (c.nodes call.callee).currentTerm ≤ call.request.term
  matched : ((c.nodes call.callee).enter call.request.term).PrevMatches call.request

/-- The `VERIFY` "committed log is inconsistent" holds for every request that may be handled next. -/
def Cluster.RepeatsAgree (allowed : Cluster S → Action S → Prop) (c : Cluster S) : Prop :=
  ∀ place call, c.appendRequests[place]? = some call → allowed c (.handleAppend place) → c.Verifies call →
    ((c.nodes call.callee).enter call.request.term).OverlapConsistent call.request

end Repeats

variable {md5 : Bytes → Bytes} {n : Nat} {c d : MetamorphosisCluster md5 n}
  {a b : Hist (metamorphosisService md5 n)} {i j : Fin n}
  {allowed : MetamorphosisCluster md5 n → Action (metamorphosisService md5 n) → Prop}

/-- What a follower of the term has committed after `prev` is committed by the leader as well, and the
follower stores hashes of it only. -/
def Shortened (c : MetamorphosisCluster md5 n) (T : Nat) (j : Fin n) (prev leaderCommit : Nat) : Prop :=
  (c.nodes j).currentTerm = T → ∀ index, prev < index → index ≤ (c.nodes j).commitIndex →
    index ≤ leaderCommit ∧ ∀ entry, (c.nodes j).raftLog.get? index = some entry → entry.data = []

/-- A later start and a later commit index of the leader. -/
theorem Shortened.mono {T prev later leaderCommit bound : Nat} (short : Shortened c T j prev leaderCommit)
    (starts : prev ≤ later) (committed : leaderCommit ≤ bound) : Shortened c T j later bound := by
  intro current index after inside
  obtain ⟨known, hashes⟩ := short current index (by omega) inside
  exact ⟨by omega, hashes⟩

/-- A request carries hashes of what its leader has committed. -/
def Cluster.Hashed (c : MetamorphosisCluster md5 n) : Prop :=
  ∀ call ∈ c.appendRequests, ∀ k entry, call.request.prevLogIndex + k + 1 ≤ call.request.leaderCommit →
    call.request.entries[k]? = some entry → entry.data = []

/-- A leader sends committed entries without their data in every step. -/
theorem Cluster.Hashed.step (hashed : c.Hashed) (taken : Cluster.Atomic allowed c d) : d.Hashed := by
  rcases taken.send_cases with same | ⟨i, j, fibers, prevLogTerm, entries, _, _, _, positive, collected, rfl⟩
  · exact fun call sent => hashed call (same ▸ sent)
  · intro call sent k entry committed found
    rcases List.mem_append.mp sent with old | new
    · exact hashed call old k entry committed found
    · cases List.mem_singleton.mp new
      obtain ⟨original, _, rfl⟩ := Node.collectEntries_getElem? collected found
      have inside : (c.nodes i).nextIndex j + k ≤ (c.nodes i).commitIndex := by
        change (c.nodes i).nextIndex j - 1 + k + 1 ≤ (c.nodes i).commitIndex at committed
        omega
      change (MessageEntry.encode _ _ original).data = []
      rw [MessageEntry.encode, if_pos inside]

/-- A follower keeps hashes when it accepts a request that starts at the same place. -/
theorem Shortened.accept (sim : Sim (metamorphosisCopies md5 n) True c a) (hashed : c.Hashed)
    {call : AppendCall (metamorphosisService md5 n)} (sent : call ∈ c.appendRequests) (accepts : c.Accepts call)
    {result : Producers n × List (Call (metamorphosisService md5 n))} {T prev leaderCommit : Nat}
    (now : d.nodes call.callee =
      (c.rewritten call).committedTo ((c.rewritten call).followedCommit call.request) result)
    (old : ∀ index, prev < index → index ≤ (c.nodes call.callee).commitIndex → index ≤ leaderCommit ∧
      ∀ entry, (c.nodes call.callee).raftLog.get? index = some entry → entry.data = [])
    (starts : call.request.prevLogIndex = prev) (committed : call.request.leaderCommit ≤ leaderCommit) :
    Shortened d T call.callee prev leaderCommit := by
  subst starts
  intro _ index after inside
  obtain ⟨log, within⟩ := sim.entered_log accepts
  have commitIndex : (c.rewritten call).commitIndex = (c.nodes call.callee).commitIndex := Node.enter_commitIndex ..
  have bound : index ≤ max (c.rewritten call).commitIndex
      (min call.request.leaderCommit (c.rewritten call).getSavedLogSize) := by
    rw [now] at inside
    exact inside
  rw [commitIndex] at bound
  rw [now]
  change index ≤ leaderCommit ∧ ∀ entry, (c.rewritten call).raftLog.get? index = some entry → entry.data = []
  rw [Cluster.rewritten, Node.rewritten_get? log within (by omega), Node.keptIndex, Node.enter_commitIndex,
    Node.enter_raftLog]
  by_cases kept : index ≤ (c.nodes call.callee).commitIndex
  · obtain ⟨known, hashes⟩ := old index after kept
    rw [if_pos (kept.trans (Nat.le_max_right ..))]
    exact ⟨known, hashes⟩
  · rw [if_neg (by omega)]
    refine ⟨by omega, fun entry found => hashed call sent _ entry ?_ found⟩
    omega

/-- No change of the cluster makes a follower store more than hashes. A handled request has to start
where the next ones start. -/
theorem Shortened.step (sim : Sim (metamorphosisCopies md5 n) True c a)
    (inOrder : ∀ c action, allowed c action → Cluster.InOrder c action) (hashed : c.Hashed)
    (taken : Cluster.Atomic allowed c d) {T prev leaderCommit : Nat}
    {L : Leadership (Fin n) (Item (metamorphosisService md5 n))} (led : a.lead T = some L) (other : j ≠ L.node)
    (previous : PrevOk a L T j prev) (short : Shortened c T j prev leaderCommit)
    (last : ∀ call ∈ c.appendRequests, Deliverable c call → call ∈ d.handled → call.callee = j →
      call.request.term = T → call.request.prevLogIndex = prev ∧ call.request.leaderCommit ≤ leaderCommit) :
    Shortened d T j prev leaderCommit := by
  -- A follower that was behind has committed nothing after the leader's start.
  have old (reached : (c.nodes j).currentTerm ≤ T) (index : Nat) (after : prev < index)
      (inside : index ≤ (c.nodes j).commitIndex) : index ≤ leaderCommit ∧
        ∀ entry, (c.nodes j).raftLog.get? index = some entry → entry.data = [] := by
    rcases Nat.lt_or_eq_of_le reached with behind | same
    · have start := sim.commit_start led behind
      have begins := previous.behind (by rw [(sim.nodes j).term]; exact behind)
      omega
    · exact short same index after inside
  cases taken.commit_turn j with
  | construct disk now =>
      intro _ index after inside
      rw [now] at inside
      exact absurd inside (Nat.not_le.mpr (Nat.zero_lt_of_lt after))
  | keep commitIndex log term =>
      intro current
      rw [commitIndex, log]
      exact old (current ▸ term)
  | lead leads _ term _ =>
      intro current
      obtain ⟨K, leader⟩ := (sim.nodes j).leader leads
      have own := leader.led
      rw [← term, current] at own
      cases led.symm.trans own
      exact absurd leader.self.symm other
  | follow call place result sent permitted accepts handled callee now =>
      subst callee
      intro current
      have term : call.request.term = T := by
        rw [← current, now, ← Node.enter_currentTerm accepts.current]
        rfl
      obtain ⟨starts, committed⟩ := last call (List.mem_of_getElem? sent)
        (fun earlier => inOrder c _ permitted call sent earlier) handled rfl term
      exact accept sim hashed (List.mem_of_getElem? sent) accepts now (old (term ▸ accepts.current)) starts committed
        current

/-- The sessions of the leaders, as far as their requests can still be handled. -/
structure SessionsOk (c : MetamorphosisCluster md5 n) : Prop where
  hashed : c.Hashed
  leaders : ∀ i, (c.nodes i).state = .leader → ∀ j, j ≠ i →
    Shortened c (c.nodes i).currentTerm j ((c.nodes i).nextIndex j - 1) (c.nodes i).commitIndex
  requests : ∀ call ∈ c.appendRequests, Deliverable c call →
    Shortened c call.request.term call.callee call.request.prevLogIndex call.request.leaderCommit
  waiting : ∀ i, (c.nodes i).state = .leader → ∀ call ∈ c.appendRequests, Deliverable c call →
    call.request.term = (c.nodes i).currentTerm →
      call.request.prevLogIndex + 1 = (c.nodes i).nextIndex call.callee ∧
        call.request.leaderCommit ≤ (c.nodes i).commitIndex
  ordered : ∀ first ∈ c.appendRequests, Deliverable c first → ∀ second ∈ c.appendRequests,
    first.SameSession second → first.seq ≤ second.seq →
      first.request.prevLogIndex = second.request.prevLogIndex ∧
        first.request.leaderCommit ≤ second.request.leaderCommit

/-- No request was sent yet. -/
theorem SessionsOk.initial : SessionsOk (Cluster.initial (metamorphosisService md5 n)) where
  hashed _ sent := absurd sent List.not_mem_nil
  leaders _ role := nomatch role
  requests _ sent := absurd sent List.not_mem_nil
  waiting _ role := nomatch role
  ordered _ sent := absurd sent List.not_mem_nil

/-- A leader that was just elected asks for nothing that a follower has committed. -/
theorem Sim.elected_beyond {P : Copies (metamorphosisService md5 n)} (simD : Sim P True d b)
    {node : Node (metamorphosisService md5 n)}
    (now : d.nodes i = node.lead) (current : (d.nodes j).currentTerm = (d.nodes i).currentTerm) :
    (d.nodes j).commitIndex ≤ (d.nodes i).nextIndex j - 1 := by
  obtain ⟨L, leader⟩ := (simD.nodes i).leader (by rw [now]; rfl)
  have start := leader.start
  have next := leader.next
  have same : (d.nodes i).nextIndex j = (d.nodes i).nextIndex i := by
    rw [now]
    rfl
  have first : (d.nodes i).currentTermStartIndex = (d.nodes i).nextIndex i := by
    rw [now]
    rfl
  rcases (simD.ordered trivial).certified j with zero | ⟨U, m, K, committed, reached, inside, ledK, _⟩
  · omega
  · have chosen := (simD.ordered trivial).commits U m committed
    rw [(simD.nodes j).term, current] at reached
    rcases Nat.lt_or_eq_of_le reached with earlier | own
    · have bound := (chosen.in_later (simD.safe trivial) ledK leader.led earlier).1
      omega
    · -- The new leader has no entry of its own term yet.
      subst own
      obtain ⟨M, ledM, after, within, _⟩ := chosen
      cases ledM.symm.trans leader.led
      omega

/-- What a follower has committed behind its next index is stored short, for a leader that led before the step. -/
theorem SessionsOk.leaders_keep (ok : SessionsOk c) (sim : Sim (metamorphosisCopies md5 n) True c a)
    (inOrder : ∀ c action, allowed c action → Cluster.InOrder c action) (taken : Cluster.Atomic allowed c d)
    (led : (c.nodes i).state = .leader) (other : j ≠ i) :
    Shortened d (c.nodes i).currentTerm j ((c.nodes i).nextIndex j - 1) (c.nodes i).commitIndex := by
  obtain ⟨L, leader⟩ := (sim.nodes i).leader led
  have previous := ((sim.ordered trivial).leaders i L led leader.led j other).2
  refine (ok.leaders i led j other).step sim inOrder ok.hashed taken leader.led (leader.self ▸ other) previous ?_
  intro call sent deliverable _ callee term
  obtain ⟨next, committed⟩ := ok.waiting i led call sent deliverable term
  rw [callee] at next
  exact ⟨by omega, committed⟩

/-- A refused request lies after everything that the follower has committed. -/
theorem SessionsOk.refused (ok : SessionsOk c) (sim : Sim (metamorphosisCopies md5 n) True c a)
    {call : AppendCall (metamorphosisService md5 n)} {request : AppendEntriesRequest n MessageEntry}
    {response : AppendEntriesResult} (answer : Answer c a i call request) (role : (c.nodes i).state = .leader)
    (replied : (call, response) ∈ c.appendReplies) (notLater : response.term ≤ (c.nodes i).currentTerm)
    (failure : response.success = false) :
    Shortened c (c.nodes i).currentTerm call.callee ((c.nodes i).nextIndex call.callee - 1 - 1)
      (c.nodes i).commitIndex := by
  obtain rfl := answer.asked
  obtain ⟨L, leader⟩ := (sim.nodes i).leader role
  have next := answer.next
  have led : a.lead call.request.term = some L := answer.term ▸ leader.led
  intro current index after inside
  rcases Nat.lt_or_ge ((c.nodes i).nextIndex call.callee - 1) index with beyond | refused
  · exact ok.leaders i role call.callee answer.other current index beyond inside
  · have differs := ((sim.ordered trivial).replies _ replied (answer.latest sim.messages) L led).failure failure
      (answer.term ▸ notLater) (by rw [(sim.nodes _).term, current, answer.term])
    have shared := sim.commit_shared led (j := call.callee) (by rw [current, answer.term])
    have inPrefix : call.request.prevLogIndex ≤ (c.nodes call.callee).commitIndex := by omega
    exact absurd (take_of_take inPrefix shared) differs

/-- The same for every leader after the step. -/
theorem SessionsOk.leaders_step (ok : SessionsOk c) (sim : Sim (metamorphosisCopies md5 n) True c a)
    (simD : Sim (metamorphosisCopies md5 n) True d b)
    (inOrder : ∀ c action, allowed c action → Cluster.InOrder c action) (taken : Cluster.Atomic allowed c d)
    (role : (d.nodes i).state = .leader) (other : j ≠ i) :
    Shortened d (d.nodes i).currentTerm j ((d.nodes i).nextIndex j - 1) (d.nodes i).commitIndex := by
  have unchanged (same : d.nodes i = c.nodes i) :
      Shortened d (d.nodes i).currentTerm j ((d.nodes i).nextIndex j - 1) (d.nodes i).commitIndex := by
    rw [same] at role ⊢
    exact ok.leaders_keep sim inOrder taken role other
  rcases taken.next_cases with keeps | ⟨x, election, _, _, nodes⟩ |
    ⟨x, fibers, call, request, response, node, leading, session, leads, replied, own, asked, notLater, rfl, changed⟩
  · obtain ⟨led, term, committed, next⟩ := keeps i role
    rw [term, (next j other).1]
    exact (ok.leaders_keep sim inOrder taken led other).mono (Nat.le_refl _) committed
  · by_cases self : i = x
    · subst self
      intro current index after inside
      have beyond := simD.elected_beyond (by rw [nodes, Cluster.setNode_self]) current
      omega
    · exact unchanged (by rw [nodes, Cluster.setNode_other c _ self])
  · by_cases self : i = x
    · subst self
      have answer := sim.answer_known leading session leads replied own asked
      rw [Cluster.setNode_self]
      rcases changed with ⟨_, _, rfl⟩ | ⟨failure, _, rfl⟩
      · refine (ok.leaders_keep sim inOrder taken leads other).mono ?_ (Nat.le_refl _)
        by_cases here : j = call.callee
        · subst here
          simp only [Node.acknowledged, Function.update_self]
          change (c.nodes i).nextIndex call.callee - 1 ≤ (c.nodes i).nextIndex call.callee + _ - 1
          omega
        · simp only [Node.acknowledged, Function.update_of_ne here]
          exact Nat.le_refl _
      · by_cases here : j = call.callee
        · subst here
          intro current
          rw [Cluster.setNode_other c _ other] at current ⊢
          simp only [Node.stepBack, Function.update_self]
          exact ok.refused sim answer leads replied notLater failure current
        · simp only [Node.stepBack, Function.update_of_ne here]
          exact ok.leaders_keep sim inOrder taken leads other
    · exact unchanged (Cluster.setNode_other c _ self)

/-- A request that was sent before the step and can still be handled starts at the next index of its leader. -/
theorem SessionsOk.waiting_old (ok : SessionsOk c) (sim : Sim (metamorphosisCopies md5 n) True c a)
    (simD : Sim (metamorphosisCopies md5 n) True d b) (taken : Cluster.Atomic allowed c d)
    (role : (d.nodes i).state = .leader) {call : AppendCall (metamorphosisService md5 n)} (sent : call ∈ c.appendRequests)
    (deliverable : Deliverable c call) (term : call.request.term = (d.nodes i).currentTerm) :
    call.request.prevLogIndex + 1 = (d.nodes i).nextIndex call.callee ∧
      call.request.leaderCommit ≤ (d.nodes i).commitIndex := by
  have unchanged (same : d.nodes i = c.nodes i) : call.request.prevLogIndex + 1 = (d.nodes i).nextIndex call.callee ∧
      call.request.leaderCommit ≤ (d.nodes i).commitIndex := by
    rw [same] at role term ⊢
    exact ok.waiting i role call sent deliverable term
  rcases taken.next_cases with keeps | ⟨x, election, electing, requests, nodes⟩ |
    ⟨x, fibers, answered, request, response, node, leading, session, leads, replied, own, asked, _, rfl, changed⟩
  · obtain ⟨led, same, committed, next⟩ := keeps i role
    rw [same] at term
    obtain ⟨starts, bound⟩ := ok.waiting i led call sent deliverable term
    rw [(next _ (sim.sender led sent term).2).1]
    exact ⟨starts, bound.trans committed⟩
  · by_cases self : i = x
    · subst self
      obtain ⟨L, leader⟩ := (simD.nodes i).leader role
      refine absurd term (leader.unsent election ?_ call (requests ▸ sent))
      rw [nodes, Cluster.setNode_self]
      exact electing
    · exact unchanged (by rw [nodes, Cluster.setNode_other c _ self])
  · by_cases self : i = x
    · subst self
      rw [Cluster.setNode_self] at term ⊢
      have answer := sim.answer_known leading session leads replied own asked
      have same : call.request.term = (c.nodes i).currentTerm := by
        rcases changed with ⟨_, _, rfl⟩ | ⟨_, _, rfl⟩
        · exact term
        · exact term
      have different : call.callee ≠ answered.callee := by
        intro callee
        refine answer.undeliverable sent ⟨callee, ?_, ?_⟩ deliverable
        · rw [(sim.sender leads sent same).1, own]
        · rw [same, asked, answer.term]
      have old := ok.waiting i leads call sent deliverable same
      rcases changed with ⟨_, _, rfl⟩ | ⟨_, _, rfl⟩
      · simp only [Node.acknowledged, Function.update_of_ne different]
        exact old
      · simp only [Node.stepBack, Function.update_of_ne different]
        exact old
    · exact unchanged (Cluster.setNode_other c _ self)

/-- The same for every request after the step. -/
theorem SessionsOk.waiting_step (ok : SessionsOk c) (sim : Sim (metamorphosisCopies md5 n) True c a)
    (simD : Sim (metamorphosisCopies md5 n) True d b) (taken : Cluster.Atomic allowed c d)
    (role : (d.nodes i).state = .leader) {call : AppendCall (metamorphosisService md5 n)} (sent : call ∈ d.appendRequests)
    (deliverable : Deliverable d call) (term : call.request.term = (d.nodes i).currentTerm) :
    call.request.prevLogIndex + 1 = (d.nodes i).nextIndex call.callee ∧
      call.request.leaderCommit ≤ (d.nodes i).commitIndex := by
  have old (before : call ∈ c.appendRequests) := ok.waiting_old sim simD taken role before (deliverable.before taken) term
  rcases taken.send_cases with same | ⟨x, j, fibers, prevLogTerm, entries, _, leads, _, positive, _, rfl⟩
  · exact old (same ▸ sent)
  · rcases List.mem_append.mp sent with before | new
    · exact old before
    · cases List.mem_singleton.mp new
      -- The sender leads the term.
      obtain rfl : x = i := (simD.sender role sent term).1
      have now : ((c.setNode x ((c.nodes x).calling j fibers ((c.nodes x).sessionRequest x j prevLogTerm entries))).sendAppend
          j (fibers.issued j) ((c.nodes x).sessionRequest x j prevLogTerm entries)).nodes x =
            (c.nodes x).calling j fibers ((c.nodes x).sessionRequest x j prevLogTerm entries) := Cluster.setNode_self ..
      rw [now]
      exact ⟨Nat.sub_add_cancel positive, Nat.le_refl _⟩

/-- Two requests of a session start at the same place as long as the first one can be handled. -/
theorem SessionsOk.ordered_step (ok : SessionsOk c) (sim : Sim (metamorphosisCopies md5 n) True c a)
    (taken : Cluster.Atomic allowed c d) {first second : AppendCall (metamorphosisService md5 n)}
    (sent : first ∈ d.appendRequests) (deliverable : Deliverable d first) (sentSecond : second ∈ d.appendRequests)
    (session : first.SameSession second) (order : first.seq ≤ second.seq) :
    first.request.prevLogIndex = second.request.prevLogIndex ∧
      first.request.leaderCommit ≤ second.request.leaderCommit := by
  have before := deliverable.before taken
  rcases taken.send_cases with same | ⟨x, j, fibers, prevLogTerm, entries, leading, leads, _, positive, _, rfl⟩
  · exact ok.ordered first (same ▸ sent) before second (same ▸ sentSecond) session order
  · rcases List.mem_append.mp sent with old | new
    · rcases List.mem_append.mp sentSecond with oldSecond | newSecond
      · exact ok.ordered first old before second oldSecond session order
      · cases List.mem_singleton.mp newSecond
        obtain ⟨next, committed⟩ := ok.waiting x leads first old before session.2.2
        have callee : first.callee = j := session.1
        rw [callee] at next
        exact ⟨Nat.eq_sub_of_add_eq next, committed⟩
    · cases List.mem_singleton.mp new
      rcases List.mem_append.mp sentSecond with oldSecond | newSecond
      · obtain ⟨L, leader⟩ := (sim.nodes x).leader leads
        have issued := (leader.fibers fibers leading).issued second oldSecond session.2.2.symm
        rw [← session.1] at issued
        exact absurd order (Nat.not_le.mpr issued)
      · cases List.mem_singleton.mp newSecond
        exact ⟨rfl, Nat.le_refl _⟩

/-- What a follower has committed behind the start of a request that can be handled is stored short. -/
theorem SessionsOk.requests_step (ok : SessionsOk c) (sim : Sim (metamorphosisCopies md5 n) True c a)
    (simD : Sim (metamorphosisCopies md5 n) True d b)
    (inOrder : ∀ c action, allowed c action → Cluster.InOrder c action) (taken : Cluster.Atomic allowed c d)
    {call : AppendCall (metamorphosisService md5 n)} (sent : call ∈ d.appendRequests) (deliverable : Deliverable d call) :
    Shortened d call.request.term call.callee call.request.prevLogIndex call.request.leaderCommit := by
  have old (before : call ∈ c.appendRequests) :
      Shortened d call.request.term call.callee call.request.prevLogIndex call.request.leaderCommit := by
    have ready := deliverable.before taken
    obtain ⟨L, led, of⟩ := sim.messages.requests call before
    have previous := (sim.ordered trivial).requests call before ready L led
    refine (ok.requests call before ready).step sim inOrder ok.hashed taken led of.other previous ?_
    intro handled sentHandled readyHandled nowHandled callee term
    obtain ⟨K, ledK, ofHandled⟩ := sim.messages.requests handled sentHandled
    rw [term] at ledK
    cases led.symm.trans ledK
    have session : handled.SameSession call := ⟨callee, ofHandled.sender.symm.trans of.sender, term⟩
    exact ok.ordered handled sentHandled readyHandled call before session
      (Nat.le_of_lt (deliverable handled nowHandled session))
  rcases taken.send_cases with same | ⟨x, j, fibers, prevLogTerm, entries, leading, leads, session, positive, _, rfl⟩
  · exact old (same ▸ sent)
  · rcases List.mem_append.mp sent with before | new
    · exact old before
    · cases List.mem_singleton.mp new
      obtain ⟨L, leader⟩ := (sim.nodes x).leader leads
      have other : j ≠ x := by
        rintro rfl
        cases (leader.fibers fibers leading).own.symm.trans session
      exact ok.leaders_keep sim inOrder taken leads other

/-- Every step in order keeps the sessions in this state. -/
theorem SessionsOk.step (ok : SessionsOk c) (sim : Sim (metamorphosisCopies md5 n) True c a)
    (simD : Sim (metamorphosisCopies md5 n) True d b)
    (inOrder : ∀ c action, allowed c action → Cluster.InOrder c action) (taken : Cluster.Atomic allowed c d) :
    SessionsOk d where
  hashed := ok.hashed.step taken
  leaders _ role _ other := ok.leaders_step sim simD inOrder taken role other
  requests _ sent deliverable := ok.requests_step sim simD inOrder taken sent deliverable
  waiting _ role _ sent deliverable term := ok.waiting_step sim simD taken role sent deliverable term
  ordered _ sent deliverable _ sentSecond session order :=
    ok.ordered_step sim taken sent deliverable sentSecond session order

/-- Two copies of a message are the same unless only one of them has its data. -/
theorem MessageEntry.CopyOf.eq_iff {first second entry : MessageEntry} (copied : first.CopyOf entry)
    (copiedSecond : second.CopyOf entry) : first = second ↔ (first.data = [] ↔ second.data = []) := by
  constructor
  · rintro rfl
    exact Iff.rfl
  · intro alike
    have data : first.data = second.data := by
      rcases copied.data with full | empty
      · rcases copiedSecond.data with fullSecond | emptySecond
        · exact full.trans fullSecond.symm
        · exact (alike.mpr emptySecond).trans emptySecond.symm
      · exact empty.trans (alike.mp empty).symm
    have term := copied.term.trans copiedSecond.term.symm
    have producerId := copied.producerId.trans copiedSecond.producerId.symm
    have md5hash := copied.md5hash.trans copiedSecond.md5hash.symm
    cases first
    cases second
    simp only at data term producerId md5hash
    subst data term producerId md5hash
    rfl

/-- In every run in which the requests of each session are handled in order, every committed entry
that a follower gets again is the copy that the follower stores. -/
theorem repeats_agree (md5 : Bytes → Bytes) (n : Nat) {c : MetamorphosisCluster md5 n}
    (run : Cluster.Run Cluster.InOrder (.initial _) c) : c.RepeatsAgree Cluster.InOrder := by
  obtain ⟨a, _, sim, ok⟩ := Sim.invariant (fun c _ => SessionsOk c)
    (fun sim simD _ taken held => held.step sim simD (fun _ _ condition => condition) taken)
    (fun _ _ _ condition => condition) (Sim.initial (metamorphosisCopies md5 n) True) .initial
    (run.atomics (Cluster.fresh_initial _)).1
  intro place call sent permitted verifies k inside committed
  have member := List.mem_of_getElem? sent
  have deliverable : Deliverable c call := fun earlier => permitted call sent earlier
  rw [Node.enter_commitIndex] at committed
  rw [Node.enter_raftLog]
  obtain ⟨L, led, of⟩ := sim.messages.requests call member
  have within := List.mem_range.mp inside
  have current : (c.nodes call.callee).currentTerm = call.request.term := by
    by_contra different
    have behind : (c.nodes call.callee).currentTerm < call.request.term :=
      Nat.lt_of_le_of_ne verifies.current different
    have start := sim.commit_start led behind
    have begins := ((sim.ordered trivial).requests call member deliverable L led).behind
      (by rw [(sim.nodes _).term]; exact behind)
    omega
  obtain ⟨known, hashes⟩ := ok.requests call member deliverable current _ (by omega) committed
  obtain ⟨copy, item, present, found, copied⟩ :=
    (sim.nodes call.callee).log.present (by omega) (committed.trans (sim.nodes call.callee).commit)
  obtain ⟨original, foundSent, copiedSent⟩ := of.mirrors.getElem? (List.getElem?_eq_getElem within)
  rw [List.getElem?_take_of_lt within, List.getElem?_drop] at foundSent
  have shared := getElem?_of_take (by omega) (take_of_take committed (sim.commit_shared led verifies.current))
  have place : call.request.prevLogIndex + 1 + k - 1 = call.request.prevLogIndex + k := by omega
  rw [found, place, foundSent] at shared
  cases shared
  have emptySent := ok.hashed call member k _ (by omega) (List.getElem?_eq_getElem within)
  have same := (copied.eq_iff copiedSent).mpr (iff_of_true (hashes copy present) emptySent)
  rw [present, List.getElem?_eq_getElem within, same]

theorem resentScript_dropLast :
    ((Cluster.initial (metamorphosisService id 3)).play Cluster.InOrder resentScript.dropLast).isSome = true := by
  decide +kernel

/-- The cluster before the committed entry is handled once more. -/
def resendingCluster : MetamorphosisCluster id 3 :=
  (Cluster.initial _).endOf Cluster.InOrder resentScript.dropLast resentScript_dropLast

/-- A request is resent after its entry was committed, and the check holds. -/
theorem repeats_agree_resending : resendingCluster.InOrder (.handleAppend 4) ∧
    (∃ call ∈ resendingCluster.appendRequests[4]?, call.callee = 1 ∧ call.request.prevLogIndex = 0 ∧
      call.request.entries.length = 1) ∧
    (resendingCluster.nodes 1).commitIndex = 1 ∧ resendingCluster.RepeatsAgree Cluster.InOrder :=
  ⟨by decide +kernel, by decide +kernel, by decide +kernel, repeats_agree id 3 (Cluster.endOf_run resentScript_dropLast)⟩

/-- The first request of the second node's session is late. The leader commits the entry with the
third node and sends it to the second node again, without its data. -/
def overtakenScript : List (Option Nat × Action (metamorphosisService id 3)) :=
  Cluster.firstLeads _ ++ Cluster.firstSends (metamorphosisService id 3) ⟨[7], 1, 0⟩ ++
    [(none, .appendAnswered 0 1 none), (none, .sessionSend 0 2), (none, .handleAppend 1),
      (none, .appendAnswered 0 2 (some 0)), (none, .sessionSend 0 1), (none, .handleAppend 2)]

theorem overtakenScript_possible :
    ((Cluster.initial (metamorphosisService id 3)).play Cluster.AtMostOnce overtakenScript).isSome = true := by
  decide +kernel

/-- The cluster before the late request is handled. -/
def overtakenCluster : MetamorphosisCluster id 3 :=
  (Cluster.initial _).endOf Cluster.AtMostOnce overtakenScript overtakenScript_possible

/-- There has been only one leader and no request was handled twice, but the late request carries the
data that the second node has not stored, and the `VERIFY` ends the node's process. -/
theorem repeats_differ : Cluster.Run Cluster.AtMostOnce (.initial _) overtakenCluster ∧
    overtakenCluster.elected.length = 1 ∧ overtakenCluster.AtMostOnce (.handleAppend 0) ∧
    (∃ call ∈ overtakenCluster.appendRequests[0]?, call.callee = 1 ∧
      (appendEntries call.request (overtakenCluster.nodes 1)).result.isNone = true) ∧
    ¬ overtakenCluster.RepeatsAgree Cluster.AtMostOnce := by
  have permitted : overtakenCluster.AtMostOnce (.handleAppend 0) := by decide +kernel
  have late : ∃ call ∈ overtakenCluster.appendRequests[0]?,
      (overtakenCluster.nodes call.callee).currentTerm ≤ call.request.term ∧
      ((overtakenCluster.nodes call.callee).enter call.request.term).PrevMatches call.request ∧
      ¬ ((overtakenCluster.nodes call.callee).enter call.request.term).OverlapConsistent call.request := by
    decide +kernel
  refine ⟨Cluster.endOf_run overtakenScript_possible, by decide +kernel, permitted, by decide +kernel, fun agree => ?_⟩
  obtain ⟨call, sent, current, matched, differs⟩ := late
  exact differs (agree 0 call sent permitted ⟨current, matched⟩)

/-- Where a request carries entries that a node has committed, both copies are of the same term, and both have the
data of the message or neither has. -/
def Node.CopiesAlike (node : Node (metamorphosisService md5 n)) (request : AppendEntriesRequest n MessageEntry) : Prop :=
  ∀ k stored received, request.prevLogIndex + 1 + k ≤ node.commitIndex →
    node.raftLog.get? (request.prevLogIndex + 1 + k) = some stored → request.entries[k]? = some received →
    stored.term = received.term ∧ (stored.data = [] ↔ received.data = [])

/-- A stored entry and an entry of a request with the same index and term are copies of one message. -/
theorem Sim.one_message {strict : Prop} (sim : Sim (metamorphosisCopies md5 n) strict c a)
    {call : AppendCall (metamorphosisService md5 n)} (sent : call ∈ c.appendRequests) {k : Nat}
    {stored received : MessageEntry}
    (present : (c.nodes call.callee).raftLog.get? (call.request.prevLogIndex + 1 + k) = some stored)
    (carried : call.request.entries[k]? = some received) (term : stored.term = received.term) :
    ∃ entry, stored.CopyOf entry ∧ received.CopyOf entry := by
  obtain ⟨L, led, of⟩ := sim.messages.requests call sent
  have within := (List.getElem?_eq_some_iff.mp carried).1
  obtain ⟨original, foundSent, copiedSent⟩ := of.mirrors.getElem? carried
  rw [List.getElem?_take_of_lt within, List.getElem?_drop] at foundSent
  obtain ⟨log, mirrors⟩ := (sim.nodes call.callee).log.values
  have place : call.request.prevLogIndex + 1 + k = call.request.prevLogIndex + k + 1 := by omega
  rw [log, place, OrderedMap.ofList_get?] at present
  obtain ⟨item, found, copied⟩ := mirrors.getElem? present
  -- Logs with the same term at one index agree up to that index.
  have terms : itemTerm item = itemTerm original := copied.term.symm.trans (term.trans copiedSent.term)
  have shared := (sim.wf.logLinked call.callee).matching (sim.wf.leadLinked led) found foundSent terms
  have same := getElem?_of_take (Nat.le_add_left 1 (call.request.prevLogIndex + k)) shared
  rw [Nat.add_sub_cancel, found, foundSent] at same
  cases same
  exact ⟨_, copied, copiedSent⟩

/-- Whatever order the requests are handled in: entries of one index and one term are copies of one message, so the
`VERIFY` "committed log is inconsistent" fails only where another term's entry is committed or where one of the two
copies has the data and the other one has not. -/
theorem overlap_check (md5 : Bytes → Bytes) (n : Nat) {c : MetamorphosisCluster md5 n}
    (run : Cluster.Run Cluster.Any (.initial _) c) {call : AppendCall (metamorphosisService md5 n)}
    (sent : call ∈ c.appendRequests) :
    ((c.nodes call.callee).enter call.request.term).OverlapConsistent call.request ↔
      ((c.nodes call.callee).enter call.request.term).CopiesAlike call.request := by
  obtain ⟨a, sim⟩ := run.any_sim (metamorphosisCopies md5 n)
  constructor
  · intro consistent k stored received committed present carried
    have within := (List.getElem?_eq_some_iff.mp carried).1
    have same := consistent k (List.mem_range.mpr within) committed
    rw [present, carried] at same
    cases same
    exact ⟨rfl, Iff.rfl⟩
  · intro alike k inside committed
    have carried := List.getElem?_eq_getElem (List.mem_range.mp inside)
    have stores := (sim.nodes call.callee).commit
    rw [Node.enter_commitIndex] at committed
    obtain ⟨stored, _, present, _⟩ := (sim.nodes call.callee).log.present (by omega) (committed.trans stores)
    rw [Node.enter_raftLog, present, carried]
    obtain ⟨term, data⟩ := alike k stored _ (by rw [Node.enter_commitIndex]; exact committed)
      (by rw [Node.enter_raftLog]; exact present) carried
    obtain ⟨entry, copied, copiedSent⟩ := sim.one_message sent present carried term
    rw [(copied.eq_iff copiedSent).mpr data]

/-- The late request of the overtaken session carries data that the follower has not stored. -/
theorem overlap_check_overtaken : ∃ call ∈ overtakenCluster.appendRequests,
    ¬ ((overtakenCluster.nodes call.callee).enter call.request.term).CopiesAlike call.request := by
  have late : ∃ call ∈ overtakenCluster.appendRequests,
      ¬ ((overtakenCluster.nodes call.callee).enter call.request.term).OverlapConsistent call.request := by
    decide +kernel
  have run : Cluster.Run Cluster.Any (.initial _) overtakenCluster :=
    (Cluster.endOf_run overtakenScript_possible).weaken fun _ _ _ => trivial
  obtain ⟨call, sent, differs⟩ := late
  exact ⟨call, sent, mt (overlap_check id 3 run sent).mpr differs⟩

end Metamorphosis
