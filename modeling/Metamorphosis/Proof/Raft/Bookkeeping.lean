import Metamorphosis.Proof.Raft.Applied

/-!
The indices that a leader keeps about itself and its followers, and that nothing a leader does can end
its process: every entry that it looks up is there.
-/

namespace Metamorphosis
open ReplicatedLog

section Books
variable {n : Nat} {S : Service n}

/-- Requests are handled in order, and an answer reaches a leader only after its main session, if it is
ready to run, has run. -/
def Cluster.Prompt (c : Cluster S) : Action S → Prop
  | .handleAppend place => c.InOrder (.handleAppend place)
  | .appendAnswered i _ (some _) => ∀ fibers, (c.nodes i).mainFiber = .startLeader fibers →
      fibers.mainSession ≠ .starting ∧ fibers.mainSession ≠ .ready
  | _ => True

instance (c : Cluster S) : ∀ action, Decidable (c.Prompt action)
  | .handleAppend place => inferInstanceAs (Decidable (c.InOrder (.handleAppend place)))
  | .appendAnswered i _ (some _) =>
      match fiber : (c.nodes i).mainFiber with
      | .startLeader fibers => decidable_of_iff (fibers.mainSession ≠ .starting ∧ fibers.mainSession ≠ .ready)
          ⟨fun idle _ same => MainFiber.startLeader.inj (fiber.symm.trans same) ▸ idle, fun prompt => prompt _ fiber⟩
      | .startFollower | .startCandidate _ => isTrue fun _ same => nomatch fiber.symm.trans same
  | .appendAnswered _ _ none | .electionTimeout _ | .handleVote _ | .voteAnswered .. | .electionEnd _
  | .sessionSend .. | .sessionEnd .. | .mainRound _ | .leaderEnd _ | .execute .. | .resume .. | .crash _ => isTrue trivial

/-- A prompt run is in order. -/
theorem Cluster.Prompt.inOrder {c : Cluster S} {action : Action S} (prompt : c.Prompt action) : c.InOrder action := by
  cases action with
  | handleAppend place => exact prompt
  | _ => trivial

/-- A leader with its saved log and what it knows about its followers. -/
structure Node.BooksRight (i : Fin n) (node : Node S) : Prop where
  next : node.nextIndex i = node.getSavedLogSize + node.pendingLog.length + 1
  matched : node.matchIndex i ≤ node.getSavedLogSize
  followers : ∀ j, j ≠ i → 1 ≤ node.nextIndex j ∧ node.nextIndex j ≤ node.nextIndex i ∧
    node.matchIndex j < node.nextIndex j

/-- The follower of the request's term did not have the entry before the request. -/
def Refused (reply : AppendCall S × AppendEntriesResult) : Prop :=
  reply.2.success = false ∧ reply.2.term ≤ reply.1.request.term

/-- What holds of the leaders' indices and of the answers that may still change them. -/
structure Books (c : Cluster S) : Prop where
  bounds : ∀ i, (c.nodes i).state = .leader → ∀ j, j ≠ i → 1 ≤ (c.nodes i).nextIndex j ∧
    (c.nodes i).nextIndex j ≤ (c.nodes i).getSavedLogSize + 1 ∧ (c.nodes i).matchIndex j < (c.nodes i).nextIndex j
  idle : ∀ i, (c.nodes i).state = .leader → ∀ fibers, (c.nodes i).mainFiber = .startLeader fibers →
    fibers.mainSession = .awaiting → (c.nodes i).pendingLog = []
  once : ∀ first ∈ c.appendReplies, Refused first → ∀ second ∈ c.appendReplies, second.2.success = true →
    first.1 ≠ second.1
  refused : ∀ i, (c.nodes i).state = .leader → ∀ reply ∈ c.appendReplies, Refused reply → Latest c reply.1 →
    reply.1.request.term = (c.nodes i).currentTerm →
      (c.nodes i).matchIndex reply.1.callee < reply.1.request.prevLogIndex

/-- There is no leader yet. -/
theorem Books.initial (S : Service n) : Books (Cluster.initial S) where
  bounds _ role := nomatch role
  idle _ role := nomatch role
  once _ member := absurd member List.not_mem_nil
  refused _ role := nomatch role

variable {P : Copies S} {c d : Cluster S} {a b : Hist S} {i : Fin n} {allowed : Cluster S → Action S → Prop}

/-- A leader's saved log only grows. -/
theorem Sim.saved_grows {strict : Prop} (sim : Sim P strict c a) (simD : Sim P strict d b)
    (taken : Cluster.Atomic allowed c d) (role : (d.nodes i).state = .leader) :
    (c.nodes i).getSavedLogSize ≤ (d.nodes i).getSavedLogSize := by
  rcases taken.log_cases with unwritten | ⟨x, fibers, leading, leads, rfl⟩ | ⟨call, place, _, _, change⟩
  · rw [Node.getSavedLogSize, Node.getSavedLogSize, unwritten.log]
  · by_cases self : i = x
    · subst self
      have values : ((c.nodes i).save i fibers).values = (c.nodes i).values ++ (c.nodes i).pendingLog := by
        rw [Node.values, sim.saved_log leading leads, OrderedMap.ofList_values]
      rw [sim.size i, simD.size i, Cluster.setNode_self, values, List.length_append]
      exact Nat.le_add_right ..
    · rw [Cluster.setNode_other c _ self]
  · by_cases self : i = call.callee
    · rw [self, change.follows] at role
      cases role
    · rw [change.others i self]

/-- A request that was acknowledged carries saved entries, since the leader has nothing pending then. -/
theorem Books.acknowledged_saved {strict : Prop} (books : Books c) (sim : Sim P strict c a) {fibers : LeaderFibers S}
    {call : AppendCall S} {request : AppendEntriesRequest n S.Entry} (role : (c.nodes i).state = .leader)
    (leading : (c.nodes i).mainFiber = .startLeader fibers) (answer : Answer c a i call request)
    (started : fibers.mainSession ≠ .starting) (done : fibers.mainSession ≠ .ready) :
    request.prevLogIndex + request.entries.length ≤ (c.nodes i).getSavedLogSize := by
  obtain ⟨L, leader⟩ := (sim.nodes i).leader role
  have waits : fibers.mainSession = .awaiting := by
    cases place : fibers.mainSession with
    | starting => exact absurd place started
    | ready => exact absurd place done
    | awaiting => rfl
    | finished => exact absurd place (leader.fibers fibers leading).running
  have next := sim.nextIndex role
  rw [books.idle i role fibers leading waits, List.length_nil, leader.next] at next
  obtain ⟨K, led, of⟩ := sim.messages.requests call answer.sent
  rw [answer.asked, answer.term] at led
  cases leader.led.symm.trans led
  have within := of.within
  rw [answer.asked] at within
  omega

/-- The next index of a follower stays inside the leader's log. -/
theorem Books.bounds_step (books : Books c) (sim : Sim P True c a) (simD : Sim P True d b)
    (prompt : ∀ c action, allowed c action → Cluster.Prompt c action) (taken : Cluster.Atomic allowed c d)
    (role : (d.nodes i).state = .leader) (j : Fin n) (other : j ≠ i) :
    1 ≤ (d.nodes i).nextIndex j ∧ (d.nodes i).nextIndex j ≤ (d.nodes i).getSavedLogSize + 1 ∧
      (d.nodes i).matchIndex j < (d.nodes i).nextIndex j := by
  have grows := sim.saved_grows simD taken role
  have kept (led : (c.nodes i).state = .leader) (next : (d.nodes i).nextIndex j = (c.nodes i).nextIndex j)
      (matched : (d.nodes i).matchIndex j = (c.nodes i).matchIndex j) :
      1 ≤ (d.nodes i).nextIndex j ∧ (d.nodes i).nextIndex j ≤ (d.nodes i).getSavedLogSize + 1 ∧
        (d.nodes i).matchIndex j < (d.nodes i).nextIndex j := by
    obtain ⟨positive, inside, below⟩ := books.bounds i led j other
    rw [next, matched]
    exact ⟨positive, by omega, below⟩
  have unchanged (same : d.nodes i = c.nodes i) := kept (same ▸ role) (by rw [same]) (by rw [same])
  rcases taken.next_cases with keeps | ⟨x, election, _, _, nodes⟩ |
    ⟨x, fibers, call, request, response, node, leading, session, leads, replied, own, asked, notLater, rfl, changed⟩
  · obtain ⟨led, _, _, next⟩ := keeps i role
    exact kept led (next j other).1 (next j other).2
  · by_cases self : i = x
    · subst self
      rw [nodes, Cluster.setNode_self]
      exact ⟨Nat.succ_pos _, Nat.le_refl _, Nat.succ_pos _⟩
    · exact unchanged (by rw [nodes, Cluster.setNode_other c _ self])
  · by_cases self : i = x
    swap
    · exact unchanged (Cluster.setNode_other c _ self)
    subst self
    have answer := sim.answer_known leading session leads replied own asked
    obtain ⟨positive, inside, below⟩ := books.bounds i leads call.callee answer.other
    have at_ := answer.next
    by_cases here : j = call.callee
    swap
    · rcases changed with ⟨_, _, rfl⟩ | ⟨_, _, rfl⟩
      · refine kept leads ?_ ?_
        · rw [Cluster.setNode_self]
          exact Function.update_of_ne here ..
        · rw [Cluster.setNode_self]
          exact Function.update_of_ne here ..
      · refine kept leads ?_ ?_
        · rw [Cluster.setNode_self]
          exact Function.update_of_ne here ..
        · rw [Cluster.setNode_self]
          rfl
    subst here
    rw [Cluster.setNode_self] at grows ⊢
    rcases changed with ⟨_, ⟨place, permitted⟩, rfl⟩ | ⟨failure, large, rfl⟩
    · obtain ⟨started, done⟩ := prompt c _ permitted fibers leading
      have saved := books.acknowledged_saved sim leads leading answer started done
      simp only [Node.acknowledged, Function.update_self]
      change 1 ≤ (c.nodes i).nextIndex call.callee + _ ∧ (c.nodes i).nextIndex call.callee + _ ≤
        (c.nodes i).getSavedLogSize + 1 ∧ _ < (c.nodes i).nextIndex call.callee + _
      omega
    · have term : request.term = (c.nodes i).currentTerm := answer.term
      have refused : (c.nodes i).matchIndex call.callee < call.request.prevLogIndex :=
        books.refused i leads (call, response) replied ⟨failure, by rw [asked, term]; exact notLater⟩
          (answer.latest sim.messages) (asked.trans term)
      rw [answer.asked] at refused
      simp only [Node.stepBack, Function.update_self]
      change 1 ≤ (c.nodes i).nextIndex call.callee - 1 ∧ (c.nodes i).nextIndex call.callee - 1 ≤
        (c.nodes i).getSavedLogSize + 1 ∧ (c.nodes i).matchIndex call.callee < (c.nodes i).nextIndex call.callee - 1
      omega

/-- A main session that waits has nothing to save. -/
theorem Books.idle_step (books : Books c) (taken : Cluster.Atomic allowed c d) (role : (d.nodes i).state = .leader)
    (fibers : LeaderFibers S) (leading : (d.nodes i).mainFiber = .startLeader fibers)
    (waits : fibers.mainSession = .awaiting) : (d.nodes i).pendingLog = [] := by
  rcases taken.stays_idle i role fibers leading waits with empty | ⟨led, same, old, before, waited⟩
  · exact empty
  · rw [same]
    exact books.idle i led old before waited

/-- A call that was handled before cannot be handled now. -/
theorem unhandled_of_inOrder {place : Nat} {call : AppendCall S} (sent : c.appendRequests[place]? = some call)
    (inOrder : c.InOrder (.handleAppend place)) : call ∉ c.handled :=
  fun handled => Nat.lt_irrefl _ (inOrder call sent call handled ⟨rfl, rfl, rfl⟩)

/-- A request is refused at most once. -/
theorem Books.once_step (books : Books c) (sim : Sim P True c a)
    (prompt : ∀ c action, allowed c action → Cluster.Prompt c action) (taken : Cluster.Atomic allowed c d)
    (first : AppendCall S × AppendEntriesResult) (member : first ∈ d.appendReplies) (refused : Refused first)
    (second : AppendCall S × AppendEntriesResult) (also : second ∈ d.appendReplies)
    (success : second.2.success = true) : first.1 ≠ second.1 := by
  rcases taken.replies_cases with only | ⟨call, place, response, sent, permitted, replies, _⟩
  · rcases only first member with old | ⟨_, later⟩
    · rcases only second also with oldSecond | ⟨failure, _⟩
      · exact books.once first old refused second oldSecond success
      · rw [failure] at success
        cases success
    · exact absurd refused.2 (Nat.not_le.mpr later)
  · have fresh := unhandled_of_inOrder sent (prompt c _ permitted).inOrder
    rw [replies] at member also
    rcases List.mem_append.mp member with old | new
    · rcases List.mem_append.mp also with oldSecond | newSecond
      · exact books.once first old refused second oldSecond success
      · rw [List.mem_singleton.mp newSecond]
        rintro rfl
        exact fresh (sim.messages.replies first old).1
    · rw [List.mem_singleton.mp new]
      rcases List.mem_append.mp also with oldSecond | newSecond
      · rintro rfl
        exact fresh (sim.messages.replies second oldSecond).1
      · rw [List.mem_singleton.mp new] at refused
        rw [List.mem_singleton.mp newSecond] at success
        cases refused.1.symm.trans success

/-- A follower that refuses a request of its term has acknowledged less than what the request builds on. -/
theorem Sim.refused_beyond (simD : Sim P True d b) (role : (d.nodes i).state = .leader) {call : AppendCall S}
    (sent : call ∈ d.appendRequests) (term : call.request.term = (d.nodes i).currentTerm)
    (current : (d.nodes call.callee).currentTerm = call.request.term)
    (unmatched : ¬ (d.nodes call.callee).PrevMatches call.request) :
    (d.nodes i).matchIndex call.callee < call.request.prevLogIndex := by
  obtain ⟨L, leader⟩ := (simD.nodes i).leader role
  obtain ⟨K, led, of⟩ := simD.messages.requests call sent
  have ledSame := led
  rw [term] at ledSame
  cases leader.led.symm.trans ledSame
  have counted := ((simD.ordered trivial).leaders i L role leader.led call.callee (simD.sender role sent term).2).1
  have acked := (simD.safe trivial).counted led call.callee
  by_contra reached
  refine unmatched (of.prevMatches (simD.nodes call.callee).log ?_)
  have here : b.term call.callee = call.request.term := (simD.nodes call.callee).term.trans current
  have held := simD.wf.ackHeld (j := call.callee) (here.symm ▸ led)
  rw [here] at held
  exact take_of_take (by omega) held

/-- The next index of the leader is still the one from which a refused request was made. -/
theorem Books.refused_step (books : Books c) (sim : Sim P True c a) (simD : Sim P True d b)
    (taken : Cluster.Atomic allowed c d) (role : (d.nodes i).state = .leader)
    (reply : AppendCall S × AppendEntriesResult) (member : reply ∈ d.appendReplies) (refused : Refused reply)
    (latest : Latest d reply.1) (term : reply.1.request.term = (d.nodes i).currentTerm) :
    (d.nodes i).matchIndex reply.1.callee < reply.1.request.prevLogIndex := by
  have sent := simD.messages.handled _ (simD.messages.replies reply member).1
  have other := (simD.sender role sent term).2
  -- An answer that was there before, with what the leader knew then.
  have old (known : reply ∈ c.appendReplies) : (d.nodes i).matchIndex reply.1.callee < reply.1.request.prevLogIndex := by
    have kept (led : (c.nodes i).state = .leader) (same : (d.nodes i).currentTerm = (c.nodes i).currentTerm)
        (matched : (d.nodes i).matchIndex reply.1.callee = (c.nodes i).matchIndex reply.1.callee) :
        (d.nodes i).matchIndex reply.1.callee < reply.1.request.prevLogIndex := by
      rw [matched]
      exact books.refused i led reply known refused (latest.before taken) (term.trans same)
    have unchanged (same : d.nodes i = c.nodes i) := kept (same ▸ role) (by rw [same]) (by rw [same])
    rcases taken.next_cases with keeps | ⟨x, election, electing, requests, nodes⟩ |
      ⟨x, fibers, call, request, response, node, leading, session, leads, replied, own, asked, _, rfl, changed⟩
    · obtain ⟨led, same, _, next⟩ := keeps i role
      exact kept led same (next _ other).2
    · by_cases self : i = x
      · subst self
        obtain ⟨L, leader⟩ := (simD.nodes i).leader role
        refine absurd term (leader.unsent election ?_ reply.1 sent)
        rw [nodes, Cluster.setNode_self]
        exact electing
      · exact unchanged (by rw [nodes, Cluster.setNode_other c _ self])
    · by_cases self : i = x
      swap
      · exact unchanged (Cluster.setNode_other c _ self)
      subst self
      have answer := sim.answer_known leading session leads replied own asked
      rcases changed with ⟨success, _, rfl⟩ | ⟨_, _, rfl⟩
      · by_cases here : reply.1.callee = call.callee
        · -- The refused call is the last one, which was accepted.
          have same : reply.1.request.term = (c.nodes i).currentTerm := by
            rw [Cluster.setNode_self] at term
            exact term
          have before := sim.messages.handled _ (sim.messages.replies reply known).1
          have alike : reply.1.SameSession call :=
            ⟨here, (sim.sender leads before same).1.trans own.symm, same.trans (asked.trans answer.term).symm⟩
          have older := answer.last reply.1 before alike
          have newer := latest.before taken call answer.handled ⟨alike.1.symm, alike.2.1.symm, alike.2.2.symm⟩
          have equal := sim.messages.numbered reply.1 before call answer.sent alike (Nat.le_antisymm older newer)
          exact absurd equal (books.once reply known refused (call, response) replied success)
        · refine kept leads ?_ ?_
          · rw [Cluster.setNode_self]
            rfl
          · rw [Cluster.setNode_self]
            exact Function.update_of_ne here ..
      · refine kept leads ?_ ?_
        · rw [Cluster.setNode_self]
          rfl
        · rw [Cluster.setNode_self]
          rfl
  rcases taken.replies_cases with only | ⟨call, place, response, _, _, replies, success | ⟨current, unmatched, now⟩⟩
  · rcases only reply member with known | ⟨_, later⟩
    · exact old known
    · exact absurd refused.2 (Nat.not_le.mpr later)
  · rw [replies] at member
    rcases List.mem_append.mp member with known | new
    · exact old known
    · rw [List.mem_singleton.mp new] at refused
      cases refused.1.symm.trans success
  · rw [replies] at member
    rcases List.mem_append.mp member with known | new
    · exact old known
    · have same : reply.1 = call := congrArg Prod.fst (List.mem_singleton.mp new)
      rw [same] at sent term ⊢
      refine simD.refused_beyond role sent term ?_ ?_
      · rw [now, Node.enter_currentTerm current]
      · rw [now]
        exact unmatched

/-- Every prompt step keeps the books. -/
theorem Books.step (books : Books c) (sim : Sim P True c a) (simD : Sim P True d b)
    (prompt : ∀ c action, allowed c action → Cluster.Prompt c action) (taken : Cluster.Atomic allowed c d) : Books d where
  bounds _ role := books.bounds_step sim simD prompt taken role
  idle _ role := books.idle_step taken role
  once := books.once_step sim prompt taken
  refused _ role := books.refused_step sim simD taken role

variable {strict : Prop}

/-- A leader reads everything that it has saved or keeps pending. -/
theorem Sim.getLogEntry_some (sim : Sim P strict c a) {index : Nat} (positive : 1 ≤ index)
    (inside : index ≤ (c.nodes i).getSavedLogSize + (c.nodes i).pendingLog.length) :
    ∃ entry, (c.nodes i).getLogEntry index = some entry := by
  rw [Node.getLogEntry, if_pos ⟨positive, inside⟩]
  split
  · rename_i saved
    rw [(sim.nodes i).log.size] at saved
    obtain ⟨copy, _, present, _⟩ := (sim.nodes i).log.present positive saved
    exact ⟨copy, present⟩
  · exact ⟨_, List.getElem?_eq_getElem (by omega)⟩

/-- The entries of a request are all found. -/
theorem Sim.collectEntries_some (sim : Sim P strict c a) {index count : Nat} (positive : 1 ≤ index)
    (inside : index + count ≤ (c.nodes i).getSavedLogSize + (c.nodes i).pendingLog.length + 1) :
    ∃ entries, (c.nodes i).collectEntries index count = some entries := by
  induction count generalizing index with
  | zero => exact ⟨[], rfl⟩
  | succ count ih =>
      obtain ⟨entry, read⟩ := sim.getLogEntry_some (i := i) positive (by omega)
      have more : ∃ rest, (c.nodes i).collectEntries (index + 1) count = some rest := ih (by omega) (by omega)
      obtain ⟨rest, collected⟩ := more
      refine ⟨S.encode (c.nodes i).commitIndex index entry :: rest, ?_⟩
      rw [Node.collectEntries, read, Option.bind_eq_bind, Option.bind_some, collected]
      rfl

/-- The loop of commits finds all of its entries. -/
theorem commitLoop_some {wakes : Bool} {log : OrderedMap S.Entry} {pending : Nat → Option Nat} {indices : List Nat}
    {ext : S.Ext} {calls : List (Call S)} (present : ∀ index ∈ indices, ∃ entry, log.get? index = some entry) :
    ∃ result, commitLoop wakes log pending indices ext calls = some result := by
  induction indices generalizing ext calls with
  | nil => exact ⟨_, rfl⟩
  | cons index rest ih =>
      obtain ⟨entry, found⟩ := present index List.mem_cons_self
      obtain ⟨committed, commits⟩ := Option.isSome_iff_exists.mp (S.commit_stored ext index entry)
      rw [commitLoop, found, commits]
      exact ih fun other member => present other (List.mem_cons_of_mem _ member)

/-- `UpdateCommitIndex` finds every entry that it commits. -/
theorem Sim.updatedCommit_some (sim : Sim P strict c a) (i : Fin n) : ∃ after, (c.nodes i).updatedCommit = some after := by
  have bound : (c.nodes i).findCommitIndex (c.nodes i).getSavedLogSize ≤
      max (c.nodes i).commitIndex (c.nodes i).getSavedLogSize := by
    rcases (c.nodes i).findCommitIndex_cases (c.nodes i).getSavedLogSize with same | ⟨_, inside, _⟩
    · rw [same]
      exact Nat.le_max_left ..
    · exact inside.trans (Nat.le_max_right ..)
  have committed := (sim.nodes i).commit
  have present : ∀ index ∈ (c.nodes i).newlyCommitted ((c.nodes i).findCommitIndex (c.nodes i).getSavedLogSize),
      ∃ entry, (c.nodes i).raftLog.get? index = some entry := by
    intro index member
    have range := List.mem_range'_1.mp member
    rw [(sim.nodes i).log.size] at bound range
    have positive : 1 ≤ index := by omega
    have inside : index ≤ (a.log i).length := by omega
    obtain ⟨copy, _, present, _⟩ := (sim.nodes i).log.present positive inside
    exact ⟨copy, present⟩
  have loop : ∃ result, commitLoop true (c.nodes i).raftLog (c.nodes i).pendingRequests
      ((c.nodes i).newlyCommitted ((c.nodes i).findCommitIndex (c.nodes i).getSavedLogSize)) (c.nodes i).ext
      (c.nodes i).calls = some result := commitLoop_some present
  obtain ⟨result, loop⟩ := loop
  exact ⟨_, by rw [Node.updatedCommit, loop]; rfl⟩

/-- A waiting call leaves without a failed `VERIFY`: in its own term its node still leads. -/
theorem resume_some {node : Node S} {call : Call S}
    (leads : call.currentTerm = node.currentTerm → node.state = .leader) :
    ((resume call node).result.map Prod.snd).isSome = true := by
  rw [resume, Process.bind_modify, Process.bind_get]
  by_cases same : call.currentTerm = node.currentTerm
  · rw [if_neg (not_not.mpr same), Process.bind_verify, if_pos (by exact leads same)]
    rfl
  · rw [if_pos same]
    rfl

/-- The answer of a call does not end the leader's process. -/
theorem Books.appendAnswered_some (books : Books c) (sim : Sim P True c a) {j : Fin n} {fibers : LeaderFibers S}
    {request : AppendEntriesRequest n S.Entry} {seq : Nat} (leading : (c.nodes i).mainFiber = .startLeader fibers)
    (session : fibers.session j = .calling seq request) {call : AppendCall S} {response : AppendEntriesResult}
    (replied : (call, response) ∈ c.appendReplies) (callee : call.callee = j) (number : call.seq = seq)
    (own : call.request.leaderId = i) (asked : call.request.term = request.term) :
    ((appendAnswered i j fibers request (some response) (c.nodes i)).result.map Prod.snd).isSome = true := by
  subst callee number
  by_cases role : (c.nodes i).state = .leader
  swap
  · rw [appendAnswered_notLeader i call.callee fibers request _ role]
    rfl
  have answer := sim.answer_known leading session role replied own asked
  rcases appendAnswered_cases i call.callee fibers request response role with
    ⟨_, run⟩ | ⟨_, success, run⟩ | ⟨notLater, failure, aborted | ⟨_, run⟩⟩
  · rw [run]
    rfl
  · obtain ⟨_, _, simD⟩ := sim.acknowledge leading session role replied own asked success
    obtain ⟨after, updated⟩ := simD.updatedCommit_some i
    rw [Cluster.setNode_self] at updated
    rw [run, updated]
    rfl
  · -- The first entry is never refused.
    have term : request.term = (c.nodes i).currentTerm := answer.term
    have refused := books.refused i role (call, response) replied ⟨failure, by rw [asked, term]; exact notLater⟩
      (answer.latest sim.messages) (asked.trans term)
    have next := answer.next
    rw [answer.asked] at refused
    have large : 2 ≤ (c.nodes i).nextIndex call.callee := by omega
    rw [appendAnswered_refused i call.callee fibers request role notLater failure large] at aborted
    cases aborted
  · rw [run]
    rfl

/-- No `VERIFY` of the main session fails. -/
theorem Sim.mainRound_some (sim : Sim P strict c a) {fibers : LeaderFibers S}
    (leading : (c.nodes i).mainFiber = .startLeader fibers) :
    ((mainRound i fibers (c.nodes i)).result.map Prod.snd).isSome = true := by
  by_cases role : (c.nodes i).state = .leader
  · obtain ⟨_, _, simD⟩ := sim.save leading role
    obtain ⟨after, updated⟩ := simD.updatedCommit_some i
    rw [Cluster.setNode_self] at updated
    rw [mainRound_leader i fibers role, updated]
    rfl
  · rw [mainRound_notLeader i fibers role]
    rfl

/-- What runs in the sessions of a leader and in `Execute`. -/
def Action.ofLeader : Action S → Prop
  | .sessionSend .. | .appendAnswered .. | .mainRound _ | .execute .. | .resume .. => True
  | _ => False

end Books

variable {M : StateMachine} {n : Nat} {c d : RaftCluster M n} {a : Hist (raftService M n)} {i : Fin n}

/-- A session reads the entry before its request and all entries of the request. -/
theorem Books.sessionSend_some (books : Books c) (sim : Sim (raftCopies M n) True c a) {j : Fin n}
    {fibers : LeaderFibers (raftService M n)} (role : (c.nodes i).state = .leader) (other : j ≠ i) :
    ((sessionSend i j fibers (c.nodes i)).result.map Prod.snd).isSome = true := by
  obtain ⟨positive, inside, _⟩ := books.bounds i role j other
  have next := sim.nextIndex role
  have previous : ∃ prevLogTerm, (c.nodes i).prevLogTerm j = some prevLogTerm := by
    rw [Node.prevLogTerm]
    split
    · exact ⟨0, rfl⟩
    · rename_i later
      rw [(sim.nodes i).log.size] at inside
      have before : 1 ≤ (c.nodes i).nextIndex j - 1 := by omega
      obtain ⟨copy, _, present, _⟩ := (sim.nodes i).log.present before (by omega)
      rw [present]
      exact ⟨_, rfl⟩
  obtain ⟨prevLogTerm, previous⟩ := previous
  have collected : ∃ entries, (c.nodes i).collectEntries ((c.nodes i).nextIndex j)
      ((c.nodes i).nextIndex i - 1 + 1 - (c.nodes i).nextIndex j) = some entries :=
    sim.collectEntries_some positive (by omega)
  obtain ⟨entries, collected⟩ := collected
  rw [sessionSend, Process.bind_get, Process.bind_verify, if_pos positive, Process.bind_value, previous]
  simp only [Process.bind_value, collected]
  rfl

/-- No action of a leader that is possible ends its process. -/
theorem Books.goesOn (books : Books c) (sim : Sim (raftCopies M n) True c a)
    (calls : ∀ x, CallsOk (raftReplay M n) c x (c.nodes x)) {action : Action (raftService M n)}
    (ofLeader : action.ofLeader) (acted : c.act none action = some d) (x : Fin n) : ¬ c.Ends x none action := by
  rintro ⟨result, ran, stopped | rfl⟩
  · exact stopped rfl
  cases Cluster.act_acts acted with
  | sessionSend i j fibers leading session role =>
      simp only [Cluster.runs, leading] at ran
      obtain ⟨rfl, aborted⟩ := Prod.mk.inj (Option.some.inj ran)
      have other : j ≠ i := by
        rintro rfl
        obtain ⟨L, leader⟩ := (sim.nodes j).leader role
        cases (leader.fibers fibers leading).own.symm.trans session
      have ends : ((sessionSend i j fibers (c.nodes i)).result.map Prod.snd).isSome = true :=
        books.sessionSend_some sim role other
      rw [aborted] at ends
      cases ends
  | appendFailed i j fibers seq request leading session =>
      simp only [Cluster.runs, leading, session] at ran
      obtain ⟨rfl, aborted⟩ := Prod.mk.inj (Option.some.inj ran)
      by_cases role : (c.nodes i).state = .leader
      · rw [appendAnswered_failed i j fibers request role] at aborted
        cases aborted
      · rw [appendAnswered_notLeader i j fibers request _ role] at aborted
        cases aborted
  | appendAnswered i j place fibers seq request call response leading session replied callee number own asked =>
      simp only [Cluster.runs, leading, session, replied, Option.map_some] at ran
      obtain ⟨rfl, aborted⟩ := Prod.mk.inj (Option.some.inj ran)
      have ends := books.appendAnswered_some sim leading session (List.mem_of_getElem? replied) callee number own asked
      rw [aborted] at ends
      cases ends
  | mainRound i fibers leading awake =>
      simp only [Cluster.runs, leading] at ran
      obtain ⟨rfl, aborted⟩ := Prod.mk.inj (Option.some.inj ran)
      have ends := sim.mainRound_some leading
      rw [aborted] at ends
      cases ends
  | execute i request =>
      obtain ⟨rfl, aborted⟩ := Prod.mk.inj (Option.some.inj ran)
      rcases execute_cases (c.nodes i) i c.clock request with ⟨_, run⟩ | ⟨_, _, _, run⟩ | ⟨_, _, _, _, run⟩
      · rw [run] at aborted
        cases aborted
      · rw [run] at aborted
        cases aborted
      · rw [run] at aborted
        cases aborted
  | resume i tag call found signaled =>
      simp only [Cluster.runs, found, Option.map_some] at ran
      obtain ⟨rfl, aborted⟩ := Prod.mk.inj (Option.some.inj ran)
      have ends := resume_some ((calls i).calls call (List.mem_of_find?_eq_some found)).leads
      rw [aborted] at ends
      cases ends
  | electionTimeout | handleVote | voteFailed | voteAnswered | electionEnd | sessionEnd | handleAppend | leaderEnd
  | crash => exact ofLeader

/-- In every run in which requests are handled in order and a ready main session runs before the next
answer is delivered, the indices of every leader fit to its log, and no `VERIFY` and no look-up of a
leader's sessions or of a client's call fails. -/
theorem leader_bookkeeping (M : StateMachine) (n : Nat) {c : RaftCluster M n}
    (run : Cluster.Run Cluster.Prompt (.initial _) c) :
    (∀ i, (c.nodes i).state = .leader → (c.nodes i).BooksRight i) ∧
    ∀ action d x, action.ofLeader → c.act none action = some d → ¬ c.Ends x none action := by
  obtain ⟨a, _, sim, books, _, calls⟩ := Sim.invariant
    (fun c _ => Books c ∧ c.Stamps ∧ ∀ x, CallsOk (raftReplay M n) c x (c.nodes x))
    (fun sim simD _ taken held => ⟨held.1.step sim simD (fun _ _ prompt => prompt) taken, held.2.1.step taken,
      CallsOk.step sim held.2.1 taken held.2.2⟩)
    (fun _ _ _ prompt => prompt.inOrder) (Sim.initial (raftCopies M n) True)
    ⟨.initial _, .initial _, fun _ => .construct ..⟩ (run.atomics (Cluster.fresh_initial _)).1
  refine ⟨fun i role => ?_, fun action d x ofLeader acted => books.goesOn sim calls ofLeader acted x⟩
  obtain ⟨L, leader⟩ := (sim.nodes i).leader role
  have next := sim.nextIndex role
  refine ⟨next, ?_, fun j other => ?_⟩
  · rw [(sim.nodes i).log.size]
    exact leader.matched
  · obtain ⟨positive, inside, below⟩ := books.bounds i role j other
    exact ⟨positive, by omega, below⟩

theorem committedScript_prompt :
    ((Cluster.initial (raftService adder 3)).play Cluster.Prompt committedScript).isSome = true := by
  decide +kernel

/-- The committed entry moves the leader's indices of the second node, and it can send to the third one. -/
theorem leader_bookkeeping_committed :
    let c := (Cluster.initial _).endOf Cluster.Prompt committedScript committedScript_prompt
    (c.nodes 0).nextIndex 1 = 2 ∧ (c.nodes 0).BooksRight 0 ∧
      (c.act none (.sessionSend 0 2)).isSome ∧ ¬ c.Ends 0 none (.sessionSend 0 2) := by
  intro c
  have run : Cluster.Run Cluster.Prompt (.initial _) c := Cluster.endOf_run committedScript_prompt
  obtain ⟨right, goesOn⟩ := leader_bookkeeping adder 3 run
  have reached : (c.nodes 0).nextIndex 1 = 2 ∧ (c.nodes 0).state = .leader ∧
      (c.act none (.sessionSend 0 2)).isSome = true := by
    decide +kernel
  obtain ⟨next, role, possible⟩ := reached
  obtain ⟨d, acted⟩ := Option.isSome_iff_exists.mp possible
  exact ⟨next, right 0 role, possible, goesOn (.sessionSend 0 2) d 0 trivial acted⟩

end Metamorphosis
