import Metamorphosis.Proof.Simulation.Relation

namespace Metamorphosis
open ReplicatedLog
variable {n : Nat} {S : Service n} {P : Copies S} {strict : Prop} {c d : Cluster S} {a b : Hist S} {i : Fin n}

/-- A step that counts nothing and changes one node is calm. -/
theorem Calm.step (wf : Wf itemTerm (QuorumSystem.majority n) a)
    (taken : Step itemTerm (QuorumSystem.majority n) strict a b) (frame : Frame i a b) (quiet : Quiet a b)
    (counts : SameCounts a b) : Calm strict i a b :=
  ⟨.single taken, wf.grows taken, frame, quiet, counts⟩

theorem Calm.refl (strict : Prop) (i : Fin n) (a : Hist S) : Calm strict i a a :=
  ⟨.refl, .refl a, .refl i a, .refl a, SameCounts.refl a⟩

/-- Between two clusters nothing was sent in the name of a node. -/
structure Silent (x : Fin n) (b : Hist S) (c d : Cluster S) : Prop where
  granted : ∀ vote ∈ c.granted, vote ∈ d.granted
  kept : ∀ call ∈ c.appendRequests, call ∈ d.appendRequests
  new : ∀ call ∈ d.appendRequests, call ∈ c.appendRequests ∨
    ∃ L, b.lead call.request.term = some L ∧ L.node ≠ x

theorem Silent.same {x : Fin n} (granted : d.granted = c.granted)
    (requests : d.appendRequests = c.appendRequests) : Silent x b c d :=
  ⟨fun _ member => granted ▸ member, fun _ member => requests ▸ member, fun _ member => Or.inl (requests ▸ member)⟩

section Keep
variable {x : Fin n} {node after : Node S}

/-- An election goes on; only a node that is still a candidate has something to show for it. -/
theorem ElectionOk.keep {election : Election n} (ok : ElectionOk c a x node election) (grows : Grows a b)
    (granted : ∀ vote ∈ c.granted, vote ∈ d.granted)
    (still : after.state = .candidate → node.state = .candidate ∧ after.currentTerm = node.currentTerm ∧
      b.log x = a.log x ∧ ∀ T L, L.node = x → b.lead T = some L → a.lead T = some L) :
    ElectionOk d b x after election where
  candidate := ok.candidate
  voted := grows.vote ok.voted
  votes := by
    obtain ⟨voters, count, all⟩ := ok.votes
    refine ⟨voters, count, fun y member => ?_⟩
    obtain ⟨waiting, voted, recorded⟩ := all y member
    exact ⟨waiting, grows.vote voted, granted _ recorded⟩
  standing role := by
    obtain ⟨was, same, log, back⟩ := still role
    obtain ⟨term, stood, unled⟩ := ok.standing was
    refine ⟨term.trans same.symm, by rw [log, grows.stood ok.voted, stood], fun L led own => ?_⟩
    exact unled L (back _ L own led) own

/-- A leader keeps its leadership as long as nobody else sends in its name. -/
theorem LeaderOk.keep {L : Leadership (Fin n) (Item S)} (ok : LeaderOk P c a x node L)
    (led : b.lead node.currentTerm = some L) (log : b.log x = a.log x) (silent : Silent x b c d)
    (term : after.currentTerm = node.currentTerm)
    (start : after.currentTermStartIndex = node.currentTermStartIndex) (next : after.nextIndex = node.nextIndex)
    (matched : after.matchIndex = node.matchIndex) (pending : after.pendingLog = node.pendingLog)
    (place : after.mainFiber = node.mainFiber) : LeaderOk P d b x after L := by
  -- A request of this leader's term cannot be one that another leader has just sent.
  have old (call : AppendCall S) (member : call ∈ d.appendRequests)
      (same : call.request.term = after.currentTerm) : call ∈ c.appendRequests := by
    rcases silent.new call member with known | ⟨M, ledM, foreign⟩
    · exact known
    · rw [same, term] at ledM
      cases led.symm.trans ledM
      exact absurd ok.self foreign
  exact {
    led := by rw [term]; exact led
    self := ok.self
    start := by rw [start]; exact ok.start
    next := by rw [next]; exact ok.next
    pending := by rw [log, pending]; exact ok.pending
    matched := by rw [log, matched]; exact ok.matched
    counted := by rw [log]; exact ok.counted
    place := by rw [place]; exact ok.place
    unsent := by
      intro election electing call member same
      rw [place] at electing
      exact ok.unsent election electing call (old call member same) (same.trans term)
    fibers := by
      intro fibers leading
      rw [place] at leading
      have fibersOk := ok.fibers fibers leading
      exact {
        running := fibersOk.running
        saved := by rw [log, matched]; exact fibersOk.saved
        own := fibersOk.own
        issued := fun call member same => fibersOk.issued call (old call member same) (same.trans term)
        calling := by
          intro j seq request session
          obtain ⟨sent, rest⟩ := fibersOk.calling j seq request session
          rw [term, next]
          exact ⟨silent.kept _ sent, rest⟩ } }

/-- A node keeps its relation to the history while other nodes move. -/
theorem NodeOk.other (ok : NodeOk P c a x node) (grows : Grows a b) (untouched : Untouched x a b)
    (silent : Silent x b c d) : NodeOk P d b x node where
  term := untouched.term.trans ok.term
  vote := (untouched.vote _).trans ok.vote
  log := by rw [untouched.log]; exact ok.log
  commit := by rw [untouched.log]; exact ok.commit
  election election electing := (ok.election election electing).keep grows silent.granted fun role =>
    ⟨role, rfl, untouched.log, fun _ _ own => (untouched.lead own).mp⟩
  leader role := by
    obtain ⟨L, leader⟩ := ok.leader role
    exact ⟨L, leader.keep ((untouched.lead leader.self).mpr leader.led) untouched.log silent rfl rfl rfl rfl rfl rfl⟩

/-- Records of the cluster that no node reads do not matter. -/
theorem NodeOk.silent (ok : NodeOk P c a x node) (silent : Silent x a c d) : NodeOk P d a x node :=
  ok.other (.refl a) (.refl x a) silent

end Keep

/-- A request of a shorter log is one of the longer log. -/
theorem RequestOf.grow {call : AppendCall S} {L M : Leadership (Fin n) (Item S)} (of : RequestOf P call L)
    (node : M.node = L.node) (grows : L.entries <+: M.entries) : RequestOf P call M := by
  obtain ⟨more, entries⟩ := grows
  have within := of.within
  have length : call.request.prevLogIndex ≤ L.entries.length := by omega
  refine ⟨node.trans of.sender, node ▸ of.other, ?_, ?_, ?_⟩
  · rw [← entries, List.length_append]
    omega
  · rw [← entries, List.drop_append_of_le_length length, List.take_append_of_le_length]
    · exact of.mirrors
    · rw [List.length_drop]
      omega
  · rw [← entries, List.take_append_of_le_length length]
    exact of.previous

/-- Messages stay true while the history grows. -/
theorem MessagesOk.grow (ok : MessagesOk P c a) (grows : Grows a b) : MessagesOk P c b where
  voteRequests call member := by
    obtain ⟨voted, index, term⟩ := ok.voteRequests call member
    rw [grows.stood voted]
    exact ⟨grows.vote voted, index, term⟩
  voteReplies reply member granted := by
    obtain ⟨voted, recorded⟩ := ok.voteReplies reply member granted
    exact ⟨grows.vote voted, recorded⟩
  requests call member := by
    obtain ⟨L, led, of⟩ := ok.requests call member
    obtain ⟨M, ledM, node, _, longer, _⟩ := grows.lead led
    exact ⟨M, ledM, of.grow node longer⟩
  numbered := ok.numbered
  handled := ok.handled
  replies reply member := by
    obtain ⟨handled, reached⟩ := ok.replies reply member
    exact ⟨handled, reached.trans (grows.term _)⟩

/-- Records stay true while no leader appends. -/
theorem RecordsOk.grow (ok : RecordsOk P c a) (grows : Grows a b) (entries : SameEntries a b) :
    RecordsOk P c b where
  elected record member := by
    obtain ⟨L, led, node, log, votes⟩ := ok.elected record member
    obtain ⟨M, ledM, nodeM, start, _⟩ := grows.lead led
    obtain ⟨L', led', _, _, same⟩ := entries ledM
    cases led.symm.trans led'
    exact ⟨M, ledM, nodeM.trans node, by rw [start, same]; exact log, votes⟩
  distinct := ok.distinct
  led T M ledM := by
    obtain ⟨L, led, _⟩ := entries ledM
    exact ok.led T L led
  created T M ledM := by
    obtain ⟨L, led, _, start, same⟩ := entries ledM
    rw [start, same]
    exact ok.created T L led
  createdAt record member := by
    obtain ⟨L, led, node, own, found⟩ := ok.createdAt record member
    obtain ⟨M, ledM, nodeM, start, _⟩ := grows.lead led
    obtain ⟨L', led', _, _, same⟩ := entries ledM
    cases led.symm.trans led'
    exact ⟨M, ledM, nodeM.trans node, by rw [start]; exact own, by rw [same]; exact found⟩

section Ordered
variable {L M : Leadership (Fin n) (Item S)} {T : Nat}

/-- A follower that enters the term shares at most the leader's first entries with it. -/
theorem PrevOk.move {j : Fin n} {prev : Nat} (ok : PrevOk a L T j prev)
    (wf : Wf itemTerm (QuorumSystem.majority n) a) (safe : Safe (QuorumSystem.majority n) a)
    (terms : a.term j ≤ b.term j) (base : b.term j = a.term j → b.base j = a.base j) (led : a.lead T = some L)
    (start : M.start = L.start) (longer : L.entries <+: M.entries) (counted : M.counted j = L.counted j) :
    PrevOk b M T j prev where
  behind before := by
    rw [start]
    exact ok.behind (by omega)
  current now := by
    rcases Nat.lt_or_eq_of_le terms with entered | same
    · have atStart := ok.behind (by omega)
      have none_ : L.counted j ≤ 0 := (safe.counted led j).trans_eq (wf.ackLater (by omega))
      exact ⟨by omega, fun m inside _ => by omega⟩
    · have floor := ok.current (same.trans now)
      refine ⟨counted ▸ floor.counted, fun m inside shared => ?_⟩
      rw [start] at inside
      rw [base same.symm, take_of_grows longer (inside.trans (wf.leadStart led))] at shared
      exact floor.shared m inside shared

/-- A reply stays right when the log of its leader grows. -/
theorem ReplyOk.move {call : AppendCall S} {result : AppendEntriesResult} (ok : ReplyOk a L call result)
    (quiet : Quiet a b) (of : RequestOf P call L) (ledM : b.lead call.request.term = some M)
    (node : M.node = L.node) (longer : L.entries <+: M.entries) (reached : call.request.term ≤ a.term call.callee)
    (terms : a.term call.callee ≤ b.term call.callee) : ReplyOk b M call result := by
  have other : M.node ≠ call.callee := fun same => of.other (node ▸ same.symm)
  have within := of.within
  refine ⟨fun success => ?_, fun failure old now => ?_⟩
  · rw [quiet.followerAck ledM other]
    exact ok.success success
  · rw [quiet.followerLog (by rw [now]; exact ledM) other, take_of_grows longer (by omega)]
    exact ok.failure failure old (by omega)

/-- What is certified stays so when the log grows. -/
theorem Certified.move {x : Fin n} {index : Nat} (ok : Certified c a x index) (grows : Grows a b)
    (log : a.log x <+: b.log x) (inside : index ≤ (a.log x).length) (kept : ∀ p ∈ c.commits, p ∈ d.commits) :
    Certified d b x index := by
  rcases ok with zero | ⟨T, m, L, committed, reached, within, led, same⟩
  · exact Or.inl zero
  · obtain ⟨M, ledM, _, _, longer, _⟩ := grows.lead led
    refine Or.inr ⟨T, m, M, kept _ committed, reached.trans (grows.term x), within, ledM, ?_⟩
    rw [take_of_grows log inside, take_of_grows longer (length_of_take inside same.symm), same]

end Ordered

/-- Lists that the ordered part does not read do not matter. -/
theorem OrderedOk.same (ok : OrderedOk c a) (nodes : d.nodes = c.nodes)
    (requests : d.appendRequests = c.appendRequests) (replies : d.appendReplies = c.appendReplies)
    (handled : d.handled = c.handled) (commits : d.commits = c.commits) : OrderedOk d a where
  leaders := by
    rw [nodes]
    exact ok.leaders
  requests := by
    simp only [requests, Deliverable, handled]
    exact ok.requests
  replies := by
    simp only [replies, Latest, handled]
    exact ok.replies
  commits := by
    rw [commits]
    exact ok.commits
  covered := by
    simp only [requests, Covered, commits]
    exact ok.covered
  certified := by
    simp only [nodes, Certified, commits]
    exact ok.certified

/-- What a leader knows about its followers. -/
def LeaderKnows (b : Hist S) (i : Fin n) (node : Node S) : Prop :=
  ∀ L, node.state = .leader → b.lead node.currentTerm = some L → ∀ j, j ≠ i →
    node.matchIndex j ≤ L.counted j ∧ PrevOk b L node.currentTerm j (node.nextIndex j - 1)

/-- A node moves: what it knows itself has to be shown, everything else stays in order. A moving
leader may count more of a follower once nothing can be delivered to that follower any more. -/
theorem OrderedOk.move (ok : OrderedOk c a) (sim : Sim P strict c a) (isStrict : strict) (node : Node S)
    (steps : Steps itemTerm (QuorumSystem.majority n) strict a b) (grows : Grows a b) (quiet : Quiet a b)
    (counts : ∀ {T L M}, a.lead T = some L → b.lead T = some M → ∀ j, j ≠ L.node →
      (L.node ≠ i ∨ ∃ call ∈ c.appendRequests, call.callee = j ∧ call.request.term = T ∧ Deliverable c call) →
        M.counted j = L.counted j)
    (knows : LeaderKnows b i node) (certified : Certified c b i node.commitIndex) :
    OrderedOk (c.setNode i node) b where
  leaders x M role ledM j other := by
    by_cases self : x = i
    · subst self
      rw [Cluster.setNode_self] at role ledM ⊢
      exact knows M role ledM j other
    · rw [Cluster.setNode_other c node self] at role ledM ⊢
      obtain ⟨L, leader⟩ := (sim.nodes x).leader role
      obtain ⟨M', ledM', _, start, longer, _⟩ := grows.lead leader.led
      cases ledM'.symm.trans ledM
      have counted := counts leader.led ledM j (by rw [leader.self]; exact other)
        (Or.inl (by rw [leader.self]; exact self))
      obtain ⟨matches_, prev⟩ := ok.leaders x L role leader.led j other
      exact ⟨counted ▸ matches_, prev.move sim.wf (sim.safe isStrict) (grows.term j) quiet.base leader.led
        start longer counted⟩
  requests call member deliverable M ledM := by
    obtain ⟨L, led, of⟩ := sim.messages.requests call member
    obtain ⟨M', ledM', _, start, longer, _⟩ := grows.lead led
    cases ledM'.symm.trans ledM
    exact (ok.requests call member deliverable L led).move sim.wf (sim.safe isStrict) (grows.term _)
      quiet.base led start longer (counts led ledM _ of.other (Or.inr ⟨call, member, rfl, rfl, deliverable⟩))
  replies reply member latest M ledM := by
    obtain ⟨handled, reached⟩ := sim.messages.replies reply member
    obtain ⟨L, led, of⟩ := sim.messages.requests reply.1 (sim.messages.handled _ handled)
    obtain ⟨M', ledM', same, _, longer, _⟩ := grows.lead led
    cases ledM'.symm.trans ledM
    exact (ok.replies reply member latest L led).move quiet of ledM same longer reached (grows.term _)
  commits T m member := (ok.commits T m member).steps steps
  covered := ok.covered
  certified x := by
    by_cases self : x = i
    · subst self
      rw [Cluster.setNode_self]
      exact certified
    · rw [Cluster.setNode_other c node self]
      exact (ok.certified x).move grows (quiet.log x) (sim.nodes x).commit (fun _ member => member)

/-- A node that becomes no leader, and that keeps what it knows about its followers if it is one. -/
structure Holds (i : Fin n) (before after : Node S) : Prop where
  leads : after.state = .leader → before.state = .leader ∧ after.currentTerm = before.currentTerm ∧
    ∀ j, j ≠ i → after.nextIndex j = before.nextIndex j ∧ after.matchIndex j = before.matchIndex j
  commit : after.commitIndex = before.commitIndex ∨ after.commitIndex = 0

/-- A node that holds its indices keeps the order. -/
theorem OrderedOk.hold (ok : OrderedOk c a) (sim : Sim P strict c a) (isStrict : strict) (node : Node S)
    (calm : Calm strict i a b) (holds : Holds i (c.nodes i) node) : OrderedOk (c.setNode i node) b := by
  refine ok.move sim isStrict node calm.steps calm.grows calm.quiet
    (fun led ledM j other _ => calm.counts led ledM j other) ?_ ?_
  · intro M role ledM j other
    obtain ⟨was, term, same⟩ := holds.leads role
    rw [term] at ledM ⊢
    rw [(same j other).1, (same j other).2]
    obtain ⟨L, leader⟩ := (sim.nodes i).leader was
    obtain ⟨M', ledM', _, start, longer, _⟩ := calm.grows.lead leader.led
    cases ledM'.symm.trans ledM
    have counted := calm.counts leader.led ledM j (by rw [leader.self]; exact other)
    obtain ⟨matches_, prev⟩ := ok.leaders i L was leader.led j other
    exact ⟨counted ▸ matches_, prev.move sim.wf (sim.safe isStrict) (calm.grows.term j) calm.quiet.base leader.led
      start longer counted⟩
  · rcases holds.commit with same | zero
    · rw [same]
      exact (ok.certified i).move calm.grows (calm.quiet.log i) (sim.nodes i).commit (fun _ member => member)
    · exact Or.inl zero

/-- The relation holds for a cluster in which only one node differs. -/
theorem Sim.update (sim : Sim P strict c a) (node : Node S)
    (steps : Steps itemTerm (QuorumSystem.majority n) strict a b) (grows : Grows a b) (frame : Frame i a b)
    (nodes : d.nodes = (c.setNode i node).nodes) (silent : ∀ x, x ≠ i → Silent x b c d) (ok : NodeOk P d b i node)
    (messages : MessagesOk P d b) (records : RecordsOk P d b) (ordered : strict → OrderedOk d b) :
    Sim P strict d b where
  wf := sim.wf.steps steps
  safe isStrict := (sim.safe isStrict).steps sim.wf isStrict steps
  nodes x := by
    rw [nodes]
    by_cases self : x = i
    · subst self
      rw [Cluster.setNode_self]
      exact ok
    · rw [Cluster.setNode_other c node self]
      exact (sim.nodes x).other grows (frame x self) (silent x self)
  messages := messages
  records := records
  ordered := ordered

/-- Messages and records do not depend on the nodes. -/
theorem MessagesOk.setNode {node : Node S} (ok : MessagesOk P c a) : MessagesOk P (c.setNode i node) a :=
  ⟨ok.voteRequests, ok.voteReplies, ok.requests, ok.numbered, ok.handled, ok.replies⟩

theorem RecordsOk.setNode {node : Node S} (ok : RecordsOk P c a) : RecordsOk P (c.setNode i node) a :=
  ⟨ok.elected, ok.distinct, ok.led, ok.created, ok.createdAt⟩

/-- The relation survives a calm move of one node that appends nothing. -/
theorem Sim.move {node : Node S} (sim : Sim P strict c a) (calm : Calm strict i a b) (entries : SameEntries a b)
    (ok : NodeOk P c b i node) (holds : Holds i (c.nodes i) node) : Sim P strict (c.setNode i node) b :=
  sim.update node calm.steps calm.grows calm.frame rfl (fun _ _ => .same rfl rfl) (ok.silent (.same rfl rfl))
    (sim.messages.grow calm.grows).setNode (sim.records.grow calm.grows entries).setNode
    fun isStrict => (sim.ordered isStrict).hold sim isStrict node calm holds

/-- A node changes and its part of the history does not. -/
theorem Sim.change {node : Node S} (sim : Sim P strict c a) (ok : NodeOk P c a i node)
    (holds : Holds i (c.nodes i) node) : Sim P strict (c.setNode i node) a :=
  sim.move (.refl strict i a) (SameEntries.refl a) ok holds

end Metamorphosis
