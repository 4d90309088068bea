import Metamorphosis.Proof.Simulation.Elections

namespace Metamorphosis
open ReplicatedLog
variable {n : Nat} {S : Service n} {P : Copies S} {strict : Prop} {c d : Cluster S} {a b : Hist S} {i : Fin n}

/-- A node that neither leads nor runs an election is known by its databases and its commit index. -/
theorem NodeOk.idle {node after : Node S} (ok : NodeOk P c a i node) (role : after.state ≠ .leader)
    (place : ∀ election, after.mainFiber ≠ .startCandidate election) (term : after.currentTerm = node.currentTerm)
    (vote : after.votedFor = node.votedFor) (log : after.raftLog = node.raftLog)
    (commit : after.commitIndex = node.commitIndex) : NodeOk P c a i after where
  term := by rw [term]; exact ok.term
  vote := by rw [term, vote]; exact ok.vote
  log := by rw [log]; exact ok.log
  commit := by rw [commit]; exact ok.commit
  election election electing := absurd electing (place election)
  leader leads := absurd leads role

/-- The main fiber of a follower starts to wait. -/
theorem Sim.startFollower (sim : Sim P strict c a) (role : (c.nodes i).state = .follower) :
    Sim P strict (c.setNode i (c.nodes i).following) a :=
  sim.change ((sim.nodes i).idle (by change (c.nodes i).state ≠ _; rw [role]; decide) (by rintro _ ⟨⟩) rfl rfl rfl rfl)
    (.same rfl rfl rfl rfl rfl)

/-- The main session of a leader never ends. -/
theorem Sim.main_running (sim : Sim P strict c a) (role : (c.nodes i).state = .leader) {fibers : LeaderFibers S}
    (leading : (c.nodes i).mainFiber = .startLeader fibers) : fibers.mainSession ≠ .finished := by
  obtain ⟨L, leader⟩ := (sim.nodes i).leader role
  exact (leader.fibers fibers leading).running

/-- A leader that has ended forgets what is pending. -/
theorem Sim.clearPending (sim : Sim P strict c a) {fibers : LeaderFibers S}
    (leading : (c.nodes i).mainFiber = .startLeader fibers) (ended : fibers.mainSession = .finished) :
    Sim P strict (c.setNode i { c.nodes i with pendingLog := [] }) a := by
  have role : (c.nodes i).state ≠ .leader := fun role => sim.main_running role leading ended
  refine sim.change ((sim.nodes i).idle role ?_ rfl rfl rfl rfl) (.same rfl rfl rfl rfl rfl)
  intro election electing
  cases leading.symm.trans electing

/-- A session of a node that leads no longer ends. -/
theorem Sim.sessionEnd (sim : Sim P strict c a) {fibers : LeaderFibers S} (j : Fin n)
    (role : (c.nodes i).state ≠ .leader) (session : Session n S.Entry) :
    Sim P strict (c.setNode i ((c.nodes i).withSession j fibers session)) a :=
  sim.change ((sim.nodes i).idle role (by rintro _ ⟨⟩) rfl rfl rfl rfl) (.same rfl rfl rfl rfl rfl)

/-- The main session of a node that leads no longer ends. -/
theorem Sim.endMain (sim : Sim P strict c a) (fibers : LeaderFibers S) (role : (c.nodes i).state ≠ .leader) :
    Sim P strict (c.setNode i ((c.nodes i).endMain i fibers)) a :=
  sim.change ((sim.nodes i).idle role (by rintro _ ⟨⟩) rfl rfl rfl rfl)
    ⟨fun leads => absurd leads role, Or.inl rfl⟩

/-- A leader with other fibers. -/
theorem LeaderOk.at {node after : Node S} {L : Leadership (Fin n) (Item S)} {fibers : LeaderFibers S}
    (ok : LeaderOk P c a i node L) (leading : after.mainFiber = .startLeader fibers)
    (running : FibersOk c a i after fibers) (term : after.currentTerm = node.currentTerm)
    (start : after.currentTermStartIndex = node.currentTermStartIndex) (next : after.nextIndex i = node.nextIndex i)
    (matched : after.matchIndex i = node.matchIndex i) (pending : after.pendingLog = node.pendingLog) :
    LeaderOk P c a i after L where
  led := by rw [term]; exact ok.led
  self := ok.self
  start := by rw [start]; exact ok.start
  next := by rw [next]; exact ok.next
  pending := by rw [pending]; exact ok.pending
  matched := by rw [matched]; exact ok.matched
  counted := ok.counted
  place := by rw [leading]; rintro ⟨⟩
  unsent election electing := by cases leading.symm.trans electing
  fibers others same := by
    cases leading.symm.trans same
    exact running

/-- A leader's databases and commit index are as before, and so is its leadership. -/
theorem NodeOk.leads {node after : Node S} (ok : NodeOk P c a i node) (term : after.currentTerm = node.currentTerm)
    (vote : after.votedFor = node.votedFor) (log : after.raftLog = node.raftLog)
    (commit : after.commitIndex ≤ (a.log i).length) {fibers : LeaderFibers S}
    (leading : after.mainFiber = .startLeader fibers) {L : Leadership (Fin n) (Item S)}
    (leader : LeaderOk P c a i after L) : NodeOk P c a i after where
  term := by rw [term]; exact ok.term
  vote := by rw [term, vote]; exact ok.vote
  log := by rw [log]; exact ok.log
  commit := commit
  election election electing := by cases leading.symm.trans electing
  leader _ := ⟨L, leader⟩

/-- A new leader starts its sessions. -/
theorem Sim.startLeader (sim : Sim P strict c a) (role : (c.nodes i).state = .leader)
    (joined : ∀ fibers, (c.nodes i).mainFiber = .startLeader fibers → fibers.mainSession = .finished) :
    Sim P strict (c.setNode i ((c.nodes i).leading i)) a := by
  have ok := sim.nodes i
  obtain ⟨L, leader⟩ := ok.leader role
  obtain ⟨election, electing⟩ : ∃ election, (c.nodes i).mainFiber = .startCandidate election := by
    cases place : (c.nodes i).mainFiber with
    | startFollower => exact absurd place leader.place
    | startCandidate election => exact ⟨election, rfl⟩
    | startLeader fibers => exact absurd (joined fibers place) (sim.main_running role place)
  refine sim.change (ok.leads rfl rfl rfl ok.commit rfl (leader.at rfl ?_ rfl rfl rfl rfl rfl))
    (.same rfl rfl rfl rfl rfl)
  refine ⟨by rintro ⟨⟩, fun started => absurd rfl started, if_pos rfl, ?_, ?_⟩
  · intro call member same
    exact absurd same (leader.unsent election electing call member)
  · intro j seq request session
    simp only at session
    split at session <;> cases session

/-- A session of a leader leaves its call. -/
theorem FibersOk.loop {node after : Node S} {fibers : LeaderFibers S} {j : Fin n} (ok : FibersOk c a i node fibers)
    (other : j ≠ i) (term : after.currentTerm = node.currentTerm)
    (next : ∀ x, x ≠ j → after.nextIndex x = node.nextIndex x) (matched : after.matchIndex i = node.matchIndex i) :
    FibersOk c a i after { fibers with session := Function.update fibers.session j .loop } where
  running := ok.running
  saved started := by rw [matched]; exact ok.saved started
  own := (Function.update_of_ne other.symm ..).trans ok.own
  issued call member same := ok.issued call member (same.trans term)
  calling x seq request session := by
    have different : x ≠ j := by
      rintro rfl
      simp only [Function.update_self] at session
      cases session
    simp only [Function.update_of_ne different] at session
    rw [term, next x different]
    exact ok.calling x seq request session

/-- The session of a waiting call belongs to another node. -/
theorem FibersOk.other {node : Node S} {fibers : LeaderFibers S} {j : Fin n} {seq : Nat}
    {request : AppendEntriesRequest n S.Entry} (ok : FibersOk c a i node fibers)
    (session : fibers.session j = .calling seq request) : j ≠ i := by
  rintro rfl
  cases ok.own.symm.trans session

/-- A leader whose session has left its call; only the extra members may differ otherwise. -/
theorem Sim.leaveCall (sim : Sim P strict c a) {fibers : LeaderFibers S} {j : Fin n} {seq : Nat}
    {request : AppendEntriesRequest n S.Entry} (leading : (c.nodes i).mainFiber = .startLeader fibers)
    (session : fibers.session j = .calling seq request) (role : (c.nodes i).state = .leader) (ext : S.Ext) :
    Sim P strict (c.setNode i (((c.nodes i).withSession j fibers .loop).withExt ext)) a := by
  have ok := sim.nodes i
  obtain ⟨L, leader⟩ := ok.leader role
  have running := leader.fibers fibers leading
  exact sim.change (ok.leads rfl rfl rfl ok.commit rfl
    (leader.at rfl (running.loop (running.other session) rfl (fun _ _ => rfl) rfl) rfl rfl rfl rfl rfl))
    (.same rfl rfl rfl rfl rfl)

/-- What a leader knows when the call that it waits for was answered: the call is the last one of
its session, it was handled, and its follower has reached the leader's term. -/
structure Answer (c : Cluster S) (a : Hist S) (i : Fin n) (call : AppendCall S)
    (request : AppendEntriesRequest n S.Entry) : Prop where
  other : call.callee ≠ i
  asked : call.request = request
  term : request.term = (c.nodes i).currentTerm
  next : request.prevLogIndex + 1 = (c.nodes i).nextIndex call.callee
  sent : call ∈ c.appendRequests
  handled : call ∈ c.handled
  reached : (c.nodes i).currentTerm ≤ a.term call.callee
  last : ∀ other ∈ c.appendRequests, other.SameSession call → other.seq ≤ call.seq

/-- The answer to a call belongs to the request that the leader has sent. -/
theorem Sim.answer_known (sim : Sim P strict c a) {fibers : LeaderFibers S} {call : AppendCall S}
    {request : AppendEntriesRequest n S.Entry} {response : AppendEntriesResult}
    (leading : (c.nodes i).mainFiber = .startLeader fibers)
    (session : fibers.session call.callee = .calling call.seq request) (role : (c.nodes i).state = .leader)
    (replied : (call, response) ∈ c.appendReplies) (own : call.request.leaderId = i)
    (asked : call.request.term = request.term) : Answer c a i call request := by
  obtain ⟨L, leader⟩ := (sim.nodes i).leader role
  have running := leader.fibers fibers leading
  obtain ⟨waiting, number, term, sender, next⟩ := running.calling _ _ _ session
  obtain ⟨handled, reached⟩ := sim.messages.replies _ replied
  have sent := sim.messages.handled _ handled
  have same := sim.messages.numbered call sent _ waiting ⟨rfl, own.trans sender.symm, asked⟩ rfl
  refine ⟨running.other session, by rw [same], term, next, sent, handled, ?_, ?_⟩
  · rw [← term, ← asked]
    exact reached
  · intro other member ⟨callee, _, sameTerm⟩
    have bound := running.issued other member (sameTerm.trans (asked.trans term))
    rw [callee] at bound
    omega

/-- Nothing can be delivered in a session whose last call was handled. -/
theorem Answer.undeliverable {call other : AppendCall S} {request : AppendEntriesRequest n S.Entry}
    (answer : Answer c a i call request) (member : other ∈ c.appendRequests) (same : other.SameSession call) :
    ¬ Deliverable c other := by
  intro deliverable
  have older := answer.last other member same
  have newer := deliverable call answer.handled ⟨same.1.symm, same.2.1.symm, same.2.2.symm⟩
  omega

/-- The answered request is the latest one that its callee has handled. -/
theorem Answer.latest {call : AppendCall S} {request : AppendEntriesRequest n S.Entry}
    (answer : Answer c a i call request) (messages : MessagesOk P c a) : Latest c call :=
  fun other handled same => answer.last other (messages.handled _ handled) same

/-- The counts of the other nodes stay. -/
theorem count_other (L : Leadership (Fin n) (Item S)) {j x : Fin n} (m : Nat) (other : x ≠ j) :
    (L.count j m).counted x = L.counted x := Function.update_of_ne other ..

/-- A count only grows. -/
theorem count_self (L : Leadership (Fin n) (Item S)) (j : Fin n) (m : Nat) :
    (L.count j m).counted j = max (L.counted j) m := Function.update_self ..

/-- The last index that a request covers. -/
def AppendEntriesRequest.lastIndex (request : AppendEntriesRequest n S.Entry) : Nat :=
  request.prevLogIndex + request.entries.length

/-- A leader after an acknowledgement. -/
theorem LeaderKnows.acknowledged {L : Leadership (Fin n) (Item S)} {fibers : LeaderFibers S} {call : AppendCall S}
    (ordered : OrderedOk c a) (sim : Sim P strict c a) (isStrict : strict)
    (answer : Answer c a i call call.request) (role : (c.nodes i).state = .leader)
    (led : a.lead (c.nodes i).currentTerm = some L) :
    LeaderKnows (a.setLead (c.nodes i).currentTerm (L.count call.callee call.request.lastIndex)) i
      (((c.nodes i).answered i call.callee fibers).acknowledged call.callee call.request) := by
  intro M _ ledM j other
  have now : (a.setLead (c.nodes i).currentTerm (L.count call.callee call.request.lastIndex)).lead
      (c.nodes i).currentTerm = some (L.count call.callee call.request.lastIndex) := Function.update_self ..
  cases now.symm.trans ledM
  obtain ⟨matched, prev⟩ := ordered.leaders i L role led j other
  by_cases same : j = call.callee
  · subst same
    have atPrev : (c.nodes i).nextIndex call.callee - 1 = call.request.prevLogIndex := by
      have next := answer.next
      omega
    have atLast : (c.nodes i).nextIndex call.callee + call.request.entries.length - 1 = call.request.lastIndex := by
      have next := answer.next
      rw [AppendEntriesRequest.lastIndex]
      omega
    rw [atPrev] at prev
    simp only [Node.acknowledged, Node.answered, Node.withExt, Node.withSession, Function.update_self]
    rw [atLast, count_self]
    refine ⟨Nat.le_max_right .., fun behind => ?_, fun current => ?_⟩
    · exact absurd answer.reached (Nat.not_le.mpr behind)
    · have floor := prev.current current
      have long : call.request.prevLogIndex ≤ call.request.lastIndex := Nat.le_add_right ..
      refine ⟨?_, fun m inside shared => (floor.shared m inside shared).trans long⟩
      rw [count_self]
      exact Nat.max_le.mpr ⟨floor.counted.trans long, Nat.le_refl _⟩
  · simp only [Node.acknowledged, Node.answered, Node.withExt, Node.withSession, Function.update_of_ne same]
    rw [count_other L _ same]
    exact ⟨matched, prev.move sim.wf (sim.safe isStrict) (Nat.le_refl _) (fun _ => rfl) led rfl List.prefix_rfl
      (count_other L _ same)⟩

/-- An acknowledged request raises what the leader counts of the follower. -/
theorem Sim.acknowledge (sim : Sim P strict c a) {fibers : LeaderFibers S} {call : AppendCall S}
    {request : AppendEntriesRequest n S.Entry} {response : AppendEntriesResult}
    (leading : (c.nodes i).mainFiber = .startLeader fibers)
    (session : fibers.session call.callee = .calling call.seq request) (role : (c.nodes i).state = .leader)
    (replied : (call, response) ∈ c.appendReplies) (own : call.request.leaderId = i)
    (asked : call.request.term = request.term) (success : response.success = true) :
    Matched P strict a
      (c.setNode i (((c.nodes i).answered i call.callee fibers).acknowledged call.callee request)) := by
  have ok := sim.nodes i
  obtain ⟨L, leader⟩ := ok.leader role
  have running := leader.fibers fibers leading
  have answer := sim.answer_known leading session role replied own asked
  obtain rfl := answer.asked
  have other := answer.other
  have taken : Step itemTerm (QuorumSystem.majority n) strict a
      (a.setLead (c.nodes i).currentTerm (L.count call.callee call.request.lastIndex)) := by
    refine .count a _ L call.callee _ leader.led fun isStrict => ?_
    rw [← answer.term]
    exact ((sim.ordered isStrict).replies _ replied (answer.latest sim.messages) L
      (by rw [answer.term]; exact leader.led)).success success
  have grows := sim.wf.grows taken
  have frame : Frame i a (a.setLead (c.nodes i).currentTerm (L.count call.callee call.request.lastIndex)) := by
    have frame := Frame.setLead (M := L.count call.callee call.request.lastIndex) (Or.inl leader.led) rfl
    rwa [leader.self] at frame
  have entries : SameEntries a (a.setLead (c.nodes i).currentTerm (L.count call.callee call.request.lastIndex)) :=
    SameEntries.count leader.led _ _
  refine ⟨_, .single taken, sim.update _ (.single taken) grows frame rfl (fun _ _ => .same rfl rfl) ?_
    (sim.messages.grow grows).setNode (sim.records.grow grows entries).setNode fun isStrict => ?_⟩
  · have looped : FibersOk c a i
        (((c.nodes i).answered i call.callee fibers).acknowledged call.callee call.request) _ :=
      running.loop other rfl (fun x different => Function.update_of_ne different ..)
        (Function.update_of_ne other.symm ..)
    refine ⟨ok.term, ok.vote, ok.log, ok.commit, by rintro _ ⟨⟩, fun _ => ⟨L.count call.callee call.request.lastIndex, {
      led := Function.update_self ..
      self := leader.self
      start := leader.start
      next := (Function.update_of_ne other.symm ..).trans leader.next
      pending := leader.pending
      matched := (Nat.le_of_eq (Function.update_of_ne other.symm ..)).trans leader.matched
      counted := leader.counted.trans_eq (count_other L _ other.symm).symm
      place := by rintro ⟨⟩
      unsent := by rintro _ ⟨⟩
      fibers := by
        rintro _ ⟨⟩
        exact ⟨looped.running, looped.saved, looped.own, looped.issued, looped.calling⟩ }⟩⟩
  · refine (sim.ordered isStrict).move sim isStrict _ (.single taken) grows (.setLead ..) ?_
      (.acknowledged (sim.ordered isStrict) sim isStrict answer role leader.led)
      (((sim.ordered isStrict).certified i).move grows List.prefix_rfl ok.commit fun _ member => member)
    intro T K M ledK ledM j different reason
    rcases setLead_cases ledM with ⟨rfl, rfl⟩ | ⟨_, old⟩
    · cases leader.led.symm.trans ledK
      apply count_other
      rintro rfl
      rcases reason with foreign | ⟨others, member, callee, term, deliverable⟩
      · exact foreign leader.self
      · obtain ⟨K, ledK, of⟩ := sim.messages.requests others member
        rw [term] at ledK
        cases leader.led.symm.trans ledK
        exact answer.undeliverable member
          ⟨callee, by rw [← of.sender, leader.self, own], term.trans answer.term.symm⟩ deliverable
    · cases ledK.symm.trans old
      rfl

/-- A refused request shows that the follower keeps less than the leader hoped for. -/
theorem Floor.stepBack {L : Leadership (Fin n) (Item S)} {j : Fin n} {prev : Nat} (floor : Floor a L j prev)
    (wf : Wf itemTerm (QuorumSystem.majority n) a) (safe : Safe (QuorumSystem.majority n) a)
    (led : a.lead (a.term j) = some L) (differs : (a.log j).take prev ≠ L.entries.take prev) :
    Floor a L j (prev - 1) := by
  refine ⟨?_, fun m inside shared => ?_⟩
  · rcases Nat.lt_or_eq_of_le floor.counted with less | same
    · omega
    · have acked := safe.counted led j
      exact absurd (take_of_take (same ▸ acked) (wf.ackHeld led)) differs
  · rcases Nat.lt_or_eq_of_le (floor.shared m inside shared) with less | same
    · omega
    · exact absurd (same ▸ safe.kept led m inside shared) differs

/-- A refused request changes no history. -/
theorem Sim.stepBack (sim : Sim P strict c a) {fibers : LeaderFibers S} {call : AppendCall S}
    {request : AppendEntriesRequest n S.Entry} {response : AppendEntriesResult}
    (leading : (c.nodes i).mainFiber = .startLeader fibers)
    (session : fibers.session call.callee = .calling call.seq request) (role : (c.nodes i).state = .leader)
    (replied : (call, response) ∈ c.appendReplies) (own : call.request.leaderId = i)
    (asked : call.request.term = request.term) (notLater : response.term ≤ (c.nodes i).currentTerm)
    (failure : response.success = false) :
    Sim P strict (c.setNode i (((c.nodes i).answered i call.callee fibers).stepBack call.callee)) a := by
  have ok := sim.nodes i
  obtain ⟨L, leader⟩ := ok.leader role
  have running := leader.fibers fibers leading
  have answer := sim.answer_known leading session role replied own asked
  obtain rfl := answer.asked
  have other := answer.other
  have nodeOk : NodeOk P c a i (((c.nodes i).answered i call.callee fibers).stepBack call.callee) := by
    refine ok.leads rfl rfl rfl ok.commit rfl (leader.at rfl (running.loop other rfl ?_ rfl) rfl rfl ?_ rfl rfl)
    · exact fun x different => Function.update_of_ne different ..
    · exact Function.update_of_ne other.symm ..
  refine sim.update _ .refl (.refl a) (.refl i a) rfl (fun _ _ => .same rfl rfl) (nodeOk.silent (.same rfl rfl))
    sim.messages.setNode sim.records.setNode fun isStrict => ?_
  have ordered := sim.ordered isStrict
  refine ordered.move sim isStrict _ .refl (.refl a) (.refl a) (fun led ledM j different _ => SameCounts.refl a led
    ledM j different) ?_ (ordered.certified i)
  intro M _ led j different
  cases leader.led.symm.trans led
  obtain ⟨matched, prev⟩ := ordered.leaders i L role leader.led j different
  by_cases same : j = call.callee
  · subst same
    have next := answer.next
    have atPrev : (c.nodes i).nextIndex call.callee - 1 = call.request.prevLogIndex := by omega
    have before : (c.nodes i).nextIndex call.callee - 1 - 1 = call.request.prevLogIndex - 1 := by omega
    rw [atPrev] at prev
    simp only [Node.stepBack, Node.answered, Node.withExt, Node.withSession, Function.update_self]
    rw [before]
    refine ⟨matched, fun behind => absurd answer.reached (Nat.not_le.mpr behind), fun current => ?_⟩
    have ledCallee : a.lead (a.term call.callee) = some L := by
      rw [current]
      exact leader.led
    refine (prev.current current).stepBack sim.wf (sim.safe isStrict) ledCallee ?_
    refine (ordered.replies _ replied (answer.latest sim.messages) L ?_).failure failure ?_ ?_
    · rw [answer.term]
      exact leader.led
    · rw [answer.term]
      exact notLater
    · rw [answer.term]
      exact current
  · simp only [Node.stepBack, Node.answered, Node.withExt, Node.withSession, Function.update_of_ne same]
    exact ⟨matched, prev⟩

/-- The members that serve only the clients of a node do not matter, nor does a certified commit index. -/
theorem Sim.recommit (sim : Sim P strict c a) {index : Nat} (inside : index ≤ (a.log i).length)
    (certified : strict → Certified c a i index) (pending : Nat → Option Nat) (calls : List (Call S)) (ext : S.Ext) :
    Sim P strict (c.setNode i { c.nodes i with
      commitIndex := index, pendingRequests := pending, calls := calls, ext := ext }) a := by
  have ok := sim.nodes i
  have nodeOk : NodeOk P c a i { c.nodes i with
      commitIndex := index, pendingRequests := pending, calls := calls, ext := ext } := by
    refine ⟨ok.term, ok.vote, ok.log, inside, fun election electing => ?_, fun role => ?_⟩
    · exact (ok.election election electing).keep (.refl a) (fun _ member => member)
        fun role => ⟨role, rfl, rfl, fun _ _ _ led => led⟩
    · obtain ⟨L, leader⟩ := ok.leader role
      exact ⟨L, leader.keep leader.led rfl (.same rfl rfl) rfl rfl rfl rfl rfl rfl⟩
  refine sim.update _ .refl (.refl a) (.refl i a) rfl (fun _ _ => .same rfl rfl) (nodeOk.silent (.same rfl rfl))
    sim.messages.setNode sim.records.setNode fun isStrict => ?_
  have ordered := sim.ordered isStrict
  exact ordered.move sim isStrict _ .refl (.refl a) (.refl a)
    (fun led ledM j different _ => SameCounts.refl a led ledM j different)
    (fun L role led j other => ordered.leaders i L role led j other) (certified isStrict)

/-- What a leader commits is chosen in its term. -/
theorem Sim.chosen (sim : Sim P strict c a) (isStrict : strict) (role : (c.nodes i).state = .leader) {index : Nat}
    (inside : index ≤ (a.log i).length) (own : (c.nodes i).currentTermStartIndex ≤ index)
    (majority : majorityCount n ≤ (c.nodes i).matchCount index) :
    Chosen (QuorumSystem.majority n) a (c.nodes i).currentTerm index := by
  obtain ⟨L, leader⟩ := (sim.nodes i).leader role
  have saved : a.log i <+: L.entries := by
    have both := sim.wf.leaderLog (L := L) (by rw [leader.self, (sim.nodes i).term]; exact leader.led)
    rw [leader.self] at both
    exact both.1
  have start := leader.start
  refine ⟨L, leader.led, by omega, inside.trans saved.length_le, ?_⟩
  refine ⟨Finset.univ.filter fun j => index ≤ (c.nodes i).matchIndex j, fun j member => ?_, majority⟩
  have stored := (Finset.mem_filter.mp member).2
  by_cases self : j = i
  · subst self
    exact stored.trans (leader.matched.trans leader.counted)
  · exact stored.trans ((sim.ordered isStrict).leaders i L role leader.led j self).1

/-- A leader records that it has committed an index. -/
def Cluster.noteCommitted (c : Cluster S) (term index : Nat) : Cluster S :=
  { c with commits := c.commits ++ [(term, index)] }

/-- A chosen index may be recorded as committed. -/
theorem Sim.noteCommitted (sim : Sim P strict c a) {T m : Nat}
    (chosen : strict → Chosen (QuorumSystem.majority n) a T m) : Sim P strict (c.noteCommitted T m) a := by
  have messages := sim.messages
  have records := sim.records
  refine ⟨sim.wf, sim.safe, fun x => (sim.nodes x).silent (.same rfl rfl),
    ⟨messages.voteRequests, messages.voteReplies, messages.requests, messages.numbered, messages.handled,
      messages.replies⟩,
    ⟨records.elected, records.distinct, records.led, records.created, records.createdAt⟩, fun isStrict => ?_⟩
  have ordered := sim.ordered isStrict
  refine ⟨ordered.leaders, ordered.requests, ordered.replies, fun U k member => ?_, fun call member => ?_, fun x => ?_⟩
  · rcases List.mem_append.mp member with old | new
    · exact ordered.commits U k old
    · cases List.mem_singleton.mp new
      exact chosen isStrict
  · rcases ordered.covered call member with zero | ⟨U, k, committed, rest⟩
    · exact Or.inl zero
    · exact Or.inr ⟨U, k, List.mem_append_left _ committed, rest⟩
  · exact (ordered.certified x).move (.refl a) List.prefix_rfl (sim.nodes x).commit
      fun _ member => List.mem_append_left _ member

/-- What a leader commits is chosen in the abstract history. -/
theorem Sim.commit (sim : Sim P strict c a) {after : Node S} (role : (c.nodes i).state = .leader)
    (updated : (c.nodes i).updatedCommit = some after) :
    Sim P strict (Cluster.noteCommit (c.nodes i).commitIndex i (c.setNode i after)) a := by
  obtain ⟨result, _, same⟩ := Option.map_eq_some_iff.mp updated
  have ok := sim.nodes i
  have noted : ((c.setNode i after).nodes i).commitIndex = (c.nodes i).findCommitIndex (c.nodes i).getSavedLogSize := by
    rw [Cluster.setNode_self, ← same]
    rfl
  simp only [Cluster.noteCommit]
  rw [noted]
  rcases (c.nodes i).findCommitIndex_cases (c.nodes i).getSavedLogSize with old | ⟨later, within, own, majority⟩
  · rw [if_neg (by omega), ← same, old]
    exact sim.recommit ok.commit (fun isStrict => (sim.ordered isStrict).certified i) _ _ _
  · rw [if_pos later, ← same]
    rw [ok.log.size] at within own majority ⊢
    have chosen (isStrict : strict) := sim.chosen isStrict role within own majority
    have noting := sim.noteCommitted chosen
    have recommitted := noting.recommit within (fun isStrict => ?_) (c.nodes i).pendingRequests result.2 result.1
    · rw [Cluster.setNode_self]
      exact recommitted
    · obtain ⟨L, leader⟩ := ok.leader role
      have both := sim.wf.leaderLog (L := L) (by rw [leader.self, ok.term]; exact leader.led)
      rw [leader.self] at both
      refine Or.inr ⟨(c.nodes i).currentTerm, _, L, List.mem_append_right _ (List.mem_singleton.mpr rfl), ?_,
        Nat.le_refl _, leader.led, (take_of_grows both.1 within).symm⟩
      rw [ok.term]

end Metamorphosis
