import Metamorphosis.Proof.Simulation.Entries

/-!
How entries travel: a leader's session sends a window of its log, and a follower rewrites its log
with it.
-/

namespace Metamorphosis
open ReplicatedLog
variable {n : Nat} {S : Service n} {P : Copies S} {strict : Prop} {c d : Cluster S} {a b : Hist S} {i : Fin n}

/-- A stored entry names the term of the log up to it. -/
theorem Stores.lastTerm_take {map : OrderedMap S.Entry} {items : List (Item S)} (stores : Stores P map items)
    {index : Nat} {copy : S.Entry} (present : map.get? index = some copy) :
    index ≤ items.length ∧ ReplicatedLog.lastTerm itemTerm (items.take index) = S.term copy := by
  obtain ⟨positive, item, found, related⟩ := stores.found present
  have inside := (List.getElem?_eq_some_iff.mp found).1
  obtain ⟨index, rfl⟩ : ∃ k, index = k + 1 := ⟨index - 1, by omega⟩
  exact ⟨inside, (ReplicatedLog.lastTerm_take itemTerm found).trans (P.term related).symm⟩

/-- The request of a session carries a window of the leader's log. -/
theorem Sim.requestOf (sim : Sim P strict c a) {L : Leadership (Fin n) (Item S)}
    (leader : LeaderOk P c a i (c.nodes i) L) {j : Fin n} (other : j ≠ i) {count seq prevLogTerm : Nat}
    {entries : List S.Entry} (positive : 1 ≤ (c.nodes i).nextIndex j)
    (previous : (c.nodes i).prevLogTerm j = some prevLogTerm)
    (collected : (c.nodes i).collectEntries ((c.nodes i).nextIndex j) count = some entries) :
    RequestOf P ⟨j, seq, (c.nodes i).sessionRequest i j prevLogTerm entries⟩ L := by
  have ok := sim.nodes i
  obtain ⟨_, saved, _, whole⟩ := ok.leader_log sim.wf leader
  obtain ⟨length, bound, mirrors⟩ := ok.log.collectEntries leader.pending positive collected
  rw [whole] at bound mirrors
  -- The term before the window was read from the saved log, so the window starts inside it.
  have before : (c.nodes i).nextIndex j - 1 ≤ (a.log i).length ∧
      prevLogTerm = lastTerm itemTerm ((a.log i).take ((c.nodes i).nextIndex j - 1)) := by
    rw [Node.prevLogTerm] at previous
    split at previous
    · rename_i first
      cases previous
      rw [first]
      exact ⟨Nat.zero_le _, rfl⟩
    · obtain ⟨copy, present, rfl⟩ := Option.map_eq_some_iff.mp previous
      obtain ⟨inside, same⟩ := ok.log.lastTerm_take present
      exact ⟨inside, same.symm⟩
  have inside := saved.length_le
  refine ⟨leader.self, by rw [leader.self]; exact other, ?_, ?_, ?_⟩
  · change (c.nodes i).nextIndex j - 1 + entries.length ≤ L.entries.length
    rw [length]
    by_cases empty : count = 0
    · omega
    · exact bound (by omega)
  · change Mirrors P entries ((L.entries.drop ((c.nodes i).nextIndex j - 1)).take entries.length)
    rw [length]
    exact mirrors
  · change prevLogTerm = lastTerm itemTerm (L.entries.take ((c.nodes i).nextIndex j - 1))
    rw [take_of_grows saved before.1]
    exact before.2

/-- The sessions of a leader after one of them has sent a request. -/
theorem FibersOk.send {node : Node S} {fibers : LeaderFibers S} {j : Fin n} {request : AppendEntriesRequest n S.Entry}
    (ok : FibersOk c a i node fibers) (session : fibers.session j = .loop) (term : request.term = node.currentTerm)
    (sender : request.leaderId = i) (next : request.prevLogIndex + 1 = node.nextIndex j) :
    FibersOk (c.sendAppend j (fibers.issued j) request) a i (node.calling j fibers request)
      { fibers with
        session := Function.update fibers.session j (.calling (fibers.issued j) request)
        issued := Function.update fibers.issued j (fibers.issued j + 1) } where
  running := ok.running
  saved := ok.saved
  own := by
    have other : i ≠ j := by
      rintro rfl
      cases ok.own.symm.trans session
    exact (Function.update_of_ne other ..).trans ok.own
  issued call member same := by
    change call.seq < Function.update fibers.issued j (fibers.issued j + 1) call.callee
    rcases List.mem_append.mp member with old | new
    · have number := ok.issued call old same
      by_cases here : call.callee = j
      · rw [here] at number ⊢
        rw [Function.update_self]
        omega
      · rwa [Function.update_of_ne here]
    · rw [List.mem_singleton.mp new, Function.update_self]
      exact Nat.lt_succ_self _
  calling x seq sent calling := by
    by_cases here : x = j
    · subst here
      simp only [Function.update_self] at calling ⊢
      cases calling
      exact ⟨List.mem_append_right _ (List.mem_singleton.mpr rfl), rfl, term, sender, next⟩
    · simp only [Function.update_of_ne here] at calling ⊢
      obtain ⟨known, rest⟩ := ok.calling x seq sent calling
      exact ⟨List.mem_append_left _ known, rest⟩

/-- A new request has a number that its session has not used. -/
theorem MessagesOk.send {call : AppendCall S} (ok : MessagesOk P c a) {L : Leadership (Fin n) (Item S)}
    (led : a.lead call.request.term = some L) (of : RequestOf P call L)
    (fresh : ∀ other ∈ c.appendRequests, other.SameSession call → other.seq ≠ call.seq) :
    MessagesOk P (c.sendAppend call.callee call.seq call.request) a where
  voteRequests := ok.voteRequests
  voteReplies := ok.voteReplies
  requests other member := by
    rcases List.mem_append.mp member with old | new
    · exact ok.requests other old
    · rw [List.mem_singleton.mp new]
      exact ⟨L, led, of⟩
  numbered first firstMember second secondMember session number := by
    rcases List.mem_append.mp firstMember with firstOld | firstNew <;>
      rcases List.mem_append.mp secondMember with secondOld | secondNew
    · exact ok.numbered first firstOld second secondOld session number
    · rw [List.mem_singleton.mp secondNew] at session number
      exact absurd number (fresh first firstOld session)
    · rw [List.mem_singleton.mp firstNew] at session number
      exact absurd number.symm (fresh second secondOld ⟨session.1.symm, session.2.1.symm, session.2.2.symm⟩)
    · rw [List.mem_singleton.mp firstNew, List.mem_singleton.mp secondNew]
  handled other member := List.mem_append_left _ (ok.handled other member)
  replies := ok.replies

/-- A request carries a part of the log of its term. -/
theorem Sim.send (sim : Sim P strict c a) {j : Fin n} {fibers : LeaderFibers S} {prevLogTerm count : Nat}
    {entries : List S.Entry} (leading : (c.nodes i).mainFiber = .startLeader fibers)
    (session : fibers.session j = .loop) (role : (c.nodes i).state = .leader)
    (positive : 1 ≤ (c.nodes i).nextIndex j) (previous : (c.nodes i).prevLogTerm j = some prevLogTerm)
    (collected : (c.nodes i).collectEntries ((c.nodes i).nextIndex j) count = some entries) :
    Sim P strict
      ((c.setNode i ((c.nodes i).calling j fibers ((c.nodes i).sessionRequest i j prevLogTerm entries))).sendAppend
        j (fibers.issued j) ((c.nodes i).sessionRequest i j prevLogTerm entries)) a := by
  have ok := sim.nodes i
  obtain ⟨L, leader⟩ := ok.leader role
  have running := leader.fibers fibers leading
  have other : j ≠ i := by
    rintro rfl
    cases running.own.symm.trans session
  have of : RequestOf P ⟨j, fibers.issued j, (c.nodes i).sessionRequest i j prevLogTerm entries⟩ L :=
    sim.requestOf leader other positive previous collected
  have sent := sim.messages.send leader.led of fun earlier member same number => by
    have bound := running.issued earlier member same.2.2
    rw [same.1] at bound
    exact absurd number (Nat.ne_of_lt bound)
  have records := sim.records
  refine sim.update ((c.nodes i).calling j fibers ((c.nodes i).sessionRequest i j prevLogTerm entries)) .refl
    (.refl a) (.refl i a) rfl ?_ ?_ ⟨sent.voteRequests, sent.voteReplies, sent.requests, sent.numbered, sent.handled,
      sent.replies⟩
    ⟨records.elected, records.distinct, records.led, records.created, records.createdAt⟩ fun isStrict => ?_
  · intro x different
    refine ⟨fun _ member => member, fun _ member => List.mem_append_left _ member, fun call member => ?_⟩
    rcases List.mem_append.mp member with old | new
    · exact Or.inl old
    · rw [List.mem_singleton.mp new]
      exact Or.inr ⟨L, leader.led, by rw [leader.self]; exact different.symm⟩
  · have next : ((c.nodes i).sessionRequest i j prevLogTerm entries).prevLogIndex + 1 = (c.nodes i).nextIndex j :=
      Nat.sub_add_cancel positive
    have fibersOk := running.send session rfl rfl next
    refine ⟨ok.term, ok.vote, ok.log, ok.commit, by rintro _ ⟨⟩, fun _ => ⟨L, leader.led, leader.self, leader.start,
      leader.next, leader.pending, leader.matched, leader.counted, by rintro ⟨⟩, by rintro _ ⟨⟩, ?_⟩⟩
    rintro _ ⟨⟩
    exact ⟨fibersOk.running, fibersOk.saved, fibersOk.own, fibersOk.issued, fibersOk.calling⟩
  · have ordered := sim.ordered isStrict
    have moved : OrderedOk (c.setNode i
        ((c.nodes i).calling j fibers ((c.nodes i).sessionRequest i j prevLogTerm entries))) a :=
      ordered.hold sim isStrict _ (.refl strict i a) (.same rfl rfl rfl rfl rfl)
    refine ⟨moved.leaders, ?_, moved.replies, moved.commits, ?_, moved.certified⟩
    · intro call member deliverable M ledM
      rcases List.mem_append.mp member with old | new
      · exact moved.requests call old deliverable M ledM
      · rw [List.mem_singleton.mp new] at ledM ⊢
        cases leader.led.symm.trans ledM
        exact (ordered.leaders i L role leader.led j other).2
    · intro call member
      rcases List.mem_append.mp member with old | new
      · exact moved.covered call old
      · rw [List.mem_singleton.mp new]
        rcases ordered.certified i with zero | ⟨T, m, M, committed, reached, within, _⟩
        · exact Or.inl zero
        · exact Or.inr ⟨T, m, committed, reached.trans_eq ok.term, within⟩

/-- A handled call narrows what can still be delivered. -/
theorem Sim.handle (sim : Sim P strict c a) {call : AppendCall S} (sent : call ∈ c.appendRequests) :
    Sim P strict (c.handle call) a := by
  have messages := sim.messages
  have records := sim.records
  refine ⟨sim.wf, sim.safe, fun x => (sim.nodes x).silent (.same rfl rfl),
    ⟨messages.voteRequests, messages.voteReplies, messages.requests, messages.numbered, ?_, ?_⟩,
    ⟨records.elected, records.distinct, records.led, records.created, records.createdAt⟩, fun isStrict => ?_⟩
  · intro other member
    rcases List.mem_append.mp member with old | new
    · exact messages.handled other old
    · rw [List.mem_singleton.mp new]
      exact sent
  · intro reply member
    obtain ⟨handled, reached⟩ := messages.replies reply member
    exact ⟨List.mem_append_left _ handled, reached⟩
  · have ordered := sim.ordered isStrict
    refine ⟨ordered.leaders, fun other member deliverable => ?_, fun reply member latest => ?_, ordered.commits,
      ordered.covered, ordered.certified⟩
    · exact ordered.requests other member fun earlier handled => deliverable earlier (List.mem_append_left _ handled)
    · exact ordered.replies reply member fun other handled => latest other (List.mem_append_left _ handled)

/-- A handled call is answered. -/
def Cluster.answerAppend (c : Cluster S) (call : AppendCall S) (result : AppendEntriesResult) : Cluster S :=
  { c with appendReplies := c.appendReplies ++ [(call, result)] }

/-- The reply to a handled request. -/
theorem Sim.answerAppend (sim : Sim P strict c a) {call : AppendCall S} {result : AppendEntriesResult}
    (handled : call ∈ c.handled) (reached : call.request.term ≤ a.term call.callee)
    (replyOk : strict → ∀ L, a.lead call.request.term = some L → ReplyOk a L call result) :
    Sim P strict (c.answerAppend call result) a := by
  have messages := sim.messages
  have records := sim.records
  refine ⟨sim.wf, sim.safe, fun x => (sim.nodes x).silent (.same rfl rfl),
    ⟨messages.voteRequests, messages.voteReplies, messages.requests, messages.numbered, messages.handled, ?_⟩,
    ⟨records.elected, records.distinct, records.led, records.created, records.createdAt⟩, fun isStrict => ?_⟩
  · intro reply member
    rcases List.mem_append.mp member with old | new
    · exact messages.replies reply old
    · rw [List.mem_singleton.mp new]
      exact ⟨handled, reached⟩
  · have ordered := sim.ordered isStrict
    refine ⟨ordered.leaders, ordered.requests, fun reply member latest L led => ?_, ordered.commits,
      ordered.covered, ordered.certified⟩
    rcases List.mem_append.mp member with old | new
    · exact ordered.replies reply old latest L led
    · rw [List.mem_singleton.mp new] at led ⊢
      exact replyOk isStrict L led

theorem handle_mem (c : Cluster S) (call : AppendCall S) : call ∈ (c.handle call).handled :=
  List.mem_append_right _ (List.mem_singleton.mpr rfl)

/-- A request of an older term is answered without any change. -/
theorem Sim.refuse (sim : Sim P strict c a) {call : AppendCall S} (sent : call ∈ c.appendRequests)
    (old : call.request.term < (c.nodes call.callee).currentTerm) :
    Sim P strict (c.replyAppend call ⟨(c.nodes call.callee).currentTerm, false⟩) a := by
  refine (sim.handle sent).answerAppend (handle_mem c call) ?_ fun _ L _ => ⟨by rintro ⟨⟩, fun _ notLater => ?_⟩
  · rw [(sim.nodes _).term]
    exact Nat.le_of_lt old
  · exact absurd notLater (Nat.not_le.mpr old)

/-- A crash while a request is handled. -/
theorem Sim.drop (sim : Sim P strict c a) {call : AppendCall S} (sent : call ∈ c.appendRequests) :
    Sim P strict ((c.handle call).restart call.callee (c.nodes call.callee).disk) a :=
  (sim.handle sent).restart call.callee

section Handling
variable {call : AppendCall S} {L : Leadership (Fin n) (Item S)} {node : Node S} {items : List (Item S)}

/-- A follower that shares the leader's log before the window finds the entry that the leader names. -/
theorem RequestOf.prevMatches (of : RequestOf P call L) (log : Stores P node.raftLog items)
    (same : items.take call.request.prevLogIndex = L.entries.take call.request.prevLogIndex) :
    node.PrevMatches call.request := by
  have within := of.within
  have inside : call.request.prevLogIndex ≤ items.length := length_of_take (by omega) same
  refine ⟨by rw [log.size]; exact inside, ?_⟩
  by_cases zero : call.request.prevLogIndex = 0
  · exact Or.inl zero
  · obtain ⟨copy, item, present, _⟩ := log.present (by omega) inside
    refine Or.inr ⟨copy, present, ?_⟩
    rw [of.previous, ← same]
    exact (log.lastTerm_take present).2.symm

/-- The check before the window shows that the two logs agree up to it. -/
theorem RequestOf.take_prev (of : RequestOf P call L) (log : Stores P node.raftLog items)
    (linked : Linked itemTerm a items) (linkedL : Linked itemTerm a L.entries)
    (matched : node.PrevMatches call.request) :
    items.take call.request.prevLogIndex = L.entries.take call.request.prevLogIndex := by
  obtain ⟨_, zero | ⟨copy, present, term⟩⟩ := matched
  · rw [zero, List.take_zero, List.take_zero]
  · obtain ⟨positive, item, found, related⟩ := log.found present
    have within := of.within
    obtain ⟨prev, same⟩ : ∃ k, call.request.prevLogIndex = k + 1 := ⟨call.request.prevLogIndex - 1, by omega⟩
    have previous := of.previous
    rw [same] at found previous ⊢
    have foundL : L.entries[prev]? = some L.entries[prev] := List.getElem?_eq_getElem (by omega)
    refine linked.matching linkedL found foundL ?_
    rw [← ReplicatedLog.lastTerm_take itemTerm foundL, ← previous, ← term]
    exact (P.term related).symm

/-- A committed entry that the request repeats shows that the two logs agree up to it. -/
theorem RequestOf.take_overlap (of : RequestOf P call L) (log : Stores P node.raftLog items)
    (linked : Linked itemTerm a items) (linkedL : Linked itemTerm a L.entries)
    (consistent : node.OverlapConsistent call.request) (inside : node.commitIndex ≤ items.length) {m : Nat}
    (after : call.request.prevLogIndex < m) (before : m ≤ call.request.prevLogIndex + call.request.entries.length)
    (committed : m ≤ node.commitIndex) : items.take m = L.entries.take m := by
  obtain ⟨k, rfl⟩ : ∃ k, m = call.request.prevLogIndex + 1 + k := ⟨m - call.request.prevLogIndex - 1, by omega⟩
  obtain ⟨copy, item, present, found, related⟩ := log.present (by omega) (committed.trans inside)
  have sent : call.request.entries[k]? = some copy := by
    rw [← consistent k (List.mem_range.mpr (by omega)) committed]
    exact present
  obtain ⟨original, foundL, relatedL⟩ := of.mirrors.getElem? sent
  rw [List.getElem?_take_of_lt (by omega), List.getElem?_drop] at foundL
  have index : call.request.prevLogIndex + 1 + k = call.request.prevLogIndex + k + 1 := by omega
  rw [index] at found ⊢
  exact linked.matching linkedL found foundL ((P.term related).symm.trans (P.term relatedL))

end Handling

/-- A request that does not match only moves its follower to the term. -/
theorem Sim.reject (sim : Sim P strict c a) {call : AppendCall S} (sent : call ∈ c.appendRequests)
    (current : (c.nodes call.callee).currentTerm ≤ call.request.term)
    (unmatched : ¬ ((c.nodes call.callee).enter call.request.term).PrevMatches call.request) :
    Matched P strict a
      ((c.setNode call.callee ((c.nodes call.callee).enter call.request.term)).replyAppend call
        ⟨(c.nodes call.callee).currentTerm, false⟩) := by
  obtain ⟨b, calm, _, term, _, entered⟩ := sim.enter current
  refine ⟨b, calm.steps, (entered.handle sent).answerAppend (handle_mem _ call) term.ge fun _ L led => ?_⟩
  refine ⟨by rintro ⟨⟩, fun _ _ _ same => unmatched ?_⟩
  obtain ⟨M, ledM, of⟩ := entered.messages.requests call sent
  cases led.symm.trans ledM
  have log := (entered.nodes call.callee).log
  rw [Cluster.setNode_self] at log
  exact of.prevMatches log same

/-- A log that keeps its first entries and goes on with a window of another log. -/
def splice {A : Type} (items entries : List A) (kept prev size : Nat) : List A :=
  items.take kept ++ ((entries.drop prev).take size).drop (kept - prev)

/-- A window that starts inside the kept entries and agrees with them yields a beginning of one of
the two logs. -/
theorem splice_cases {A : Type} {items entries : List A} {kept prev size : Nat} (starts : prev ≤ kept)
    (same : items.take (min kept (prev + size)) = entries.take (min kept (prev + size))) :
    (kept ≤ prev + size ∧ splice items entries kept prev size = entries.take (prev + size)) ∨
      (prev + size < kept ∧ splice items entries kept prev size = items.take kept) := by
  rw [splice]
  rcases le_or_gt kept (prev + size) with reaches | ends
  · refine Or.inl ⟨reaches, ?_⟩
    rw [Nat.min_eq_left reaches] at same
    have window : ((entries.drop prev).take size).drop (kept - prev) = (entries.drop kept).take (prev + size - kept) := by
      rw [List.drop_take, List.drop_drop]
      congr 1
      · omega
      · congr 1
        omega
    rw [same, window, ← List.take_add]
    congr 1
    omega
  · refine Or.inr ⟨ends, ?_⟩
    rw [List.drop_eq_nil_of_le, List.append_nil]
    rw [List.length_take]
    omega

section Rewriting
variable {call : AppendCall S} {L : Leadership (Fin n) (Item S)} {node : Node S} {items : List (Item S)}

/-- The follower's items after an accepted request. -/
def rewriteItems (node : Node S) (request : AppendEntriesRequest n S.Entry) (items entries : List (Item S)) :
    List (Item S) :=
  splice items entries (node.keptIndex request) request.prevLogIndex request.entries.length

/-- What an accepted request makes of a follower's log. -/
structure Rewritten (node : Node S) (request : AppendEntriesRequest n S.Entry)
    (items entries log : List (Item S)) : Prop where
  source : log <+: entries ∨ log <+: items
  covered : log.take (request.prevLogIndex + request.entries.length) =
    entries.take (request.prevLogIndex + request.entries.length)
  committed : log.take node.commitIndex = items.take node.commitIndex
  inside : node.commitIndex ≤ log.length
  /-- Beyond the old commit index there is nothing but the leader's entries. -/
  beyond : ∀ k, k ≤ log.length → node.commitIndex < k → log.take k = entries.take k

/-- The rewritten log stores the entries of the leader up to the last one of the request. -/
theorem RequestOf.rewritten (of : RequestOf P call L) (log : Stores P node.raftLog items)
    (linked : Linked itemTerm a items) (linkedL : Linked itemTerm a L.entries)
    (inside : node.commitIndex ≤ items.length) (matched : node.PrevMatches call.request)
    (consistent : node.OverlapConsistent call.request) :
    Rewritten node call.request items L.entries (rewriteItems node call.request items L.entries) := by
  have within := of.within
  have kept : node.keptIndex call.request ≤ items.length := by
    have size := matched.1
    rw [log.size] at size
    exact Nat.max_le.mpr ⟨size, inside⟩
  have starts : call.request.prevLogIndex ≤ node.keptIndex call.request := Nat.le_max_left ..
  have committed : node.commitIndex ≤ node.keptIndex call.request := Nat.le_max_right ..
  have either : node.keptIndex call.request = call.request.prevLogIndex ∨
      node.keptIndex call.request = node.commitIndex := by
    rw [Node.keptIndex]
    omega
  have same : items.take (min (node.keptIndex call.request) (call.request.prevLogIndex + call.request.entries.length)) =
      L.entries.take
        (min (node.keptIndex call.request) (call.request.prevLogIndex + call.request.entries.length)) := by
    by_cases overlaps : call.request.prevLogIndex <
        min (node.keptIndex call.request) (call.request.prevLogIndex + call.request.entries.length)
    · exact of.take_overlap log linked linkedL consistent inside overlaps (by omega) (by omega)
    · have atPrev : min (node.keptIndex call.request) (call.request.prevLogIndex + call.request.entries.length) =
          call.request.prevLogIndex := by omega
      rw [atPrev]
      exact of.take_prev log linked linkedL matched
  rw [rewriteItems]
  rcases splice_cases starts same with ⟨reaches, spliced⟩ | ⟨ends, spliced⟩
  · rw [Nat.min_eq_left reaches] at same
    rw [spliced]
    have length : (L.entries.take (call.request.prevLogIndex + call.request.entries.length)).length =
        call.request.prevLogIndex + call.request.entries.length := by
      rw [List.length_take, Nat.min_eq_left within]
    refine ⟨Or.inl (List.take_prefix ..), by rw [List.take_take, Nat.min_self], ?_, by omega, fun k short _ => ?_⟩
    · rw [List.take_take, Nat.min_eq_left (by omega)]
      exact (take_of_take committed same).symm
    · rw [length] at short
      rw [List.take_take, Nat.min_eq_left short]
  · rw [Nat.min_eq_right (Nat.le_of_lt ends)] at same
    rw [spliced]
    have length : (items.take (node.keptIndex call.request)).length = node.keptIndex call.request := by
      rw [List.length_take, Nat.min_eq_left kept]
    refine ⟨Or.inr (List.take_prefix ..), ?_, ?_, by omega, fun k short later => ?_⟩
    · rw [List.take_take, Nat.min_eq_left (Nat.le_of_lt ends)]
      exact same
    · rw [List.take_take, Nat.min_eq_left committed]
    · omega

end Rewriting

/-- A follower in the request's term rewrites its log and acknowledges the window. -/
theorem OrderedOk.rewrite {call : AppendCall S} {L : Leadership (Fin n) (Item S)} {log : List (Item S)} {node : Node S}
    (ordered : OrderedOk c a) (sim : Sim P strict c a) (led : a.lead call.request.term = some L)
    (of : RequestOf P call L) (term : a.term call.callee = call.request.term) (deliverable : Deliverable c call)
    (role : node.state = .follower) (commit : node.commitIndex = (c.nodes call.callee).commitIndex)
    (rewritten : log.take node.commitIndex = (a.log call.callee).take node.commitIndex)
    (taken : Step itemTerm (QuorumSystem.majority n) strict a (a.setLog call.callee log call.request.lastIndex)) :
    OrderedOk ((c.setNode call.callee node).handle call) (a.setLog call.callee log call.request.lastIndex) where
  leaders x M leads ledM j other := by
    change ((c.setNode call.callee node).nodes x).state = .leader at leads
    change a.lead ((c.setNode call.callee node).nodes x).currentTerm = some M at ledM
    have different : x ≠ call.callee := by
      rintro rfl
      rw [Cluster.setNode_self, role] at leads
      cases leads
    change ((c.setNode call.callee node).nodes x).matchIndex j ≤ M.counted j ∧
      PrevOk (a.setLog call.callee log call.request.lastIndex) M ((c.setNode call.callee node).nodes x).currentTerm j
        (((c.setNode call.callee node).nodes x).nextIndex j - 1)
    rw [Cluster.setNode_other c node different] at leads ledM ⊢
    obtain ⟨matched, prev⟩ := ordered.leaders x M leads ledM j other
    exact ⟨matched, prev.behind, fun now => ⟨(prev.current now).counted, (prev.current now).shared⟩⟩
  requests other member still M ledM := by
    have prev := ordered.requests other member
      (fun earlier handled => still earlier (List.mem_append_left _ handled)) M ledM
    exact ⟨prev.behind, fun now => ⟨(prev.current now).counted, (prev.current now).shared⟩⟩
  replies reply member latest M ledM := by
    obtain ⟨handled, _⟩ := sim.messages.replies reply member
    obtain ⟨K, ledK, ofReply⟩ := sim.messages.requests reply.1 (sim.messages.handled _ handled)
    cases ledK.symm.trans ledM
    -- An answer of the same session is older than the call that is handled now.
    have elsewhere : ¬ (reply.1.request.term = call.request.term ∧ reply.1.callee = call.callee) := by
      rintro ⟨sameTerm, sameCallee⟩
      rw [sameTerm] at ledK
      cases led.symm.trans ledK
      have session : reply.1.SameSession call := ⟨sameCallee, ofReply.sender.symm.trans of.sender, sameTerm⟩
      have older := deliverable reply.1 handled session
      have newer := latest call (List.mem_append_right _ (List.mem_singleton.mpr rfl))
        ⟨session.1.symm, session.2.1.symm, session.2.2.symm⟩
      omega
    have replyOk := ordered.replies reply member
      (fun other earlier => latest other (List.mem_append_left _ earlier)) M ledM
    refine ⟨fun success => ?_, fun failure old now => ?_⟩
    · have same : (a.setLog call.callee log call.request.lastIndex).ack reply.1.request.term reply.1.callee =
          a.ack reply.1.request.term reply.1.callee := by
        apply if_neg
        rintro ⟨sameTerm, sameCallee⟩
        exact elsewhere ⟨sameTerm.trans term, sameCallee⟩
      rw [same]
      exact replyOk.success success
    · have different : reply.1.callee ≠ call.callee := by
        intro sameCallee
        refine elsewhere ⟨?_, sameCallee⟩
        change a.term reply.1.callee = reply.1.request.term at now
        rw [← now, sameCallee, term]
      have same : (a.setLog call.callee log call.request.lastIndex).log reply.1.callee = a.log reply.1.callee :=
        Function.update_of_ne different ..
      rw [same]
      exact replyOk.failure failure old now
  commits T m member := (ordered.commits T m member).step taken
  covered := ordered.covered
  certified x := by
    by_cases self : x = call.callee
    · subst self
      change Certified c (a.setLog call.callee log call.request.lastIndex) call.callee
        ((c.setNode call.callee node).nodes call.callee).commitIndex
      rw [Cluster.setNode_self]
      have before := ordered.certified call.callee
      rw [← commit] at before
      rcases before with zero | ⟨T, m, M, committed, reached, inside, ledM, same⟩
      · exact Or.inl zero
      · refine Or.inr ⟨T, m, M, committed, reached, inside, ledM, ?_⟩
        have now : (a.setLog call.callee log call.request.lastIndex).log call.callee = log := Function.update_self ..
        rw [now, rewritten, same]
    · change Certified c (a.setLog call.callee log call.request.lastIndex) x
        ((c.setNode call.callee node).nodes x).commitIndex
      rw [Cluster.setNode_other c node self]
      rcases ordered.certified x with zero | ⟨T, m, M, committed, reached, inside, ledM, same⟩
      · exact Or.inl zero
      · refine Or.inr ⟨T, m, M, committed, reached, inside, ledM, ?_⟩
        have now : (a.setLog call.callee log call.request.lastIndex).log x = a.log x := Function.update_of_ne self ..
        rw [now, same]

/-- The log of a follower after it accepted a request. -/
def acceptedLog (node : Node S) (call : AppendCall S) (a : Hist S) (L : Leadership (Fin n) (Item S)) : List (Item S) :=
  rewriteItems node call.request (a.log call.callee) L.entries

/-- The rewritten log is adopted in the abstract history. -/
theorem Sim.rewrite (sim : Sim P strict c a) {call : AppendCall S} (sent : call ∈ c.appendRequests)
    (term : (c.nodes call.callee).currentTerm = call.request.term) (role : (c.nodes call.callee).state = .follower)
    (matched : (c.nodes call.callee).PrevMatches call.request)
    (consistent : (c.nodes call.callee).OverlapConsistent call.request) (deliverable : strict → Deliverable c call) :
    ∃ L, a.lead call.request.term = some L ∧
      Rewritten (c.nodes call.callee) call.request (a.log call.callee) L.entries
        (acceptedLog (c.nodes call.callee) call a L) ∧
      Step itemTerm (QuorumSystem.majority n) strict a
        (a.setLog call.callee (acceptedLog (c.nodes call.callee) call a L) call.request.lastIndex) ∧
      Sim P strict ((c.setNode call.callee ((c.nodes call.callee).rewritten call.request)).handle call)
        (a.setLog call.callee (acceptedLog (c.nodes call.callee) call a L) call.request.lastIndex) := by
  have ok := sim.nodes call.callee
  obtain ⟨L, led, of⟩ := sim.messages.requests call sent
  have now : a.term call.callee = call.request.term := ok.term.trans term
  have ledNow : a.lead (a.term call.callee) = some L := by
    rw [now]
    exact led
  have rewritten : Rewritten (c.nodes call.callee) call.request (a.log call.callee) L.entries
      (acceptedLog (c.nodes call.callee) call a L) :=
    of.rewritten ok.log (sim.wf.logLinked _) (sim.wf.leadLinked led) ok.commit matched consistent
  have taken : Step itemTerm (QuorumSystem.majority n) strict a
      (a.setLog call.callee (acceptedLog (c.nodes call.callee) call a L) call.request.lastIndex) := by
    refine .accept a L call.callee _ _ ledNow of.other.symm rewritten.source of.within rewritten.covered
      fun isStrict => ?_
    have floor := ((sim.ordered isStrict).requests call sent (deliverable isStrict) L led).current now
    have long : call.request.prevLogIndex ≤ call.request.lastIndex := Nat.le_add_right ..
    exact ⟨fun m inside shared => take_of_take ((floor.shared m inside shared).trans long) rewritten.covered,
      floor.counted.trans long⟩
  have grows := sim.wf.grows taken
  have entries : SameEntries a
      (a.setLog call.callee (acceptedLog (c.nodes call.callee) call a L) call.request.lastIndex) :=
    SameEntries.refl a
  have messages := sim.messages.grow grows
  have records := sim.records.grow grows entries
  have newLog : (a.setLog call.callee (acceptedLog (c.nodes call.callee) call a L) call.request.lastIndex).log
      call.callee = acceptedLog (c.nodes call.callee) call a L := Function.update_self ..
  refine ⟨L, led, rewritten, taken, sim.update _ (.single taken) grows (Frame.setLog _ _ _ _) rfl
    (fun _ _ => .same rfl rfl) ?_
    ⟨messages.voteRequests, messages.voteReplies, messages.requests, messages.numbered, ?_, ?_⟩
    ⟨records.elected, records.distinct, records.led, records.created, records.createdAt⟩ fun isStrict => ?_⟩
  · refine ⟨ok.term, ok.vote, ?_, ?_, fun election electing => ?_, fun leads => ?_⟩
    · rw [newLog]
      have size := matched.1
      rw [ok.log.size] at size
      exact ok.log.rewritten of.mirrors (Nat.max_le.mpr ⟨size, ok.commit⟩)
    · rw [newLog]
      exact rewritten.inside
    · refine (ok.election election electing).keep grows (fun _ member => member) fun candidate => ?_
      cases role.symm.trans candidate
    · cases role.symm.trans leads
  · intro other member
    rcases List.mem_append.mp member with old | new
    · exact messages.handled other old
    · rw [List.mem_singleton.mp new]
      exact sent
  · intro reply member
    obtain ⟨handled, reached⟩ := messages.replies reply member
    exact ⟨List.mem_append_left _ handled, reached⟩
  · exact (sim.ordered isStrict).rewrite sim led of now (deliverable isStrict) role rfl rewritten.committed taken

/-- A follower commits at most what some leader has committed and what it shares with that leader. -/
theorem Rewritten.certified {call : AppendCall S} {L : Leadership (Fin n) (Item S)} {node : Node S}
    {items : List (Item S)} (rewritten : Rewritten node call.request items L.entries (a.log call.callee))
    (safe : Safe (QuorumSystem.majority n) a) (ordered : OrderedOk c a) (sent : call ∈ c.appendRequests)
    (led : a.lead call.request.term = some L) (term : call.request.term ≤ a.term call.callee)
    (old : Certified c a call.callee node.commitIndex) {index : Nat}
    (bound : index ≤ call.request.leaderCommit) (inside : index ≤ (a.log call.callee).length) :
    Certified c a call.callee (max node.commitIndex index) := by
  by_cases short : index ≤ node.commitIndex
  · rw [Nat.max_eq_left short]
    exact old
  have later : node.commitIndex < index := Nat.lt_of_not_le short
  rw [Nat.max_eq_right (Nat.le_of_lt later)]
  have same := rewritten.beyond index inside later
  rcases ordered.covered call sent with zero | ⟨T, m, committed, reached, within⟩
  · omega
  · have chosen := ordered.commits T m committed
    obtain ⟨M, ledM, _⟩ := id chosen
    refine Or.inr ⟨T, m, M, committed, reached.trans term, bound.trans within, ledM, ?_⟩
    rcases Nat.lt_or_eq_of_le reached with earlier | now
    · rw [same]
      exact take_of_take (bound.trans within) (chosen.in_later safe ledM led earlier).2
    · subst now
      cases led.symm.trans ledM
      exact same

/-- The follower enters the request's term and rewrites its log. -/
theorem Sim.acceptLog (sim : Sim P strict c a) {call : AppendCall S} (sent : call ∈ c.appendRequests)
    (deliverable : strict → Deliverable c call) (current : (c.nodes call.callee).currentTerm ≤ call.request.term)
    (matched : ((c.nodes call.callee).enter call.request.term).PrevMatches call.request)
    (consistent : ((c.nodes call.callee).enter call.request.term).OverlapConsistent call.request) :
    ∃ b L, Steps itemTerm (QuorumSystem.majority n) strict a b ∧ b.lead call.request.term = some L ∧
      b.term call.callee = call.request.term ∧ b.ack call.request.term call.callee = call.request.lastIndex ∧
      Rewritten ((c.nodes call.callee).enter call.request.term) call.request (a.log call.callee) L.entries
        (b.log call.callee) ∧
      Sim P strict ((c.setNode call.callee (c.rewritten call)).handle call) b := by
  obtain ⟨b, calm, _, term, log, entered⟩ := sim.enter current
  have now : ((c.setNode call.callee ((c.nodes call.callee).enter call.request.term)).nodes call.callee) =
      (c.nodes call.callee).enter call.request.term := Cluster.setNode_self ..
  obtain ⟨L, led, rewritten, taken, accepted⟩ := entered.rewrite sent
    (by rw [now]; exact Node.enter_currentTerm current) (by rw [now]; exact Node.enter_state ..)
    (by rw [now]; exact matched) (by rw [now]; exact consistent) deliverable
  rw [now, Cluster.setNode_setNode] at accepted
  rw [now] at rewritten taken
  refine ⟨_, L, calm.steps.tail taken, led, term, ?_, ?_, accepted⟩
  · exact if_pos ⟨term.symm, rfl⟩
  · rw [log] at rewritten
    have newLog : (b.setLog call.callee (acceptedLog ((c.nodes call.callee).enter call.request.term) call b L)
        call.request.lastIndex).log call.callee =
          acceptedLog ((c.nodes call.callee).enter call.request.term) call b L := Function.update_self ..
    rw [newLog]
    exact rewritten

/-- A crash right after the log was rewritten. -/
theorem Sim.acceptCrash (sim : Sim P strict c a) {call : AppendCall S} (sent : call ∈ c.appendRequests)
    (deliverable : strict → Deliverable c call) (current : (c.nodes call.callee).currentTerm ≤ call.request.term)
    (matched : ((c.nodes call.callee).enter call.request.term).PrevMatches call.request)
    (consistent : ((c.nodes call.callee).enter call.request.term).OverlapConsistent call.request) :
    Matched P strict a ((c.handle call).restart call.callee (c.rewritten call).disk) := by
  obtain ⟨b, _, steps, _, _, _, _, accepted⟩ := sim.acceptLog sent deliverable current matched consistent
  have crashed := accepted.restart call.callee
  refine ⟨b, steps, ?_⟩
  have now : ((c.setNode call.callee (c.rewritten call)).handle call).nodes call.callee = c.rewritten call :=
    Cluster.setNode_self ..
  rw [now] at crashed
  have same : ((c.setNode call.callee (c.rewritten call)).handle call).restart call.callee (c.rewritten call).disk =
      (c.handle call).restart call.callee (c.rewritten call).disk := Cluster.setNode_setNode (c.handle call) ..
  rwa [same] at crashed

/-- A matching request rewrites the log and may commit. -/
theorem Sim.accept (sim : Sim P strict c a) {call : AppendCall S} (sent : call ∈ c.appendRequests)
    (deliverable : strict → Deliverable c call) (current : (c.nodes call.callee).currentTerm ≤ call.request.term)
    (matched : ((c.nodes call.callee).enter call.request.term).PrevMatches call.request)
    (consistent : ((c.nodes call.callee).enter call.request.term).OverlapConsistent call.request)
    (term : Nat) (result : S.Ext × List (Call S)) :
    Matched P strict a
      ((c.setNode call.callee
        ((c.rewritten call).committedTo ((c.rewritten call).followedCommit call.request) result)).replyAppend call
          ⟨term, true⟩) := by
  obtain ⟨b, L, steps, led, now, acked, rewritten, accepted⟩ :=
    sim.acceptLog sent deliverable current matched consistent
  have answered : Sim P strict
      (((c.setNode call.callee (c.rewritten call)).handle call).answerAppend call ⟨term, true⟩) b :=
    accepted.answerAppend (handle_mem _ call) now.ge fun _ _ _ => ⟨fun _ => acked.ge, by rintro ⟨⟩⟩
  have here : (((c.setNode call.callee (c.rewritten call)).handle call).answerAppend call ⟨term, true⟩).nodes
      call.callee = c.rewritten call := Cluster.setNode_self ..
  have size : (c.rewritten call).getSavedLogSize = (b.log call.callee).length := by
    have log := (answered.nodes call.callee).log
    rw [here] at log
    exact log.size
  have inside : (c.rewritten call).followedCommit call.request ≤ (b.log call.callee).length := by
    rw [Node.followedCommit, size]
    exact Nat.max_le.mpr ⟨rewritten.inside, Nat.min_le_right ..⟩
  have recommitted := answered.recommit (i := call.callee) inside (fun isStrict => ?_)
    (c.rewritten call).pendingRequests result.2 result.1
  · rw [here] at recommitted
    have same : (((c.setNode call.callee (c.rewritten call)).handle call).answerAppend call ⟨term, true⟩).setNode
        call.callee ((c.rewritten call).committedTo ((c.rewritten call).followedCommit call.request) result) =
        (c.setNode call.callee
          ((c.rewritten call).committedTo ((c.rewritten call).followedCommit call.request) result)).replyAppend call
            ⟨term, true⟩ := by
      simp only [Cluster.setNode, Cluster.handle, Cluster.answerAppend, Cluster.replyAppend, Function.update_idem]
    rw [← same]
    exact ⟨b, steps, recommitted⟩
  · have ordered := answered.ordered isStrict
    have old := ordered.certified call.callee
    rw [here] at old
    rw [Node.followedCommit, size]
    exact rewritten.certified (answered.safe isStrict) ordered sent led now.ge old (Nat.min_le_left ..)
      (Nat.min_le_right ..)

end Metamorphosis
