import Metamorphosis.Proof.Simulation.Leaders

/-!
How the entries of a leader come into its log: a client call appends one to the pending log, and
the main session saves the pending log.
-/

namespace Metamorphosis
open ReplicatedLog
variable {n : Nat} {S : Service n} {P : Copies S} {strict : Prop} {c d : Cluster S} {a b : Hist S} {i : Fin n}

/-- A leader's saved log begins its log, and the pending log is the rest. -/
theorem NodeOk.leader_log {node : Node S} (ok : NodeOk P c a i node) (wf : Wf itemTerm (QuorumSystem.majority n) a)
    {L : Leadership (Fin n) (Item S)} (leader : LeaderOk P c a i node L) :
    a.lead (a.term i) = some L ∧ a.log i <+: L.entries ∧ L.start ≤ (a.log i).length ∧
      a.log i ++ L.entries.drop (a.log i).length = L.entries := by
  have led : a.lead (a.term i) = some L := by
    rw [ok.term]
    exact leader.led
  have both := wf.leaderLog (L := L) (by rw [leader.self]; exact led)
  rw [leader.self] at both
  exact ⟨led, both.1, both.2, (List.prefix_append_drop both.1).symm⟩

/-- The main session knows the size of the saved log. -/
theorem FibersOk.savedIndex {node : Node S} {fibers : LeaderFibers S} (running : FibersOk c a i node fibers)
    (log : Stores P node.raftLog (a.log i)) : node.savedIndex i fibers = (a.log i).length := by
  rw [Node.savedIndex]
  split
  · exact log.size
  · rename_i started
    exact running.saved started

/-- The history of a leader that saves its whole log and counts it. -/
def saveAll (a : Hist S) (i : Fin n) (L : Leadership (Fin n) (Item S)) : Hist S :=
  (a.setLog i L.entries L.entries.length).setLead (a.term i) (L.count i L.entries.length)

/-- After the save the leader stores its whole log. -/
theorem saveAll_log (a : Hist S) (i : Fin n) (L : Leadership (Fin n) (Item S)) :
    (saveAll a i L).log i = L.entries := Function.update_self ..

/-- A save is calm. -/
theorem Calm.saveAll {L : Leadership (Fin n) (Item S)} (wf : Wf itemTerm (QuorumSystem.majority n) a)
    (self : L.node = i) (led : a.lead (a.term i) = some L) : Calm strict i a (saveAll a i L) := by
  subst self
  have saved : a.log L.node <+: L.entries := (wf.leaderLog led).1
  have first : Step itemTerm (QuorumSystem.majority n) strict a (a.setLog L.node L.entries L.entries.length) := by
    have taken : Step itemTerm (QuorumSystem.majority n) strict a _ :=
      .save a L L.entries.length led saved.length_le (Nat.le_refl _)
    rwa [List.take_length] at taken
  have second : Step itemTerm (QuorumSystem.majority n) strict (a.setLog L.node L.entries L.entries.length)
      (Metamorphosis.saveAll a L.node L) :=
    .count _ _ L L.node _ led fun _ => Nat.le_of_eq (if_pos ⟨rfl, rfl⟩).symm
  refine ⟨.tail (.single first) second, (wf.grows first).trans ((wf.step first).grows second), ?_, ?_, ?_⟩
  · refine (Frame.setLog a L.node L.entries L.entries.length).trans ?_
    exact Frame.setLead (a := a.setLog L.node L.entries L.entries.length) (Or.inl led) rfl
  · exact (Quiet.save led saved).setLead_after (b := a.setLog L.node L.entries L.entries.length) led rfl
  · exact SameCounts.setLead led fun j other => count_other L _ other

/-- The main session stores what is pending in the abstract history. -/
theorem Sim.save (sim : Sim P strict c a) {fibers : LeaderFibers S}
    (leading : (c.nodes i).mainFiber = .startLeader fibers) (role : (c.nodes i).state = .leader) :
    Matched P strict a (c.setNode i ((c.nodes i).save i fibers)) := by
  have ok := sim.nodes i
  obtain ⟨L, leader⟩ := ok.leader role
  have running := leader.fibers fibers leading
  obtain ⟨led, saved, start, whole⟩ := ok.leader_log sim.wf leader
  have calm : Calm strict i a (saveAll a i L) := .saveAll sim.wf leader.self led
  have index := running.savedIndex ok.log
  have size : (c.nodes i).savedIndex i fibers + (c.nodes i).pendingLog.length = L.entries.length := by
    rw [index, leader.pending.length, ← List.length_append, whole]
  have written : Stores P ((c.nodes i).save i fibers).raftLog L.entries := by
    have stored := ok.log.putAll leader.pending
    rw [whole, ← index] at stored
    exact stored
  have matched : ((c.nodes i).save i fibers).matchIndex i = L.entries.length :=
    (Function.update_self ..).trans size
  refine ⟨_, calm.steps, sim.move calm (SameEntries.count (a := a.setLog i L.entries L.entries.length) led _ _) ?_
    ⟨fun _ => ⟨role, rfl, fun j other => ⟨rfl, Function.update_of_ne other ..⟩⟩, Or.inl rfl⟩⟩
  refine ⟨ok.term, ok.vote, ?_, ?_, by rintro _ ⟨⟩, fun _ => ⟨L.count i L.entries.length, ?_⟩⟩
  · rw [saveAll_log]
    exact written
  · rw [saveAll_log]
    exact ok.commit.trans saved.length_le
  exact {
    led := by
      change (saveAll a i L).lead (c.nodes i).currentTerm = _
      rw [← ok.term]
      exact Function.update_self ..
    self := leader.self
    start := leader.start
    next := leader.next
    pending := by
      rw [saveAll_log]
      change Mirrors P [] (L.entries.drop L.entries.length)
      rw [List.drop_length]
      exact List.Forall₂.nil
    matched := by
      rw [saveAll_log, matched]
    counted := by
      rw [saveAll_log, count_self]
      exact Nat.le_max_right ..
    place := by rintro ⟨⟩
    unsent := by rintro _ ⟨⟩
    fibers := by
      rintro _ ⟨⟩
      exact ⟨by rintro ⟨⟩, fun _ => by rw [saveAll_log, matched], running.own, running.issued, running.calling⟩ }

/-- A woken main session is at the same place but for its wait. -/
theorem MainFiber.wake_startLeader {fiber : MainFiber S} {woken : LeaderFibers S}
    (wakes : fiber.wake = .startLeader woken) : ∃ fibers, fiber = .startLeader fibers ∧
      woken.session = fibers.session ∧ woken.issued = fibers.issued ∧
      (fibers.mainSession ≠ .finished → woken.mainSession ≠ .finished) ∧
      (woken.mainSession ≠ .starting → fibers.mainSession ≠ .starting) := by
  cases fiber with
  | startFollower => cases wakes
  | startCandidate _ => cases wakes
  | startLeader fibers =>
      cases wakes
      refine ⟨fibers, rfl, rfl, rfl, fun running => ?_, fun started => ?_⟩
      · simp only
        split
        · rintro ⟨⟩
        · exact running
      · rintro starting
        simp only [starting] at started
        exact started rfl

theorem MainFiber.wake_startCandidate {fiber : MainFiber S} {election : Election n}
    (wakes : fiber.wake = .startCandidate election) : fiber = .startCandidate election := by
  cases fiber with
  | startFollower => cases wakes
  | startCandidate _ => exact wakes
  | startLeader _ => cases wakes

theorem MainFiber.wake_startFollower {fiber : MainFiber S} (wakes : fiber.wake = .startFollower) :
    fiber = .startFollower := by
  cases fiber with
  | startFollower => rfl
  | startCandidate _ => cases wakes
  | startLeader _ => cases wakes

/-- The leader's log after a new item. -/
theorem LeaderOk.append {node : Node S} {L : Leadership (Fin n) (Item S)} (leader : LeaderOk P c a i node L)
    (inside : (a.log i).length ≤ L.entries.length) (tag : Nat) (request : S.Request) (entry : S.Entry) (ext : S.Ext)
    (time : Nat) :
    LeaderOk P c (a.setLead node.currentTerm (L.append (entry, time))) i
      (node.appended i tag request entry ext) (L.append (entry, time)) where
  led := Function.update_self ..
  self := leader.self
  start := leader.start
  next := by
    change Function.update node.nextIndex i (node.nextIndex i + 1) i = (L.entries ++ [(entry, time)]).length + 1
    rw [Function.update_self, leader.next, List.length_append, List.length_singleton]
  pending := by
    change Mirrors P (node.pendingLog ++ [entry]) ((L.entries ++ [(entry, time)]).drop (a.log i).length)
    rw [List.drop_append_of_le_length inside]
    exact leader.pending.append (.cons (P.refl entry) .nil)
  matched := leader.matched
  counted := leader.counted
  place wakes := leader.place (MainFiber.wake_startFollower wakes)
  unsent election electing := leader.unsent election (MainFiber.wake_startCandidate electing)
  fibers woken leading := by
    obtain ⟨fibers, place, session, issued, running, started⟩ := MainFiber.wake_startLeader leading
    have before := leader.fibers fibers place
    refine ⟨running before.running, fun late => before.saved (started late), by rw [session]; exact before.own,
      by rw [issued]; exact before.issued, fun j seq sent calling => ?_⟩
    rw [session] at calling
    have other : j ≠ i := before.other calling
    obtain ⟨member, number, term, sender, next⟩ := before.calling j seq sent calling
    exact ⟨member, by rw [issued]; exact number, term, sender, next.trans (Function.update_of_ne other ..).symm⟩

/-- The record of a new entry. -/
theorem RecordsOk.append {L : Leadership (Fin n) (Item S)} {T : Nat} (records : RecordsOk P c a)
    (wf : Wf itemTerm (QuorumSystem.majority n) a) (led : a.lead T = some L) (self : L.node = i) (entry : S.Entry) :
    RecordsOk P (c.noteCreated i T (L.entries.length + 1) entry) (a.setLead T (L.append (entry, c.clock))) := by
  have longer : L.entries <+: (L.append (entry, c.clock)).entries := List.prefix_append ..
  have now : (a.setLead T (L.append (entry, c.clock))).lead T = some (L.append (entry, c.clock)) :=
    Function.update_self ..
  have kept {U : Nat} {M : Leadership (Fin n) (Item S)} (ledM : a.lead U = some M) :
      ∃ Q, (a.setLead T (L.append (entry, c.clock))).lead U = some Q ∧ Q.node = M.node ∧ Q.start = M.start ∧
        M.entries <+: Q.entries := by
    by_cases same : U = T
    · subst same
      cases led.symm.trans ledM
      exact ⟨_, now, rfl, rfl, longer⟩
    · exact ⟨M, (Function.update_of_ne same ..).trans ledM, rfl, rfl, List.prefix_rfl⟩
  refine ⟨fun record member => ?_, records.distinct, fun U M ledM => ?_, fun U M ledM => ?_, fun record member => ?_⟩
  · obtain ⟨M, ledM, node, log, votes⟩ := records.elected record member
    obtain ⟨Q, ledQ, nodeQ, startQ, grows⟩ := kept ledM
    refine ⟨Q, ledQ, nodeQ.trans node, ?_, votes⟩
    rw [startQ, take_of_grows grows (wf.leadStart ledM)]
    exact log
  · rcases setLead_cases ledM with ⟨rfl, _⟩ | ⟨_, old⟩
    · exact records.led U L led
    · exact records.led U M old
  · simp only [Cluster.noteCreated, List.filter_append, List.map_append]
    rcases setLead_cases ledM with ⟨rfl, rfl⟩ | ⟨different, old⟩
    · rw [← records.created U L led, List.filter_cons_of_pos (by exact decide_eq_true rfl)]
      exact List.drop_append_of_le_length (wf.leadStart led)
    · rw [records.created U M old, List.filter_cons_of_neg (by simpa using different.symm)]
      exact (List.append_nil _).symm
  · rcases List.mem_append.mp member with old | new
    · obtain ⟨M, ledM, node, own, found⟩ := records.createdAt record old
      obtain ⟨Q, ledQ, nodeQ, startQ, rest, entries⟩ := kept ledM
      refine ⟨Q, ledQ, nodeQ.trans node, startQ ▸ own, ?_⟩
      rw [← entries, List.getElem?_append_left (List.getElem?_eq_some_iff.mp found).1]
      exact found
    · rw [List.mem_singleton.mp new]
      refine ⟨_, now, self, Nat.lt_succ_of_le (wf.leadStart led), ?_⟩
      exact List.getElem?_concat_length

/-- An accepted request is appended to the log of the term. -/
theorem Sim.append (sim : Sim P strict c a) {request : S.Request} {entry : S.Entry} {ext : S.Ext}
    (role : (c.nodes i).state = .leader)
    (made : S.newEntry (c.nodes i).ext (c.nodes i).currentTerm request = .inr (entry, ext)) :
    Matched P strict a ((c.setNode i ((c.nodes i).appended i c.clock request entry ext)).noteCreated i
      (c.nodes i).currentTerm ((c.nodes i).nextIndex i) entry) := by
  have ok := sim.nodes i
  obtain ⟨L, leader⟩ := ok.leader role
  obtain ⟨_, saved, _⟩ := ok.leader_log sim.wf leader
  have taken : Step itemTerm (QuorumSystem.majority n) strict a
      (a.setLead (c.nodes i).currentTerm (L.append (entry, c.clock))) :=
    .append a _ L (entry, c.clock) leader.led (P.newEntry made)
  have frame : Frame i a (a.setLead (c.nodes i).currentTerm (L.append (entry, c.clock))) := by
    have frame := Frame.setLead (M := L.append (entry, c.clock)) (Or.inl leader.led) rfl
    rwa [leader.self] at frame
  have calm : Calm strict i a _ :=
    .step sim.wf taken frame (.setLead ..) (SameCounts.setLead (M := L.append (entry, c.clock)) leader.led fun _ _ => rfl)
  have messages := sim.messages.grow calm.grows
  refine ⟨_, calm.steps, sim.update ((c.nodes i).appended i c.clock request entry ext) calm.steps calm.grows
    calm.frame rfl (fun _ _ => .same rfl rfl) ?_
    ⟨messages.voteRequests, messages.voteReplies, messages.requests, messages.numbered, messages.handled,
      messages.replies⟩ ?_ fun isStrict => ?_⟩
  · have leads := leader.append saved.length_le c.clock request entry ext c.clock
    have nodeOk : NodeOk P c (a.setLead (c.nodes i).currentTerm (L.append (entry, c.clock))) i
        ((c.nodes i).appended i c.clock request entry ext) := by
      refine ⟨ok.term, ok.vote, ok.log, ok.commit, fun election electing => ?_, fun _ => ⟨_, leads⟩⟩
      refine (ok.election election (MainFiber.wake_startCandidate electing)).keep calm.grows
        (fun _ member => member) fun candidate => ?_
      cases role.symm.trans candidate
    exact nodeOk.silent (.same rfl rfl)
  · rw [leader.next]
    exact sim.records.setNode.append sim.wf leader.led leader.self entry
  · have ordered := (sim.ordered isStrict).hold sim isStrict ((c.nodes i).appended i c.clock request entry ext) calm
      ⟨fun _ => ⟨role, rfl, fun j other => ⟨Function.update_of_ne other .., rfl⟩⟩, Or.inl rfl⟩
    exact ordered.same rfl rfl rfl rfl rfl

/-- Answers to clients and the clock are records only. -/
theorem Sim.noteAnswered (sim : Sim P strict c a) (j : Fin n) (tag : Nat) (request : S.Request)
    (response : S.Response) : Sim P strict (c.noteAnswered j tag request response) a := by
  have messages := sim.messages
  have records := sim.records
  exact ⟨sim.wf, sim.safe, fun x => (sim.nodes x).silent (.same rfl rfl),
    ⟨messages.voteRequests, messages.voteReplies, messages.requests, messages.numbered, messages.handled,
      messages.replies⟩,
    ⟨records.elected, records.distinct, records.led, records.created, records.createdAt⟩,
    fun isStrict => (sim.ordered isStrict).same rfl rfl rfl rfl rfl⟩

/-- Time goes on, and nothing else. -/
theorem Sim.tick (sim : Sim P strict c a) : Sim P strict { c with clock := c.clock + 1 } a := by
  have messages := sim.messages
  have records := sim.records
  exact ⟨sim.wf, sim.safe, fun x => (sim.nodes x).silent (.same rfl rfl),
    ⟨messages.voteRequests, messages.voteReplies, messages.requests, messages.numbered, messages.handled,
      messages.replies⟩,
    ⟨records.elected, records.distinct, records.led, records.created, records.createdAt⟩,
    fun isStrict => (sim.ordered isStrict).same rfl rfl rfl rfl rfl⟩

/-- A client call leaves its node. -/
theorem Sim.leave (sim : Sim P strict c a) (call : Call S) (ext : S.Ext) (response : S.Response) :
    Sim P strict ((c.setNode i (((c.nodes i).dropCall call).withExt ext)).noteAnswered i call.tag call.request
      response) a := by
  have changed : Sim P strict (c.setNode i (((c.nodes i).dropCall call).withExt ext)) a :=
    sim.recommit (sim.nodes i).commit (fun isStrict => (sim.ordered isStrict).certified i) _ _ _
  exact changed.noteAnswered ..

end Metamorphosis
