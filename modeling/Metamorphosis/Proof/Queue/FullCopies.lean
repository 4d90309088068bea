import Metamorphosis.Proof.Queue.Agreement

/-!
A majority of the nodes keeps every committed entry as it was made. Entries are shortened only on
their way to nodes that the leader does not count for them.
-/

namespace Metamorphosis
open ReplicatedLog

section Originals
variable {n : Nat} {S : Service n} {P : Copies S} {c d : Cluster S} {a b : Hist S} {i : Fin n}
variable {allowed : Cluster S → Action S → Prop}

/-- An entry as a leader has made it for an index. -/
def Cluster.Original (c : Cluster S) (index : Nat) (entry : S.Entry) : Prop :=
  ∃ record ∈ c.created, record.index = index ∧ record.entry = entry

/-- No leader has committed the index. -/
def Cluster.Uncommitted (c : Cluster S) (index : Nat) : Prop := ∀ commit ∈ c.commits, commit.2 < index

/-- Everything that is stored, pending or sent for an uncommitted index is as it was made. -/
structure Cluster.OriginalsKept (c : Cluster S) : Prop where
  stored : ∀ x index entry, c.Uncommitted index → (c.nodes x).raftLog.get? index = some entry → c.Original index entry
  pending : ∀ x, (c.nodes x).state = .leader → ∀ k entry, c.Uncommitted ((c.nodes x).getSavedLogSize + k + 1) →
    (c.nodes x).pendingLog[k]? = some entry → c.Original ((c.nodes x).getSavedLogSize + k + 1) entry
  sent : ∀ call ∈ c.appendRequests, ∀ k entry, c.Uncommitted (call.request.prevLogIndex + k + 1) →
    call.request.entries[k]? = some entry → c.Original (call.request.prevLogIndex + k + 1) entry

/-- Nothing is stored or sent yet. -/
theorem Cluster.OriginalsKept.initial (S : Service n) : (Cluster.initial S).OriginalsKept where
  stored _ _ _ _ found := nomatch found
  pending _ role := nomatch role
  sent _ sent := absurd sent List.not_mem_nil

/-- An original stays one. -/
theorem Cluster.Original.later {index : Nat} {entry : S.Entry} (original : c.Original index entry)
    (extended : c.Extends d) : d.Original index entry := by
  obtain ⟨record, member, rest⟩ := original
  exact ⟨record, extended.created.subset member, rest⟩

/-- What is not committed now was not committed before. -/
theorem Cluster.Uncommitted.before {index : Nat} (free : d.Uncommitted index) (extended : c.Extends d) :
    c.Uncommitted index := fun commit member => free commit (extended.commits.subset member)

/-- A node that has committed an index knows it from a leader. -/
theorem Sim.uncommitted (sim : Sim P True c a) {x : Fin n} {index : Nat} (free : c.Uncommitted index) :
    (c.nodes x).commitIndex < index ∨ index = 0 := by
  rcases (sim.ordered trivial).certified x with zero | ⟨T, m, _, committed, _, inside, _⟩
  · omega
  · have below := free (T, m) committed
    omega

/-- A leader reads an uncommitted entry as it was made. -/
theorem Cluster.OriginalsKept.read (kept : c.OriginalsKept) (role : (c.nodes i).state = .leader) {index : Nat}
    {entry : S.Entry} (free : c.Uncommitted index) (read : (c.nodes i).getLogEntry index = some entry) :
    c.Original index entry := by
  rw [Node.getLogEntry] at read
  split at read
  swap
  · cases read
  split at read
  · exact kept.stored i index entry free read
  · rename_i range unsaved
    have place : (c.nodes i).getSavedLogSize + (index - (c.nodes i).getSavedLogSize - 1) + 1 = index := by omega
    have original := kept.pending i role _ entry (place.symm ▸ free) read
    rwa [place] at original

/-- The entries of a request are read one after another. -/
theorem Node.collectEntries_getElem? {node : Node S} {index count k : Nat} {entries : List S.Entry} {copy : S.Entry}
    (collected : node.collectEntries index count = some entries) (found : entries[k]? = some copy) :
    ∃ entry, node.getLogEntry (index + k) = some entry ∧ copy = S.encode node.commitIndex (index + k) entry := by
  induction count generalizing index entries k with
  | zero =>
      cases collected
      cases found
  | succ count ih =>
      simp only [collectEntries, Option.bind_eq_bind, Option.bind_eq_some_iff] at collected
      obtain ⟨first, read, rest, collected, same⟩ := collected
      cases same
      cases k with
      | zero =>
          cases found
          exact ⟨first, read, rfl⟩
      | succ k =>
          obtain ⟨entry, readNext, same⟩ := ih collected found
          have place : index + 1 + k = index + (k + 1) := by omega
          rw [place] at readNext same
          exact ⟨entry, readNext, same⟩

/-- What is stored for an uncommitted index stays as it was made. -/
theorem Cluster.OriginalsKept.stored_step (kept : c.OriginalsKept) (sim : Sim P True c a)
    (taken : Cluster.Atomic allowed c d) (x : Fin n) (index : Nat) (entry : S.Entry) (free : d.Uncommitted index)
    (found : (d.nodes x).raftLog.get? index = some entry) (positive : 1 ≤ index) : d.Original index entry := by
  have extended := taken.extends
  have before := free.before extended
  have old (same : (c.nodes x).raftLog.get? index = some entry) : d.Original index entry :=
    (kept.stored x index entry before same).later extended
  rcases taken.log_cases with unwritten | ⟨i, fibers, leading, role, rfl⟩ | ⟨call, place, sent, _, change⟩
  · rw [unwritten.log] at found
    exact old found
  · by_cases self : x = i
    · subst self
      rw [setNode_self] at found
      have log := (sim.nodes x).log.values.1
      have size := sim.size x
      obtain ⟨index, rfl⟩ : ∃ k, index = k + 1 := ⟨index - 1, by omega⟩
      rw [sim.saved_log leading role, OrderedMap.ofList_get?] at found
      rcases Nat.lt_or_ge index (c.nodes x).values.length with inside | beyond
      · rw [List.getElem?_append_left inside, ← OrderedMap.ofList_get?, ← log] at found
        exact old found
      · rw [List.getElem?_append_right beyond] at found
        have at_ : (c.nodes x).getSavedLogSize + (index - (c.nodes x).values.length) + 1 = index + 1 := by omega
        have original := kept.pending x role _ entry (at_.symm ▸ before) found
        rw [at_] at original
        exact original.later extended
    · rw [setNode_other c _ self] at found
      exact old found
  · by_cases self : x = call.callee
    · subst self
      obtain ⟨log, inside⟩ := sim.entered_log change.accepts
      rw [change.log, Cluster.rewritten, Node.rewritten_get? log inside positive] at found
      split at found
      · rw [Node.enter_raftLog] at found
        exact old found
      · rename_i beyond
        have bound : call.request.prevLogIndex < index :=
          Nat.lt_of_le_of_lt (Nat.le_max_left ..) (Nat.lt_of_not_le beyond)
        have at_ : call.request.prevLogIndex + (index - call.request.prevLogIndex - 1) + 1 = index := by omega
        have original := kept.sent call (List.mem_of_getElem? sent) _ entry (at_.symm ▸ before) found
        rw [at_] at original
        exact original.later extended
    · rw [change.others x self] at found
      exact old found

/-- What is pending for an uncommitted index stays as it was made. -/
theorem Cluster.OriginalsKept.pending_step (kept : c.OriginalsKept) (sim : Sim P True c a)
    (taken : Cluster.Atomic allowed c d) (x : Fin n) (role : (d.nodes x).state = .leader) (k : Nat) (entry : S.Entry)
    (free : d.Uncommitted ((d.nodes x).getSavedLogSize + k + 1)) (found : (d.nodes x).pendingLog[k]? = some entry) :
    d.Original ((d.nodes x).getSavedLogSize + k + 1) entry := by
  have extended := taken.extends
  have old (led : (c.nodes x).state = .leader)
      (size : (d.nodes x).getSavedLogSize = (c.nodes x).getSavedLogSize)
      (same : (c.nodes x).pendingLog[k]? = some entry) : d.Original ((d.nodes x).getSavedLogSize + k + 1) entry := by
    rw [size] at free ⊢
    exact (kept.pending x led k entry (free.before extended) same).later extended
  rcases taken.pending_cases with keeps | changed
  · rcases keeps x role with ⟨led, same⟩ | empty
    · refine old led ?_ (same ▸ found)
      -- The log of a leader with something pending has not changed.
      rcases taken.log_cases with unwritten | ⟨i, fibers, _, _, rfl⟩ | ⟨call, place, _, _, change⟩
      · rw [Node.getSavedLogSize, Node.getSavedLogSize, unwritten.log]
      · by_cases self : x = i
        · subst self
          rw [setNode_self] at found
          cases found
        · rw [setNode_other c _ self]
      · by_cases self : x = call.callee
        · rw [self, change.follows] at role
          cases role
        · rw [change.others x self]
    · rw [empty] at found
      cases found
  · rcases taken.created_cases with same | ⟨i, request, made, ext, _, _, leads, _, rfl⟩
    · exact absurd same changed
    · by_cases self : x = i
      · subst self
        have size : ((c.setNode x ((c.nodes x).appended x c.clock request made ext)).noteCreated x
            (c.nodes x).currentTerm ((c.nodes x).nextIndex x) made).nodes x =
              (c.nodes x).appended x c.clock request made ext := setNode_self ..
        rcases Nat.lt_or_ge k (c.nodes x).pendingLog.length with inside | beyond
        · refine old leads (by rw [size]; rfl) ?_
          rw [size, Node.appended, List.getElem?_append_left inside] at found
          exact found
        · rw [size, Node.appended, List.getElem?_append_right beyond, List.getElem?_singleton] at found
          split at found
          swap
          · cases found
          rename_i zero
          cases found
          have at_ := sim.nextIndex leads
          refine ⟨⟨x, c.clock, _, _, entry, c.clock⟩, List.mem_append_right _ (List.mem_singleton_self _), ?_, rfl⟩
          rw [size]
          change (c.nodes x).nextIndex x = (c.nodes x).getSavedLogSize + k + 1
          omega
      · have same : ((c.setNode i ((c.nodes i).appended i c.clock request made ext)).noteCreated i
            (c.nodes i).currentTerm ((c.nodes i).nextIndex i) made).nodes x = c.nodes x := setNode_other c _ self
        rw [same] at role found
        exact old role (by rw [same]) found

variable (plain : ∀ {commitIndex index : Nat} (entry : S.Entry), commitIndex < index →
  S.encode commitIndex index entry = entry)

include plain in
/-- An uncommitted entry is sent as it was made, since only committed entries are shortened. -/
theorem Cluster.OriginalsKept.sent_step (kept : c.OriginalsKept) (sim : Sim P True c a)
    (taken : Cluster.Atomic allowed c d) (call : AppendCall S) (sent : call ∈ d.appendRequests) (k : Nat)
    (entry : S.Entry) (free : d.Uncommitted (call.request.prevLogIndex + k + 1))
    (found : call.request.entries[k]? = some entry) : d.Original (call.request.prevLogIndex + k + 1) entry := by
  have extended := taken.extends
  have before := free.before extended
  rcases taken.requests_cases with same | ⟨i, j, seq, prevLogTerm, entries, role, positive, collected, requests⟩
  · exact (kept.sent call (same ▸ sent) k entry before found).later extended
  · rw [requests] at sent
    rcases List.mem_append.mp sent with old | new
    · exact (kept.sent call old k entry before found).later extended
    · cases List.mem_singleton.mp new
      obtain ⟨read, present, same⟩ := Node.collectEntries_getElem? collected found
      have at_ : (c.nodes i).nextIndex j + k = (c.nodes i).nextIndex j - 1 + k + 1 := by omega
      rw [at_] at present same
      have above : (c.nodes i).commitIndex < (c.nodes i).nextIndex j - 1 + k + 1 := by
        rcases sim.uncommitted (x := i) before with below | zero
        · exact below
        · exact absurd zero (Nat.succ_ne_zero _)
      rw [plain read above] at same
      rw [same]
      exact (kept.read role before present).later extended

include plain in
/-- Only committed entries lose their data. -/
theorem Cluster.OriginalsKept.step (kept : c.OriginalsKept) (sim : Sim P True c a) (simD : Sim P True d b)
    (taken : Cluster.Atomic allowed c d) : d.OriginalsKept where
  stored x index entry free found := kept.stored_step sim taken x index entry free found ((simD.nodes x).log.found found).1
  pending := kept.pending_step sim taken
  sent := kept.sent_step plain sim taken

/-- A node that a leader counts for a committed prefix is never asked to rewrite the prefix. -/
theorem Sim.prev_beyond (sim : Sim P True c a) {T m : Nat} {L : Leadership (Fin n) (Item S)} {call : AppendCall S}
    (chosen : Chosen (QuorumSystem.majority n) a T m) (led : a.lead T = some L) (counted : m ≤ L.counted call.callee)
    (sent : call ∈ c.appendRequests) (deliverable : Deliverable c call)
    (current : (c.nodes call.callee).currentTerm ≤ call.request.term) : m ≤ call.request.prevLogIndex := by
  have safe := sim.safe trivial
  have acked := counted.trans (safe.counted led call.callee)
  obtain ⟨K, ledK, _⟩ := sim.messages.requests call sent
  have previous := (sim.ordered trivial).requests call sent deliverable K ledK
  obtain ⟨_, ledL, own, _⟩ := id chosen
  cases led.symm.trans ledL
  have reached : T ≤ a.term call.callee := sim.wf.term_le_of_ack (by omega) acked
  rw [← (sim.nodes call.callee).term] at current
  rcases Nat.lt_or_eq_of_le (reached.trans current) with later | same
  · obtain ⟨start, shared⟩ := chosen.in_later safe led ledK later
    rcases Nat.lt_or_eq_of_le current with behind | here
    · rw [previous.behind behind]
      exact start
    · refine (previous.current here).shared m start ?_
      rw [shared]
      exact safe.baseHolds (by omega) led own acked (chosen.choosable safe)
  · subst same
    cases led.symm.trans ledK
    exact counted.trans (previous.current (Nat.le_antisymm current reached)).counted

/-- A node that a leader counts for a committed prefix stores the prefix. -/
theorem Sim.counted_log (sim : Sim P True c a) {T m : Nat} {L : Leadership (Fin n) (Item S)} {j : Fin n}
    (chosen : Chosen (QuorumSystem.majority n) a T m) (led : a.lead T = some L) (counted : m ≤ L.counted j) :
    (a.log j).take m = L.entries.take m := by
  have safe := sim.safe trivial
  have acked := counted.trans (safe.counted led j)
  obtain ⟨_, ledL, own, _⟩ := id chosen
  cases led.symm.trans ledL
  exact safe.logHolds sim.wf (sim.wf.term_le_of_ack (by omega) acked) led own acked (chosen.choosable safe)

/-- A node stores the entry of an index as it was made. -/
def Cluster.HoldsOriginal (c : Cluster S) (j : Fin n) (index : Nat) : Prop :=
  ∃ entry, (c.nodes j).raftLog.get? index = some entry ∧ c.Original index entry

/-- For every committed index, a majority that a leader counts for it stores the entry as it was made. -/
def MajorityHolds (c : Cluster S) (a : Hist S) : Prop :=
  ∀ index, 1 ≤ index → ¬ c.Uncommitted index → ∃ T m L, (T, m) ∈ c.commits ∧ index ≤ m ∧ a.lead T = some L ∧
    ∃ members : Finset (Fin n), majorityCount n ≤ members.card ∧
      ∀ j ∈ members, m ≤ L.counted j ∧ c.HoldsOriginal j index

/-- No change rewrites the entry on a node that is counted for it. -/
theorem Cluster.HoldsOriginal.step (sim : Sim P True c a)
    (inOrder : ∀ c action, allowed c action → Cluster.InOrder c action) (taken : Cluster.Atomic allowed c d)
    {T m index : Nat} {L : Leadership (Fin n) (Item S)} {j : Fin n}
    (chosen : Chosen (QuorumSystem.majority n) a T m) (led : a.lead T = some L) (counted : m ≤ L.counted j)
    (positive : 1 ≤ index) (inside : index ≤ m) (holds : c.HoldsOriginal j index) : d.HoldsOriginal j index := by
  obtain ⟨entry, found, original⟩ := holds
  refine ⟨entry, ?_, original.later taken.extends⟩
  rcases taken.log_cases with unwritten | ⟨i, fibers, leading, role, rfl⟩ | ⟨call, place, sent, permitted, change⟩
  · rw [unwritten.log]
    exact found
  · by_cases self : j = i
    · subst self
      obtain ⟨index, rfl⟩ : ∃ k, index = k + 1 := ⟨index - 1, by omega⟩
      rw [(sim.nodes j).log.values.1, OrderedMap.ofList_get?] at found
      rw [setNode_self, sim.saved_log leading role, OrderedMap.ofList_get?,
        List.getElem?_append_left (List.getElem?_eq_some_iff.mp found).1]
      exact found
    · rw [setNode_other c _ self]
      exact found
  · by_cases self : j = call.callee
    · subst self
      obtain ⟨log, within⟩ := sim.entered_log change.accepts
      have beyond := sim.prev_beyond chosen led counted (List.mem_of_getElem? sent)
        (fun earlier => inOrder c _ permitted call sent earlier) change.accepts.current
      rw [change.log, Cluster.rewritten, Node.rewritten_get? log within positive, if_pos, Node.enter_raftLog]
      · exact found
      · exact (inside.trans beyond).trans (Nat.le_max_left ..)
    · rw [change.others j self]
      exact found

/-- When an index is committed, a majority stores the entry in full. -/
theorem MajorityHolds.step (sim : Sim P True c a) (simD : Sim P True d b)
    (inOrder : ∀ c action, allowed c action → Cluster.InOrder c action)
    (steps : Steps itemTerm (QuorumSystem.majority n) True a b) (taken : Cluster.Atomic allowed c d)
    (kept : c.OriginalsKept) (held : MajorityHolds c a) : MajorityHolds d b := by
  have extended := taken.extends
  intro index positive covered
  by_cases before : c.Uncommitted index
  · -- A leader commits the index for the first time, and no log has changed.
    rcases taken.commits_cases with same | ⟨unwritten, _⟩
    · exact absurd (fun commit member => before commit (same ▸ member)) covered
    · have some_ : ∃ commit ∈ d.commits, index ≤ commit.2 := by
        by_contra none_
        exact covered fun commit member => Nat.lt_of_not_le fun inside => none_ ⟨commit, member, inside⟩
      obtain ⟨⟨T, m⟩, committed, inside⟩ := some_
      have chosen := (simD.ordered trivial).commits T m committed
      obtain ⟨L, led, own, within, members, counted, large⟩ := id chosen
      refine ⟨T, m, L, committed, inside, led, members, large, fun j member => ⟨counted j member, ?_⟩⟩
      have shared := simD.counted_log chosen led (counted j member)
      have length : m ≤ (b.log j).length := length_of_take within shared
      obtain ⟨copy, _, present, _⟩ := (simD.nodes j).log.present positive (inside.trans length)
      refine ⟨copy, present, ?_⟩
      rw [unwritten.log] at present
      exact (kept.stored j index copy before present).later extended
  · obtain ⟨T, m, L, committed, inside, led, members, large, all⟩ := held index positive before
    obtain ⟨M, ledM, _, _, _, counts⟩ := steps.lead_grows led
    have chosen := (sim.ordered trivial).commits T m committed
    refine ⟨T, m, M, extended.commits.subset committed, inside, ledM, members, large, fun j member => ?_⟩
    obtain ⟨counted, holds⟩ := all j member
    exact ⟨counted.trans (counts j), holds.step sim inOrder taken chosen led counted positive inside⟩

/-- An entry that is stored as it was made is the entry of the leaders' logs. -/
theorem Cluster.Original.item (sim : Sim P True c a) {index : Nat} {entry : S.Entry} {item : Item S} {j : Fin n}
    (original : c.Original index entry) (found : (a.log j)[index - 1]? = some item)
    (stored : (c.nodes j).raftLog.get? index = some entry) : entry = item.1 := by
  obtain ⟨record, member, rfl, rfl⟩ := original
  obtain ⟨positive, other, foundOther, copied⟩ := (sim.nodes j).log.found stored
  cases found.symm.trans foundOther
  obtain ⟨K, ledK, _, own, made⟩ := sim.records.createdAt record member
  obtain ⟨M, ledM, _, same⟩ := sim.wf.logLinked j _ _ found
  have term : itemTerm item = record.term := by
    rw [itemTerm, ← P.term copied]
    refine sim.wf.leadNew ledK (record.entry, record.time) ?_
    refine List.mem_iff_getElem?.mpr ⟨record.index - 1 - K.start, ?_⟩
    rw [List.getElem?_drop, Nat.add_sub_cancel' (by omega)]
    exact made
  rw [term] at ledM
  cases ledK.symm.trans ledM
  rw [Nat.sub_add_cancel positive] at same
  rw [← getElem?_of_take positive same, found] at made
  rw [Option.some.inj made]

end Originals

end Metamorphosis
