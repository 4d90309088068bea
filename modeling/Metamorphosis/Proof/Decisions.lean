import Metamorphosis.Proof.Changes
import Metamorphosis.Proof.Simulation.Runs

namespace Metamorphosis
open ReplicatedLog
variable {n : Nat} {S : Service n} {P : Copies S} {strict : Prop} {c d : Cluster S} {a b : Hist S}
variable {allowed : Cluster S → Action S → Prop}

/-- An item that the leader of some term has committed at an index. -/
def Decided (c : Cluster S) (a : Hist S) (index : Nat) (item : Item S) : Prop :=
  ∃ T m L, (T, m) ∈ c.commits ∧ index ≤ m ∧ a.lead T = some L ∧ L.entries[index - 1]? = some item

/-- At most one item is ever committed at an index. -/
theorem Decided.unique (sim : Sim P True c a) {index : Nat} (positive : 1 ≤ index) {first second : Item S}
    (decided : Decided c a index first) (other : Decided c a index second) : first = second := by
  obtain ⟨T, m, L, committed, inside, led, found⟩ := decided
  obtain ⟨U, k, M, committedM, insideM, ledM, foundM⟩ := other
  have ordered := sim.ordered trivial
  have same := Chosen.agree (sim.safe trivial) (ordered.commits T m committed) (ordered.commits U k committedM)
    led ledM inside insideM
  rw [getElem?_of_take positive same, foundM] at found
  exact (Option.some.inj found).symm

/-- What is committed stays committed. -/
theorem Decided.later {index : Nat} {item : Item S} (decided : Decided c a index item) (extended : c.Extends d)
    (grows : LeadsGrow a b) : Decided d b index item := by
  obtain ⟨T, m, L, committed, inside, led, found⟩ := decided
  obtain ⟨M, ledM, _, _, rest, longer⟩ := grows T L led
  refine ⟨T, m, M, extended.commits.subset committed, inside, ledM, ?_⟩
  rw [← longer, List.getElem?_append_left (List.getElem?_eq_some_iff.mp found).1]
  exact found

/-- A node's log holds the committed items up to its commit index. -/
theorem Sim.decided (sim : Sim P True c a) {x : Fin n} {index : Nat} (positive : 1 ≤ index)
    (committed : index ≤ (c.nodes x).commitIndex) :
    ∃ item, Decided c a index item ∧ (a.log x)[index - 1]? = some item := by
  have inside := committed.trans (sim.nodes x).commit
  rcases (sim.ordered trivial).certified x with zero | ⟨T, m, L, recorded, _, within, led, same⟩
  · omega
  · have shared := getElem?_of_take positive (take_of_take committed same)
    have found : (a.log x)[index - 1]? = some (a.log x)[index - 1] := List.getElem?_eq_getElem (by omega)
    exact ⟨_, ⟨T, m, L, recorded, committed.trans within, led, shared.symm.trans found⟩, found⟩

/-- A later leader has saved everything that an earlier leader has committed. -/
theorem Sim.leader_holds (sim : Sim P True c a) {y : Fin n} (role : (c.nodes y).state = .leader) {T m index : Nat}
    (committed : (T, m) ∈ c.commits) (later : T < (c.nodes y).currentTerm) (positive : 1 ≤ index)
    (inside : index ≤ m) {item : Item S} (decided : Decided c a index item) : (a.log y)[index - 1]? = some item := by
  obtain ⟨L, leader⟩ := (sim.nodes y).leader role
  obtain ⟨_, saved, start, _⟩ := (sim.nodes y).leader_log sim.wf leader
  have chosen := (sim.ordered trivial).commits T m committed
  obtain ⟨K, ledK, own, within, _⟩ := id chosen
  obtain ⟨early, same⟩ := chosen.in_later (sim.safe trivial) ledK leader.led later
  have found : K.entries[index - 1]? = some K.entries[index - 1] := List.getElem?_eq_getElem (by omega)
  rw [decided.unique sim positive ⟨T, m, K, committed, inside, ledK, found⟩, ← found]
  exact (getElem?_of_take positive (take_of_grows saved (by omega))).symm.trans
    (getElem?_of_take positive (take_of_take inside same))

/-- A leader of a later term starts with everything that a node has committed. -/
theorem Sim.commit_start (sim : Sim P True c a) {T : Nat} {L : Leadership (Fin n) (Item S)} {j : Fin n}
    (led : a.lead T = some L) (behind : (c.nodes j).currentTerm < T) : (c.nodes j).commitIndex ≤ L.start := by
  rcases (sim.ordered trivial).certified j with zero | ⟨U, m, K, committed, reached, inside, ledK, _⟩
  · omega
  · rw [(sim.nodes j).term] at reached
    have chosen := (sim.ordered trivial).commits U m committed
    have start := (chosen.in_later (sim.safe trivial) ledK led (by omega)).1
    omega

/-- What a node has committed is in the log of the leader of its term and of every later one. -/
theorem Sim.commit_shared (sim : Sim P True c a) {T : Nat} {L : Leadership (Fin n) (Item S)} {j : Fin n}
    (led : a.lead T = some L) (reached : (c.nodes j).currentTerm ≤ T) :
    (a.log j).take (c.nodes j).commitIndex = L.entries.take (c.nodes j).commitIndex := by
  rcases (sim.ordered trivial).certified j with zero | ⟨U, m, K, committed, bound, inside, ledK, shared⟩
  · rw [zero, List.take_zero, List.take_zero]
  · rw [(sim.nodes j).term] at bound
    rw [shared]
    rcases Nat.lt_or_eq_of_le (bound.trans reached) with later | same
    · have chosen := (sim.ordered trivial).commits U m committed
      exact (take_of_take inside (chosen.in_later (sim.safe trivial) ledK led later).2).symm
    · subst same
      rw [Option.some.inj (ledK.symm.trans led)]

/-- The follower of an accepted request, right before its log is rewritten. -/
theorem Sim.entered_log (sim : Sim P strict c a) {call : AppendCall S} (accepts : c.Accepts call) :
    ((c.nodes call.callee).enter call.request.term).raftLog =
        OrderedMap.ofList ((c.nodes call.callee).enter call.request.term).values ∧
      ((c.nodes call.callee).enter call.request.term).keptIndex call.request ≤
        ((c.nodes call.callee).enter call.request.term).values.length := by
  have stores : Stores P ((c.nodes call.callee).enter call.request.term).raftLog (a.log call.callee) := by
    rw [Node.enter_raftLog]
    exact (sim.nodes call.callee).log
  obtain ⟨log, mirrors⟩ := stores.values
  refine ⟨log, ?_⟩
  have committed := (sim.nodes call.callee).commit
  have previous := accepts.matched.1
  rw [stores.size] at previous
  rw [mirrors.length, Node.keptIndex, Node.enter_commitIndex]
  exact Nat.max_le.mpr ⟨previous, committed⟩

/-- A node that leads a term it has led before has led it all the time. -/
theorem Sim.led_before (sim : Sim P strict c a) (taken : Cluster.Atomic allowed c d) {i : Fin n} {T : Nat}
    {L : Leadership (Fin n) (Item S)} (led : a.lead T = some L) (self : L.node = i)
    (role : (d.nodes i).state = .leader) (term : (d.nodes i).currentTerm = T) :
    (c.nodes i).state = .leader ∧ (c.nodes i).currentTerm = T := by
  rcases taken.match_cases with still | ⟨x, election, electing, candidate, nodes⟩ |
    ⟨x, fibers, call, request, response, _, _, leads, _, _, _, _, rfl⟩
  · obtain ⟨before, same, _⟩ := still i role
    exact ⟨before, same.symm.trans term⟩
  · rw [nodes] at role term
    by_cases here : i = x
    · subst here
      rw [Cluster.setNode_self] at term
      obtain ⟨standing, _, other⟩ := ((sim.nodes i).election election electing).standing candidate
      change (c.nodes i).currentTerm = T at term
      rw [standing, term] at other
      exact absurd self (other L led)
    · rw [Cluster.setNode_other c _ here] at role term
      exact ⟨role, term⟩
  · by_cases here : i = x
    · subst here
      rw [Cluster.setNode_self] at term
      exact ⟨leads, term⟩
    · rw [Cluster.setNode_other c _ here] at role term
      exact ⟨role, term⟩

/-- The log of a leader after it saved what was pending. -/
theorem Sim.saved_log (sim : Sim P strict c a) {i : Fin n} {fibers : LeaderFibers S}
    (leading : (c.nodes i).mainFiber = .startLeader fibers) (role : (c.nodes i).state = .leader) :
    ((c.nodes i).save i fibers).raftLog = OrderedMap.ofList ((c.nodes i).values ++ (c.nodes i).pendingLog) := by
  obtain ⟨L, leader⟩ := (sim.nodes i).leader role
  obtain ⟨log, mirrors⟩ := (sim.nodes i).log.values
  have place := (leader.fibers fibers leading).savedIndex (sim.nodes i).log
  rw [← mirrors.length] at place
  exact Node.save_log log place

/-- A node's log has the keys from one to the number of its entries. -/
theorem Sim.size (sim : Sim P strict c a) (x : Fin n) : (c.nodes x).getSavedLogSize = (c.nodes x).values.length := by
  obtain ⟨_, mirrors⟩ := (sim.nodes x).log.values
  rw [(sim.nodes x).log.size, mirrors.length]

/-- The log of a term's leader: the log with which it was elected and the entries that it made. -/
def Cluster.leaderLog (c : Cluster S) (term : Nat) : List S.Entry :=
  match c.elected.find? fun record => record.term = term with
  | none => []
  | some record => record.log ++ (c.created.filter fun created => created.term = term).map Created.entry

/-- The log of a leader only grows. -/
theorem Cluster.Extends.leaderLog (extended : c.Extends d) (term : Nat) : c.leaderLog term <+: d.leaderLog term := by
  obtain ⟨more, elected⟩ := extended.elected
  unfold Cluster.leaderLog
  cases found : c.elected.find? fun record => record.term = term with
  | none => exact List.nil_prefix
  | some record =>
      have same : (d.elected.find? fun record => record.term = term) = some record := by
        rw [← elected, List.find?_append, found]
        rfl
      rw [same]
      exact (List.prefix_append_right_inj _).mpr ((extended.created.filter _).map _)

/-- Items mirror themselves. -/
theorem Mirrors.refl (P : Copies S) (items : List (Item S)) : Mirrors P (items.map Prod.fst) items := by
  induction items with
  | nil => exact .nil
  | cons item rest ih => exact .cons (P.refl item.1) ih

/-- The records show the log that a leader has built. -/
theorem Sim.leaderLog (sim : Sim P strict c a) {T : Nat} {L : Leadership (Fin n) (Item S)} (led : a.lead T = some L) :
    Mirrors P (c.leaderLog T) L.entries := by
  obtain ⟨first, member, term⟩ := sim.records.led T L led
  have some_ : (c.elected.find? fun record => record.term = T).isSome = true :=
    List.find?_isSome.mpr ⟨first, member, decide_eq_true term⟩
  obtain ⟨record, found⟩ := Option.isSome_iff_exists.mp some_
  have same : record.term = T := by simpa using List.find?_some found
  obtain ⟨K, ledK, _, log, _⟩ := sim.records.elected record (List.mem_of_find?_eq_some found)
  rw [same] at ledK
  cases led.symm.trans ledK
  have made := Mirrors.refl P (L.entries.drop L.start)
  rw [sim.records.created T L led, List.map_map] at made
  have both := log.append made
  rw [← sim.records.created T L led, List.take_append_drop] at both
  unfold Cluster.leaderLog
  rw [found]
  exact both

/-- The indices that a leader has handed out are those of its saved and its pending log. -/
theorem Sim.nextIndex (sim : Sim P strict c a) {i : Fin n} (role : (c.nodes i).state = .leader) :
    (c.nodes i).nextIndex i = (c.nodes i).getSavedLogSize + (c.nodes i).pendingLog.length + 1 := by
  obtain ⟨L, leader⟩ := (sim.nodes i).leader role
  obtain ⟨_, saved, _⟩ := (sim.nodes i).leader_log sim.wf leader
  have length := saved.length_le
  rw [leader.next, (sim.nodes i).log.size, leader.pending.length, List.length_drop]
  omega

/-- The leader of a request's term is its sender. -/
theorem Sim.sender (sim : Sim P strict c a) {i : Fin n} (role : (c.nodes i).state = .leader) {call : AppendCall S}
    (sent : call ∈ c.appendRequests) (term : call.request.term = (c.nodes i).currentTerm) :
    call.request.leaderId = i ∧ call.callee ≠ i := by
  obtain ⟨L, leader⟩ := (sim.nodes i).leader role
  obtain ⟨K, led, of⟩ := sim.messages.requests call sent
  rw [term] at led
  cases leader.led.symm.trans led
  exact ⟨of.sender.symm.trans leader.self, leader.self ▸ of.other⟩

/-- What is deliverable after a step was so before it. -/
theorem Deliverable.before {call : AppendCall S} (deliverable : Deliverable d call)
    (taken : Cluster.Atomic allowed c d) : Deliverable c call :=
  fun earlier handled => deliverable earlier (taken.handled_grows.subset handled)

/-- The latest request of a session was the latest one before the step, too. -/
theorem Latest.before {call : AppendCall S} (latest : Latest d call) (taken : Cluster.Atomic allowed c d) :
    Latest c call := fun other handled => latest other (taken.handled_grows.subset handled)

end Metamorphosis
