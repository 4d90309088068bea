import Metamorphosis.Proof.Contiguous
import Metamorphosis.Proof.Raft.Bookkeeping

/-!
The rounds in which a leader brings the log of one follower in line with its own. Every round is made of the three
processes that the cluster runs: the session sends a request, the follower handles it, and the session handles the
answer.
-/

namespace Metamorphosis
variable {n : Nat} {S : Service n}

/-- What one round leaves. -/
structure Round {n : Nat} (S : Service n) where
  request : AppendEntriesRequest n S.Entry
  success : Bool
  leader : Node S
  follower : Node S

/-- One round of `StartLeaderNodeSession` without a loss. There is no result if a `VERIFY` or a look-up fails on either
side. -/
def sessionRound (i j : Fin n) (leader follower : Node S) : Option (Round S) :=
  match leader.mainFiber with
  | .startLeader fibers => do
      let (request, leader) ← (sessionSend i j fibers leader).result
      let (result, follower) ← (appendEntries request follower).result
      match leader.mainFiber with
      | .startLeader fibers => do
          let (_, leader) ← (appendAnswered i j fibers request (some result) leader).result
          some ⟨request, result.success, leader, follower⟩
      | _ => none
  | _ => none

/-- The first rounds of a session. -/
def sessionRounds (i j : Fin n) : Nat → Node S → Node S → Option (List (Round S))
  | 0, _, _ => some []
  | count + 1, leader, follower => do
      let first ← sessionRound i j leader follower
      let rest ← sessionRounds i j count first.leader first.follower
      some (first :: rest)

/-- The log of a leader with the entries that it has not saved yet. -/
def Node.log (node : Node S) : List S.Entry := node.values ++ node.pendingLog

/-- Two logs have entries of one term at an index. -/
def SameTerm (log stored : List S.Entry) (index : Nat) : Prop :=
  1 ≤ index ∧ ∃ entry other, log[index - 1]? = some entry ∧ stored[index - 1]? = some other ∧
    S.term entry = S.term other

/-- Logs that have entries of one term at an index are equal up to it. -/
def LogMatching (log stored : List S.Entry) : Prop :=
  ∀ index, SameTerm log stored index → log.take index = stored.take index

section Leader
variable {node : Node S}

/-- `GetLogEntry` finds the entries of the log at their places, saved or pending. -/
theorem Node.getLogEntry_stored (stored : node.raftLog = OrderedMap.ofList node.values) {index : Nat}
    (positive : 1 ≤ index) (inside : index ≤ node.log.length) : node.getLogEntry index = node.log[index - 1]? := by
  rw [log, List.length_append] at inside
  rw [getLogEntry, getSavedLogSize_stored stored, if_pos ⟨positive, inside⟩, log]
  split
  · rw [get?_stored stored positive, List.getElem?_append_left (by omega)]
  · rw [List.getElem?_append_right (by omega)]
    congr 1
    omega

/-- `UpdateCommitIndex` finds every entry that it commits. -/
theorem Node.updatedCommit_stored (stored : node.raftLog = OrderedMap.ofList node.values) :
    ∃ result, node.updatedCommit = some (node.committedTo (node.findCommitIndex node.getSavedLogSize) result) := by
  have size := getSavedLogSize_stored stored
  have present : ∀ index ∈ node.newlyCommitted (node.findCommitIndex node.getSavedLogSize),
      ∃ entry, node.raftLog.get? index = some entry := by
    intro index member
    have range := List.mem_range'_1.mp member
    rw [get?_stored stored (by omega)]
    refine ⟨_, List.getElem?_eq_getElem ?_⟩
    rcases node.findCommitIndex_cases node.getSavedLogSize with same | ⟨_, bound, _⟩
    · omega
    · omega
  obtain ⟨result, loop⟩ : ∃ result, commitLoop true node.raftLog node.pendingRequests
      (node.newlyCommitted (node.findCommitIndex node.getSavedLogSize)) node.ext node.calls = some result :=
    commitLoop_some present
  exact ⟨result, by rw [updatedCommit, loop]; rfl⟩

end Leader

section Follower
variable {node : Node S} {request : AppendEntriesRequest n S.Entry} {log : List S.Entry}

/-- The entry before the request matches if it has the same term in both logs. -/
theorem Node.prevMatches_iff (stored : node.raftLog = OrderedMap.ofList node.values)
    (previous : request.prevLogIndex = 0 ∨
      ∃ entry, log[request.prevLogIndex - 1]? = some entry ∧ S.term entry = request.prevLogTerm) :
    node.PrevMatches request ↔ request.prevLogIndex = 0 ∨ SameTerm log node.values request.prevLogIndex := by
  constructor
  · rintro ⟨_, zero | ⟨other, found, same⟩⟩
    · exact Or.inl zero
    · rcases previous with zero | ⟨entry, present, term⟩
      · exact Or.inl zero
      · by_cases zero : request.prevLogIndex = 0
        · exact Or.inl zero
        · rw [get?_stored stored (Nat.one_le_iff_ne_zero.mpr zero)] at found
          exact Or.inr ⟨Nat.one_le_iff_ne_zero.mpr zero, entry, other, present, found, term.trans same.symm⟩
  · rintro (zero | ⟨positive, entry, other, present, found, same⟩)
    · exact ⟨zero ▸ Nat.zero_le _, Or.inl zero⟩
    · have inside := (List.getElem?_eq_some_iff.mp found).1
      refine ⟨by rw [getSavedLogSize_stored stored]; omega, Or.inr ⟨other, ?_, ?_⟩⟩
      · rw [get?_stored stored positive, found]
      · rcases previous with zero | ⟨entry', present', term⟩
        · omega
        · cases present.symm.trans present'
          exact same.symm.trans term

/-- The check of this entry does not abort. -/
theorem prevLogMatches_stored (stored : node.raftLog = OrderedMap.ofList node.values)
    (inside : request.prevLogIndex ≤ node.getSavedLogSize) :
    ∃ matched, prevLogMatches request node = ⟨[], some (matched, node)⟩ ∧
      (matched = true ↔ node.PrevMatches request) := by
  rcases prevLogMatches_cases request node inside with aborted | ⟨matched, run⟩ | ⟨unmatched, run⟩
  · -- The follower stores every index up to the size of its log.
    rw [prevLogMatches, Process.bind_get] at aborted
    split at aborted
    · cases aborted
    · rename_i zero
      rw [Node.getSavedLogSize_stored stored] at inside
      rw [Process.bind_value, Node.get?_stored stored (Nat.one_le_iff_ne_zero.mpr zero),
        List.getElem?_eq_getElem (by omega)] at aborted
      cases aborted
  · exact ⟨true, run, iff_of_true rfl matched⟩
  · exact ⟨false, run, iff_of_false Bool.false_ne_true unmatched⟩

/-- A follower that does not store the entry before the request refuses it. -/
theorem checkEntries_refuses (term : Nat) (stored : node.raftLog = OrderedMap.ofList node.values)
    (valid : request.prevLogIndex ≠ 0 ∨ request.prevLogTerm = 0) (unmatched : ¬ node.PrevMatches request) :
    checkEntries term request node = ⟨[], some (⟨term, false⟩, node)⟩ := by
  rw [checkEntries, Process.bind_verify, if_pos valid, Process.bind_get]
  split
  · rfl
  · rename_i inside
    obtain ⟨matched, run, iff⟩ := prevLogMatches_stored stored (Nat.le_of_not_lt inside)
    have refused : matched = false := Bool.eq_false_iff.mpr fun yes => unmatched (iff.mp yes)
    rw [Process.bind_done run, refused]
    rfl

/-- A follower that stores the entry before the request takes its entries. -/
theorem checkEntries_accepts (term : Nat) (stored : node.raftLog = OrderedMap.ofList node.values)
    (valid : request.prevLogIndex ≠ 0 ∨ request.prevLogTerm = 0) (matched : node.PrevMatches request)
    (consistent : node.OverlapConsistent request)
    (rewritten : (node.rewritten request).raftLog = OrderedMap.ofList (node.rewritten request).values) :
    ∃ result, (checkEntries term request node).result = some (⟨term, true⟩,
      (node.rewritten request).committedTo ((node.rewritten request).followedCommit request) result) := by
  have present : ∀ index ∈ (node.rewritten request).newlyCommitted ((node.rewritten request).followedCommit request),
      ∃ entry, (node.rewritten request).raftLog.get? index = some entry := by
    intro index member
    have range := List.mem_range'_1.mp member
    have size := Node.getSavedLogSize_stored rewritten
    rw [Node.get?_stored rewritten (by omega)]
    refine ⟨_, List.getElem?_eq_getElem ?_⟩
    rw [Node.followedCommit] at range
    omega
  obtain ⟨result, loop⟩ : ∃ result, commitLoop false (node.rewritten request).raftLog
      (node.rewritten request).pendingRequests
      ((node.rewritten request).newlyCommitted ((node.rewritten request).followedCommit request))
      (node.rewritten request).ext (node.rewritten request).calls = some result := commitLoop_some present
  refine ⟨result, ?_⟩
  obtain ⟨yes, run, iff⟩ := prevLogMatches_stored stored matched.1
  rw [checkEntries, Process.bind_verify, if_pos valid, Process.bind_get, if_neg (Nat.not_lt.mpr matched.1),
    Process.bind_done run, iff.mpr matched, if_pos rfl, Process.bind_value_right, acceptEntries_run consistent]
  dsimp only
  rw [loop]
  rfl

end Follower

section Rounds
variable {M : StateMachine} {i j : Fin n} {leader follower : Node (raftService M n)}

/-- A request carries a part of the leader's log. -/
theorem Node.collectEntries_stored {node : Node (raftService M n)}
    (stored : node.raftLog = OrderedMap.ofList node.values) {index count : Nat} (positive : 1 ≤ index)
    (inside : index - 1 + count ≤ node.log.length) :
    node.collectEntries index count = some ((node.log.drop (index - 1)).take count) := by
  induction count generalizing index with
  | zero => rfl
  | succ count ih =>
      have rest : node.collectEntries (index + 1) count = some ((node.log.drop (index + 1 - 1)).take count) :=
        ih (by omega) (by omega)
      have here : index - 1 < node.log.length := by omega
      have next : index + 1 - 1 = index - 1 + 1 := by omega
      rw [collectEntries, getLogEntry_stored stored positive (by omega), List.getElem?_eq_getElem here, rest, next,
        List.drop_eq_getElem_cons here, List.take_succ_cons]
      rfl

/-- A leader and a follower whose logs match and agree up to what the follower has committed. The entry before the next
one for the follower is saved, so the leader can read its term. -/
structure Reconciling (i j : Fin n) (leader follower : Node (raftService M n)) : Prop where
  other : j ≠ i
  role : leader.state = .leader
  sessions : ∃ fibers, leader.mainFiber = .startLeader fibers ∧ fibers.session j = .loop
  saved : leader.raftLog = OrderedMap.ofList leader.values
  next : leader.nextIndex i = leader.log.length + 1
  positive : 1 ≤ leader.nextIndex j
  bound : leader.nextIndex j ≤ leader.values.length + 1
  term : follower.currentTerm ≤ leader.currentTerm
  stored : follower.raftLog = OrderedMap.ofList follower.values
  matching : LogMatching leader.log follower.values
  committed : follower.commitIndex ≤ follower.values.length ∧ follower.commitIndex ≤ leader.log.length
  agreed : leader.log.take follower.commitIndex = follower.values.take follower.commitIndex

/-- The request of a round. -/
structure Asks (j : Fin n) (leader : Node (raftService M n)) (request : AppendEntriesRequest n (LogEntry M.Cmd)) :
    Prop where
  term : request.term = leader.currentTerm
  prevLogIndex : request.prevLogIndex = leader.nextIndex j - 1
  entries : request.entries = leader.log.drop (leader.nextIndex j - 1)
  valid : request.prevLogIndex ≠ 0 ∨ request.prevLogTerm = 0
  previous : request.prevLogIndex = 0 ∨
    ∃ entry, leader.log[request.prevLogIndex - 1]? = some entry ∧ entry.term = request.prevLogTerm

/-- A leader goes on: only what it knows about its followers has changed. -/
structure LeadsOn {S : Service n} (i j : Fin n) (before after : Node S) : Prop where
  role : after.state = before.state
  sessions : ∃ fibers, after.mainFiber = .startLeader fibers ∧ fibers.session j = .loop
  saved : after.raftLog = before.raftLog
  pending : after.pendingLog = before.pendingLog
  next : after.nextIndex i = before.nextIndex i
  term : after.currentTerm = before.currentTerm

/-- The leader goes on through two changes. -/
theorem LeadsOn.trans {S : Service n} {i j : Fin n} {before middle after : Node S} (first : LeadsOn i j before middle)
    (second : LeadsOn i j middle after) : LeadsOn i j before after where
  role := second.role.trans first.role
  sessions := second.sessions
  saved := second.saved.trans first.saved
  pending := second.pending.trans first.pending
  next := second.next.trans first.next
  term := second.term.trans first.term

section Steps
variable {S : Service n} {i j : Fin n} {before after : Node S}

/-- A call that ends changes only its session. -/
theorem LeadsOn.answered (node : Node S) (fibers called : LeaderFibers S) (request : AppendEntriesRequest n S.Entry) :
    LeadsOn i j node ((node.calling j fibers request).answered i j called) where
  role := rfl
  sessions := ⟨_, rfl, Function.update_self ..⟩
  saved := rfl
  pending := rfl
  next := rfl
  term := rfl

/-- A refused request moves only the next index of its follower. -/
theorem LeadsOn.stepBack (leads : LeadsOn i j before after) (other : j ≠ i) : LeadsOn i j before (after.stepBack j) where
  role := leads.role
  sessions := leads.sessions
  saved := leads.saved
  pending := leads.pending
  next := (Function.update_of_ne other.symm ..).trans leads.next
  term := leads.term

/-- An acknowledged request moves only the indices of its follower. -/
theorem LeadsOn.acknowledged (leads : LeadsOn i j before after) (other : j ≠ i)
    (request : AppendEntriesRequest n S.Entry) : LeadsOn i j before (after.acknowledged j request) where
  role := leads.role
  sessions := leads.sessions
  saved := leads.saved
  pending := leads.pending
  next := (Function.update_of_ne other.symm ..).trans leads.next
  term := leads.term

/-- A commit changes no log. -/
theorem LeadsOn.committedTo (leads : LeadsOn i j before after) (commitIndex : Nat) (result : S.Ext × List (Call S)) :
    LeadsOn i j before (after.committedTo commitIndex result) where
  role := leads.role
  sessions := leads.sessions
  saved := leads.saved
  pending := leads.pending
  next := leads.next
  term := leads.term

theorem LeadsOn.values (leads : LeadsOn i j before after) : after.values = before.values := by
  rw [Node.values, leads.saved, Node.values]

/-- The log of the leader is the same all the time. -/
theorem LeadsOn.log (leads : LeadsOn i j before after) : after.log = before.log := by
  rw [Node.log, leads.values, leads.pending, Node.log]

end Steps

/-- A round is a request, its handling and its answer. -/
theorem sessionRound_eq {S : Service n} {i j : Fin n} {leader follower next after : Node S}
    {fibers called : LeaderFibers S} {request : AppendEntriesRequest n S.Entry} {result : AppendEntriesResult}
    (leading : leader.mainFiber = .startLeader fibers)
    (sent : (sessionSend i j fibers leader).result = some (request, leader.calling j fibers request))
    (handled : (appendEntries request follower).result = some (result, after))
    (place : (leader.calling j fibers request).mainFiber = .startLeader called)
    (answered : (appendAnswered i j called request (some result) (leader.calling j fibers request)).result =
      some ((), next)) :
    sessionRound i j leader follower = some ⟨request, result.success, next, after⟩ := by
  rw [sessionRound, leading]
  simp only [sent, handled, Option.bind_eq_bind, Option.bind_some, place, answered]

namespace Reconciling

/-- The leader finds the term of the entry before its request. -/
theorem prevLogTerm (reconciling : Reconciling i j leader follower) :
    ∃ term, leader.prevLogTerm j = some term ∧ (leader.nextIndex j - 1 ≠ 0 ∨ term = 0) ∧
      (leader.nextIndex j - 1 = 0 ∨
        ∃ entry, leader.log[leader.nextIndex j - 1 - 1]? = some entry ∧ entry.term = term) := by
  have positive := reconciling.positive
  have bound := reconciling.bound
  rw [Node.prevLogTerm]
  split
  · rename_i first
    exact ⟨0, rfl, Or.inr rfl, Or.inl (by omega)⟩
  · rename_i later
    have inside : leader.nextIndex j - 1 - 1 < leader.values.length := by omega
    have found := List.getElem?_eq_getElem inside
    refine ⟨(leader.values[leader.nextIndex j - 1 - 1]).term, ?_, Or.inl (by omega), Or.inr ⟨_, ?_, rfl⟩⟩
    · rw [Node.get?_stored reconciling.saved (by omega), found]
      rfl
    · rw [Node.log, List.getElem?_append_left inside, found]

/-- The leader can send its next request. -/
theorem asks (reconciling : Reconciling i j leader follower) (fibers : LeaderFibers (raftService M n)) :
    ∃ request, Asks j leader request ∧
      (sessionSend i j fibers leader).result = some (request, leader.calling j fibers request) := by
  obtain ⟨term, previous, valid, found⟩ := reconciling.prevLogTerm
  have positive := reconciling.positive
  have bound := reconciling.bound
  have length : leader.log.length = leader.values.length + leader.pendingLog.length := List.length_append
  have count : leader.nextIndex i - 1 + 1 - leader.nextIndex j = leader.log.length - (leader.nextIndex j - 1) := by
    rw [reconciling.next]
    omega
  have collected : leader.collectEntries (leader.nextIndex j) (leader.nextIndex i - 1 + 1 - leader.nextIndex j) =
      some (leader.log.drop (leader.nextIndex j - 1)) := by
    rw [count, Node.collectEntries_stored reconciling.saved positive (by omega), List.take_of_length_le]
    rw [List.length_drop]
  refine ⟨leader.sessionRequest i j term (leader.log.drop (leader.nextIndex j - 1)), ⟨rfl, rfl, rfl, valid, found⟩, ?_⟩
  rw [sessionSend, Process.bind_get, Process.bind_verify, if_pos positive, Process.bind_value, previous]
  simp only [Process.bind_value, collected]
  rfl

/-- A follower that enters a term keeps its entries. -/
theorem entered_values (follower : Node (raftService M n)) (term : Nat) :
    (follower.enter term).values = follower.values := by
  rw [Node.values, Node.enter_raftLog]
  rfl

/-- Its log still has no gaps. -/
theorem entered_stored (reconciling : Reconciling i j leader follower) (term : Nat) :
    (follower.enter term).raftLog = OrderedMap.ofList (follower.enter term).values := by
  rw [entered_values, Node.enter_raftLog]
  exact reconciling.stored

/-- The follower checks the entry before the request's entries. -/
theorem prevMatches_iff (reconciling : Reconciling i j leader follower)
    {request : AppendEntriesRequest n (LogEntry M.Cmd)} (asks : Asks j leader request) :
    (follower.enter request.term).PrevMatches request ↔
      leader.nextIndex j = 1 ∨ SameTerm leader.log follower.values (leader.nextIndex j - 1) := by
  have positive := reconciling.positive
  rw [Node.prevMatches_iff (reconciling.entered_stored _) asks.previous, entered_values, asks.prevLogIndex]
  exact or_congr_left (by omega)

/-- The follower keeps what it shares with the leader's log. -/
theorem kept (reconciling : Reconciling i j leader follower)
    (matched : leader.nextIndex j = 1 ∨ SameTerm leader.log follower.values (leader.nextIndex j - 1)) :
    let kept := max (leader.nextIndex j - 1) follower.commitIndex
    kept ≤ follower.values.length ∧ kept ≤ leader.log.length ∧ leader.log.take kept = follower.values.take kept := by
  intro kept
  obtain ⟨inside, insideLog⟩ := reconciling.committed
  rcases Nat.le_total (leader.nextIndex j - 1) follower.commitIndex with below | above
  · have commit : kept = follower.commitIndex := Nat.max_eq_right below
    rw [commit]
    exact ⟨inside, insideLog, reconciling.agreed⟩
  · have previous : kept = leader.nextIndex j - 1 := Nat.max_eq_left above
    rw [previous]
    rcases matched with first | same
    · rw [first]
      exact ⟨Nat.zero_le _, Nat.zero_le _, rfl⟩
    · have equal := reconciling.matching _ same
      obtain ⟨positive, _, _, found, foundStored, _⟩ := same
      have before := (List.getElem?_eq_some_iff.mp found).1
      have beforeStored := (List.getElem?_eq_some_iff.mp foundStored).1
      exact ⟨by omega, by omega, equal⟩

/-- The request repeats the entries that the follower has committed. -/
theorem consistent (reconciling : Reconciling i j leader follower) {request : AppendEntriesRequest n (LogEntry M.Cmd)}
    (asks : Asks j leader request) : (follower.enter request.term).OverlapConsistent request := by
  intro k _ committed
  rw [Node.enter_commitIndex] at committed
  have place : request.prevLogIndex + 1 + k - 1 = request.prevLogIndex + k := by omega
  rw [Node.get?_stored (reconciling.entered_stored _) (by omega), entered_values, place, asks.entries,
    List.getElem?_drop, ← asks.prevLogIndex]
  have agreed := congrArg (fun log => log[request.prevLogIndex + k]?) reconciling.agreed
  simp only [List.getElem?_take_of_lt (show request.prevLogIndex + k < follower.commitIndex by omega)] at agreed
  exact agreed.symm

/-- After a matching request the follower has the log of the leader. -/
theorem rewritten (reconciling : Reconciling i j leader follower) {request : AppendEntriesRequest n (LogEntry M.Cmd)}
    (asks : Asks j leader request)
    (matched : leader.nextIndex j = 1 ∨ SameTerm leader.log follower.values (leader.nextIndex j - 1)) :
    ((follower.enter request.term).rewritten request).raftLog = OrderedMap.ofList leader.log := by
  obtain ⟨inside, _, shared⟩ := reconciling.kept matched
  have index : (follower.enter request.term).keptIndex request =
      max (leader.nextIndex j - 1) follower.commitIndex := by
    rw [Node.keptIndex, asks.prevLogIndex, Node.enter_commitIndex]
  have written : (follower.enter request.term).writtenEntries request =
      leader.log.drop (max (leader.nextIndex j - 1) follower.commitIndex) := by
    rw [Node.writtenEntries, index, asks.entries, asks.prevLogIndex, List.drop_drop]
    congr 1
    omega
  rw [Node.rewritten_log _ request (reconciling.entered_stored _) (by rw [index, entered_values]; exact inside), index,
    written, entered_values, ← shared, List.take_append_drop]

/-- A refusal leaves the follower in the leader's term with its log. -/
theorem handled_refused (reconciling : Reconciling i j leader follower)
    {request : AppendEntriesRequest n (LogEntry M.Cmd)} (asks : Asks j leader request)
    (unmatched : ¬ (leader.nextIndex j = 1 ∨ SameTerm leader.log follower.values (leader.nextIndex j - 1))) :
    ∃ after, (appendEntries request follower).result = some (⟨follower.currentTerm, false⟩, after) ∧
      after.raftLog = follower.raftLog ∧ after.commitIndex = follower.commitIndex ∧
      after.currentTerm = leader.currentTerm := by
  have current : follower.currentTerm ≤ request.term := asks.term ▸ reconciling.term
  refine ⟨follower.enter request.term, ?_, Node.enter_raftLog .., Node.enter_commitIndex .., ?_⟩
  · rw [appendEntries_run current, checkEntries_refuses _ (reconciling.entered_stored _) asks.valid]
    rwa [reconciling.prevMatches_iff asks]
  · rw [Node.enter_currentTerm current, asks.term]

/-- The follower that accepts a request stores the leader's log. -/
theorem handled_accepted (reconciling : Reconciling i j leader follower)
    {request : AppendEntriesRequest n (LogEntry M.Cmd)} (asks : Asks j leader request)
    (matched : leader.nextIndex j = 1 ∨ SameTerm leader.log follower.values (leader.nextIndex j - 1)) :
    ∃ after, (appendEntries request follower).result = some (⟨follower.currentTerm, true⟩, after) ∧
      after.raftLog = OrderedMap.ofList leader.log ∧ after.commitIndex ≤ leader.log.length ∧
      after.currentTerm = leader.currentTerm := by
  have current : follower.currentTerm ≤ request.term := asks.term ▸ reconciling.term
  have log := reconciling.rewritten asks matched
  have values : ((follower.enter request.term).rewritten request).values = leader.log := by
    rw [Node.values, log, OrderedMap.ofList_values]
  have stored : ((follower.enter request.term).rewritten request).raftLog =
      OrderedMap.ofList ((follower.enter request.term).rewritten request).values := by
    rw [values]
    exact log
  obtain ⟨result, checked⟩ := checkEntries_accepts follower.currentTerm (reconciling.entered_stored _) asks.valid
    ((reconciling.prevMatches_iff asks).mpr matched) (reconciling.consistent asks) stored
  refine ⟨((follower.enter request.term).rewritten request).committedTo
    (((follower.enter request.term).rewritten request).followedCommit request) result, ?_, log, ?_, ?_⟩
  · rw [appendEntries_run current]
    exact checked
  · have size := Node.getSavedLogSize_stored stored
    rw [values] at size
    change max (follower.enter request.term).commitIndex (min request.leaderCommit _) ≤ _
    rw [size, Node.enter_commitIndex]
    have inside := reconciling.committed.2
    omega
  · change (follower.enter request.term).currentTerm = _
    rw [Node.enter_currentTerm current, asks.term]

/-- After a refusal the leader goes one entry back. -/
theorem answered_refused (reconciling : Reconciling i j leader follower) (fibers called : LeaderFibers (raftService M n))
    (request : AppendEntriesRequest n (LogEntry M.Cmd)) (large : 2 ≤ leader.nextIndex j) :
    ∃ next, (appendAnswered i j called request (some ⟨follower.currentTerm, false⟩)
        (leader.calling j fibers request)).result = some ((), next) ∧
      LeadsOn i j leader next ∧ next.nextIndex j = leader.nextIndex j - 1 := by
  have run : appendAnswered i j called request (some ⟨follower.currentTerm, false⟩) (leader.calling j fibers request) =
      ⟨[], some ((), ((leader.calling j fibers request).answered i j called).stepBack j)⟩ :=
    appendAnswered_refused i j called request reconciling.role reconciling.term rfl large
  refine ⟨((leader.calling j fibers request).answered i j called).stepBack j, ?_, ?_, Function.update_self ..⟩
  · rw [run]
  · exact (LeadsOn.answered leader fibers called request).stepBack reconciling.other

/-- After an acknowledgement the leader knows that the follower stores its log. -/
theorem answered_accepted (reconciling : Reconciling i j leader follower) (fibers called : LeaderFibers (raftService M n))
    {request : AppendEntriesRequest n (LogEntry M.Cmd)} (asks : Asks j leader request) :
    ∃ next, (appendAnswered i j called request (some ⟨follower.currentTerm, true⟩)
        (leader.calling j fibers request)).result = some ((), next) ∧
      LeadsOn i j leader next ∧ next.nextIndex j = leader.log.length + 1 ∧ next.matchIndex j = leader.log.length := by
  have positive := reconciling.positive
  have bound := reconciling.bound
  have whole : leader.nextIndex j - 1 + request.entries.length = leader.log.length := by
    have length : leader.log.length = leader.values.length + leader.pendingLog.length := List.length_append
    rw [asks.entries, List.length_drop]
    omega
  obtain ⟨acknowledged, same⟩ :
      ∃ node, node = ((leader.calling j fibers request).answered i j called).acknowledged j request := ⟨_, rfl⟩
  have leads : LeadsOn i j leader acknowledged := by
    rw [same]
    exact (LeadsOn.answered leader fibers called request).acknowledged reconciling.other request
  have stored : acknowledged.raftLog = OrderedMap.ofList acknowledged.values := by
    rw [leads.values, leads.saved]
    exact reconciling.saved
  have nextIndex : acknowledged.nextIndex j = leader.nextIndex j + request.entries.length := by
    rw [same]
    exact Function.update_self ..
  have matchIndex : acknowledged.matchIndex j = request.prevLogIndex + request.entries.length := by
    rw [same]
    exact Function.update_self ..
  obtain ⟨result, updated⟩ := Node.updatedCommit_stored stored
  have further := leads.committedTo (acknowledged.findCommitIndex acknowledged.getSavedLogSize) result
  refine ⟨_, ?_, further, ?_, ?_⟩
  · have role : (leader.calling j fibers request).state = .leader := reconciling.role
    have notLater : follower.currentTerm ≤ (leader.calling j fibers request).currentTerm := reconciling.term
    rcases appendAnswered_cases i j called request ⟨follower.currentTerm, true⟩ role with
      ⟨later, _⟩ | ⟨_, _, run⟩ | ⟨_, failure, _⟩
    · exact absurd later (Nat.not_lt.mpr notLater)
    · rw [run, ← same]
      exact congrArg (Option.map fun after => ((), after)) updated
    · cases failure
  · change acknowledged.nextIndex j = _
    omega
  · change acknowledged.matchIndex j = _
    rw [matchIndex, asks.prevLogIndex, whole]

/-- The request is refused and the leader goes one entry back. -/
theorem refused (reconciling : Reconciling i j leader follower)
    (unmatched : ¬ (leader.nextIndex j = 1 ∨ SameTerm leader.log follower.values (leader.nextIndex j - 1))) :
    ∃ round, sessionRound i j leader follower = some round ∧ round.success = false ∧
      round.leader.nextIndex j = leader.nextIndex j - 1 ∧ LeadsOn i j leader round.leader ∧
      round.follower.raftLog = follower.raftLog ∧ round.follower.commitIndex = follower.commitIndex ∧
      Reconciling i j round.leader round.follower := by
  have positive := reconciling.positive
  have large : 2 ≤ leader.nextIndex j := by
    have first : leader.nextIndex j ≠ 1 := fun first => unmatched (Or.inl first)
    omega
  obtain ⟨fibers, leading, _⟩ := reconciling.sessions
  obtain ⟨request, asks, sent⟩ := reconciling.asks fibers
  obtain ⟨after, handled, log, commitIndex, term⟩ := reconciling.handled_refused asks unmatched
  obtain ⟨next, answered, leads, back⟩ := reconciling.answered_refused fibers _ request large
  have values : after.values = follower.values := by rw [Node.values, log, Node.values]
  refine ⟨_, sessionRound_eq leading sent handled rfl answered, rfl, back, leads, log, commitIndex, reconciling.other,
    leads.role.trans reconciling.role, leads.sessions, ?_, ?_, ?_, ?_, ?_, ?_, ?_, ?_, ?_⟩
  · rw [leads.values, leads.saved]
    exact reconciling.saved
  · rw [leads.log, leads.next]
    exact reconciling.next
  · rw [back]
    omega
  · rw [back, leads.values]
    exact (Nat.sub_le ..).trans reconciling.bound
  · rw [term, leads.term]
  · rw [values, log]
    exact reconciling.stored
  · rw [leads.log, values]
    exact reconciling.matching
  · rw [leads.log, values, commitIndex]
    exact reconciling.committed
  · rw [leads.log, values, commitIndex]
    exact reconciling.agreed

/-- The request is accepted and the follower stores the leader's log. -/
theorem accepted (reconciling : Reconciling i j leader follower)
    (matched : leader.nextIndex j = 1 ∨ SameTerm leader.log follower.values (leader.nextIndex j - 1)) :
    ∃ round, sessionRound i j leader follower = some round ∧ round.success = true ∧
      round.request.prevLogIndex = leader.nextIndex j - 1 ∧
      round.leader.nextIndex j = leader.log.length + 1 ∧ round.leader.matchIndex j = leader.log.length ∧
      LeadsOn i j leader round.leader ∧ round.follower.raftLog = OrderedMap.ofList leader.log ∧
      (leader.pendingLog = [] → Reconciling i j round.leader round.follower) := by
  obtain ⟨fibers, leading, _⟩ := reconciling.sessions
  obtain ⟨request, asks, sent⟩ := reconciling.asks fibers
  obtain ⟨after, handled, log, committed, term⟩ := reconciling.handled_accepted asks matched
  obtain ⟨next, answered, leads, nextIndex, matchIndex⟩ := reconciling.answered_accepted fibers _ asks
  have values : after.values = leader.log := by rw [Node.values, log, OrderedMap.ofList_values]
  refine ⟨_, sessionRound_eq leading sent handled rfl answered, rfl, asks.prevLogIndex, nextIndex, matchIndex, leads,
    log, fun saved => ⟨reconciling.other, leads.role.trans reconciling.role, leads.sessions, ?_, ?_, ?_, ?_, ?_, ?_, ?_,
      ?_, ?_⟩⟩
  · rw [leads.values, leads.saved]
    exact reconciling.saved
  · rw [leads.log, leads.next]
    exact reconciling.next
  · rw [nextIndex]
    exact Nat.le_add_left ..
  · rw [nextIndex, leads.values, Node.log, saved, List.append_nil]
  · rw [term, leads.term]
  · rw [values, log]
  · rw [leads.log, values]
    exact fun _ _ => rfl
  · rw [leads.log, values]
    exact ⟨committed, committed⟩
  · rw [leads.log, values]

end Reconciling

/-- The rounds of a session up to its first success. -/
structure Reconciles (i j : Fin n) (leader follower : Node (raftService M n)) (refused : List (Round (raftService M n)))
    (last : Round (raftService M n)) : Prop where
  rounds : sessionRounds i j (refused.length + 1) leader follower = some (refused ++ [last])
  failures : ∀ round ∈ refused, round.success = false ∧ round.follower.raftLog = follower.raftLog
  success : last.success = true
  length : last.request.prevLogIndex + refused.length + 1 = leader.nextIndex j
  shared : last.request.prevLogIndex = 0 ∨ SameTerm leader.log follower.values last.request.prevLogIndex
  largest : ∀ index, last.request.prevLogIndex < index → index < leader.nextIndex j →
    ¬ SameTerm leader.log follower.values index
  nextIndex : last.leader.nextIndex j = leader.log.length + 1
  matchIndex : last.leader.matchIndex j = leader.log.length
  leads : LeadsOn i j leader last.leader
  log : last.follower.raftLog = OrderedMap.ofList leader.log
  goesOn : leader.pendingLog = [] → Reconciling i j last.leader last.follower

/-- A first round and the rounds after it. -/
theorem sessionRounds_cons {S : Service n} {i j : Fin n} {leader follower : Node S} {count : Nat} {first : Round S}
    {rest : List (Round S)} (round : sessionRound i j leader follower = some first)
    (rounds : sessionRounds i j count first.leader first.follower = some rest) :
    sessionRounds i j (count + 1) leader follower = some (first :: rest) := by
  simp only [sessionRounds, round, rounds, Option.bind_eq_bind, Option.bind_some]

/-- The leader goes back until it meets an entry that the follower stores too. -/
theorem Reconciling.reconciles (reconciling : Reconciling i j leader follower) :
    ∃ refused last, Reconciles i j leader follower refused last := by
  -- Every refusal lowers the next index, and the first entry is never refused.
  induction place : leader.nextIndex j generalizing leader follower with
  | zero => exact absurd reconciling.positive (by omega)
  | succ k ih =>
      by_cases matched : leader.nextIndex j = 1 ∨ SameTerm leader.log follower.values (leader.nextIndex j - 1)
      · obtain ⟨last, round, success, prevLogIndex, nextIndex, matchIndex, leads, log, goesOn⟩ :=
          reconciling.accepted matched
        refine ⟨[], last, sessionRounds_cons round rfl, List.forall_mem_nil _, success, ?_, ?_, ?_, nextIndex,
          matchIndex, leads, log, goesOn⟩
        · rw [List.length_nil, prevLogIndex]
          omega
        · rw [prevLogIndex]
          exact matched.imp_left fun first => by omega
        · intro index above below
          omega
      · obtain ⟨first, round, failure, back, leads, log, _, again⟩ := reconciling.refused matched
        have values : first.follower.values = follower.values := by rw [Node.values, log, Node.values]
        obtain ⟨refused, last, rest⟩ := ih again (by omega)
        have length := rest.length
        refine ⟨first :: refused, last, sessionRounds_cons round rest.rounds, ?_, rest.success, ?_, ?_, ?_, ?_, ?_,
          leads.trans rest.leads, ?_, fun saved => rest.goesOn (leads.pending.trans saved)⟩
        · intro other member
          rcases List.mem_cons.mp member with rfl | later
          · exact ⟨failure, log⟩
          · exact ⟨(rest.failures other later).1, (rest.failures other later).2.trans log⟩
        · rw [List.length_cons]
          omega
        · rw [← leads.log, ← values]
          exact rest.shared
        · intro index above below
          by_cases here : index = leader.nextIndex j - 1
          · rw [here]
            exact fun same => matched (Or.inr same)
          · rw [← leads.log, ← values]
            exact rest.largest index above (by omega)
        · rw [← leads.log]
          exact rest.nextIndex
        · rw [← leads.log]
          exact rest.matchIndex
        · rw [← leads.log]
          exact rest.log

/-- A follower that stores the whole log of the leader goes on to do so. -/
theorem Reconciling.heartbeats (reconciling : Reconciling i j leader follower) (saved : leader.pendingLog = [])
    (whole : leader.nextIndex j = leader.log.length + 1) (log : follower.raftLog = OrderedMap.ofList leader.log)
    (count : Nat) :
    ∃ later, sessionRounds i j count leader follower = some later ∧ ∀ round ∈ later, round.success = true ∧
      round.follower.raftLog = OrderedMap.ofList leader.log ∧ round.leader.log = leader.log ∧
      round.leader.matchIndex j = leader.log.length := by
  induction count generalizing leader follower with
  | zero => exact ⟨[], rfl, List.forall_mem_nil _⟩
  | succ count ih =>
      have values : follower.values = leader.log := by rw [Node.values, log, OrderedMap.ofList_values]
      have matched : leader.nextIndex j = 1 ∨ SameTerm leader.log follower.values (leader.nextIndex j - 1) := by
        by_cases empty : leader.log.length = 0
        · exact Or.inl (by omega)
        · have last : leader.log.length - 1 < leader.log.length := by omega
          have found := List.getElem?_eq_getElem last
          rw [values, whole, Nat.add_sub_cancel]
          exact Or.inr ⟨by omega, _, _, found, found, rfl⟩
      obtain ⟨first, round, success, _, nextIndex, matchIndex, leads, stored, goesOn⟩ := reconciling.accepted matched
      obtain ⟨rest, rounds, held⟩ := ih (goesOn saved) (leads.pending.trans saved) (by rw [leads.log]; exact nextIndex)
        (by rw [leads.log]; exact stored)
      refine ⟨first :: rest, sessionRounds_cons round rounds, fun other member => ?_⟩
      rcases List.mem_cons.mp member with rfl | later
      · exact ⟨success, stored, leads.log, matchIndex⟩
      · rw [← leads.log]
        exact held other later

/-- What the follower has committed is the same in the leader's log. -/
theorem Reconciling.committed_get? (reconciling : Reconciling i j leader follower) {index : Nat}
    (committed : index ≤ follower.commitIndex) :
    (OrderedMap.ofList leader.log).get? index = follower.raftLog.get? index := by
  rw [reconciling.stored]
  cases index with
  | zero => rw [OrderedMap.ofList_get?_zero, OrderedMap.ofList_get?_zero]
  | succ index =>
      have agreed := congrArg (fun log => log[index]?) reconciling.agreed
      simp only [List.getElem?_take_of_lt (Nat.lt_of_succ_le committed)] at agreed
      rw [OrderedMap.ofList_get?, OrderedMap.ofList_get?]
      exact agreed

end Rounds

/-- The rounds of a session come to an entry that both logs share, and with the next request the follower stores the
leader's log. No `VERIFY` fails on the way, and what the follower has committed stays. While the leader has nothing
pending, further rounds succeed and change nothing. -/
theorem log_reconciliation (M : StateMachine) {i j : Fin n} {leader follower : Node (raftService M n)}
    (reconciling : Reconciling i j leader follower) :
    ∃ refused last, sessionRounds i j (refused.length + 1) leader follower = some (refused ++ [last]) ∧
      (∀ round ∈ refused, round.success = false) ∧ last.success = true ∧
      last.request.prevLogIndex < leader.nextIndex j ∧
      (last.request.prevLogIndex = 0 ∨ SameTerm leader.log follower.values last.request.prevLogIndex) ∧
      (∀ index, last.request.prevLogIndex < index → index < leader.nextIndex j →
        ¬ SameTerm leader.log follower.values index) ∧
      (∀ round ∈ refused ++ [last], ∀ index ≤ follower.commitIndex,
        round.follower.raftLog.get? index = follower.raftLog.get? index) ∧
      last.follower.raftLog = OrderedMap.ofList leader.log ∧ last.leader.log = leader.log ∧
      last.leader.matchIndex j = leader.log.length ∧
      (leader.pendingLog = [] → ∀ count, ∃ later,
        sessionRounds i j count last.leader last.follower = some later ∧ ∀ round ∈ later, round.success = true ∧
          round.follower.raftLog = OrderedMap.ofList leader.log ∧ round.leader.log = leader.log ∧
          round.leader.matchIndex j = leader.log.length) := by
  obtain ⟨refused, last, reconciles⟩ := reconciling.reconciles
  have length := reconciles.length
  refine ⟨refused, last, reconciles.rounds, fun round member => (reconciles.failures round member).1,
    reconciles.success, by omega, reconciles.shared, reconciles.largest, ?_, reconciles.log, reconciles.leads.log,
    reconciles.matchIndex, ?_⟩
  · intro round member index committed
    rcases List.mem_append.mp member with earlier | accepted
    · rw [(reconciles.failures round earlier).2]
    · rw [List.mem_singleton.mp accepted, reconciles.log]
      exact reconciling.committed_get? committed
  · intro saved count
    have log := reconciles.leads.log
    have later := (reconciles.goesOn saved).heartbeats (reconciles.leads.pending.trans saved)
      (by rw [log]; exact reconciles.nextIndex) (by rw [log]; exact reconciles.log) count
    rwa [log] at later

/-- The log of a leader of the third term. -/
def thirdLog : List (LogEntry Nat) := [⟨1, ⟨1, 1, 5⟩⟩, ⟨3, ⟨1, 2, 7⟩⟩, ⟨3, ⟨2, 1, 9⟩⟩]

/-- The log of a node that led in the second term. -/
def secondLog : List (LogEntry Nat) := [⟨1, ⟨1, 1, 5⟩⟩, ⟨2, ⟨3, 1, 8⟩⟩]

def thirdLeader : Node (raftService loggingStateMachine 2) :=
  { construct ⟨some 3, some 0, OrderedMap.ofList thirdLog⟩ with
    state := .leader
    mainFiber := .startLeader ⟨fun _ => .loop, fun _ => 0, .awaiting⟩
    nextIndex := fun _ => 4 }

def secondLeader : Node (raftService loggingStateMachine 2) :=
  { construct ⟨some 2, some 1, OrderedMap.ofList secondLog⟩ with
    state := .leader
    commitIndex := 1 }

/-- The leader of the third term meets the log of the second one. -/
theorem thirdLeader_reconciling : Reconciling 0 1 thirdLeader secondLeader where
  other := by decide
  role := rfl
  sessions := ⟨_, rfl, rfl⟩
  saved := rfl
  next := rfl
  positive := by decide
  bound := by decide
  term := by decide
  stored := rfl
  matching := by
    rintro index ⟨positive, entry, other, found, foundStored, same⟩
    have inside : index - 1 < 2 := (List.getElem?_eq_some_iff.mp foundStored).1
    obtain rfl | rfl : index = 1 ∨ index = 2 := by omega
    · rfl
    · cases found
      cases foundStored
      cases same
  committed := by decide
  agreed := by decide

/-- The follower gets the log of the third leader after some refusals. -/
theorem log_reconciliation_third : ∃ refused last,
    sessionRounds 0 1 (refused.length + 1) thirdLeader secondLeader = some (refused ++ [last]) ∧
      last.follower.raftLog = OrderedMap.ofList thirdLog ∧ last.leader.matchIndex 1 = 3 := by
  obtain ⟨refused, last, rounds, _, _, _, _, _, _, log, _, matchIndex, _⟩ :=
    log_reconciliation loggingStateMachine thirdLeader_reconciling
  exact ⟨refused, last, rounds, log, matchIndex⟩

end Metamorphosis
