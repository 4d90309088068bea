import Metamorphosis.Proof.Changes
import Metamorphosis.Proof.Copies

/-!
What a node knows about its own log, whatever the other nodes send to it: the keys of the log are `1, …, size`, and
the commit index does not exceed the size.
-/

namespace Metamorphosis
variable {n : Nat} {S : Service n} {c d : Cluster S} {allowed : Cluster S → Action S → Prop}

section Stored
variable {node : Node S}

/-- The size of a log without gaps is its last index. -/
theorem Node.getSavedLogSize_stored (stored : node.raftLog = OrderedMap.ofList node.values) :
    node.getSavedLogSize = node.values.length := by
  rw [getSavedLogSize, stored, OrderedMap.ofList_last?]
  cases last : node.values.getLast? with
  | none => simp [List.getLast?_eq_none_iff.mp last]
  | some entry => rfl

/-- The entries of a log without gaps are found at their places, from 1 on. -/
theorem Node.get?_stored (stored : node.raftLog = OrderedMap.ofList node.values) {index : Nat}
    (positive : 1 ≤ index) : node.raftLog.get? index = node.values[index - 1]? := by
  obtain ⟨index, rfl⟩ : ∃ k, index = k + 1 := ⟨index - 1, by omega⟩
  rw [stored, OrderedMap.ofList_get?, Nat.add_sub_cancel]

/-- A leader commits only what it stores. -/
theorem Node.findCommitIndex_stored (stored : node.raftLog = OrderedMap.ofList node.values)
    (inside : node.commitIndex ≤ node.values.length) :
    node.findCommitIndex node.getSavedLogSize ≤ node.values.length := by
  have size := getSavedLogSize_stored stored
  rcases node.findCommitIndex_cases node.getSavedLogSize with same | ⟨_, bound, _⟩
  · omega
  · omega

/-- A follower commits only what it stores. -/
theorem Node.followedCommit_stored (stored : node.raftLog = OrderedMap.ofList node.values)
    (inside : node.commitIndex ≤ node.values.length) (request : AppendEntriesRequest n S.Entry) :
    node.followedCommit request ≤ node.values.length := by
  have size := getSavedLogSize_stored stored
  rw [followedCommit]
  omega

end Stored

/-- A log without gaps that reaches the commit index. The main session of a leader knows where to write. -/
structure Node.Contiguous (i : Fin n) (node : Node S) : Prop where
  stored : node.raftLog = OrderedMap.ofList node.values
  commit : node.commitIndex ≤ node.values.length
  leader : node.state = .leader → ∀ fibers, node.mainFiber = .startLeader fibers →
    fibers.session i = .finished ∧ (fibers.mainSession ≠ .starting → node.matchIndex i = node.values.length)

namespace Node.Contiguous
variable {i : Fin n} {node before : Node S}

/-- `GetSavedLogSize` is the number of entries. -/
theorem size (contiguous : node.Contiguous i) : node.getSavedLogSize = node.values.length :=
  Node.getSavedLogSize_stored contiguous.stored

/-- Every index up to the size is a key. -/
theorem present (contiguous : node.Contiguous i) {index : Nat} (positive : 1 ≤ index)
    (inside : index ≤ node.values.length) : ∃ entry, node.raftLog.get? index = some entry := by
  rw [Node.get?_stored contiguous.stored positive]
  exact ⟨_, List.getElem?_eq_getElem (by omega)⟩

/-- No entry has the index 0. -/
theorem absent (contiguous : node.Contiguous i) : node.raftLog.get? 0 = none := by
  rw [contiguous.stored, OrderedMap.ofList_get?_zero]

/-- A new process starts on a log without gaps. -/
theorem construct {disk : Disk S} {values : List S.Entry} (stored : disk.raftLog = OrderedMap.ofList values) :
    (Metamorphosis.construct disk).Contiguous i where
  stored := by
    change disk.raftLog = OrderedMap.ofList (disk.raftLog.entries.map Prod.snd)
    rw [stored, OrderedMap.ofList_values]
  commit := Nat.zero_le _
  leader := by rintro ⟨⟩

/-- A node that keeps its log and does not lead. -/
theorem idle (contiguous : before.Contiguous i) (log : node.raftLog = before.raftLog)
    (commitIndex : node.commitIndex = before.commitIndex) (role : node.state ≠ .leader) : node.Contiguous i where
  stored := by
    rw [values, log]
    exact contiguous.stored
  commit := by
    rw [values, log, commitIndex]
    exact contiguous.commit
  leader leads := absurd leads role

/-- A node that keeps its log and has no sessions. -/
theorem alone (contiguous : before.Contiguous i) (log : node.raftLog = before.raftLog)
    (commitIndex : node.commitIndex = before.commitIndex)
    (place : ∀ fibers, node.mainFiber ≠ .startLeader fibers) : node.Contiguous i where
  stored := by
    rw [values, log]
    exact contiguous.stored
  commit := by
    rw [values, log, commitIndex]
    exact contiguous.commit
  leader _ fibers leading := absurd leading (place fibers)

/-- A node that keeps its log and whose sessions go on. -/
theorem session {old new : LeaderFibers S} (contiguous : before.Contiguous i)
    (log : node.raftLog = before.raftLog) (commitIndex : node.commitIndex = before.commitIndex)
    (state : node.state = before.state) (leading : before.mainFiber = .startLeader old)
    (now : node.mainFiber = .startLeader new) (main : new.mainSession = .starting ↔ old.mainSession = .starting)
    (own : old.session i = .finished → new.session i = .finished)
    (matched : node.matchIndex i = before.matchIndex i) : node.Contiguous i where
  stored := by
    rw [values, log]
    exact contiguous.stored
  commit := by
    rw [values, log, commitIndex]
    exact contiguous.commit
  leader leads fibers place := by
    cases now.symm.trans place
    obtain ⟨finished, saved⟩ := contiguous.leader (state ▸ leads) old leading
    refine ⟨own finished, fun started => ?_⟩
    rw [matched, values, log]
    exact saved fun starting => started (main.mpr starting)

/-- Log, commit index, role and fiber decide whether a node is contiguous. -/
theorem same (contiguous : before.Contiguous i) (log : node.raftLog = before.raftLog)
    (commitIndex : node.commitIndex = before.commitIndex) (state : node.state = before.state)
    (fiber : node.mainFiber = before.mainFiber) (matched : node.matchIndex i = before.matchIndex i) :
    node.Contiguous i := by
  cases place : before.mainFiber with
  | startFollower => exact contiguous.alone log commitIndex fun _ leads => by cases (fiber.trans place).symm.trans leads
  | startCandidate _ =>
      exact contiguous.alone log commitIndex fun _ leads => by cases (fiber.trans place).symm.trans leads
  | startLeader old => exact contiguous.session log commitIndex state place (fiber.trans place) .rfl id matched

/-- Waking the main fiber changes nothing about the log. -/
theorem wake (contiguous : before.Contiguous i) (log : node.raftLog = before.raftLog)
    (commitIndex : node.commitIndex = before.commitIndex) (state : node.state = before.state)
    (fiber : node.mainFiber = before.mainFiber.wake) (matched : node.matchIndex i = before.matchIndex i) :
    node.Contiguous i := by
  cases place : before.mainFiber with
  | startFollower =>
      rw [place] at fiber
      exact contiguous.same log commitIndex state (fiber.trans place.symm) matched
  | startCandidate _ =>
      rw [place] at fiber
      exact contiguous.same log commitIndex state (fiber.trans place.symm) matched
  | startLeader old =>
      rw [place] at fiber
      refine contiguous.session log commitIndex state place fiber ?_ id matched
      change (if old.mainSession = .awaiting then .ready else old.mainSession) = .starting ↔ _
      split
      · rename_i waits
        rw [waits]
        exact iff_of_false (by rintro ⟨⟩) (by rintro ⟨⟩)
      · exact .rfl

/-- A node that enters a term keeps its log, and it does not lead. -/
theorem enter (contiguous : node.Contiguous i) (term : Nat) :
    (node.enter term).Contiguous i ∧ (node.enter term).state ≠ .leader := by
  have role : (node.enter term).state ≠ .leader := by
    rw [Node.enter_state]
    rintro ⟨⟩
  exact ⟨contiguous.idle (Node.enter_raftLog _ _) (Node.enter_commitIndex _ _) role, role⟩

/-- A follower that accepts entries keeps what it has committed. -/
theorem rewritten (contiguous : node.Contiguous i) {request : AppendEntriesRequest n S.Entry}
    (matched : node.PrevMatches request) :
    ∃ values, (node.rewritten request).raftLog = OrderedMap.ofList values ∧ node.commitIndex ≤ values.length := by
  have kept : node.keptIndex request ≤ node.values.length := by
    have inside := matched.1
    rw [contiguous.size] at inside
    exact Nat.max_le.mpr ⟨inside, contiguous.commit⟩
  refine ⟨_, node.rewritten_log request contiguous.stored kept, ?_⟩
  have below : node.commitIndex ≤ node.keptIndex request := Nat.le_max_right ..
  rw [List.length_append, List.length_take]
  omega

/-- A log that was rewritten at a matching place has no gaps, and covers the new commit index. -/
theorem accepted (contiguous : node.Contiguous i) {request : AppendEntriesRequest n S.Entry}
    (matched : node.PrevMatches request) (role : node.state ≠ .leader) (result : S.Ext × List (Call S)) :
    ((node.rewritten request).committedTo ((node.rewritten request).followedCommit request) result).Contiguous i := by
  obtain ⟨values, stored, longer⟩ := contiguous.rewritten matched
  have restarted : (Metamorphosis.construct (node.rewritten request).disk).Contiguous i := construct stored
  have log : (node.rewritten request).raftLog = OrderedMap.ofList (node.rewritten request).values := restarted.stored
  have inside : (node.rewritten request).commitIndex ≤ (node.rewritten request).values.length := by
    rw [Node.values, stored, OrderedMap.ofList_values]
    exact longer
  exact ⟨log, Node.followedCommit_stored log inside request, fun leads => absurd leads role⟩

/-- A leader commits only what it has saved. -/
theorem committed (contiguous : node.Contiguous i) (result : S.Ext × List (Call S)) :
    (node.committedTo (node.findCommitIndex node.getSavedLogSize) result).Contiguous i where
  stored := contiguous.stored
  commit := Node.findCommitIndex_stored contiguous.stored contiguous.commit
  leader := contiguous.leader

/-- A leader writes its pending log behind the saved one. -/
theorem save (contiguous : node.Contiguous i) {fibers : LeaderFibers S}
    (leading : node.mainFiber = .startLeader fibers) (role : node.state = .leader) :
    (node.save i fibers).Contiguous i := by
  obtain ⟨finished, saved⟩ := contiguous.leader role fibers leading
  have place : node.savedIndex i fibers = node.values.length := by
    rw [savedIndex]
    split
    · exact contiguous.size
    · rename_i started
      exact saved started
  have log := Node.save_log contiguous.stored place
  have values : (node.save i fibers).values = node.values ++ node.pendingLog := by
    rw [Node.values, log, OrderedMap.ofList_values]
  refine ⟨by rw [values, log], ?_, fun _ now leading => ?_⟩
  · rw [values, List.length_append]
    exact Nat.le_add_right_of_le contiguous.commit
  · cases leading
    refine ⟨finished, fun _ => ?_⟩
    rw [values, List.length_append, ← place]
    exact Function.update_self ..

end Node.Contiguous

/-- A step changes one node, and the others stay contiguous. -/
theorem Cluster.contiguous_node {i : Fin n} {node : Node S} (contiguous : ∀ x, (c.nodes x).Contiguous x)
    (nodes : d.nodes = (c.setNode i node).nodes) (now : node.Contiguous i) (x : Fin n) : (d.nodes x).Contiguous x := by
  rw [nodes]
  by_cases self : x = i
  · subst self
    rw [setNode_self]
    exact now
  · rw [setNode_other c node self]
    exact contiguous x

/-- Every change keeps the logs without gaps. -/
theorem Cluster.Atomic.contiguous (taken : Atomic allowed c d) (contiguous : ∀ x, (c.nodes x).Contiguous x) :
    ∀ x, (d.nodes x).Contiguous x := by
  have node {i : Fin n} {after : Node S} (nodes : d.nodes = (c.setNode i after).nodes)
      (now : after.Contiguous i) := contiguous_node contiguous nodes now
  have unchanged (nodes : d.nodes = c.nodes) : ∀ x, (d.nodes x).Contiguous x := by
    rw [nodes]
    exact contiguous
  -- A session that calls or loops is not the leader's own one.
  have other {i j : Fin n} {fibers : LeaderFibers S} {session : Session n S.Entry}
      (leading : (c.nodes i).mainFiber = .startLeader fibers) (role : (c.nodes i).state = .leader)
      (runs : fibers.session j = session) (open_ : session ≠ .finished) : i ≠ j := by
    rintro rfl
    exact open_ (runs.symm.trans ((contiguous i).leader role fibers leading).1)
  cases taken with
  | restart i => exact node rfl (.construct (contiguous i).stored)
  | follow i term _ =>
      exact node rfl ((contiguous i).idle (Node.yield_raftLog _) (Node.yield_commitIndex _) (by rintro ⟨⟩))
  | stand i _ => exact node rfl ((contiguous i).idle rfl rfl (by rintro ⟨⟩))
  | standCrash i => exact node rfl (.construct (contiguous i).stored)
  | grant call _ _ _ _ => exact node rfl ((contiguous call.callee).same rfl rfl rfl rfl rfl)
  | replyVote call result _ _ => exact unchanged rfl
  | voteLost i j election _ => exact node rfl ((contiguous i).alone rfl rfl (by rintro _ ⟨⟩))
  | voteCounted i election call term _ _ _ _ => exact node rfl ((contiguous i).alone rfl rfl (by rintro _ ⟨⟩))
  | elect i election electing _ _ =>
      refine node rfl ((contiguous i).alone rfl rfl fun fibers leading => ?_)
      cases electing.symm.trans leading
  | startLeader i role _ =>
      refine node rfl ⟨(contiguous i).stored, (contiguous i).commit, fun _ fibers leading => ?_⟩
      cases leading
      exact ⟨if_pos rfl, fun started => absurd rfl started⟩
  | startFollower i _ => exact node rfl ((contiguous i).alone rfl rfl (by rintro _ ⟨⟩))
  | clearPending i fibers _ _ => exact node rfl ((contiguous i).same rfl rfl rfl rfl rfl)
  | send i j fibers prevLogTerm entries leading session role _ _ _ =>
      have apart := other leading role session (by rintro ⟨⟩)
      exact node rfl ((contiguous i).session rfl rfl rfl leading rfl .rfl (Function.update_of_ne apart ..).trans rfl)
  | sessionEnd i j fibers _ role session => exact node rfl ((contiguous i).idle rfl rfl role)
  | refuse call _ _ => exact unchanged rfl
  | drop call _ => exact node rfl (.construct (contiguous call.callee).stored)
  | reject call place _ _ _ _ => exact node rfl ((contiguous call.callee).enter _).1
  | accept call place _ _ _ matched _ result _ =>
      obtain ⟨entered, role⟩ := (contiguous call.callee).enter call.request.term
      exact node rfl (entered.accepted matched role result)
  | acceptCrash call place _ _ _ matched _ =>
      obtain ⟨entered, _⟩ := (contiguous call.callee).enter call.request.term
      obtain ⟨values, stored, _⟩ := entered.rewritten matched
      exact node rfl (.construct stored)
  | callFailed i j fibers seq request leading session role =>
      have apart := other leading role session (by rintro ⟨⟩)
      exact node rfl ((contiguous i).session rfl rfl rfl leading rfl .rfl (Function.update_of_ne apart ..).trans rfl)
  | callAnswered i j fibers seq request leading session role =>
      have apart := other leading role session (by rintro ⟨⟩)
      exact node rfl ((contiguous i).session rfl rfl rfl leading rfl .rfl (Function.update_of_ne apart ..).trans rfl)
  | acknowledge i fibers call request response leading session role _ _ _ _ _ place _ =>
      have apart := other leading role session (by rintro ⟨⟩)
      exact node rfl ((contiguous i).session rfl rfl rfl leading rfl .rfl (Function.update_of_ne apart ..).trans
        (Function.update_of_ne apart ..))
  | stepBack i fibers call request response leading session role _ _ _ _ _ _ =>
      have apart := other leading role session (by rintro ⟨⟩)
      exact node rfl ((contiguous i).session rfl rfl rfl leading rfl .rfl (Function.update_of_ne apart ..).trans rfl)
  | commit i after role updated =>
      obtain ⟨result, _, rfl⟩ := Option.map_eq_some_iff.mp updated
      refine node ?_ ((contiguous i).committed result)
      rw [noteCommit_eq]
  | save i fibers leading _ role => exact node rfl ((contiguous i).save leading role)
  | endMain i fibers _ role => exact node rfl ((contiguous i).idle rfl rfl role)
  | append i request entry ext _ _ role _ =>
      exact node rfl ((contiguous i).wake rfl rfl rfl rfl rfl)
  | answer i request response _ _ => exact unchanged rfl
  | release i call _ _ _ _ => exact node rfl ((contiguous i).same rfl rfl rfl rfl rfl)
  | committed i call _ _ _ _ _ => exact node rfl ((contiguous i).same rfl rfl rfl rfl rfl)
  | tick => exact unchanged rfl

/-- Every process starts on empty databases, whatever messages are on the way. -/
structure Cluster.Starts (start : Cluster S) : Prop where
  nodes : ∀ i, start.nodes i = construct ⟨none, none, OrderedMap.empty⟩
  fresh : start.Fresh

/-- New logs are empty. -/
theorem Cluster.starts_initial (S : Service n) : (Cluster.initial S).Starts :=
  ⟨fun _ => rfl, fresh_initial S⟩

/-- Logs have no gaps in any run. -/
theorem Cluster.Atomics.contiguous (taken : Cluster.Atomics allowed c d) (start : ∀ x, (c.nodes x).Contiguous x) :
    ∀ x, (d.nodes x).Contiguous x := by
  induction taken with
  | refl => exact start
  | tail _ last ih => exact last.contiguous ih

/-- In every run the logs have no gaps, whatever the nodes get. -/
theorem Cluster.Run.contiguous (run : Cluster.Run allowed c d) (starts : c.Starts) (i : Fin n) :
    (d.nodes i).Contiguous i := by
  apply (run.atomics starts.fresh).1.contiguous
  intro x
  rw [starts.nodes]
  exact .construct OrderedMap.ofList_nil.symm

end Metamorphosis
