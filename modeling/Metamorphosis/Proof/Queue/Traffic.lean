import Mathlib.Data.Fintype.Fin
import Metamorphosis.Proof.Lifetimes
import Metamorphosis.Proof.Queue.Counters

/-!
What the program is for: while the main followers answer, the data of a message goes to them only. The
sessions of a leader share one counter of the main nodes that are alive, and every session keeps a flag
of its own.
-/

namespace Metamorphosis
variable {n : Nat}

section Observed
variable {S : Service n}

/-- The last finished call to a follower failed. The newest call comes first. -/
def lastFailed (finished : List (Fin n × Bool)) (j : Fin n) : Bool :=
  ((finished.find? fun call => call.1 = j).map Prod.snd).getD false

/-- The last call to a node decides. -/
theorem lastFailed_cons (finished : List (Fin n × Bool)) (j k : Fin n) (failed : Bool) :
    lastFailed ((j, failed) :: finished) k = if j = k then failed else lastFailed finished k := by
  by_cases same : j = k
  · simp [lastFailed, same]
  · simp [lastFailed, same]

/-- The finished calls of the leadership that a node is in after a step. -/
def Cluster.finishedAfter (c : Cluster S) (i : Fin n) (finished : List (Fin n × Bool)) (action : Action S) :
    List (Fin n × Bool) :=
  if (c.nodes i).state = .leader then
    match action with
    | .appendAnswered x j reply => if x = i then (j, reply.isNone) :: finished else finished
    | _ => finished
  else []

/-- A run together with the calls that have finished in every node's present leadership. -/
inductive Cluster.Observed : Cluster S → (Fin n → List (Fin n × Bool)) → Prop where
  | initial : Observed (.initial S) fun _ => []
  | step {c d : Cluster S} {finished : Fin n → List (Fin n × Bool)} {stop : Option Nat} {action : Action S}
      (before : Observed c finished) (stepped : c.step stop action = some d) :
      Observed d fun i => c.finishedAfter i (finished i) action

/-- An observed cluster is one of a run. -/
theorem Cluster.Observed.run {c : Cluster S} {finished : Fin n → List (Fin n × Bool)} (observed : c.Observed finished) :
    Cluster.Run Cluster.Any (.initial S) c := by
  induction observed with
  | initial => exact .refl
  | step _ stepped ih => exact ih.tail ⟨_, _, trivial, stepped⟩

/-- The finished calls at the end of a script. -/
def Cluster.finishedIn (c : Cluster S) (finished : Fin n → List (Fin n × Bool)) :
    List (Option Nat × Action S) → Fin n → List (Fin n × Bool)
  | [] => finished
  | (stop, action) :: rest =>
      match c.step stop action with
      | none => finished
      | some d => d.finishedIn (fun i => c.finishedAfter i (finished i) action) rest

/-- A script is observed step by step. -/
theorem Cluster.Observed.play {script : List (Option Nat × Action S)} {c d : Cluster S}
    {finished : Fin n → List (Fin n × Bool)} (observed : c.Observed finished)
    (played : c.play Cluster.Any script = some d) : d.Observed (c.finishedIn finished script) := by
  induction script generalizing c finished with
  | nil =>
      cases played
      exact observed
  | cons first rest ih =>
      obtain ⟨stop, action⟩ := first
      have permitted : c.Any action := trivial
      rw [Cluster.play, if_pos permitted] at played
      rw [Cluster.finishedIn]
      cases stepped : c.step stop action with
      | none =>
          rw [stepped] at played
          cases played
      | some after =>
          rw [stepped] at played
          exact ih (observed.step stepped) played

/-- A leadership starts without finished calls. -/
theorem Cluster.finishedAfter_started {c : Cluster S} {i : Fin n} (finished : List (Fin n × Bool)) (action : Action S)
    (role : (c.nodes i).state ≠ .leader) : c.finishedAfter i finished action = [] := if_neg role

/-- Only the sessions of the node itself finish its calls. -/
theorem Cluster.finishedAfter_other {c : Cluster S} {i x : Fin n} {action : Action S} {result : Option (Node S)}
    (finished : List (Fin n × Bool)) (role : (c.nodes x).state = .leader) (ran : c.runs action = some (i, result))
    (other : x ≠ i) : c.finishedAfter x finished action = finished := by
  cases action with
  | appendAnswered y j reply =>
      have same : y = i := by
        simp only [runs] at ran
        split at ran
        swap
        · cases ran
        split at ran
        · exact (Prod.mk.inj (Option.some.inj ran)).1
        · obtain ⟨_, _, found⟩ := Option.map_eq_some_iff.mp ran
          exact (Prod.mk.inj found).1
        · cases ran
      have elsewhere : y ≠ x := fun self => other (self.symm.trans same)
      simp only [finishedAfter, if_pos role, if_neg elsewhere]
  | _ => exact if_pos role

/-- `StartLeader` runs. -/
def MainFiber.started : MainFiber S → Bool
  | .startLeader _ => true
  | _ => false

/-- Waking a leader starts and ends no session. -/
theorem MainFiber.wake_started (fiber : MainFiber S) : fiber.wake.started = fiber.started := by
  cases fiber with
  | startLeader _ => rfl
  | _ => rfl

/-- The only requests of a step are those that a leader's session builds. -/
theorem Cluster.act_sent {c d : Cluster S} {stop : Option Nat} {action : Action S} (acted : c.act stop action = some d) :
    d.appendRequests = c.appendRequests ∨
    ∃ i j fibers prevLogTerm entries, (c.nodes i).state = .leader ∧ (c.nodes i).mainFiber = .startLeader fibers ∧
      fibers.session j = .loop ∧
      (c.nodes i).collectEntries ((c.nodes i).nextIndex j)
        (S.lastLogEntryIndex (c.nodes i).ext i j (c.nodes i).commitIndex ((c.nodes i).nextIndex i) + 1 -
          (c.nodes i).nextIndex j) = some entries ∧
      d.appendRequests = c.appendRequests ++
        [⟨j, fibers.issued j, (c.nodes i).sessionRequest i j prevLogTerm entries⟩] := by
  obtain ⟨_, _, _, same | ⟨i, j, rfl⟩⟩ := act_runs acted
  · exact Or.inl same
  cases act_acts acted with
  | sessionSend _ _ fibers leading session role =>
      rcases perform_cases c i stop (sessionSend i j fibers) fun request c => c.sendAppend j (fibers.issued j) request with
        ⟨disk, _, same⟩ | ⟨request, node, finished, same⟩
      · rw [same]
        exact Or.inl rfl
      rcases sessionSend_cases (c.nodes i) i j fibers with aborted | ⟨prevLogTerm, entries, _, _, collected, run⟩
      · rw [aborted] at finished
        cases finished
      · rw [run] at finished
        cases finished
        rw [same]
        exact Or.inr ⟨i, j, fibers, prevLogTerm, entries, role, leading, session, collected, rfl⟩

end Observed

section Counting
variable (self : Fin n) (finished : List (Fin n × Bool))

/-- The main nodes other than the leader. -/
def mainFollowers : Finset (Fin n) := Finset.univ.filter fun j => j ≠ self ∧ isMainNode self j = true

/-- The main followers whose last finished call failed. -/
def failedFollowers : Finset (Fin n) := (mainFollowers self).filter fun j => lastFailed finished j = true

variable {self} {finished}

/-- The main nodes of a leader apart from itself. -/
theorem mem_mainFollowers {j : Fin n} : j ∈ mainFollowers self ↔ j ≠ self ∧ isMainNode self j = true := by
  rw [mainFollowers, Finset.mem_filter]
  exact and_iff_right (Finset.mem_univ j)

/-- The main nodes whose last call failed. -/
theorem mem_failedFollowers {j : Fin n} :
    j ∈ failedFollowers self finished ↔ j ∈ mainFollowers self ∧ lastFailed finished j = true :=
  Finset.mem_filter

/-- The main nodes and the leader are a majority and no more. -/
theorem mainNodes_card (self : Fin n) :
    (insert self (Finset.univ.filter fun j => isMainNode self j = true)).card = majorityCount n := by
  have size := self.isLt
  simp only [isMainNode, decide_eq_true_eq]
  by_cases beyond : majorityCount n ≤ self.val
  · have outside : self ∉ Finset.univ.filter fun j : Fin n => j.val < majorityCount n - 1 := by
      simp only [Finset.mem_filter, Finset.mem_univ, true_and]
      omega
    simp only [if_pos beyond]
    rw [Finset.card_insert_of_notMem outside, Fin.card_filter_val_lt, majorityCount]
    omega
  · have inside : self ∈ Finset.univ.filter fun j : Fin n => j.val < majorityCount n := by
      simp only [Finset.mem_filter, Finset.mem_univ, true_and]
      omega
    simp only [if_neg beyond]
    rw [Finset.insert_eq_of_mem inside, Fin.card_filter_val_lt, majorityCount]
    omega

/-- A leader and its main followers are a majority. -/
theorem mainFollowers_card (self : Fin n) : (mainFollowers self).card + 1 = majorityCount n := by
  have same : mainFollowers self = (insert self (Finset.univ.filter fun j => isMainNode self j = true)).erase self := by
    ext j
    simp only [mem_mainFollowers, Finset.mem_erase, Finset.mem_insert, Finset.mem_filter, Finset.mem_univ, true_and]
    exact and_congr_right fun other => (or_iff_right other).symm
  rw [same, Finset.card_erase_add_one (Finset.mem_insert_self ..), mainNodes_card]

/-- The failed main nodes and the leader are at most a majority. -/
theorem failedFollowers_card_lt (self : Fin n) (finished : List (Fin n × Bool)) :
    (failedFollowers self finished).card < majorityCount n := by
  have bound := Finset.card_filter_le (mainFollowers self) fun j => lastFailed finished j = true
  rw [← mainFollowers_card self]
  exact Nat.lt_succ_of_le bound

/-- Without calls none has failed. -/
theorem failedFollowers_nil (self : Fin n) : failedFollowers self [] = ∅ :=
  Finset.filter_eq_empty_iff.mpr fun _ _ => nofun

/-- A call that failed after the follower's last one did adds it to the failed ones. -/
theorem failedFollowers_failed {j : Fin n} (main : j ∈ mainFollowers self) :
    failedFollowers self ((j, true) :: finished) = insert j (failedFollowers self finished) := by
  ext k
  simp only [mem_failedFollowers, Finset.mem_insert, lastFailed_cons]
  by_cases same : j = k
  · subst same
    simp [main]
  · simp [same, Ne.symm same]

/-- An answered call takes a node out of the failed ones. -/
theorem failedFollowers_answered (self : Fin n) (finished : List (Fin n × Bool)) (j : Fin n) :
    failedFollowers self ((j, false) :: finished) = (failedFollowers self finished).erase j := by
  ext k
  simp only [mem_failedFollowers, Finset.mem_erase, lastFailed_cons]
  by_cases same : j = k
  · simp [same]
  · simp [same, Ne.symm same]

/-- Calls to other followers do not count. -/
theorem failedFollowers_other {j : Fin n} (failed : Bool) (other : j ∉ mainFollowers self) :
    failedFollowers self ((j, failed) :: finished) = failedFollowers self finished := by
  refine Finset.filter_congr fun k main => ?_
  have elsewhere : j ≠ k := fun same => other (same ▸ main)
  rw [lastFailed_cons, if_neg elsewhere]

theorem ofNat_succ_sub_one (count : Nat) : UInt64.ofNat (count + 1) - 1 = UInt64.ofNat count := by
  rw [UInt64.ofNat_add]
  exact UInt64.add_sub_cancel ..

end Counting

variable {md5 : Bytes → Bytes} {c d : MetamorphosisCluster md5 n} {i : Fin n}

/-- The counter and the flags of a leader say which last calls failed. Before `StartLeader` there were none. -/
structure Watches (i : Fin n) (node : Node (metamorphosisService md5 n)) (finished : List (Fin n × Bool)) : Prop where
  count : node.ext.aliveMainNodesCount =
    UInt64.ofNat (majorityCount n - (failedFollowers i finished).card)
  flags : node.mainFiber.started = true → ∀ j, j ≠ i → node.ext.isAlive j = !lastFailed finished j
  unstarted : node.mainFiber.started = false → finished = []

/-- A session whose call failed. -/
theorem Watches.callFailed {node after : Node (metamorphosisService md5 n)} {finished : List (Fin n × Bool)} {j : Fin n}
    (watches : Watches i node finished) (other : j ≠ i) (started : node.mainFiber.started = true)
    (ext : after.ext = node.ext.callFailed i j) (leads : after.mainFiber.started = true) :
    Watches i after ((j, true) :: finished) := by
  have flag := watches.flags started j other
  refine ⟨?_, fun _ k apart => ?_, fun unstarted => by cases leads.symm.trans unstarted⟩
  · rw [ext, Producers.callFailed]
    cases failed : lastFailed finished j with
    | false =>
        rw [failed, Bool.not_false] at flag
        rw [if_pos flag]
        by_cases main : isMainNode i j = true
        · have member : j ∈ mainFollowers i := mem_mainFollowers.mpr ⟨other, main⟩
          have new : j ∉ failedFollowers i finished := fun known => by
            cases failed.symm.trans (mem_failedFollowers.mp known).2
          have bound := failedFollowers_card_lt i ((j, true) :: finished)
          rw [failedFollowers_failed member, Finset.card_insert_of_notMem new] at bound ⊢
          dsimp only
          have down : majorityCount n - (failedFollowers i finished).card =
              majorityCount n - ((failedFollowers i finished).card + 1) + 1 := by omega
          rw [if_pos main, watches.count, down, ofNat_succ_sub_one]
        · have outside : j ∉ mainFollowers i := fun member => main (mem_mainFollowers.mp member).2
          dsimp only
          rw [if_neg main, failedFollowers_other true outside, watches.count]
    | true =>
        rw [failed, Bool.not_true] at flag
        rw [if_neg (Bool.eq_false_iff.mp flag), watches.count]
        by_cases member : j ∈ mainFollowers i
        · rw [failedFollowers_failed member, Finset.insert_eq_of_mem (mem_failedFollowers.mpr ⟨member, failed⟩)]
        · rw [failedFollowers_other true member]
  · rw [ext, Producers.callFailed, lastFailed_cons]
    by_cases same : j = k
    · subst same
      rw [if_pos rfl]
      split
      · exact Function.update_self ..
      · rename_i dead
        exact Bool.eq_false_iff.mpr dead
    · rw [if_neg same, ← watches.flags started k apart]
      split
      · exact Function.update_of_ne (Ne.symm same) ..
      · rfl

/-- A session whose call was answered. -/
theorem Watches.callAnswered {node after : Node (metamorphosisService md5 n)} {finished : List (Fin n × Bool)} {j : Fin n}
    (watches : Watches i node finished) (other : j ≠ i) (started : node.mainFiber.started = true)
    (ext : after.ext = node.ext.callAnswered i j) (leads : after.mainFiber.started = true) :
    Watches i after ((j, false) :: finished) := by
  have flag := watches.flags started j other
  refine ⟨?_, fun _ k apart => ?_, fun unstarted => by cases leads.symm.trans unstarted⟩
  · rw [ext, Producers.callAnswered, failedFollowers_answered]
    cases failed : lastFailed finished j with
    | false =>
        rw [failed, Bool.not_false] at flag
        have absent : j ∉ failedFollowers i finished := fun known => by
          cases failed.symm.trans (mem_failedFollowers.mp known).2
        rw [if_pos flag, watches.count, Finset.erase_eq_of_notMem absent]
    | true =>
        rw [failed, Bool.not_true] at flag
        rw [if_neg (Bool.eq_false_iff.mp flag)]
        dsimp only
        by_cases main : isMainNode i j = true
        · have known : j ∈ failedFollowers i finished :=
            mem_failedFollowers.mpr ⟨mem_mainFollowers.mpr ⟨other, main⟩, failed⟩
          have bound := failedFollowers_card_lt i finished
          have positive := Finset.card_pos.mpr ⟨j, known⟩
          rw [if_pos main, watches.count, Finset.card_erase_of_mem known]
          have up : majorityCount n - ((failedFollowers i finished).card - 1) =
              majorityCount n - (failedFollowers i finished).card + 1 := by omega
          rw [up, UInt64.ofNat_add]
          rfl
        · have absent : j ∉ failedFollowers i finished := fun known =>
            main (mem_mainFollowers.mp (mem_failedFollowers.mp known).1).2
          rw [if_neg main, watches.count, Finset.erase_eq_of_notMem absent]
  · rw [ext, Producers.callAnswered, lastFailed_cons]
    by_cases same : j = k
    · subst same
      rw [if_pos rfl]
      split
      · rename_i alive
        exact alive
      · exact Function.update_self ..
    · rw [if_neg same, ← watches.flags started k apart]
      split
      · rfl
      · exact Function.update_of_ne (Ne.symm same) ..

/-- A leader that was one before has its counter, its flags and its place in `StartNode` as before. -/
def Node.KeepsAlive (before after : Node (metamorphosisService md5 n)) : Prop :=
  after.state = .leader → before.state = .leader ∧
    after.ext.aliveMainNodesCount = before.ext.aliveMainNodesCount ∧ after.ext.isAlive = before.ext.isAlive ∧
    after.mainFiber.started = before.mainFiber.started

/-- A change that touches neither the role nor the flags. -/
theorem Node.KeepsAlive.same {before after : Node (metamorphosisService md5 n)} (state : after.state = before.state)
    (count : after.ext.aliveMainNodesCount = before.ext.aliveMainNodesCount)
    (flags : after.ext.isAlive = before.ext.isAlive)
    (place : after.mainFiber.started = before.mainFiber.started) : before.KeepsAlive after :=
  fun role => ⟨state.symm.trans role, count, flags, place⟩

theorem Node.KeepsAlive.follows {before after : Node (metamorphosisService md5 n)} (state : after.state ≠ .leader) :
    before.KeepsAlive after := fun role => absurd role state

/-- A commit touches no flag. -/
theorem Node.KeepsAlive.updatedCommit {before node after : Node (metamorphosisService md5 n)}
    (updated : node.updatedCommit = some after) (kept : before.KeepsAlive node) : before.KeepsAlive after := by
  obtain ⟨result, loop, rfl⟩ := Option.map_eq_some_iff.mp updated
  have ext := commitLoop_producers loop
  intro role
  obtain ⟨leads, count, flags, place⟩ := kept role
  refine ⟨leads, ?_, ?_, place⟩
  · change result.1.aliveMainNodesCount = _
    rw [ext, count]
  · change result.1.isAlive = _
    rw [ext, flags]

/-- What the end of a process means for the counter and the flags of its node. -/
inductive AliveTurn (c : MetamorphosisCluster md5 n) (i : Fin n) (action : Action (metamorphosisService md5 n))
    (after : Node (metamorphosisService md5 n)) : Prop where
  | keep (kept : (c.nodes i).KeepsAlive after)
      (quiet : ∀ finished, (c.nodes i).state = .leader → c.finishedAfter i finished action = finished)
  | elect (role : (c.nodes i).state = .candidate) (count : after.ext.aliveMainNodesCount = UInt64.ofNat (majorityCount n))
      (place : after.mainFiber.started = false)
  | start (role : (c.nodes i).state = .leader) (earlier : (c.nodes i).mainFiber.started = false)
      (ext : after.ext = { (c.nodes i).ext with isAlive := fun _ => true }) (place : after.mainFiber.started = true)
      (quiet : ∀ finished, (c.nodes i).state = .leader → c.finishedAfter i finished action = finished)
  | failed (j : Fin n) (other : j ≠ i) (role : (c.nodes i).state = .leader)
      (started : (c.nodes i).mainFiber.started = true) (ext : after.ext = (c.nodes i).ext.callFailed i j)
      (place : after.mainFiber.started = true)
      (noted : ∀ finished, c.finishedAfter i finished action = (j, true) :: finished)
  | answered (j : Fin n) (other : j ≠ i) (role : (c.nodes i).state = .leader)
      (started : (c.nodes i).mainFiber.started = true) (ext : after.ext = (c.nodes i).ext.callAnswered i j)
      (place : after.mainFiber.started = true)
      (noted : ∀ finished, c.finishedAfter i finished action = (j, false) :: finished)

/-- A turn of a leader keeps its count of main nodes that are alive. -/
theorem AliveTurn.watches {action : Action (metamorphosisService md5 n)} {after : Node (metamorphosisService md5 n)}
    (turn : AliveTurn c i action after) {finished : List (Fin n × Bool)}
    (watches : (c.nodes i).state = .leader → Watches i (c.nodes i) finished) (role : after.state = .leader) :
    Watches i after (c.finishedAfter i finished action) := by
  cases turn with
  | keep kept quiet =>
      obtain ⟨leads, count, flags, place⟩ := kept role
      have before := watches leads
      rw [quiet finished leads]
      exact ⟨count.trans before.count, fun started j other =>
        (congrFun flags j).trans (before.flags (place.symm.trans started) j other),
        fun unstarted => before.unstarted (place.symm.trans unstarted)⟩
  | elect candidate count place =>
      have different : (c.nodes i).state ≠ .leader := fun leads => by cases candidate.symm.trans leads
      rw [Cluster.finishedAfter_started finished action different]
      refine ⟨?_, (fun started => by cases place.symm.trans started), fun _ => rfl⟩
      rw [failedFollowers_nil, Finset.card_empty]
      exact count
  | start leads earlier ext place quiet =>
      have before := watches leads
      rw [quiet finished leads]
      refine ⟨?_, fun _ j _ => ?_, fun unstarted => by cases place.symm.trans unstarted⟩
      · rw [ext]
        exact before.count
      · rw [ext, before.unstarted earlier]
        rfl
  | failed j other leads started ext place noted =>
      rw [noted finished]
      exact (watches leads).callFailed other started ext place
  | answered j other leads started ext place noted =>
      rw [noted finished]
      exact (watches leads).callAnswered other started ext place

/-- A vote touches no flag of a leader that goes on. -/
theorem Node.KeepsAlive.requestVote {node after : Node (metamorphosisService md5 n)} {request : RequestVoteRequest n}
    (ends : (requestVote request node).result.map Prod.snd = some after) : node.KeepsAlive after := by
  by_cases old : request.term < node.currentTerm
  · rw [requestVote_old old] at ends
    cases ends
    exact .same rfl rfl rfl rfl
  · have voter : node.KeepsAlive (node.voter request.term) := by
      rw [Node.voter]
      split
      · exact .follows (by rintro ⟨⟩)
      · exact .same rfl rfl rfl rfl
    rw [requestVote_run (Nat.le_of_not_lt old)] at ends
    rcases castVote_cases node.currentTerm request (node.voter request.term) with
      ⟨_, _, cast⟩ | ⟨_, _, cast⟩ | ⟨_, cast⟩
    · simp only [cast] at ends
      cases ends
      exact voter
    · simp only [cast] at ends
      cases ends
      exact voter
    · simp only [cast] at ends
      cases ends
      exact voter

/-- A node that handled a request of its term or a later one is a follower. -/
theorem Node.KeepsAlive.appendEntries {node after : Node (metamorphosisService md5 n)}
    {request : AppendEntriesRequest n MessageEntry}
    (ends : (appendEntries request node).result.map Prod.snd = some after) : node.KeepsAlive after := by
  by_cases old : request.term < node.currentTerm
  · rw [appendEntries_old old] at ends
    cases ends
    exact .same rfl rfl rfl rfl
  rw [appendEntries_run (Nat.le_of_not_lt old)] at ends
  have follower : (node.enter request.term).state ≠ .leader := by
    rw [Node.enter_state]
    rintro ⟨⟩
  rcases checkEntries_cases node.currentTerm request (node.enter request.term) with
    aborted | ⟨_, check⟩ | ⟨_, _, check⟩
  · simp only [aborted] at ends
    cases ends
  · simp only [check] at ends
    cases ends
    exact .follows follower
  · simp only [check, Option.map_map] at ends
    obtain ⟨result, _, rfl⟩ := Option.map_eq_some_iff.mp ends
    exact .follows follower

/-- A client's request touches no flag. -/
theorem Node.KeepsAlive.execute {node after : Node (metamorphosisService md5 n)} {self : Fin n} {tag : Nat}
    {request : AppendReq} (ends : (execute self tag request node).result.map Prod.snd = some after) :
    node.KeepsAlive after := by
  rcases execute_cases node self tag request with ⟨_, run⟩ | ⟨_, _, _, run⟩ | ⟨entry, ext, _, made, run⟩
  · rw [run] at ends
    cases ends
    exact .same rfl rfl rfl rfl
  · rw [run] at ends
    cases ends
    exact .same rfl rfl rfl rfl
  · rw [run] at ends
    cases ends
    obtain ⟨_, _, _, rfl⟩ := Producers.newEntry_inr made
    exact .same rfl rfl rfl (MainFiber.wake_started ..)

/-- The end of a client's call touches no flag. -/
theorem Node.KeepsAlive.resume {node after : Node (metamorphosisService md5 n)} {call : Call (metamorphosisService md5 n)}
    (ends : (resume call node).result.map Prod.snd = some after) : node.KeepsAlive after := by
  rcases resume_cases node call with ⟨_, run⟩ | ⟨_, _, run⟩ | aborted
  · rw [run] at ends
    cases ends
    exact .same rfl rfl rfl rfl
  · rw [run] at ends
    cases ends
    exact .same rfl rfl rfl rfl
  · rw [aborted] at ends
    cases ends

/-- A saved round touches no flag. -/
theorem Node.KeepsAlive.mainRound {node after : Node (metamorphosisService md5 n)} {self : Fin n}
    {fibers : LeaderFibers (metamorphosisService md5 n)} (leading : node.mainFiber = .startLeader fibers)
    (ends : (mainRound self fibers node).result.map Prod.snd = some after) : node.KeepsAlive after := by
  by_cases role : node.state = .leader
  · rw [mainRound_leader self fibers role, Option.map_map] at ends
    obtain ⟨committed, updated, rfl⟩ := Option.map_eq_some_iff.mp ends
    exact .updatedCommit updated (.same rfl rfl rfl (by rw [leading]; rfl))
  · rw [mainRound_notLeader self fibers role] at ends
    cases ends
    exact .follows role

variable {P : Copies (metamorphosisService md5 n)} {strict : Prop} {a : Hist (metamorphosisService md5 n)}

/-- The answer to a call, or its failure. -/
theorem appendAnswered_turn {j : Fin n} {reply : Option Nat} {fibers : LeaderFibers (metamorphosisService md5 n)}
    {request : AppendEntriesRequest n MessageEntry} {result : Option AppendEntriesResult}
    {after : Node (metamorphosisService md5 n)} (other : (c.nodes i).state = .leader → j ≠ i)
    (leading : (c.nodes i).mainFiber = .startLeader fibers) (answered : reply.isNone = result.isNone)
    (ends : (appendAnswered i j fibers request result (c.nodes i)).result.map Prod.snd = some after)
    (role : after.state = .leader) : AliveTurn c i (.appendAnswered i j reply) after := by
  by_cases leads : (c.nodes i).state = .leader
  swap
  · rw [appendAnswered_notLeader i j fibers request result leads] at ends
    cases ends
    exact absurd role leads
  have started : (c.nodes i).mainFiber.started = true := by rw [leading]; rfl
  have noted : ∀ finished, c.finishedAfter i finished (.appendAnswered i j reply) = (j, result.isNone) :: finished := by
    intro finished
    simp only [Cluster.finishedAfter, if_pos leads, if_true, answered]
  cases result with
  | none =>
      rw [appendAnswered_failed i j fibers request leads] at ends
      cases ends
      exact .failed j (other leads) leads started rfl rfl noted
  | some response =>
      rcases appendAnswered_cases i j fibers request response leads with
        ⟨_, run⟩ | ⟨_, _, run⟩ | ⟨_, _, aborted | ⟨_, run⟩⟩
      · rw [run] at ends
        cases ends
        cases role
      · rw [run, Option.map_map] at ends
        obtain ⟨committed, updated, rfl⟩ := Option.map_eq_some_iff.mp ends
        obtain ⟨result, loop, rfl⟩ := Option.map_eq_some_iff.mp updated
        exact .answered j (other leads) leads started (commitLoop_producers loop) rfl noted
      · rw [aborted] at ends
        cases ends
      · rw [run] at ends
        cases ends
        exact .answered j (other leads) leads started rfl rfl noted

/-- `StartNode` enters `StartLeader` once in a leadership. -/
theorem startNode_turn {action : Action (metamorphosisService md5 n)} {after : Node (metamorphosisService md5 n)}
    (quiet : ∀ finished, (c.nodes i).state = .leader → c.finishedAfter i finished action = finished)
    (unstarted : (c.nodes i).state = .leader → (c.nodes i).mainFiber.started = false)
    (ends : (startNode i (c.nodes i)).result.map Prod.snd = some after) : AliveTurn c i action after := by
  rcases startNode_cases (c.nodes i) i with ⟨role, run⟩ | ⟨role, run⟩ | ⟨role, run⟩
  · rw [run] at ends
    cases ends
    exact .start role (unstarted role) rfl rfl quiet
  · rw [run] at ends
    cases ends
    exact .keep (.follows fun leads => by cases role.symm.trans leads) quiet
  · rw [run] at ends
    cases ends
    exact .keep (.follows (by rintro ⟨⟩)) quiet

/-- A step of a node that is a leader afterwards. -/
theorem Sim.alive_turn (sim : Sim P strict c a) {action : Action (metamorphosisService md5 n)}
    {after : Node (metamorphosisService md5 n)} (completes : c.Completes action i after)
    (role : after.state = .leader) : AliveTurn c i action after := by
  cases completes with
  | electionTimeout ends =>
      rcases electionTimeout_cases (c.nodes i) i with ⟨_, run⟩ | aborted
      · rw [run] at ends
        cases ends
        cases role
      · rw [aborted] at ends
        cases ends
  | requestVote ends => exact .keep (.requestVote ends) fun _ leads => if_pos leads
  | @voteAnswered _ j reply election result _ electing ends =>
      have unstarted : (c.nodes i).mainFiber.started = false := by rw [electing]; rfl
      rcases voteAnswered_cases election j result (c.nodes i) with
        run | ⟨term, _, run⟩ | ⟨_, _, run | ⟨candidate, _, run⟩⟩
      · rw [run] at ends
        cases ends
        exact .keep (.same rfl rfl rfl unstarted.symm) fun _ leads => if_pos leads
      · rw [run] at ends
        cases ends
        cases role
      · rw [run] at ends
        cases ends
        exact .keep (.same rfl rfl rfl unstarted.symm) fun _ leads => if_pos leads
      · rw [run] at ends
        cases ends
        exact .elect candidate rfl rfl
  | electionEnd electing ends =>
      exact startNode_turn (fun _ leads => if_pos leads) (fun _ => by rw [electing]; rfl) ends
  | @sessionSend _ j fibers _ leading ends =>
      rcases sessionSend_cases (c.nodes i) i j fibers with aborted | ⟨_, _, _, _, _, run⟩
      · rw [aborted] at ends
        cases ends
      · rw [run] at ends
        cases ends
        exact .keep (.same rfl rfl rfl (by rw [leading]; rfl)) fun _ leads => if_pos leads
  | sessionEnd leading => exact .keep (.same rfl rfl rfl (by rw [leading]; rfl)) fun _ leads => if_pos leads
  | appendEntries ends => exact .keep (.appendEntries ends) fun _ leads => if_pos leads
  | @appendAnswered _ j reply fibers _ _ _ _ leading session answered ends =>
      -- A leader has no session for itself, and only leaders are leaders after an answer.
      have other (leads : (c.nodes i).state = .leader) : j ≠ i := by
        rintro rfl
        obtain ⟨L, leader⟩ := (sim.nodes j).leader leads
        cases (leader.fibers fibers leading).own.symm.trans session
      exact appendAnswered_turn other leading answered ends role
  | mainRound leading ends => exact .keep (.mainRound leading ends) fun _ leads => if_pos leads
  | @leaderEnd _ fibers _ leading ended ends =>
      rcases startNode_cases { c.nodes i with pendingLog := [] } i with ⟨leads, _⟩ | ⟨follower, run⟩ | ⟨_, run⟩
      · obtain ⟨L, leader⟩ := (sim.nodes i).leader leads
        exact absurd ended (leader.fibers fibers leading).running
      · rw [run] at ends
        cases ends
        exact .keep (.follows (fun leads => by cases follower.symm.trans leads)) fun _ leads => if_pos leads
      · rw [run] at ends
        cases ends
        cases role
  | execute ends => exact .keep (.execute ends) fun _ leads => if_pos leads
  | resume ends => exact .keep (.resume ends) fun _ leads => if_pos leads

/-- In every reached state the leaders count right. -/
theorem Cluster.Observed.watches {finished : Fin n → List (Fin n × Bool)} (observed : c.Observed finished) (x : Fin n)
    (role : (c.nodes x).state = .leader) : Watches x (c.nodes x) (finished x) := by
  induction observed generalizing x with
  | initial => cases role
  | @step c d finished stop action before stepped ih =>
      obtain ⟨a, sim⟩ := before.run.any_sim (metamorphosisCopies md5 n)
      obtain ⟨after, acted, rfl⟩ := Option.map_eq_some_iff.mp stepped
      change (after.nodes x).state = .leader at role
      change Watches x (after.nodes x) (c.finishedAfter x (finished x) action)
      obtain ⟨⟨i, result⟩, ran, ran_nodes, _⟩ := Cluster.act_runs acted
      by_cases self : x = i
      · subst self
        rcases ran_nodes with ⟨node, _, rfl, nodes⟩ | ⟨_, disk, nodes⟩
        · rw [nodes, Cluster.setNode_self] at role ⊢
          exact (sim.alive_turn (Cluster.act_completes acted ran) role).watches (ih x) role
        · rw [nodes, Cluster.setNode_self] at role
          cases role
      · have same : after.nodes x = c.nodes x := by
          rcases ran_nodes with ⟨node, _, _, nodes⟩ | ⟨_, disk, nodes⟩
          · rw [nodes, Cluster.setNode_other c _ self]
          · rw [nodes, Cluster.setNode_other c _ self]
        rw [same] at role ⊢
        rw [Cluster.finishedAfter_other (finished x) role ran self]
        exact ih x role

/-- Entries up to the commit index travel without their data. -/
theorem collectEntries_hashes {node : Node (metamorphosisService md5 n)} {index count : Nat} {entries : List MessageEntry}
    (collected : node.collectEntries index count = some entries) (inside : index + count ≤ node.commitIndex + 1) :
    ∀ entry ∈ entries, entry.data = [] := by
  induction count generalizing index entries with
  | zero =>
      cases collected
      nofun
  | succ count ih =>
      rw [Node.collectEntries] at collected
      obtain ⟨entry, _, collected⟩ := Option.bind_eq_some_iff.mp collected
      obtain ⟨rest, others, same⟩ := Option.bind_eq_some_iff.mp collected
      cases same
      intro sent member
      rcases List.mem_cons.mp member with rfl | later
      · simp only [MessageEntry.encode]
        rw [if_pos (by omega)]
      · exact ih others (by omega) sent later

/-- The main nodes and the leader are a majority. In every run, the leader's counter is the size of a
majority less the number of main followers whose last finished call failed; a request to another
follower carries data only if there is such a follower. -/
theorem traffic_saving (md5 : Bytes → Bytes) (n : Nat) {c : MetamorphosisCluster md5 n}
    {finished : Fin n → List (Fin n × Bool)} (observed : c.Observed finished) (i : Fin n) :
    (insert i (Finset.univ.filter fun j => isMainNode i j = true)).card = majorityCount n ∧
    (mainFollowers i).card + 1 = majorityCount n ∧
    ((c.nodes i).state = .leader →
      (failedFollowers i (finished i)).card < majorityCount n ∧
      (c.nodes i).ext.aliveMainNodesCount =
        UInt64.ofNat (majorityCount n - (failedFollowers i (finished i)).card)) ∧
    ∀ stop action d call, c.step stop action = some d → d.appendRequests = c.appendRequests ++ [call] →
      call.request.leaderId = i → (∃ entry ∈ call.request.entries, entry.data ≠ []) →
        call.callee ∈ mainFollowers i ∨ (failedFollowers i (finished i)).Nonempty := by
  refine ⟨mainNodes_card i, mainFollowers_card i, fun role => ⟨failedFollowers_card_lt i (finished i),
    (observed.watches i role).count⟩, ?_⟩
  rintro stop action d call stepped sent leader ⟨entry, carried, data⟩
  obtain ⟨after, acted, rfl⟩ := Option.map_eq_some_iff.mp stepped
  change after.appendRequests = _ at sent
  rcases Cluster.act_sent acted with same | ⟨x, j, fibers, prevLogTerm, entries, role, leading, session, collected, added⟩
  · rw [same] at sent
    exact absurd (List.self_eq_append_right.mp sent) (List.cons_ne_nil _ _)
  have built := List.append_cancel_left (sent.symm.trans added)
  cases built
  change x = i at leader
  subst leader
  obtain ⟨a, sim⟩ := observed.run.any_sim (metamorphosisCopies md5 n)
  have other : j ≠ x := by
    rintro rfl
    obtain ⟨L, leader⟩ := (sim.nodes j).leader role
    cases (leader.fibers fibers leading).own.symm.trans session
  rw [or_iff_not_imp_right, Finset.not_nonempty_iff_eq_empty]
  intro alive
  refine mem_mainFollowers.mpr ⟨other, ?_⟩
  by_contra outside
  have full : (c.nodes x).ext.aliveMainNodesCount = UInt64.ofNat (majorityCount n) := by
    rw [(observed.watches x role).count, alive, Finset.card_empty, Nat.sub_zero]
  have last : (c.nodes x).ext.lastLogEntryIndex x j (c.nodes x).commitIndex ((c.nodes x).nextIndex x) =
      (c.nodes x).commitIndex := if_pos ⟨Bool.eq_false_iff.mpr outside, full⟩
  change Node.collectEntries _ _ (Producers.lastLogEntryIndex .. + 1 - _) = _ at collected
  rw [last] at collected
  by_cases behind : (c.nodes x).nextIndex j ≤ (c.nodes x).commitIndex + 1
  · exact data (collectEntries_hashes collected (by omega) entry carried)
  · rw [Nat.sub_eq_zero_of_le (by omega)] at collected
    cases collected
    exact absurd carried List.not_mem_nil

/-- The leader's call to its only main follower fails. -/
def unansweredScript : List (Option Nat × Action (metamorphosisService id 3)) :=
  Cluster.firstLeads _ ++ Cluster.firstSends (metamorphosisService id 3) ⟨[7], 1, 0⟩ ++
    [(none, .appendAnswered 0 1 none)]

theorem unansweredScript_possible :
    ((Cluster.initial (metamorphosisService id 3)).play Cluster.Any unansweredScript).isSome = true := by
  decide +kernel

/-- The cluster after the script. -/
def unansweredCluster : MetamorphosisCluster id 3 :=
  (Cluster.initial _).endOf Cluster.Any unansweredScript unansweredScript_possible

/-- The third node is not a main one, but it gets the data now. -/
theorem traffic_saving_unanswered :
    (unansweredCluster.nodes 0).ext.aliveMainNodesCount = 1 ∧ 2 ∉ mainFollowers (0 : Fin 3) ∧
    ∃ d, unansweredCluster.step none (.sessionSend 0 2) = some d ∧
      d.appendRequests = unansweredCluster.appendRequests ++ [⟨2, 0, ⟨1, 0, 0, 0, [⟨1, 1, [7], [7]⟩], 0⟩⟩] ∧
      (failedFollowers 0
        ((Cluster.initial (metamorphosisService id 3)).finishedIn (fun _ => []) unansweredScript 0)).Nonempty := by
  obtain ⟨_, _, _, carried⟩ := traffic_saving id 3
    (Cluster.Observed.initial.play (Option.some_get unansweredScript_possible).symm) 0
  have outside : 2 ∉ mainFollowers (0 : Fin 3) := by decide
  have stepped : (unansweredCluster.step none (.sessionSend 0 2)).map Cluster.appendRequests =
      some (unansweredCluster.appendRequests ++ [⟨2, 0, ⟨1, 0, 0, 0, [⟨1, 1, [7], [7]⟩], 0⟩⟩]) := by decide +kernel
  obtain ⟨d, stepped, sent⟩ := Option.map_eq_some_iff.mp stepped
  refine ⟨by decide +kernel, outside, d, stepped, sent, ?_⟩
  exact (carried none _ d _ stepped sent rfl ⟨_, List.mem_singleton_self _, by decide⟩).resolve_left outside

end Metamorphosis
