import Metamorphosis.Proof.Actions
import Metamorphosis.Proof.Clients.Linearizable
import Metamorphosis.Proof.Raft.Reconciliation

/-!
No client call is forgotten: a call that nobody has woken waits on a node that still leads the call's term, and the
table of pending requests names the call at the index of its entry.
-/

namespace Metamorphosis
open ReplicatedLog

section Wakes
variable {n : Nat} {S : Service n}

/-- A vote reaches a node only when no woken client call of the node is still to run. A call that runs after its node
was elected again would erase the name of a newer call at the same index. -/
def Cluster.Attentive (c : Cluster S) : Action S → Prop
  | .voteAnswered i _ _ => ∀ call ∈ (c.nodes i).calls, call.signaled = false
  | _ => True

instance (c : Cluster S) : ∀ action, Decidable (c.Attentive action)
  | .voteAnswered i _ _ => inferInstanceAs (Decidable (∀ call ∈ (c.nodes i).calls, call.signaled = false))
  | .electionTimeout _ | .handleVote _ | .electionEnd _ | .sessionSend .. | .sessionEnd .. | .handleAppend _
  | .appendAnswered .. | .mainRound _ | .leaderEnd _ | .execute .. | .resume .. | .crash _ => isTrue trivial

/-- The calls of a leader were accepted in its term, the table names them at the indices of their entries, and they
are woken as soon as these indices are committed. -/
structure Node.Serves (i : Fin n) (node : Node S) : Prop where
  current : ∀ call ∈ node.calls, call.currentTerm = node.currentTerm
  below : ∀ call ∈ node.calls, call.newLogIndex < node.nextIndex i
  registered : ∀ call ∈ node.calls, node.pendingRequests call.newLogIndex = some call.tag
  uncommitted : ∀ call ∈ node.calls, call.signaled = false → node.commitIndex < call.newLogIndex

/-- A leader serves its calls, and any other node has woken all of them. -/
structure Node.Wakes (i : Fin n) (node : Node S) : Prop where
  serves : node.state = .leader → node.Serves i
  woken : node.state ≠ .leader → ∀ call ∈ node.calls, call.signaled = true

/-- A node that does not lead has woken all calls. -/
theorem Node.Wakes.quiet {i : Fin n} {node : Node S} (role : node.state ≠ .leader)
    (woken : ∀ call ∈ node.calls, call.signaled = true) : node.Wakes i :=
  ⟨fun leads => absurd leads role, fun _ => woken⟩

/-- A node without calls has nobody to wake. -/
theorem Node.Wakes.idle (i : Fin n) {node : Node S} (idle : node.calls = []) : node.Wakes i := by
  constructor
  · intro _
    constructor <;> simp [idle]
  · simp [idle]

/-- A node that was just built has no calls. -/
theorem Node.Wakes.construct (i : Fin n) (disk : Disk S) : (construct disk).Wakes i := .idle i rfl

/-- A change of a node that its calls do not see. -/
theorem Node.Wakes.same {i : Fin n} {before after : Node S} (wakes : before.Wakes i)
    (state : after.state = before.state) (term : after.currentTerm = before.currentTerm)
    (calls : after.calls = before.calls) (pending : after.pendingRequests = before.pendingRequests)
    (commitIndex : after.commitIndex = before.commitIndex) (next : after.nextIndex i = before.nextIndex i) :
    after.Wakes i := by
  constructor
  · intro role
    obtain ⟨current, below, registered, uncommitted⟩ := wakes.serves (state.symm.trans role)
    constructor
    · rwa [calls, term]
    · rwa [calls, next]
    · rwa [calls, pending]
    · rwa [calls, commitIndex]
  · intro role
    rw [state] at role
    rw [calls]
    exact wakes.woken role

/-- A node that gives up its role wakes its calls. -/
theorem Node.Wakes.yield {i : Fin n} {node : Node S} (wakes : node.Wakes i) :
    ∀ call ∈ node.yield.calls, call.signaled = true := by
  intro call member
  rw [Node.yield] at member
  split at member
  · obtain ⟨_, _, rfl⟩ := List.mem_map.mp member
    rfl
  · rename_i role
    exact wakes.woken role call member

/-- A node that follows a later term wakes its calls. -/
theorem Node.Wakes.follow {i : Fin n} {node : Node S} (wakes : node.Wakes i) (term : Nat) : (node.follow term).Wakes i :=
  .quiet (by rintro ⟨⟩) wakes.yield

/-- So does a node that enters the term of a request. -/
theorem Node.Wakes.enter {i : Fin n} {node : Node S} (wakes : node.Wakes i) (term : Nat) : (node.enter term).Wakes i := by
  rw [Node.enter]
  split
  · exact wakes.follow term
  · exact .quiet (by rintro ⟨⟩) wakes.yield

/-- A follower that commits wakes nobody. -/
theorem commitLoop_silent {log : OrderedMap S.Entry} {pending : Nat → Option Nat} {indices : List Nat} {ext : S.Ext}
    {calls : List (Call S)} {result : S.Ext × List (Call S)}
    (loop : commitLoop false log pending indices ext calls = some result) : result.2 = calls := by
  induction indices generalizing ext with
  | nil =>
      cases loop
      rfl
  | cons index rest ih =>
      rw [commitLoop] at loop
      split at loop
      · cases loop
      · exact ih loop

/-- A committed index wakes the call that the table names for it. -/
theorem commitLoop_wakes {log : OrderedMap S.Entry} {pending : Nat → Option Nat} {indices : List Nat} {ext : S.Ext}
    {calls : List (Call S)} {result : S.Ext × List (Call S)}
    (loop : commitLoop true log pending indices ext calls = some result) :
    ∀ after ∈ result.2, ∃ before ∈ calls, after.tag = before.tag ∧ after.newLogIndex = before.newLogIndex ∧
      after.currentTerm = before.currentTerm ∧ (after.signaled = false → before.signaled = false ∧
        ∀ index ∈ indices, pending index ≠ some before.tag) := by
  induction indices generalizing ext calls with
  | nil =>
      cases loop
      exact fun after member => ⟨after, member, rfl, rfl, rfl, fun silent => ⟨silent, by simp⟩⟩
  | cons index rest ih =>
      rw [commitLoop] at loop
      split at loop
      · cases loop
      intro after member
      obtain ⟨middle, among, tag, place, term, silent⟩ := ih loop after member
      obtain ⟨before, waiting, rfl⟩ := List.mem_map.mp among
      refine ⟨before, waiting, ?_⟩
      by_cases named : pending index = some before.tag
      · simp only [if_pos named] at tag place term silent
        exact ⟨tag, place, term, fun quiet => absurd (silent quiet).1 (by simp)⟩
      · simp only [if_neg named] at tag place term silent
        refine ⟨tag, place, term, fun quiet => ⟨(silent quiet).1, ?_⟩⟩
        exact List.forall_mem_cons.mpr ⟨named, (silent quiet).2⟩

/-- A leader that commits more wakes the calls whose indices it has reached. -/
theorem Node.Serves.commit {i : Fin n} {node after : Node S} (serves : node.Serves i)
    (updated : node.updatedCommit = some after) : after.Serves i := by
  obtain ⟨result, loop, rfl⟩ := Option.map_eq_some_iff.mp updated
  have woken := commitLoop_wakes loop
  constructor
  · intro call member
    obtain ⟨before, waiting, _, _, term, _⟩ := woken call member
    exact term.trans (serves.current before waiting)
  · intro call member
    obtain ⟨before, waiting, _, place, _⟩ := woken call member
    rw [place]
    exact serves.below before waiting
  · intro call member
    obtain ⟨before, waiting, tag, place, _⟩ := woken call member
    rw [place, tag]
    exact serves.registered before waiting
  · intro call member silent
    obtain ⟨before, waiting, _, place, _, unnamed⟩ := woken call member
    obtain ⟨quiet, missed⟩ := unnamed silent
    have above := serves.uncommitted before waiting quiet
    rw [place]
    -- An index up to the new commit index is among those that the loop visits.
    by_contra reached
    refine missed before.newLogIndex ?_ (serves.registered before waiting)
    rw [Node.newlyCommitted, List.mem_range'_1]
    change ¬ node.findCommitIndex node.getSavedLogSize < before.newLogIndex at reached
    omega

/-- A new call waits above everything that is committed. -/
theorem Node.Serves.append {i : Fin n} {node : Node S} (serves : node.Serves i) (tag : Nat) (request : S.Request)
    (entry : S.Entry) (ext : S.Ext) (inside : node.commitIndex < node.nextIndex i) :
    (node.appended i tag request entry ext).Serves i := by
  have next : (node.appended i tag request entry ext).nextIndex i = node.nextIndex i + 1 := Function.update_self ..
  have cases_ {call : Call S} (member : call ∈ (node.appended i tag request entry ext).calls) :
      call ∈ node.calls ∨ call = ⟨tag, request, node.nextIndex i, node.currentTerm, false, none⟩ := by
    rcases List.mem_append.mp member with old | new
    · exact Or.inl old
    · exact Or.inr (List.mem_singleton.mp new)
  constructor
  · intro call member
    rcases cases_ member with old | rfl
    · exact serves.current call old
    · rfl
  · intro call member
    rw [next]
    rcases cases_ member with old | rfl
    · exact Nat.lt_succ_of_lt (serves.below call old)
    · exact Nat.lt_succ_self _
  · intro call member
    rcases cases_ member with old | rfl
    · have lower := serves.below call old
      exact (Function.update_of_ne (Nat.ne_of_lt lower) ..).trans (serves.registered call old)
    · exact Function.update_self ..
  · intro call member silent
    rcases cases_ member with old | rfl
    · exact serves.uncommitted call old silent
    · exact inside

/-- A call that leaves takes only its own name from the table. -/
theorem Node.Serves.leave {i : Fin n} {node : Node S} (serves : node.Serves i) {call : Call S} (waits : call ∈ node.calls)
    (ext : S.Ext) : ((node.dropCall call).withExt ext).Serves i := by
  have kept {other : Call S} (member : other ∈ ((node.dropCall call).withExt ext).calls) :
      other ∈ node.calls ∧ other.tag ≠ call.tag := by
    obtain ⟨old, different⟩ := List.mem_filter.mp member
    exact ⟨old, of_decide_eq_true different⟩
  constructor
  · exact fun other member => serves.current other (kept member).1
  · exact fun other member => serves.below other (kept member).1
  · intro other member
    obtain ⟨old, different⟩ := kept member
    have named := serves.registered other old
    have apart : other.newLogIndex ≠ call.newLogIndex := by
      intro same
      rw [same, serves.registered call waits] at named
      exact different (Option.some.inj named).symm
    exact (Function.update_of_ne apart ..).trans named
  · exact fun other member => serves.uncommitted other (kept member).1

variable {P : Copies S} {strict : Prop} {c d : Cluster S} {a : Hist S} {allowed : Cluster S → Action S → Prop}

/-- An indivisible change keeps the calls of all nodes served. A node that becomes leader must have no call left. -/
theorem Sim.wakes_atomic (sim : Sim P strict c a) (taken : Cluster.Atomic allowed c d)
    (idle : d.elected = c.elected ∨ ∀ x, (c.nodes x).state = .candidate → (c.nodes x).calls = [])
    (wakes : ∀ x, (c.nodes x).Wakes x) : ∀ x, (d.nodes x).Wakes x := by
  have node {i : Fin n} {after : Node S} (nodes : d.nodes = (c.setNode i after).nodes) (here : after.Wakes i) :
      ∀ x, (d.nodes x).Wakes x := by
    intro x
    rw [nodes]
    by_cases self : x = i
    · subst self
      rw [Cluster.setNode_self]
      exact here
    · rw [Cluster.setNode_other c after self]
      exact wakes x
  -- A leader calls other nodes only.
  have callee {i j : Fin n} {fibers : LeaderFibers S} {seq : Nat} {request : AppendEntriesRequest n S.Entry}
      (leading : (c.nodes i).mainFiber = .startLeader fibers) (session : fibers.session j = .calling seq request)
      (role : (c.nodes i).state = .leader) : i ≠ j := by
    rintro rfl
    obtain ⟨L, leader⟩ := (sim.nodes i).leader role
    cases (leader.fibers fibers leading).own.symm.trans session
  cases taken with
  | restart i => exact node rfl (.construct ..)
  | standCrash i => exact node rfl (.construct ..)
  | drop call _ => exact node rfl (.construct ..)
  | acceptCrash call place _ _ _ _ _ => exact node rfl (.construct ..)
  | follow i term _ => exact node rfl ((wakes i).follow term)
  | reject call place _ _ _ _ => exact node rfl ((wakes call.callee).enter _)
  | accept call place _ _ _ _ _ result loop =>
      refine node rfl ?_
      have entered := (wakes call.callee).enter call.request.term
      have follows := (c.nodes call.callee).enter_state call.request.term
      have role : ((c.nodes call.callee).enter call.request.term).state ≠ .leader := by
        rw [follows]
        decide
      refine .quiet role fun other member => entered.woken role other ?_
      exact commitLoop_silent loop ▸ member
  | stand i role =>
      refine node rfl (.quiet (by rintro ⟨⟩) ((wakes i).woken ?_))
      rcases role with candidate | ⟨follower, _⟩
      · rw [candidate]
        decide
      · rw [follower]
        decide
  | elect i election _ candidate _ =>
      refine node rfl (.idle i ?_)
      rcases idle with same | free
      · exact absurd (congrArg List.length same) (by simp [Cluster.noteLeader, Cluster.setNode])
      · exact free i candidate
  | acknowledge i fibers call request response leading session role _ _ _ _ _ place _ =>
      exact node rfl ((wakes i).same rfl rfl rfl rfl rfl (Function.update_of_ne (callee leading session role) ..))
  | stepBack i fibers call request response leading session role _ _ _ _ _ _ =>
      exact node rfl ((wakes i).same rfl rfl rfl rfl rfl (Function.update_of_ne (callee leading session role) ..))
  | commit i after role updated =>
      have nodes : (Cluster.noteCommit (c.nodes i).commitIndex i (c.setNode i after)).nodes = (c.setNode i after).nodes := by
        rw [Cluster.noteCommit_eq]
      have serves := ((wakes i).serves role).commit updated
      obtain ⟨result, _, rfl⟩ := Option.map_eq_some_iff.mp updated
      exact node nodes ⟨fun _ => serves, fun other => absurd role other⟩
  | append i request entry ext _ _ role made =>
      have inside : (c.nodes i).commitIndex < (c.nodes i).nextIndex i := by
        have bound := (sim.nodes i).commit
        have size := (sim.nodes i).log.size
        rw [sim.nextIndex role, size]
        omega
      refine node rfl ⟨fun _ => ((wakes i).serves role).append _ request entry ext inside, fun other => absurd role other⟩
  | release i call _ waits _ different =>
      refine node rfl ⟨fun role => ?_, fun role other member => ?_⟩
      · exact absurd (((wakes i).serves role).current call waits) different
      · exact (wakes i).woken role other (List.mem_of_mem_filter member)
  | committed i call _ waits _ _ role =>
      exact node rfl ⟨fun _ => ((wakes i).serves role).leave waits _, fun other => absurd role other⟩
  | replyVote call result _ _ => exact wakes
  | refuse call _ _ => exact wakes
  | answer i request response _ _ => exact wakes
  | tick => exact wakes
  | _ => exact node rfl ((wakes _).same rfl rfl rfl rfl rfl rfl)

/-- A process elects nobody before its end. -/
theorem Cluster.perform_elected {A : Type} {i : Fin n} {stop : Option Nat} {process : NodeProcess S A}
    {done : A → Cluster S → Cluster S} (kept : ∀ value e, (done value e).elected = e.elected) :
    (c.perform i stop process done).elected = c.elected := by
  rcases c.perform_cases i stop process done with ⟨disk, _, same⟩ | ⟨value, node, _, same⟩
  · rw [same]
    rfl
  · rw [same, kept]
    rfl

/-- Only an answered vote makes a leader. -/
theorem Cluster.step_elected {stop : Option Nat} {action : Action S} (stepped : c.step stop action = some d)
    (other : ∀ i j reply, action ≠ .voteAnswered i j reply) : d.elected = c.elected := by
  obtain ⟨after, acted, rfl⟩ := Option.map_eq_some_iff.mp stepped
  change after.elected = c.elected
  have requested (request : Option (RequestVoteRequest n)) (e : Cluster S) : (e.sendVotes? request).elected = e.elected := by
    cases request <;> rfl
  have committed (before : Nat) (i : Fin n) (e : Cluster S) : (noteCommit before i e).elected = e.elected := by
    rw [noteCommit_eq]
  cases act_acts acted with
  | voteFailed i j election _ _ => exact absurd rfl (other i j none)
  | voteAnswered i j place election call result _ _ _ _ _ => exact absurd rfl (other i j (some place))
  | electionEnd i election _ _ => exact perform_elected requested
  | leaderEnd i fibers _ _ _ => exact perform_elected requested
  | appendAnswered i j place fibers seq request call result _ _ _ _ _ _ _ =>
      exact perform_elected fun _ => committed (c.nodes i).commitIndex i
  | mainRound i fibers _ _ => exact perform_elected fun _ => committed (c.nodes i).commitIndex i
  | execute i request =>
      refine perform_elected fun response e => ?_
      cases response with
      | some answer => rfl
      | none =>
          simp only [noteExecute]
          split <;> rfl
  | crash i => rfl
  | handleAppend place call _ => exact perform_elected fun _ _ => rfl
  | _ => exact perform_elected fun _ _ => rfl

/-- An answered vote keeps the calls served if the candidate has no woken call left. -/
theorem voteAnswered_wakes {i j : Fin n} {stop : Option Nat} {election : Election n} {result : Option RequestVoteResult}
    (attentive : ∀ call ∈ (c.nodes i).calls, call.signaled = false) (wakes : ∀ x, (c.nodes x).Wakes x) (x : Fin n) :
    ((c.perform i stop (voteAnswered election j result) fun _ => Cluster.noteElected (c.nodes i).state i).nodes x).Wakes x := by
  have free (candidate : (c.nodes i).state = .candidate) : (c.nodes i).calls = [] := by
    refine List.eq_nil_iff_forall_not_mem.mpr fun call member => ?_
    have woken := (wakes i).woken (by rw [candidate]; decide) call member
    rw [attentive call member] at woken
    cases woken
  have node {after : Node S} (here : after.Wakes i) : ((c.setNode i after).nodes x).Wakes x := by
    by_cases self : x = i
    · subst self
      rw [Cluster.setNode_self]
      exact here
    · rw [Cluster.setNode_other c after self]
      exact wakes x
  have electing (next : Election n) : ((c.nodes i).electing next).Wakes i := (wakes i).same rfl rfl rfl rfl rfl rfl
  rcases c.perform_cases i stop (voteAnswered election j result) fun _ => Cluster.noteElected (c.nodes i).state i with
    ⟨disk, _, same⟩ | ⟨value, after, ended, same⟩
  · rw [same]
    exact node (.construct i disk)
  · rw [same, Cluster.noteElected_nodes]
    apply node
    rcases voteAnswered_cases election j result (c.nodes i) with run | ⟨term, _, run⟩ | ⟨term, _, run | ⟨candidate, _, run⟩⟩
    · rw [run] at ended
      cases ended
      exact electing _
    · rw [run] at ended
      cases ended
      exact (electing _).follow term
    · rw [run] at ended
      cases ended
      exact electing _
    · rw [run] at ended
      cases ended
      exact .idle i (free candidate)

/-- A permitted step keeps the calls of all nodes served. -/
theorem Sim.wakes_step (sim : Sim P False c a) (fresh : c.Fresh) {stop : Option Nat} {action : Action S}
    (attentive : c.Attentive action) (stepped : c.step stop action = some d) (wakes : ∀ x, (c.nodes x).Wakes x) :
    ∀ x, (d.nodes x).Wakes x := by
  by_cases vote : ∃ i j reply, action = .voteAnswered i j reply
  · obtain ⟨i, j, reply, rfl⟩ := vote
    obtain ⟨after, acted, rfl⟩ := Option.map_eq_some_iff.mp stepped
    cases Cluster.act_acts acted with
    | voteFailed _ _ election _ _ => exact voteAnswered_wakes attentive wakes
    | voteAnswered _ _ place election call result _ _ _ _ _ => exact voteAnswered_wakes attentive wakes
  · have same := Cluster.step_elected stepped fun i j reply is => vote ⟨i, j, reply, is⟩
    have next : Cluster.Next Cluster.Any c d := ⟨stop, action, trivial, stepped⟩
    -- Nobody is elected in any of the changes that make the step.
    obtain ⟨_, _, _, _, kept⟩ := Sim.invariant
      (fun e _ => c.elected <+: e.elected ∧ (e.elected = c.elected → ∀ x, (e.nodes x).Wakes x))
      (fun {e e'} _ _ simE _ _ taken held => by
        have grows := taken.extends.elected
        refine ⟨held.1.trans grows, fun unchanged => ?_⟩
        have before : e.elected = c.elected := (held.1.eq_of_length_le (unchanged ▸ grows.length_le)).symm
        exact simE.wakes_atomic taken (Or.inl (unchanged.trans before.symm)) (held.2 before))
      False.elim sim ⟨List.prefix_rfl, fun _ => wakes⟩ (next.atomics fresh).1
    exact kept same

/-- Along every run with permitted steps the calls of all nodes are served. -/
theorem Cluster.Run.wakes (P : Copies S) (run : Cluster.Run Cluster.Attentive (.initial S) c) :
    ∀ x, (c.nodes x).Wakes x := by
  induction run with
  | refl => exact fun x => .construct x _
  | tail earlier last ih =>
      obtain ⟨stop, action, attentive, stepped⟩ := last
      obtain ⟨a, sim⟩ := Cluster.Run.any_sim P earlier
      exact sim.wakes_step (Cluster.Run.fresh earlier) attentive stepped ih

end Wakes

variable {M : StateMachine} {n : Nat}

/-- A leader's saved and pending log are what it has built. -/
theorem Sim.leader_entries {strict : Prop} {c : RaftCluster M n} {a : Hist (raftService M n)}
    (sim : Sim (raftCopies M n) strict c a) {i : Fin n} {L : Leadership (Fin n) (Item (raftService M n))}
    (leader : LeaderOk (raftCopies M n) c a i (c.nodes i) L) : (c.nodes i).log = L.entries.map Prod.fst := by
  obtain ⟨_, _, _, whole⟩ := (sim.nodes i).leader_log sim.wf leader
  have mirrors := (sim.nodes i).log.values.2.append leader.pending
  rw [whole] at mirrors
  exact mirrors.values_eq

/-- A client call that was not woken waits on a node that still leads the call's term. The entry of the call is in the
leader's log at its index, the index is not committed, and the table of pending requests names the call there. -/
theorem calls_woken (M : StateMachine) (n : Nat) {c : RaftCluster M n}
    (run : Cluster.Run Cluster.Attentive (.initial _) c) {i : Fin n} {call : Call (raftService M n)}
    (waits : call ∈ (c.nodes i).calls) (silent : call.signaled = false) :
    (c.nodes i).state = .leader ∧ (c.nodes i).currentTerm = call.currentTerm ∧
      (c.nodes i).getLogEntry call.newLogIndex = some ⟨call.currentTerm, call.request⟩ ∧
      (c.nodes i).commitIndex < call.newLogIndex ∧ (c.nodes i).pendingRequests call.newLogIndex = some call.tag := by
  have wakes := run.wakes (raftCopies M n) i
  have role : (c.nodes i).state = .leader := by
    by_contra other
    have woken := wakes.woken other call waits
    rw [silent] at woken
    cases woken
  have serves := wakes.serves role
  have term := serves.current call waits
  refine ⟨role, term.symm, ?_, serves.uncommitted call waits silent, serves.registered call waits⟩
  obtain ⟨a, _, sim, _, calls⟩ := Sim.invariant
    (fun c _ => c.Stamps ∧ ∀ x, CallsOk (raftReplay M n) c x (c.nodes x))
    (fun sim _ _ taken held => ⟨held.1.step taken, CallsOk.step sim held.1 taken held.2⟩)
    False.elim (Sim.initial (raftCopies M n) False) ⟨.initial _, fun _ => .construct ..⟩
    (run.atomics (Cluster.fresh_initial _)).1
  obtain ⟨record, created, _, _, recordTerm, index, _, _, made⟩ := ((calls i).calls call waits).created
  obtain ⟨K, led, _, start, found⟩ := sim.records.createdAt record created
  obtain ⟨L, leader⟩ := (sim.nodes i).leader role
  rw [recordTerm, term] at led
  cases leader.led.symm.trans led
  have entry : record.entry = ⟨call.currentTerm, call.request⟩ := (Prod.mk.inj (Sum.inr.inj made)).1.symm
  have whole := sim.leader_entries leader
  rw [index] at start found
  have stored : (c.nodes i).log[call.newLogIndex - 1]? = some ⟨call.currentTerm, call.request⟩ := by
    rw [whole, List.getElem?_map, found, ← entry]
    rfl
  have inside := (List.getElem?_eq_some_iff.mp stored).1
  rw [Node.getLogEntry_stored (sim.nodes i).log.values.1 (by omega) (by omega)]
  exact stored

/-- The first node leads and has taken a request. -/
theorem waitingScript_possible : ((Cluster.initial (raftService adder 3)).play Cluster.Attentive
    (Cluster.firstLeads _ ++ [(none, .execute 0 ⟨1, 1, (5 : Nat)⟩)])).isSome = true := by
  decide +kernel

/-- The cluster with the waiting call. -/
def waitingCluster : RaftCluster adder 3 := (Cluster.initial _).endOf Cluster.Attentive _ waitingScript_possible

/-- A call waits for its entry, which is not committed yet. -/
theorem calls_woken_waiting : ∃ call, (waitingCluster.nodes 0).calls = [call] ∧ call.newLogIndex = 1 ∧
    call.signaled = false ∧ (waitingCluster.nodes 0).pendingRequests 1 = some call.tag := by
  have only : ((waitingCluster.nodes 0).calls.map fun call => (call.newLogIndex, call.signaled)) = [(1, false)] := by
    decide +kernel
  obtain ⟨call, calls, same⟩ := List.map_eq_singleton_iff.mp only
  obtain ⟨place, silent⟩ := Prod.mk.inj same
  have run : Cluster.Run Cluster.Attentive (.initial _) waitingCluster := Cluster.endOf_run waitingScript_possible
  have woken := calls_woken adder 3 run (i := 0) (calls ▸ List.mem_singleton_self call) silent
  rw [place] at woken
  exact ⟨call, calls, place, silent, woken.2.2.2.2⟩

end Metamorphosis
