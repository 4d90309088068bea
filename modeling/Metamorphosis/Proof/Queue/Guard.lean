import Metamorphosis.Proof.Queue.Counters

/-!
A leader appends every message of a producer once, provided that no call of the producer ends while
another entry of the producer is still unsaved.
-/

namespace Metamorphosis
open ReplicatedLog
variable {md5 : Bytes → Bytes} {n : Nat}

/-- A leader accepts a request. -/
def Cluster.AcceptsAppend (c : MetamorphosisCluster md5 n) (i : Fin n) (request : AppendReq) : Prop :=
  (c.nodes i).state = .leader ∧
    ∃ entry ext, Producers.newEntry md5 (c.nodes i).ext (c.nodes i).currentTerm request = .inr (entry, ext)

/-- The saved and the pending entries of a node. -/
def Node.allEntries (node : Node (metamorphosisService md5 n)) : List MessageEntry := node.values ++ node.pendingLog

/-- When a call of the producer ends on a leader, no entry of the producer is unsaved there. -/
def Cluster.ResumesClear (producer : Nat) (c : MetamorphosisCluster md5 n) : Action (metamorphosisService md5 n) → Prop
  | .resume i tag => (c.nodes i).state = .leader → ∀ call ∈ (c.nodes i).calls, call.tag = tag →
      call.request.producerId = producer → ∀ entry ∈ (c.nodes i).pendingLog, entry.producerId ≠ producer
  | _ => True

instance (producer : Nat) (c : MetamorphosisCluster md5 n) : ∀ action, Decidable (c.ResumesClear producer action)
  | .resume i tag => inferInstanceAs (Decidable ((c.nodes i).state = .leader → ∀ call ∈ (c.nodes i).calls,
      call.tag = tag → call.request.producerId = producer →
        ∀ entry ∈ (c.nodes i).pendingLog, entry.producerId ≠ producer))
  | .electionTimeout _ | .handleVote _ | .voteAnswered .. | .electionEnd _ | .sessionSend .. | .sessionEnd ..
  | .handleAppend _ | .appendAnswered .. | .mainRound _ | .leaderEnd _ | .execute .. | .crash _ => isTrue trivial

/-- The producer's counter is right, and an unsaved entry of it on a leader is guarded. -/
structure Node.Guarded (node : Node (metamorphosisService md5 n)) (producer : Nat) : Prop where
  count : node.CountRight producer
  guards : node.state = .leader → ∀ entry ∈ node.pendingLog, entry.producerId = producer →
    producer ∈ node.ext.pendingProducers

variable {c d : MetamorphosisCluster md5 n} {a b : Hist (metamorphosisService md5 n)} {i : Fin n} {producer : Nat}
variable {allowed : MetamorphosisCluster md5 n → Action (metamorphosisService md5 n) → Prop}
variable {P : Copies (metamorphosisService md5 n)} {strict : Prop}

/-- A leader keeps its unsaved entries guarded. -/
theorem Node.Guarded.turn (sim : Sim P strict c a) (guarded : (c.nodes i).Guarded producer)
    {after : Node (metamorphosisService md5 n)} (turn : Turn allowed c i after)
    (starts : after.state = .follower → ∀ c action, allowed c action → c.StartsCommitted action)
    (clear : ∀ c action, allowed c action → c.ResumesClear producer action) : after.Guarded producer := by
  refine ⟨guarded.count.turn sim turn starts, fun role => ?_⟩
  cases turn with
  | keep _ _ _ guards pending =>
      rw [guards]
      rcases pending role with ⟨led, same⟩ | empty
      · rw [same]
        exact guarded.guards led
      · rw [empty]
        exact fun _ member => absurd member List.not_mem_nil
  | restart disk => cases role
  | save fibers _ _ => exact fun _ member => absurd member List.not_mem_nil
  | append request entry ext _ led made =>
      obtain ⟨_, _, rfl, rfl⟩ := Producers.newEntry_inr made
      intro entry member same
      rcases List.mem_append.mp member with old | new
      · exact Finset.mem_insert_of_mem (guarded.guards led entry old same)
      · rw [List.mem_singleton.mp new] at same
        rw [← same]
        exact Finset.mem_insert_self ..
  | leave call permitted waits =>
      intro entry member same
      refine Finset.mem_erase.mpr ⟨fun other => ?_, guarded.guards role entry member same⟩
      exact clear c _ permitted role call waits rfl other.symm entry member same
  | rewrite call place _ _ _ _ _ _ _ follower => cases role.symm.trans follower

/-- An accepted request has the number of the producer's entries as its sequence id. -/
theorem Node.Guarded.accepts {request : AppendReq} (guarded : (c.nodes i).Guarded request.producerId)
    (accepted : c.AcceptsAppend i request) :
    UInt64.ofNat (entriesOf request.producerId (c.nodes i).allEntries) = request.sequenceId := by
  obtain ⟨role, entry, ext, made⟩ := accepted
  obtain ⟨free, expected, _⟩ := Producers.newEntry_inr made
  have unsaved : entriesOf request.producerId (c.nodes i).pendingLog = 0 := by
    refine List.countP_eq_zero.mpr fun entry member same => free ?_
    exact guarded.guards role entry member (of_decide_eq_true same)
  rw [Node.allEntries, entriesOf_append, unsaved, Nat.add_zero, expected, guarded.count]

/-- The leadership of a node in a term, as far as it goes. -/
def LeadershipGuarded (producer : Nat) (i : Fin n) (T : Nat) (c : MetamorphosisCluster md5 n)
    (a : Hist (metamorphosisService md5 n)) : Prop :=
  (∃ L, a.lead T = some L ∧ L.node = i) ∧
    ((c.nodes i).state = .leader → (c.nodes i).currentTerm = T → (c.nodes i).Guarded producer)

/-- Every step keeps the guard of the producer as long as the leader leads. -/
theorem LeadershipGuarded.step {T : Nat} (sim : Sim P strict c a)
    (steps : Steps itemTerm (QuorumSystem.majority n) strict a b) (taken : Cluster.Atomic allowed c d)
    (clear : ∀ c action, allowed c action → c.ResumesClear producer action)
    (held : LeadershipGuarded producer i T c a) : LeadershipGuarded producer i T d b := by
  obtain ⟨⟨L, led, self⟩, guarded⟩ := held
  obtain ⟨M, ledM, same, _⟩ := steps.leadsGrow T L led
  refine ⟨⟨M, ledM, same.trans self⟩, fun role term => ?_⟩
  obtain ⟨before, termBefore⟩ := sim.led_before taken led self role term
  have here := guarded before termBefore
  rcases taken.turn with equal | ⟨x, after, nodes, turn⟩
  · rw [equal]
    exact here
  · rw [nodes] at role ⊢
    by_cases self : i = x
    · subst self
      rw [Cluster.setNode_self] at role ⊢
      refine here.turn sim turn (fun follower => ?_) clear
      cases role.symm.trans follower
    · rw [Cluster.setNode_other c after self]
      exact here

/-- The entries of a leader are copies of its log. -/
theorem Sim.allEntries (sim : Sim P strict c a) (role : (c.nodes i).state = .leader) :
    ∃ L, a.lead (c.nodes i).currentTerm = some L ∧ L.node = i ∧ Mirrors P (c.nodes i).allEntries L.entries := by
  obtain ⟨L, leader⟩ := (sim.nodes i).leader role
  obtain ⟨_, saved, _⟩ := (sim.nodes i).leader_log sim.wf leader
  refine ⟨L, leader.led, leader.self, ?_⟩
  have both := (sim.nodes i).log.values.2.append leader.pending
  obtain ⟨rest, longer⟩ := saved
  rw [← longer, List.drop_left] at both
  rwa [← longer]

/-- Copies have the producers of their items. -/
theorem Mirrors.entriesOf {copies : List MessageEntry} {items : List (Item (metamorphosisService md5 n))}
    (mirrors : Mirrors (metamorphosisCopies md5 n) copies items) (producer : Nat) :
    entriesOf producer copies = entriesOf producer (items.map Prod.fst) := by
  induction mirrors with
  | nil => rfl
  | cons copied _ ih => rw [List.map_cons, entriesOf_cons, entriesOf_cons, ih, copied.producerId]

/-- A leader that takes an accepted request has its entry pending. -/
theorem Cluster.AcceptsAppend.step {request : AppendReq} (accepted : c.AcceptsAppend i request)
    (stepped : c.step none (.execute i request) = some d) :
    (d.nodes i).state = .leader ∧ (d.nodes i).currentTerm = (c.nodes i).currentTerm ∧
      entriesOf request.producerId (d.nodes i).allEntries =
        entriesOf request.producerId (c.nodes i).allEntries + 1 := by
  obtain ⟨role, entry, ext, made⟩ := accepted
  obtain ⟨after, acted, rfl⟩ := Option.map_eq_some_iff.mp stepped
  have run : execute i c.clock request (c.nodes i) =
      ⟨[], some (none, (c.nodes i).appended i c.clock request entry ext)⟩ := by
    rcases execute_cases (c.nodes i) i c.clock request with ⟨other, _⟩ | ⟨_, _, answer, _⟩ | ⟨_, _, _, same, run⟩
    · exact absurd role other
    · cases made.symm.trans answer
    · cases made.symm.trans same
      exact run
  have node : after.nodes i = (c.nodes i).appended i c.clock request entry ext := by
    cases acted
    simp only [Cluster.perform, run, Cluster.noteExecute]
    split
    · exact Cluster.setNode_self ..
    · exact Cluster.setNode_self ..
  obtain ⟨_, _, rfl, _⟩ := Producers.newEntry_inr made
  change (after.nodes i).state = .leader ∧ (after.nodes i).currentTerm = (c.nodes i).currentTerm ∧
    entriesOf request.producerId (after.nodes i).allEntries = _
  rw [node]
  refine ⟨role, rfl, ?_⟩
  change entriesOf request.producerId ((c.nodes i).values ++ ((c.nodes i).pendingLog ++ [_])) = _
  rw [← List.append_assoc, entriesOf_append, entriesOf_cons, if_pos rfl]
  rfl

/-- A leader's entries only become more. -/
theorem Sim.entriesOf_le {c d : MetamorphosisCluster md5 n} {a b : Hist (metamorphosisService md5 n)}
    (sim : Sim (metamorphosisCopies md5 n) strict c a) (simD : Sim (metamorphosisCopies md5 n) strict d b)
    (steps : Steps itemTerm (QuorumSystem.majority n) strict a b) (role : (c.nodes i).state = .leader)
    (roleD : (d.nodes i).state = .leader) (term : (d.nodes i).currentTerm = (c.nodes i).currentTerm) (producer : Nat) :
    entriesOf producer (c.nodes i).allEntries ≤ entriesOf producer (d.nodes i).allEntries := by
  obtain ⟨L, led, _, mirrors⟩ := sim.allEntries role
  obtain ⟨M, ledM, _, mirrorsM⟩ := simD.allEntries roleD
  obtain ⟨K, ledK, _, _, grows⟩ := steps.leadsGrow _ L led
  rw [term] at ledM
  cases ledM.symm.trans ledK
  rw [mirrors.entriesOf, mirrorsM.entriesOf]
  exact (grows.map Prod.fst).sublist.countP_le

/-- A leader that starts with a right counter and nothing unsaved accepts a request of the producer only
if its sequence id is the number of the producer's entries, and it never accepts the request again. -/
theorem append_idempotent (md5 : Bytes → Bytes) (n : Nat) {c d : MetamorphosisCluster md5 n} {i : Fin n}
    {request : AppendReq} (reached : Cluster.Run Cluster.Any (.initial _) c) (leads : (c.nodes i).state = .leader)
    (starting : (c.nodes i).pendingLog = []) (count : (c.nodes i).CountRight request.producerId)
    (run : Cluster.Run (Cluster.ResumesClear request.producerId) c d) (still : (d.nodes i).state = .leader)
    (term : (d.nodes i).currentTerm = (c.nodes i).currentTerm) (accepted : d.AcceptsAppend i request) :
    UInt64.ofNat (entriesOf request.producerId (d.nodes i).allEntries) = request.sequenceId ∧
    ∀ after e, d.step none (.execute i request) = some after →
      Cluster.Run (Cluster.ResumesClear request.producerId) after e →
      (e.nodes i).state = .leader → (e.nodes i).currentTerm = (c.nodes i).currentTerm →
      entriesOf request.producerId (e.nodes i).allEntries < 2 ^ 64 → ∀ other, e.AcceptsAppend i other →
      other.producerId = request.producerId → other.sequenceId ≠ request.sequenceId := by
  obtain ⟨a, simC⟩ := reached.any_sim (metamorphosisCopies md5 n)
  have start : LeadershipGuarded request.producerId i (c.nodes i).currentTerm c a := by
    obtain ⟨L, led, self, _⟩ := simC.allEntries leads
    refine ⟨⟨L, led, self⟩, fun _ _ => ⟨count, fun _ => ?_⟩⟩
    rw [starting]
    exact fun _ member => absurd member List.not_mem_nil
  -- The invariant goes along with every further part of the run.
  have guarded {c' e : MetamorphosisCluster md5 n} {a' : Hist (metamorphosisService md5 n)} (fresh : c'.Fresh)
      (sim : Sim (metamorphosisCopies md5 n) False c' a')
      (held : LeadershipGuarded request.producerId i (c.nodes i).currentTerm c' a')
      (run : Cluster.Run (Cluster.ResumesClear request.producerId) c' e) :
      ∃ b, Steps itemTerm (QuorumSystem.majority n) False a' b ∧ Sim (metamorphosisCopies md5 n) False e b ∧
        LeadershipGuarded request.producerId i (c.nodes i).currentTerm e b :=
    Sim.invariant (LeadershipGuarded request.producerId i (c.nodes i).currentTerm)
      (fun sim _ steps taken held => held.step sim steps taken fun _ _ condition => condition) False.elim sim held
      (run.atomics fresh).1
  obtain ⟨b, _, sim, held⟩ := guarded reached.fresh simC start run
  have expected := (held.2 still term).accepts accepted
  refine ⟨expected, fun after e stepped later role termE small other acceptedE same => ?_⟩
  have next : Cluster.Run (Cluster.ResumesClear request.producerId) d after :=
    .single ⟨none, .execute i request, trivial, stepped⟩
  have freshD := (run.atomics reached.fresh).2
  obtain ⟨b', _, simAfter, heldAfter⟩ := guarded freshD sim held next
  obtain ⟨e', steps, simE, heldE⟩ := guarded (next.atomics freshD).2 simAfter heldAfter later
  obtain ⟨roleAfter, termAfter, count⟩ := accepted.step stepped
  rw [← same] at heldE
  have expectedE := (heldE.2 role termE).accepts acceptedE
  have more := simAfter.entriesOf_le simE steps roleAfter role (by rw [termE, termAfter, term]) request.producerId
  rw [same] at expectedE
  rw [← expected, ← expectedE]
  intro equal
  have fewer : entriesOf request.producerId (d.nodes i).allEntries < entriesOf request.producerId (e.nodes i).allEntries := by
    omega
  have nats := congrArg UInt64.toNat equal
  rw [UInt64.toNat_ofNat_of_lt' small, UInt64.toNat_ofNat_of_lt' (fewer.trans small)] at nats
  omega

theorem firstLeads_possible :
    ((Cluster.initial (metamorphosisService id 3)).play Cluster.StartsCommitted (Cluster.firstLeads _)).isSome = true := by
  decide +kernel

/-- The first of three nodes has just become leader. -/
def leadingCluster : MetamorphosisCluster id 3 :=
  (Cluster.initial _).endOf Cluster.StartsCommitted (Cluster.firstLeads _) firstLeads_possible

/-- The first node leads with an empty log. -/
theorem leadingCluster_reached : Cluster.Run Cluster.Any (.initial _) leadingCluster ∧
    (leadingCluster.nodes 0).state = .leader ∧ (leadingCluster.nodes 0).pendingLog = [] ∧
    ∀ producer, (leadingCluster.nodes 0).CountRight producer := by
  have run : Cluster.Run Cluster.StartsCommitted (.initial _) leadingCluster := Cluster.endOf_run firstLeads_possible
  exact ⟨run.weaken fun _ _ _ => trivial, by decide +kernel, by decide +kernel, countRight_run run 0⟩

/-- The first message of a producer is committed, its second message is appended, and the call of the
first message ends before the second message is saved. -/
def doubledScript : List (Option Nat × Action (metamorphosisService id 3)) :=
  Cluster.firstSends (metamorphosisService id 3) ⟨[7], 1, 0⟩ ++
    [(none, .handleAppend 0), (none, .appendAnswered 0 1 (some 0)), (none, .execute 0 ⟨[8], 1, 1⟩), (none, .resume 0 5)]

theorem doubledScript_possible : (leadingCluster.play Cluster.InOrder doubledScript).isSome = true := by
  decide +kernel

/-- The cluster after the script. -/
def doubledCluster : MetamorphosisCluster id 3 := leadingCluster.endOf Cluster.InOrder doubledScript doubledScript_possible

/-- The leader accepts the second message once more, although it is pending. -/
theorem doubledCluster_accepts : doubledCluster.AcceptsAppend 0 ⟨[8], 1, 1⟩ :=
  ⟨by decide +kernel, _, _, rfl⟩

/-- The second message has been appended, and the leader accepts it once more. -/
theorem append_twice : Cluster.Run Cluster.Any (.initial _) leadingCluster ∧
    (leadingCluster.nodes 0).state = .leader ∧ (leadingCluster.nodes 0).pendingLog = [] ∧
    (∀ producer, (leadingCluster.nodes 0).CountRight producer) ∧ Cluster.Run Cluster.InOrder leadingCluster doubledCluster ∧
    (doubledCluster.nodes 0).state = .leader ∧
    (doubledCluster.nodes 0).currentTerm = (leadingCluster.nodes 0).currentTerm ∧
    doubledCluster.AcceptsAppend 0 ⟨[8], 1, 1⟩ ∧
    ((doubledCluster.nodes 0).allEntries.map fun entry => (entry.producerId, entry.data)) = [(1, [7]), (1, [8])] ∧
    UInt64.ofNat (entriesOf 1 (doubledCluster.nodes 0).allEntries) ≠ 1 := by
  obtain ⟨reached, leads, starting, counters⟩ := leadingCluster_reached
  exact ⟨reached, leads, starting, counters, Cluster.endOf_run doubledScript_possible, by decide +kernel,
    by decide +kernel, doubledCluster_accepts, by decide +kernel, by decide +kernel⟩

theorem savedScript_possible : (leadingCluster.play (Cluster.ResumesClear 1)
    (Cluster.firstSends (metamorphosisService id 3) ⟨[7], 1, 0⟩)).isSome = true := by
  decide +kernel

/-- The first message of a producer is saved by the leader. -/
def savedCluster : MetamorphosisCluster id 3 :=
  leadingCluster.endOf (Cluster.ResumesClear 1) (Cluster.firstSends _ ⟨[7], 1, 0⟩) savedScript_possible

/-- The leader accepts the second message after the first one is saved. -/
theorem savedCluster_accepts : (savedCluster.nodes 0).state = .leader ∧
    (savedCluster.nodes 0).currentTerm = (leadingCluster.nodes 0).currentTerm ∧
    savedCluster.AcceptsAppend 0 ⟨[8], 1, 1⟩ :=
  ⟨by decide +kernel, by decide +kernel, by decide +kernel, _, _, rfl⟩

/-- The number of the accepted message is the number of entries of the producer. -/
theorem append_idempotent_saved : savedCluster.AcceptsAppend 0 ⟨[8], 1, 1⟩ ∧
    UInt64.ofNat (entriesOf 1 (savedCluster.nodes 0).allEntries) = 1 := by
  obtain ⟨reached, leads, starting, counters⟩ := leadingCluster_reached
  obtain ⟨still, term, accepted⟩ := savedCluster_accepts
  exact ⟨accepted, (append_idempotent id 3 reached leads starting (counters 1)
    (Cluster.endOf_run savedScript_possible) still term accepted).1⟩

end Metamorphosis
