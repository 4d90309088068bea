import Mathlib.Algebra.Group.Nat.Defs
import Metamorphosis.Proof.Queue.Agreement

/-!
The sequence counter of every producer is the number of its stored entries, provided that no accepted
request starts below the follower's commit index.
-/

namespace Metamorphosis
open ReplicatedLog
variable {md5 : Bytes → Bytes} {n : Nat}

/-- The number of a producer's entries. -/
def entriesOf (producer : Nat) (entries : List MessageEntry) : Nat :=
  entries.countP fun entry => entry.producerId = producer

/-- The entries of two parts of a log add up. -/
theorem entriesOf_append (producer : Nat) (first second : List MessageEntry) :
    entriesOf producer (first ++ second) = entriesOf producer first + entriesOf producer second :=
  List.countP_append

theorem entriesOf_cons (producer : Nat) (entry : MessageEntry) (rest : List MessageEntry) :
    entriesOf producer (entry :: rest) =
      (if entry.producerId = producer then 1 else 0) + entriesOf producer rest := by
  rw [entriesOf, entriesOf, List.countP_cons, Nat.add_comm]
  simp

/-- Counting entries up adds their number. -/
theorem foldl_countEntry (counter : Nat → UInt64) (entries : List MessageEntry) (producer : Nat) :
    entries.foldl countEntry counter producer = counter producer + UInt64.ofNat (entriesOf producer entries) := by
  induction entries generalizing counter with
  | nil => exact (UInt64.add_zero _).symm
  | cons entry rest ih =>
      rw [List.foldl_cons, ih, entriesOf_cons, UInt64.ofNat_add, countEntry, Function.update_apply]
      by_cases same : entry.producerId = producer
      · subst same
        rw [if_pos rfl, if_pos rfl, UInt64.add_assoc]
        rfl
      · rw [if_neg (Ne.symm same), if_neg same]
        exact congrArg _ (UInt64.zero_add _).symm

/-- Counting entries down subtracts their number. -/
theorem foldl_uncountEntry (counter : Nat → UInt64) (entries : List MessageEntry) (producer : Nat) :
    entries.foldl uncountEntry counter producer + UInt64.ofNat (entriesOf producer entries) = counter producer := by
  induction entries generalizing counter with
  | nil => exact UInt64.add_zero _
  | cons entry rest ih =>
      have first := ih (uncountEntry counter entry)
      rw [List.foldl_cons, entriesOf_cons, UInt64.ofNat_add, UInt64.add_comm (UInt64.ofNat _), ← UInt64.add_assoc,
        first, uncountEntry, Function.update_apply]
      by_cases same : entry.producerId = producer
      · subst same
        rw [if_pos rfl, if_pos rfl]
        exact UInt64.sub_add_cancel ..
      · rw [if_neg (Ne.symm same), if_neg same]
        exact UInt64.add_zero _

/-- The counter of a producer agrees with the stored log. -/
def Node.CountRight (node : Node (metamorphosisService md5 n)) (producer : Nat) : Prop :=
  node.ext.producerNextSequenceId producer = UInt64.ofNat (entriesOf producer node.values)

/-- A node that is built counts its log. -/
theorem construct_countRight (disk : Disk (metamorphosisService md5 n)) (producer : Nat) :
    (construct disk).CountRight producer := by
  change (disk.raftLog.entries.map Prod.snd).foldl countEntry (fun _ => 0) producer = _
  rw [foldl_countEntry, UInt64.zero_add]
  rfl

/-- The stored entries after an index are the rest of the log. -/
theorem Node.entriesAfter_values {S : Service n} {node : Node S} (stored : node.raftLog = OrderedMap.ofList node.values)
    (size : node.getSavedLogSize = node.values.length) (index : Nat) : node.entriesAfter index = node.values.drop index := by
  rw [entriesAfter, size, stored]
  generalize node.values = values
  induction rest : values.length - index generalizing index with
  | zero => rw [List.drop_eq_nil_of_le (by omega), List.range'_zero, List.filterMap_nil]
  | succ count ih =>
      have inside : index < values.length := by omega
      have found : (OrderedMap.ofList values).get? (index + 1) = some values[index] := by
        rw [OrderedMap.ofList_get?]
        exact List.getElem?_eq_getElem inside
      rw [List.range'_succ, List.filterMap_cons_some found, ih (index + 1) (by omega),
        List.drop_eq_getElem_cons inside]

/-- Sessions that see their node dead or alive do not touch the producers. -/
theorem Producers.callFailed_same (ext : Producers n) (self j : Fin n) :
    (ext.callFailed self j).producerNextSequenceId = ext.producerNextSequenceId ∧
      (ext.callFailed self j).pendingProducers = ext.pendingProducers := by
  rw [callFailed]
  split
  · exact ⟨rfl, rfl⟩
  · exact ⟨rfl, rfl⟩

/-- An answered call concerns no producer. -/
theorem Producers.callAnswered_same (ext : Producers n) (self j : Fin n) :
    (ext.callAnswered self j).producerNextSequenceId = ext.producerNextSequenceId ∧
      (ext.callAnswered self j).pendingProducers = ext.pendingProducers := by
  rw [callAnswered]
  split
  · exact ⟨rfl, rfl⟩
  · exact ⟨rfl, rfl⟩

/-- A commit does not touch the producers. -/
theorem commitLoop_producers {wakes : Bool} {log : OrderedMap MessageEntry} {pending : Nat → Option Nat}
    {indices : List Nat} {ext : Producers n} {calls : List (Call (metamorphosisService md5 n))}
    {result : Producers n × List (Call (metamorphosisService md5 n))}
    (loop : commitLoop (S := metamorphosisService md5 n) wakes log pending indices ext calls = some result) :
    result.1 = ext := by
  induction indices generalizing calls with
  | nil =>
      cases loop
      rfl
  | cons index rest ih =>
      rw [commitLoop] at loop
      exact ih loop

variable {c d : MetamorphosisCluster md5 n} {a b : Hist (metamorphosisService md5 n)} {i : Fin n}
variable {allowed : MetamorphosisCluster md5 n → Action (metamorphosisService md5 n) → Prop}

/-- What an indivisible change does to the producers of the node that it changes. -/
inductive Turn (allowed : MetamorphosisCluster md5 n → Action (metamorphosisService md5 n) → Prop)
    (c : MetamorphosisCluster md5 n) (i : Fin n) : Node (metamorphosisService md5 n) → Prop where
  | keep (after : Node (metamorphosisService md5 n)) (log : after.raftLog = (c.nodes i).raftLog)
      (counters : after.ext.producerNextSequenceId = (c.nodes i).ext.producerNextSequenceId)
      (guards : after.ext.pendingProducers = (c.nodes i).ext.pendingProducers)
      (pending : Node.KeepsPending (c.nodes i) after) : Turn allowed c i after
  | restart (disk : Disk (metamorphosisService md5 n)) : Turn allowed c i (construct disk)
  | save (fibers : LeaderFibers (metamorphosisService md5 n)) (leading : (c.nodes i).mainFiber = .startLeader fibers)
      (role : (c.nodes i).state = .leader) : Turn allowed c i ((c.nodes i).save i fibers)
  | append (request : AppendReq) (entry : MessageEntry) (ext : Producers n)
      (permitted : allowed c (.execute i request)) (role : (c.nodes i).state = .leader)
      (made : Producers.newEntry md5 (c.nodes i).ext (c.nodes i).currentTerm request = .inr (entry, ext)) :
      Turn allowed c i ((c.nodes i).appended i c.clock request entry ext)
  | leave (call : Call (metamorphosisService md5 n)) (permitted : allowed c (.resume i call.tag))
      (waits : call ∈ (c.nodes i).calls) :
      Turn allowed c i (((c.nodes i).dropCall call).withExt ((c.nodes i).ext.release call.request))
  | rewrite (call : AppendCall (metamorphosisService md5 n)) (place : Nat) (sent : c.appendRequests[place]? = some call)
      (permitted : allowed c (.handleAppend place)) (accepts : c.Accepts call) (callee : call.callee = i)
      (after : Node (metamorphosisService md5 n)) (log : after.raftLog = (c.rewritten call).raftLog)
      (counters : after.ext.producerNextSequenceId = (c.rewritten call).ext.producerNextSequenceId)
      (role : after.state = .follower) : Turn allowed c i after

/-- A step is the turn of one node, or it changes none. -/
theorem Cluster.Atomic.turn (taken : Cluster.Atomic allowed c d) :
    d.nodes = c.nodes ∨ ∃ i after, d.nodes = (c.setNode i after).nodes ∧ Turn allowed c i after := by
  have entered (call : AppendCall (metamorphosisService md5 n)) :
      Turn allowed c call.callee ((c.nodes call.callee).enter call.request.term) :=
    .keep _ (Node.enter_raftLog ..) (by rw [Node.enter_ext]) (by rw [Node.enter_ext])
      (.follower (by rw [Node.enter_state]; rintro ⟨⟩))
  have keeps {i : Fin n} {after : Node (metamorphosisService md5 n)} (log : after.raftLog = (c.nodes i).raftLog)
      (counters : after.ext.producerNextSequenceId = (c.nodes i).ext.producerNextSequenceId)
      (guards : after.ext.pendingProducers = (c.nodes i).ext.pendingProducers)
      (state : after.state = (c.nodes i).state) (pending : after.pendingLog = (c.nodes i).pendingLog) :
      Turn allowed c i after :=
    .keep after log counters guards fun role => Or.inl ⟨state ▸ role, pending⟩
  cases taken with
  | restart i => exact Or.inr ⟨i, _, rfl, .restart _⟩
  | standCrash i => exact Or.inr ⟨i, _, rfl, .restart _⟩
  | drop call _ => exact Or.inr ⟨call.callee, _, rfl, .restart _⟩
  | acceptCrash call place _ _ _ _ _ => exact Or.inr ⟨call.callee, _, rfl, .restart _⟩
  | follow i term _ =>
      exact Or.inr ⟨i, _, rfl, .keep _ (Node.yield_raftLog _) (by rw [Node.follow, Node.yield_ext])
        (by rw [Node.follow, Node.yield_ext]) (.follower (by rintro ⟨⟩))⟩
  | stand i _ => exact Or.inr ⟨i, _, rfl, .keep _ rfl rfl rfl (.follower (by rintro ⟨⟩))⟩
  | elect i election _ _ _ => exact Or.inr ⟨i, _, rfl, .keep _ rfl rfl rfl fun _ => Or.inr rfl⟩
  | clearPending i fibers _ _ => exact Or.inr ⟨i, _, rfl, .keep _ rfl rfl rfl fun _ => Or.inr rfl⟩
  | reject call place _ _ _ _ => exact Or.inr ⟨call.callee, _, rfl, entered call⟩
  | accept call place sent permitted current matched consistent result loop =>
      exact Or.inr ⟨call.callee, _, rfl, .rewrite call place sent permitted ⟨current, matched, consistent⟩ rfl _ rfl
        (congrArg _ (commitLoop_producers loop)) (Node.enter_state ..)⟩
  | commit i after role updated =>
      obtain ⟨result, loop, rfl⟩ := Option.map_eq_some_iff.mp updated
      have same := commitLoop_producers loop
      rw [noteCommit_eq]
      exact Or.inr ⟨i, (c.nodes i).committedTo _ result, rfl,
        keeps rfl (congrArg Producers.producerNextSequenceId same) (congrArg Producers.pendingProducers same) rfl rfl⟩
  | save i fibers leading _ role => exact Or.inr ⟨i, _, rfl, .save fibers leading role⟩
  | append i request entry ext permitted _ role made =>
      exact Or.inr ⟨i, _, rfl, .append request entry ext permitted role made⟩
  | release i call permitted waits _ _ => exact Or.inr ⟨i, _, rfl, .leave call permitted waits⟩
  | committed i call permitted waits _ _ _ => exact Or.inr ⟨i, _, rfl, .leave call permitted waits⟩
  | callFailed i j fibers seq request _ _ _ =>
      obtain ⟨counters, guards⟩ := Producers.callFailed_same (c.nodes i).ext i j
      exact Or.inr ⟨i, _, rfl, keeps rfl counters guards rfl rfl⟩
  | callAnswered i j fibers seq request _ _ _ =>
      obtain ⟨counters, guards⟩ := Producers.callAnswered_same (c.nodes i).ext i j
      exact Or.inr ⟨i, _, rfl, keeps rfl counters guards rfl rfl⟩
  | acknowledge i fibers call request response _ _ _ _ _ _ _ _ place _ =>
      obtain ⟨counters, guards⟩ := Producers.callAnswered_same (c.nodes i).ext i call.callee
      exact Or.inr ⟨i, _, rfl, keeps rfl counters guards rfl rfl⟩
  | stepBack i fibers call request response _ _ _ _ _ _ _ _ _ =>
      obtain ⟨counters, guards⟩ := Producers.callAnswered_same (c.nodes i).ext i call.callee
      exact Or.inr ⟨i, _, rfl, keeps rfl counters guards rfl rfl⟩
  | replyVote call result _ _ => exact Or.inl rfl
  | refuse call _ _ => exact Or.inl rfl
  | answer i request response _ _ => exact Or.inl rfl
  | tick => exact Or.inl rfl
  | grant call _ _ _ _ => exact Or.inr ⟨call.callee, _, rfl, keeps rfl rfl rfl rfl rfl⟩
  | _ => exact Or.inr ⟨_, _, rfl, keeps rfl rfl rfl rfl rfl⟩

/-- An accepted request starts at or after the follower's commit index. -/
def Cluster.StartsCommitted (c : MetamorphosisCluster md5 n) : Action (metamorphosisService md5 n) → Prop
  | .handleAppend place => ∀ call ∈ c.appendRequests[place]?, c.Accepts call →
      (c.nodes call.callee).commitIndex ≤ call.request.prevLogIndex
  | _ => True

instance (c : MetamorphosisCluster md5 n) : ∀ action, Decidable (c.StartsCommitted action)
  | .handleAppend place => inferInstanceAs (Decidable (∀ call ∈ c.appendRequests[place]?, c.Accepts call →
      (c.nodes call.callee).commitIndex ≤ call.request.prevLogIndex))
  | .electionTimeout _ | .handleVote _ | .voteAnswered .. | .electionEnd _ | .sessionSend .. | .sessionEnd ..
  | .appendAnswered .. | .mainRound _ | .leaderEnd _ | .execute .. | .resume .. | .crash _ => isTrue trivial

/-- A follower that keeps exactly what is before the request counts its rewritten log. -/
theorem Node.CountRight.rewritten {node : Node (metamorphosisService md5 n)} {producer : Nat}
    (right : node.CountRight producer) {request : AppendEntriesRequest n MessageEntry}
    (stored : node.raftLog = OrderedMap.ofList node.values)
    (size : node.getSavedLogSize = node.values.length) (inside : node.keptIndex request ≤ node.values.length)
    (starts : node.commitIndex ≤ request.prevLogIndex) : (node.rewritten request).CountRight producer := by
  have kept : node.keptIndex request = request.prevLogIndex := Nat.max_eq_left starts
  have values : (node.rewritten request).values = node.values.take request.prevLogIndex ++ node.writtenEntries request := by
    rw [Node.values, node.rewritten_log request stored inside, OrderedMap.ofList_values, kept]
  change (node.writtenEntries request).foldl countEntry
    ((node.entriesAfter request.prevLogIndex).foldl uncountEntry node.ext.producerNextSequenceId) producer = _
  rw [foldl_countEntry, values, entriesOf_append, UInt64.ofNat_add, Node.entriesAfter_values stored size]
  congr 1
  -- The removed entries were counted, so what is left are the kept ones.
  have removed := foldl_uncountEntry node.ext.producerNextSequenceId (node.values.drop request.prevLogIndex) producer
  have all : node.ext.producerNextSequenceId producer = _ := right
  rw [← List.take_append_drop request.prevLogIndex node.values, entriesOf_append, UInt64.ofNat_add] at all
  rw [all] at removed
  rw [← UInt64.add_sub_cancel (List.foldl uncountEntry _ _ producer), removed, UInt64.add_sub_cancel]

/-- Only the log and the counters matter. -/
theorem Node.CountRight.same {before after : Node (metamorphosisService md5 n)} {producer : Nat}
    (right : before.CountRight producer) (log : after.raftLog = before.raftLog)
    (counters : after.ext.producerNextSequenceId = before.ext.producerNextSequenceId) : after.CountRight producer := by
  rw [CountRight, counters, right, Node.values, Node.values, log]

/-- A turn of a node keeps its counters right if requests start at committed places. -/
theorem Node.CountRight.turn {P : Copies (metamorphosisService md5 n)} {strict : Prop} (sim : Sim P strict c a)
    {producer : Nat} (right : (c.nodes i).CountRight producer) {after : Node (metamorphosisService md5 n)}
    (turn : Turn allowed c i after)
    (starts : after.state = .follower → ∀ c action, allowed c action → c.StartsCommitted action) :
    after.CountRight producer := by
  cases turn with
  | keep _ log counters _ _ => exact right.same log counters
  | restart disk => exact construct_countRight disk producer
  | save fibers leading role =>
      have values : ((c.nodes i).save i fibers).values = (c.nodes i).values ++ (c.nodes i).pendingLog := by
        rw [Node.values, sim.saved_log leading role, OrderedMap.ofList_values]
      change (c.nodes i).pendingLog.foldl countEntry (c.nodes i).ext.producerNextSequenceId producer = _
      rw [foldl_countEntry, right, values, entriesOf_append, UInt64.ofNat_add]
  | append request entry ext _ _ made =>
      obtain ⟨_, _, _, rfl⟩ := Producers.newEntry_inr made
      exact right.same rfl rfl
  | leave call _ _ => exact right.same rfl rfl
  | rewrite call place sent permitted accepts callee _ log counters role =>
      subst callee
      obtain ⟨stored, inside⟩ := sim.entered_log accepts
      have entered : ((c.nodes call.callee).enter call.request.term).CountRight producer :=
        right.same (Node.enter_raftLog ..) (by rw [Node.enter_ext])
      have size : ((c.nodes call.callee).enter call.request.term).getSavedLogSize =
          ((c.nodes call.callee).enter call.request.term).values.length := by
        rw [Node.getSavedLogSize, Node.values, Node.enter_raftLog]
        exact sim.size call.callee
      have begins := starts role c _ permitted call sent accepts
      rw [← Node.enter_commitIndex _ call.request.term] at begins
      exact (entered.rewritten stored size inside begins).same log counters

/-- So does a step of the cluster. -/
theorem countRight_step {P : Copies (metamorphosisService md5 n)} {strict : Prop} (sim : Sim P strict c a)
    (starts : ∀ c action, allowed c action → c.StartsCommitted action) (taken : Cluster.Atomic allowed c d)
    (right : ∀ x producer, (c.nodes x).CountRight producer) : ∀ x producer, (d.nodes x).CountRight producer := by
  intro x producer
  rcases taken.turn with same | ⟨i, after, nodes, turn⟩
  · rw [same]
    exact right x producer
  · rw [nodes]
    by_cases self : x = i
    · subst self
      rw [Cluster.setNode_self]
      exact (right x producer).turn sim turn fun _ => starts
    · rw [Cluster.setNode_other c after self]
      exact right x producer

/-- The second node has stored and committed the leader's entry, but the answers are lost. The leader
commits the entry with the third node and sends it to the second node three more times. -/
def resentScript : List (Option Nat × Action (metamorphosisService id 3)) :=
  Cluster.firstLeads _ ++ Cluster.firstSends (metamorphosisService id 3) ⟨[7], 1, 0⟩ ++
    [(none, .handleAppend 0), (none, .appendAnswered 0 1 none), (none, .sessionSend 0 2), (none, .handleAppend 1),
      (none, .appendAnswered 0 2 (some 1)), (none, .sessionSend 0 1), (none, .handleAppend 2),
      (none, .appendAnswered 0 1 none), (none, .sessionSend 0 1), (none, .handleAppend 3),
      (none, .appendAnswered 0 1 none), (none, .sessionSend 0 1), (none, .handleAppend 4)]

theorem resentScript_possible :
    ((Cluster.initial (metamorphosisService id 3)).play Cluster.InOrder resentScript).isSome = true := by
  decide +kernel

/-- The cluster after the last request was handled. -/
def resentCluster : MetamorphosisCluster id 3 :=
  (Cluster.initial _).endOf Cluster.InOrder resentScript resentScript_possible

/-- The second node stores one entry of the producer, but its counter has been counted down twice. -/
theorem counters_wrong : Cluster.Run Cluster.InOrder (.initial _) resentCluster ∧
    entriesOf 1 (resentCluster.nodes 1).values = 1 ∧
    (resentCluster.nodes 1).ext.producerNextSequenceId 1 = 18446744073709551615 ∧
    ¬ (resentCluster.nodes 1).CountRight 1 := by
  have counter : (resentCluster.nodes 1).ext.producerNextSequenceId 1 = 18446744073709551615 := by decide +kernel
  have stored : entriesOf 1 (resentCluster.nodes 1).values = 1 := by decide +kernel
  refine ⟨Cluster.endOf_run resentScript_possible, stored, counter, fun right => ?_⟩
  rw [Node.CountRight, counter, stored] at right
  exact absurd right (by decide)

/-- Counters are right in every run in which requests start at committed places. -/
theorem countRight_run (run : Cluster.Run Cluster.StartsCommitted (.initial _) c) (x : Fin n) (producer : Nat) :
    (c.nodes x).CountRight producer := by
  obtain ⟨_, _, _, right⟩ := Sim.invariant (fun c _ => ∀ x producer, (c.nodes x).CountRight producer)
    (fun sim _ _ taken held => countRight_step sim (fun _ _ condition => condition) taken held)
    False.elim (Sim.initial (metamorphosisCopies md5 n) False) (fun _ => construct_countRight _)
    (run.atomics (Cluster.fresh_initial _)).1
  exact right x producer

/-- In every run in which accepted requests start at or after the follower's commit index, the counter
of a producer is the number of its entries in the stored log. -/
theorem counters_right (md5 : Bytes → Bytes) (n : Nat) {c : MetamorphosisCluster md5 n}
    (run : Cluster.Run Cluster.StartsCommitted (.initial _) c) :
    ∀ x producer, (c.nodes x).CountRight producer ∧ (entriesOf producer (c.nodes x).values < 2 ^ 64 →
      ((c.nodes x).ext.producerNextSequenceId producer).toNat = entriesOf producer (c.nodes x).values) := by
  intro x producer
  have right := countRight_run run x producer
  refine ⟨right, fun small => ?_⟩
  rw [right]
  exact UInt64.toNat_ofNat_of_lt' small

theorem appendedScript_starts :
    ((Cluster.initial (metamorphosisService id 3)).play Cluster.StartsCommitted appendedScript).isSome = true := by
  decide +kernel

/-- A follower has counted the message that it stores. -/
theorem counters_right_appended :
    entriesOf 1
      (((Cluster.initial _).endOf Cluster.StartsCommitted appendedScript appendedScript_starts).nodes 1).values = 1 ∧
      (((Cluster.initial _).endOf Cluster.StartsCommitted appendedScript appendedScript_starts).nodes 1).CountRight 1 :=
  ⟨by decide +kernel, (counters_right id 3 (Cluster.endOf_run appendedScript_starts) 1 1).1⟩

end Metamorphosis
