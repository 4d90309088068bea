import Mathlib.Data.List.Sort
import Metamorphosis.Proof.Clients.Linearizable

/-!
The replicas of a `RaftNode` cluster apply one sequence of client calls, each call at the index that its
leader gave to it.
-/

namespace Metamorphosis
open ReplicatedLog

section Calls
variable {n : Nat} {S : Service n} {P : Copies S} {strict : Prop} {c d : Cluster S} {a b : Hist S}

/-- The client calls whose entries a log holds, in the order in which leaders accepted them. -/
def Cluster.callsOf (c : Cluster S) (log : List (Item S)) : List (Created S) :=
  c.created.filter fun record => (record.entry, record.time) ∈ log

/-- The calls of a log are in the order in which they were accepted. -/
theorem Cluster.callsOf_sublist (c : Cluster S) (log : List (Item S)) : (c.callsOf log).Sublist c.created :=
  List.filter_sublist

/-- Items are told apart by their times. -/
theorem items_eq {first second : List (Item S)} (increasing : first.Pairwise fun x y => x.2 < y.2)
    (growing : second.Pairwise fun x y => x.2 < y.2) (same : ∀ item, item ∈ first ↔ item ∈ second) :
    first = second := by
  have : Std.Irrefl fun x y : Item S => x.2 < y.2 := ⟨fun x => Nat.lt_irrefl x.2⟩
  have : Std.Antisymm fun x y : Item S => x.2 < y.2 := ⟨fun _ _ less greater => absurd less (Nat.lt_asymm greater)⟩
  exact increasing.eq_of_mem_iff growing same

/-- The calls of a part of a leader's log made exactly the entries of this part. -/
theorem Sim.callsOf_items (sim : Sim P strict c a) (stamps : c.Stamps) (oldFirst : OldFirst c a) {T m : Nat}
    {L : Leadership (Fin n) (Item S)} (led : a.lead T = some L) :
    ((c.callsOf (L.entries.take m)).map fun record => (record.entry, record.time)) = L.entries.take m := by
  apply items_eq
  · exact List.pairwise_map.mpr (stamps.sorted.sublist (c.callsOf_sublist _))
  · exact (sim.sorted stamps oldFirst led).sublist (List.take_sublist ..)
  · intro item
    constructor
    · intro member
      obtain ⟨record, present, rfl⟩ := List.mem_map.mp member
      exact of_decide_eq_true (List.mem_filter.mp present).2
    · intro member
      obtain ⟨index, found⟩ := List.mem_iff_getElem?.mp (List.mem_of_mem_take member)
      obtain ⟨record, created, rfl, _⟩ := sim.made led found
      exact List.mem_map.mpr ⟨record, List.mem_filter.mpr ⟨created, decide_eq_true member⟩, rfl⟩

/-- A call has its entry at the index that it was given. -/
theorem Sim.callsOf_index (sim : Sim P strict c a) (stamps : c.Stamps) (oldFirst : OldFirst c a) {T m : Nat}
    {L : Leadership (Fin n) (Item S)} (led : a.lead T = some L) {place : Nat} {record : Created S}
    (found : (c.callsOf (L.entries.take m))[place]? = some record) : record.index = place + 1 := by
  have item : (L.entries.take m)[place]? = some (record.entry, record.time) := by
    rw [← sim.callsOf_items stamps oldFirst led, List.getElem?_map, found]
    rfl
  have entry : L.entries[place]? = some (record.entry, record.time) := by
    have inside := (List.getElem?_eq_some_iff.mp item).1
    rw [List.length_take] at inside
    rwa [List.getElem?_take_of_lt (by omega)] at item
  obtain ⟨made, created, same, index, _⟩ := sim.made_at stamps oldFirst led entry
  have member : record ∈ c.created := (c.callsOf_sublist _).subset (List.mem_of_getElem? found)
  rw [← stamps.unique created member (congrArg Prod.snd same)]
  exact index

/-- What a node has committed begins every log that extends everything committed later. -/
theorem Sim.committed_begins (sim : Sim P True c a) (extended : c.Extends d) (grows : LeadsGrow a b)
    {log : List (Item S)} (longest : ∀ T m L, (T, m) ∈ d.commits → b.lead T = some L → L.entries.take m <+: log)
    (x : Fin n) : (a.log x).take (c.nodes x).commitIndex <+: log := by
  rcases (sim.ordered trivial).certified x with zero | ⟨T, m, L, committed, _, within, led, same⟩
  · rw [zero, List.take_zero]
    exact List.nil_prefix
  · obtain ⟨K, ledK, _, _, longer⟩ := grows T L led
    have inside : (c.nodes x).commitIndex ≤ L.entries.length := by
      have length := congrArg List.length same
      have bound := (sim.nodes x).commit
      rw [List.length_take, List.length_take] at length
      omega
    calc (a.log x).take (c.nodes x).commitIndex
      _ = K.entries.take (c.nodes x).commitIndex := by rw [same, take_of_grows longer inside]
      _ <+: K.entries.take m := List.take_prefix_take_left within
      _ <+: log := longest T m K (extended.commits.subset committed) ledK

end Calls

variable {M : StateMachine} {n : Nat}

/-- A node has committed and applied the first calls of a sequence, as many as its commit index says. -/
structure Node.Follows (node : Node (raftService M n)) (records : List (Created (raftService M n))) : Prop where
  commitIndex : node.commitIndex ≤ records.length
  requests : node.committedRequests = (records.take node.commitIndex).map fun record => record.entry.request
  replayed : node.ext = (ExactlyOnceStateMachine.initial M).replay
    ((records.take node.commitIndex).map fun record => record.entry.request)

/-- A node follows the calls of every log that its committed part begins. -/
theorem Sim.follows {strict : Prop} {c : RaftCluster M n} {a : Hist (raftService M n)}
    (sim : Sim (raftCopies M n) strict c a) {x : Fin n} (calls : CallsOk (raftReplay M n) c x (c.nodes x))
    {log : List (Item (raftService M n))} (begins : (a.log x).take (c.nodes x).commitIndex <+: log)
    {records : List (Created (raftService M n))}
    (items : (records.map fun record => (record.entry, record.time)) = log) : (c.nodes x).Follows records := by
  have inside := (sim.nodes x).commit
  have length : ((a.log x).take (c.nodes x).commitIndex).length = (c.nodes x).commitIndex :=
    List.length_take_of_le inside
  have requests : (c.nodes x).committedRequests =
      (records.take (c.nodes x).commitIndex).map fun record => record.entry.request := by
    have part := List.prefix_iff_eq_take.mp begins
    rw [length] at part
    rw [Node.committedRequests, (sim.nodes x).log.values.2.values_eq, ← List.map_take, part, ← items, ← List.map_take,
      List.map_map, List.map_map]
    rfl
  refine ⟨?_, requests, ?_⟩
  · have bound := begins.length_le
    rw [length, ← items, List.length_map] at bound
    exact bound
  · rw [← requests]
    exact calls.replayed.trans (raftReplay_run _)

/-- At any two times of a run, all nodes have committed and applied parts of one sequence of client calls. The
sequence keeps the order in which leaders accepted the calls, and every call stands at the index it was given. -/
theorem replicas_agree (M : StateMachine) (n : Nat) {c d : RaftCluster M n}
    (reached : Cluster.Run Cluster.InOrder (.initial _) c) (later : Cluster.Run Cluster.InOrder c d) :
    ∃ records, records.Sublist d.created ∧ (∀ place record, records[place]? = some record → record.index = place + 1) ∧
      (∀ x, (c.nodes x).Follows records) ∧ ∀ x, (d.nodes x).Follows records := by
  obtain ⟨a, sim, clients⟩ := (reached.atomics (Cluster.fresh_initial _)).1.clients (raftCopies M n) (raftReplay M n)
    fun _ _ condition => condition
  obtain ⟨b, steps, simD, clientsD⟩ := Sim.invariant (ClientsOk (raftCopies M n) (raftReplay M n))
    (fun sim _ steps taken clients => clients.step sim steps taken) (fun _ _ _ condition => condition) sim clients
    (later.atomics reached.fresh).1
  obtain ⟨log, origin, longest⟩ := simD.longest
  have extended := (later.atomics reached.fresh).1.extends
  have still : LeadsGrow b b := fun _ L led => ⟨L, led, rfl, rfl, List.prefix_rfl⟩
  have follows {records : List (Created (raftService M n))}
      (items : (records.map fun record => (record.entry, record.time)) = log) :
      (∀ x, (c.nodes x).Follows records) ∧ ∀ x, (d.nodes x).Follows records :=
    ⟨fun x => sim.follows (clients.calls x) (sim.committed_begins extended steps.leadsGrow longest x) items,
      fun x => simD.follows (clientsD.calls x) (simD.committed_begins (.refl d) still longest x) items⟩
  rcases origin with rfl | ⟨T, m, L, _, led, rfl⟩
  · exact ⟨[], List.nil_sublist _, by simp, follows rfl⟩
  · exact ⟨d.callsOf (L.entries.take m), d.callsOf_sublist _,
      fun place record found => simD.callsOf_index clientsD.stamps clientsD.oldFirst led found,
      follows (simD.callsOf_items clientsD.stamps clientsD.oldFirst led)⟩

/-- The leader has applied the call that it accepted, and the second node has not applied it yet. -/
theorem replicas_agree_committed :
    (committedCluster.created.map fun record => (record.index, record.entry.request.command)) = [(1, (5 : Nat))] ∧
      (committedCluster.nodes 0).commitIndex = 1 ∧ (committedCluster.nodes 1).commitIndex = 0 ∧
      ∃ records, records.Sublist committedCluster.created ∧ (committedCluster.nodes 0).Follows records ∧
        (committedCluster.nodes 1).Follows records := by
  obtain ⟨records, sublist, _, follows, _⟩ := replicas_agree adder 3 committedCluster_run .refl
  exact ⟨by decide +kernel, by decide +kernel, by decide +kernel, records, sublist, follows 0, follows 1⟩

end Metamorphosis
