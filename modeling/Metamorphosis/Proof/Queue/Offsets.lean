import Metamorphosis.Proof.Queue.Reads

/-!
What producers and consumers see of one offset, over all nodes and all times.
-/

namespace Metamorphosis
open ReplicatedLog
variable {md5 : Bytes → Bytes} {n : Nat} {c : MetamorphosisCluster md5 n} {a : Hist (metamorphosisService md5 n)}

/-- A response shows a message by its data or by its hash. -/
def ReadRsp.Shows (md5 : Bytes → Bytes) (data : Bytes) (response : ReadRsp) : Prop :=
  response = ⟨.fullMessage, .data data⟩ ∨ response = ⟨.hashOnly, .md5hash (md5 data)⟩

/-- Every reader that finds the offset sees the message, and every producer that got the offset sent it. -/
structure Cluster.Holds (c : MetamorphosisCluster md5 n) (offset : UInt64) (message : MessageEntry) : Prop where
  reads : ∀ x response, (c.nodes x).read offset = .ok response → response.status ≠ .notFound →
    response.Shows md5 message.data
  answers : ∀ answer ∈ c.answered, answer.response.status = .commited → answer.response.offset = offset.toNat →
    answer.request.producerId = message.producerId ∧ answer.request.data = message.data

/-- A response that finds something comes from a committed index. -/
theorem Node.read_found {node : Node (metamorphosisService md5 n)} {offset : UInt64} {response : ReadRsp}
    (read : node.read offset = .ok response) (found : response.status ≠ .notFound) :
    offset.toNat ≤ node.commitIndex ∧ ∃ entry, node.raftLog.get? offset.toNat = some entry ∧
      response = ReadRsp.expected (some entry) := by
  rw [Node.read] at read
  split at read
  · cases read
    exact absurd rfl found
  · rename_i inside
    refine ⟨Nat.le_of_not_lt inside, ?_⟩
    split at read
    · cases read
    · rename_i entry stored
      refine ⟨entry, stored, ?_⟩
      rw [ReadRsp.expected]
      split at read
      · rename_i full
        cases read
        rw [if_pos full]
      · rename_i short
        cases read
        rw [if_neg short]

/-- A reader gets the message of a full or hash-only copy. -/
theorem MessageEntry.CopyOf.shows {copy message : MessageEntry} (copied : copy.CopyOf message)
    (hash : message.md5hash = md5 message.data) : (ReadRsp.expected (some copy)).Shows md5 message.data := by
  rw [ReadRsp.expected]
  split
  · rename_i full
    have data := copied.data.resolve_right full
    rw [data]
    exact Or.inl rfl
  · rw [copied.md5hash, hash]
    exact Or.inr rfl

/-- The committed message of an offset is what all readers and producers of the offset know. -/
theorem Sim.holds (sim : Sim (metamorphosisCopies md5 n) True c a)
    (clients : ClientsOk (metamorphosisCopies md5 n) (metamorphosisReplay md5 n) c a) {offset : UInt64}
    {item : Item (metamorphosisService md5 n)} (positive : 1 ≤ offset.toNat) (decided : Decided c a offset.toNat item)
    (hash : item.1.md5hash = md5 item.1.data) : c.Holds offset item.1 where
  reads x response read found := by
    obtain ⟨inside, entry, stored, rfl⟩ := Node.read_found read found
    obtain ⟨copy, other, present, decidedOther, copied⟩ := sim.stored positive inside
    cases stored.symm.trans present
    cases decided.unique sim positive decidedOther
    exact copied.shows hash
  answers answer member status same := by
    obtain ⟨_, other, decidedOther, producer, data, _⟩ := clients.offset member status
    rw [same] at decidedOther
    cases decided.unique sim positive decidedOther
    exact ⟨producer.symm, data.symm⟩

/-- Once some node has shown an offset to a reader, the message of the offset is fixed. Some leader accepted it for this
offset, and at every later time all readers see it and all producers that got the offset had sent it. -/
theorem reads_agree (md5 : Bytes → Bytes) (n : Nat) {c : MetamorphosisCluster md5 n}
    (reached : Cluster.Run Cluster.InOrder (.initial _) c) {x : Fin n} {offset : UInt64} {response : ReadRsp}
    (read : (c.nodes x).read offset = .ok response) (found : response.status ≠ .notFound) :
    ∃ record ∈ c.created, record.index = offset.toNat ∧
      ∀ d, Cluster.Run Cluster.InOrder c d → d.Holds offset record.entry := by
  obtain ⟨a, sim, clients⟩ := (reached.atomics (Cluster.fresh_initial _)).1.clients (metamorphosisCopies md5 n)
    (metamorphosisReplay md5 n) fun _ _ condition => condition
  obtain ⟨inside, entry, stored, _⟩ := Node.read_found read found
  have positive : 1 ≤ offset.toNat := by
    apply Nat.one_le_iff_ne_zero.mpr
    intro zero
    rw [zero, (reached.contiguous (Cluster.starts_initial _) x).absent] at stored
    cases stored
  obtain ⟨_, item, _, decided, _⟩ := sim.stored positive inside
  have ⟨T, m, L, _, _, led, place⟩ := decided
  obtain ⟨record, member, rfl, index, _⟩ := sim.made_at clients.stamps clients.oldFirst led place
  obtain ⟨_, request, _, made⟩ := clients.stamps.made record member
  obtain ⟨_, _, message, _⟩ := Producers.newEntry_inr made
  refine ⟨record, member, by omega, fun d later => ?_⟩
  obtain ⟨b, steps, simD, clientsD⟩ := Sim.invariant (ClientsOk (metamorphosisCopies md5 n) (metamorphosisReplay md5 n))
    (fun sim _ steps taken clients => clients.step sim steps taken) (fun _ _ _ condition => condition) sim clients
    (later.atomics reached.fresh).1
  exact simD.holds clientsD positive (decided.later (later.atomics reached.fresh).1.extends steps.leadsGrow)
    (by rw [message])

/-- The leader has answered the producer, and it shows the message to a reader. -/
theorem reads_agree_appended :
    (appendedCluster.nodes 0).read 1 = .ok ⟨.fullMessage, .data [7]⟩ ∧
      ∃ record ∈ appendedCluster.created, record.index = 1 ∧ appendedCluster.Holds 1 record.entry := by
  have read : (appendedCluster.nodes 0).read 1 = .ok ⟨.fullMessage, .data [7]⟩ := by decide +kernel
  obtain ⟨record, member, index, holds⟩ := reads_agree id 3 appendedCluster_run read (by decide)
  exact ⟨read, record, member, index, holds _ .refl⟩

end Metamorphosis
