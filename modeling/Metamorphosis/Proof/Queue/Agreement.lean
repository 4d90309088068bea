import Metamorphosis.Construction.MetamorphosisNode
import Metamorphosis.Proof.Calls
import Metamorphosis.Proof.Scripts

/-!
The nodes of a `MetamorphosisNode` cluster agree on what is committed, up to data that was left out.
-/

namespace Metamorphosis
open ReplicatedLog
variable {md5 : Bytes → Bytes} {n : Nat}

/-- An accepted message: its producer is not pending and sends the expected sequence id. -/
theorem Producers.newEntry_inr {ext after : Producers n} {currentTerm : Nat} {request : AppendReq} {entry : MessageEntry}
    (made : Producers.newEntry md5 ext currentTerm request = .inr (entry, after)) :
    request.producerId ∉ ext.pendingProducers ∧
      request.sequenceId = ext.producerNextSequenceId request.producerId ∧
      entry = ⟨currentTerm, request.producerId, request.data, md5 request.data⟩ ∧
      after = { ext with pendingProducers := insert request.producerId ext.pendingProducers } := by
  rw [Producers.newEntry] at made
  split at made
  · cases made
  · rename_i free
    split at made
    · cases made
    · rename_i expected
      cases made
      exact ⟨free, not_not.mp expected, rfl, rfl⟩

/-- A copy of a message has its term, producer and hash, and the data may be missing. -/
structure MessageEntry.CopyOf (copy entry : MessageEntry) : Prop where
  term : copy.term = entry.term
  producerId : copy.producerId = entry.producerId
  md5hash : copy.md5hash = entry.md5hash
  data : copy.data = entry.data ∨ copy.data = []

/-- A `MetamorphosisNode` stores full or hash-only copies. -/
def metamorphosisCopies (md5 : Bytes → Bytes) (n : Nat) : Copies (metamorphosisService md5 n) where
  Copy := MessageEntry.CopyOf
  refl _ := ⟨rfl, rfl, rfl, Or.inl rfl⟩
  term copied := copied.term
  encode {commitIndex index copy entry} copied := by
    change (MessageEntry.encode commitIndex index copy).CopyOf entry
    rw [MessageEntry.encode]
    split
    · exact ⟨copied.term, copied.producerId, copied.md5hash, Or.inr rfl⟩
    · exact copied
  newEntry {ext currentTerm request entry after} made := by
    obtain ⟨_, _, rfl, _⟩ := Producers.newEntry_inr made
    rfl

/-- A `MetamorphosisNode` hands the index itself to a waiting call. -/
def metamorphosisReplay (md5 : Bytes → Bytes) (n : Nat) : Replay (metamorphosisService md5 n) where
  State := Unit
  read _ := ()
  initial := ()
  next _ _ := ()
  output index _ _ := index
  construct _ := rfl
  commit _ := rfl
  payload commits := by
    cases commits
    rfl
  becomeLeader _ := rfl
  startLeader _ := rfl
  newEntry _ := rfl
  rewrite _ _ _ := rfl
  saved _ _ := rfl
  callFailed _ _ _ := rfl
  callAnswered _ _ _ := rfl
  release _ _ := rfl
  committed _ _ _ := rfl

variable {c : MetamorphosisCluster md5 n} {a : Hist (metamorphosisService md5 n)}

/-- A message that is not accepted is one too many at a time, or it has another sequence id than expected. -/
theorem Producers.newEntry_inl {ext : Producers n} {currentTerm : Nat} {request : AppendReq} {response : AppendRsp}
    (answered : Producers.newEntry md5 ext currentTerm request = .inl response) :
    response = ⟨.parallelRequest, 0, 0⟩ ∨ request.producerId ∉ ext.pendingProducers ∧
      request.sequenceId ≠ ext.producerNextSequenceId request.producerId ∧
      response = ⟨.invalidSequenceId, 0, ext.producerNextSequenceId request.producerId⟩ := by
  rw [Producers.newEntry] at answered
  split at answered
  · cases answered
    exact Or.inl rfl
  · rename_i free
    split at answered
    · rename_i other
      cases answered
      exact Or.inr ⟨free, other, rfl⟩
    · cases answered

/-- An offset that was answered with `Commited` holds the message of the request. -/
theorem ClientsOk.offset (clients : ClientsOk (metamorphosisCopies md5 n) (metamorphosisReplay md5 n) c a)
    {answer : Answered (metamorphosisService md5 n)} (member : answer ∈ c.answered)
    (status : answer.response.status = .commited) :
    1 ≤ answer.response.offset ∧ ∃ item, Decided c a answer.response.offset item ∧
      item.1.producerId = answer.request.producerId ∧ item.1.data = answer.request.data ∧
      item.1.md5hash = md5 answer.request.data := by
  rcases clients.answers answer member with refused | ⟨ext, term, atOnce⟩ | ⟨ext, payload, response, granted⟩
  · rw [refused] at status
    cases status
  · rcases Producers.newEntry_inl atOnce with parallel | ⟨_, _, other⟩
    · rw [parallel] at status
      cases status
    · rw [other] at status
      cases status
  · obtain ⟨record, _, _, _, ⟨before, after, made⟩, decided, _, _, _, _, _, _, _, _, positive, _, _, index⟩ := granted
    have offset : answer.response.offset = record.index := by
      rw [← response]
      exact index
    obtain ⟨_, _, entry, _⟩ := Producers.newEntry_inr made
    rw [offset]
    exact ⟨positive, _, decided, by rw [entry], by rw [entry], by rw [entry]⟩

/-- A node stores a copy of the committed item at every index up to its commit index. -/
theorem Sim.stored (sim : Sim (metamorphosisCopies md5 n) True c a) {x : Fin n} {index : Nat} (positive : 1 ≤ index)
    (committed : index ≤ (c.nodes x).commitIndex) :
    ∃ copy item, (c.nodes x).raftLog.get? index = some copy ∧ Decided c a index item ∧ copy.CopyOf item.1 := by
  obtain ⟨item, decided, found⟩ := sim.decided positive committed
  obtain ⟨copy, other, present, foundOther, copied⟩ :=
    (sim.nodes x).log.present positive (committed.trans (sim.nodes x).commit)
  cases found.symm.trans foundOther
  exact ⟨copy, item, present, decided, copied⟩

/-- A message that was ever answered with `Commited` and an offset is stored at the offset by every
node that has committed the offset, and any two nodes agree on every index that both have committed. -/
theorem commit_agreement (md5 : Bytes → Bytes) (n : Nat) {c : MetamorphosisCluster md5 n}
    (run : Cluster.Run Cluster.InOrder (.initial _) c) :
    (∀ answer ∈ c.answered, answer.response.status = .commited → ∀ x,
      answer.response.offset ≤ (c.nodes x).commitIndex → ∃ entry,
        (c.nodes x).raftLog.get? answer.response.offset = some entry ∧
        entry.producerId = answer.request.producerId ∧ entry.md5hash = md5 answer.request.data ∧
        (entry.data = answer.request.data ∨ entry.data = [])) ∧
    ∀ x y index, 1 ≤ index → index ≤ (c.nodes x).commitIndex → index ≤ (c.nodes y).commitIndex →
      ∃ first second, (c.nodes x).raftLog.get? index = some first ∧ (c.nodes y).raftLog.get? index = some second ∧
        first.term = second.term ∧ first.producerId = second.producerId ∧ first.md5hash = second.md5hash ∧
        (first.data ≠ [] → second.data ≠ [] → first.data = second.data) := by
  obtain ⟨a, sim, clients⟩ := (run.atomics (Cluster.fresh_initial _)).1.clients (metamorphosisCopies md5 n)
    (metamorphosisReplay md5 n) fun _ _ condition => condition
  refine ⟨fun answer member status x committed => ?_, fun x y index positive committedX committedY => ?_⟩
  · obtain ⟨positive, item, decided, producer, data, hash⟩ := clients.offset member status
    obtain ⟨copy, other, present, decidedOther, copied⟩ := sim.stored positive committed
    cases decided.unique sim positive decidedOther
    refine ⟨copy, present, copied.producerId.trans producer, copied.md5hash.trans hash, ?_⟩
    rw [← data]
    exact copied.data
  · obtain ⟨first, item, present, decided, copied⟩ := sim.stored positive committedX
    obtain ⟨second, other, presentY, decidedY, copiedY⟩ := sim.stored positive committedY
    cases decided.unique sim positive decidedY
    refine ⟨first, second, present, presentY, copied.term.trans copiedY.term.symm,
      copied.producerId.trans copiedY.producerId.symm, copied.md5hash.trans copiedY.md5hash.symm, ?_⟩
    intro full fullY
    rcases copied.data with data | empty
    · rcases copiedY.data with dataY | empty
      · exact data.trans dataY.symm
      · exact absurd empty fullY
    · exact absurd empty full

/-- The first of three nodes leads, appends a message, and answers once the second node has stored it. -/
def appendedScript : List (Option Nat × Action (metamorphosisService id 3)) :=
  Cluster.firstLeads _ ++ Cluster.firstSends (metamorphosisService id 3) ⟨[7], 1, 0⟩ ++
    [(none, .handleAppend 0), (none, .appendAnswered 0 1 (some 0)), (none, .resume 0 5)]

theorem appendedScript_possible :
    ((Cluster.initial (metamorphosisService id 3)).play Cluster.InOrder appendedScript).isSome = true := by
  decide +kernel

/-- The cluster after the script. -/
def appendedCluster : MetamorphosisCluster id 3 :=
  (Cluster.initial _).endOf Cluster.InOrder appendedScript appendedScript_possible

theorem appendedCluster_run : Cluster.Run Cluster.InOrder (.initial _) appendedCluster :=
  Cluster.endOf_run appendedScript_possible

/-- The producer was told an offset that the leader has committed. -/
theorem appendedCluster_answered : ∃ answer ∈ appendedCluster.answered, answer.response.status = .commited ∧
    answer.response.offset ≤ (appendedCluster.nodes 0).commitIndex ∧ answer.request.producerId = 1 := by
  decide +kernel

/-- The offset that the producer was told has its message. -/
theorem commit_agreement_appended : ∃ answer ∈ appendedCluster.answered, answer.response.status = .commited ∧
    ∃ entry, (appendedCluster.nodes 0).raftLog.get? answer.response.offset = some entry ∧ entry.producerId = 1 := by
  obtain ⟨answer, member, status, committed, producer⟩ := appendedCluster_answered
  obtain ⟨entry, present, stored, _⟩ :=
    (commit_agreement id 3 appendedCluster_run).1 answer member status 0 committed
  exact ⟨answer, member, status, entry, present, stored.trans producer⟩

end Metamorphosis
