import Mathlib.Data.Finset.Basic
import Metamorphosis.Construction.Cluster
import Metamorphosis.Construction.Errors

namespace Metamorphosis

/-- The bytes of a message or of a hash. -/
abbrev Bytes := List UInt8

/-- `AppendEntriesReq.LogEntry`. A hash-only copy has empty data. -/
structure MessageEntry where
  term : Nat
  producerId : Nat
  data : Bytes
  md5hash : Bytes
deriving DecidableEq

/-- `AppendReq`. -/
structure AppendReq where
  data : Bytes
  producerId : Nat
  sequenceId : UInt64
deriving DecidableEq

/-- `AppendRsp.Status`. -/
inductive AppendStatus where
  | notALeader
  | commited
  | invalidSequenceId
  | parallelRequest
deriving DecidableEq

/-- `AppendRsp`. -/
structure AppendRsp where
  status : AppendStatus
  offset : Nat
  nextSequenceId : UInt64
deriving DecidableEq

/-- `ReadRsp.Status`. -/
inductive ReadRspStatus where
  | notFound
  | hashOnly
  | fullMessage
deriving DecidableEq

/-- The `payload` of a `ReadRsp`. -/
inductive ReadRspPayload where
  | notSet
  | data (data : Bytes)
  | md5hash (hash : Bytes)
deriving DecidableEq

/-- `ReadRsp`. -/
structure ReadRsp where
  status : ReadRspStatus
  payload : ReadRspPayload
deriving DecidableEq

/-- The members that only a `MetamorphosisNode` has, and the flag `is_alive` of every session. -/
structure Producers (n : Nat) where
  producerNextSequenceId : Nat → UInt64
  pendingProducers : Finset Nat
  aliveMainNodesCount : UInt64
  isAlive : Fin n → Bool

/-- `IsMainNode`: the first nodes that make a majority together with the leader. -/
def isMainNode {n : Nat} (self j : Fin n) : Bool :=
  j.val < if majorityCount n ≤ self.val then majorityCount n - 1 else majorityCount n

/-- The counter of the entry's producer goes up by one. -/
def countEntry (counter : Nat → UInt64) (entry : MessageEntry) : Nat → UInt64 :=
  Function.update counter entry.producerId (counter entry.producerId + 1)

/-- The counter of the entry's producer goes down by one and may wrap. -/
def uncountEntry (counter : Nat → UInt64) (entry : MessageEntry) : Nat → UInt64 :=
  Function.update counter entry.producerId (counter entry.producerId - 1)

namespace Producers
variable {n : Nat}

/-- The constructor counts the entries of the stored log. -/
def construct (log : OrderedMap MessageEntry) : Producers n where
  producerNextSequenceId := (log.entries.map Prod.snd).foldl countEntry fun _ => 0
  pendingProducers := ∅
  aliveMainNodesCount := 0
  isAlive _ := true

/-- `Append` up to the new entry. -/
def newEntry (md5 : Bytes → Bytes) (ext : Producers n) (currentTerm : Nat) (request : AppendReq) :
    AppendRsp ⊕ (MessageEntry × Producers n) :=
  if request.producerId ∈ ext.pendingProducers then .inl ⟨.parallelRequest, 0, 0⟩
  else if request.sequenceId ≠ ext.producerNextSequenceId request.producerId then
    .inl ⟨.invalidSequenceId, 0, ext.producerNextSequenceId request.producerId⟩
  else
    .inr (⟨currentTerm, request.producerId, request.data, md5 request.data⟩,
      { ext with pendingProducers := insert request.producerId ext.pendingProducers })

/-- `AppendEntries` counts the removed entries down and the written ones up. -/
def rewrite (ext : Producers n) (removed written : List MessageEntry) : Producers n :=
  { ext with
    producerNextSequenceId :=
      written.foldl countEntry (removed.foldl uncountEntry ext.producerNextSequenceId) }

/-- `StartLeaderMainSession` counts the saved entries and lets their producers send again. -/
def saved (ext : Producers n) (entries : List MessageEntry) : Producers n :=
  { ext with
    producerNextSequenceId := entries.foldl countEntry ext.producerNextSequenceId
    pendingProducers := entries.foldl (fun set entry => set.erase entry.producerId) ext.pendingProducers }

/-- A non-main follower gets only the committed entries while all main nodes are alive. -/
def lastLogEntryIndex (ext : Producers n) (self j : Fin n) (commitIndex nextIndex : Nat) : Nat :=
  if isMainNode self j = false ∧ ext.aliveMainNodesCount = UInt64.ofNat (majorityCount n) then commitIndex
  else nextIndex - 1

/-- A session's first failed call marks its node dead. -/
def callFailed (ext : Producers n) (self j : Fin n) : Producers n :=
  if ext.isAlive j then
    { ext with
      isAlive := Function.update ext.isAlive j false
      aliveMainNodesCount := if isMainNode self j then ext.aliveMainNodesCount - 1 else ext.aliveMainNodesCount }
  else ext

/-- A session's first answered call marks its node alive again. -/
def callAnswered (ext : Producers n) (self j : Fin n) : Producers n :=
  if ext.isAlive j then ext
  else
    { ext with
      isAlive := Function.update ext.isAlive j true
      aliveMainNodesCount := if isMainNode self j then ext.aliveMainNodesCount + 1 else ext.aliveMainNodesCount }

/-- `DEFER` lets the producer send again. -/
def release (ext : Producers n) (request : AppendReq) : Producers n :=
  { ext with pendingProducers := ext.pendingProducers.erase request.producerId }

end Producers

/-- The copy of an entry that a request carries: committed entries are sent as hashes only. -/
def MessageEntry.encode (commitIndex index : Nat) (entry : MessageEntry) : MessageEntry :=
  if index ≤ commitIndex then { entry with data := [] } else entry

/-- `MetamorphosisNode`. The MD5 function is a parameter. -/
abbrev metamorphosisService (md5 : Bytes → Bytes) (n : Nat) : Service n where
  Entry := MessageEntry
  Ext := Producers n
  Request := AppendReq
  Payload := Nat
  Response := AppendRsp
  sameEntry := inferInstance
  term := MessageEntry.term
  construct := Producers.construct
  becomeLeader ext := { ext with aliveMainNodesCount := UInt64.ofNat (majorityCount n) }
  startLeader ext := { ext with isAlive := fun _ => true }
  newEntry := Producers.newEntry md5
  rewrite := Producers.rewrite
  saved := Producers.saved
  commit ext index _ := some (index, ext)
  commit_stored _ _ _ := rfl
  lastLogEntryIndex := Producers.lastLogEntryIndex
  encode := MessageEntry.encode
  callFailed := Producers.callFailed
  callAnswered := Producers.callAnswered
  notALeader := ⟨.notALeader, 0, 0⟩
  release := Producers.release
  committed ext request offset :=
    (⟨.commited, offset.getD 0, ext.producerNextSequenceId request.producerId⟩, ext.release request)

/-- `Read`. A key that the log does not have is an error of the database. -/
def Node.read {md5 : Bytes → Bytes} {n : Nat} (node : Node (metamorphosisService md5 n)) (offset : UInt64) :
    Except RpcError ReadRsp :=
  if offset.toNat > node.commitIndex then .ok ⟨.notFound, .notSet⟩
  else
    match node.raftLog.get? offset.toNat with
    | none =>
        let error : DBError := ⟨.notFound, ""⟩
        .error ⟨.internal, error.message⟩
    | some value =>
        if value.data ≠ [] then .ok ⟨.fullMessage, .data value.data⟩ else .ok ⟨.hashOnly, .md5hash value.md5hash⟩

/-- A cluster of `MetamorphosisNode`s. -/
abbrev MetamorphosisCluster (md5 : Bytes → Bytes) (n : Nat) := Cluster (metamorphosisService md5 n)

end Metamorphosis
