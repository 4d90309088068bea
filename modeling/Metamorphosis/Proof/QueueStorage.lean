import Metamorphosis.Construction.QueueService
import Metamorphosis.Proof.Simulator.Storage

/-!
The queue on the bytes of a database replies like the queue on an ordered map. The bytes are a map for the programs of
the queue, because they make only calls that a `KVStorage` answers like a map.
-/

namespace Metamorphosis
open QueueProgram

section Programs
variable {store after : OrderedStore UInt64 Data} {given : StorageAnswer UInt64 Data} {A : Type}

/-- A program goes on after a call of the storage. -/
theorem run_storage {call : StorageCall UInt64 Data} (called : store.call call = some (after, given))
    (rest : StorageAnswer UInt64 Data → QueueProgram A) :
    CallProgram.run OrderedStore.call store (storage call >>= rest) =
      CallProgram.run OrderedStore.call after (rest given) := by
  apply CallProgram.run_bind
  rw [storage, CallProgram.run_call called]
  rfl

/-- `Append` puts the message. -/
theorem run_append (index : UInt64) (data : Data) :
    CallProgram.run OrderedStore.call store (append index data) =
      some ({ store with map := store.map.put index data }, some (.ok index)) := by
  rw [append, run_storage (store.call_execute (.put index data) trivial)]
  rfl

/-- `Read` looks the message up. -/
theorem run_read (service : QueueService) (same : service.kvStorage = store.map) (id : UInt64) :
    CallProgram.run OrderedStore.call store (QueueProgram.read id) = some (store, some (service.read (.ok ()) id)) := by
  rw [QueueProgram.read, QueueService.read, same]
  cases found : store.map.lookup id with
  | none =>
      have get : store.call (.get id) = some (store, .notFound) := by rw [OrderedStore.call, found]
      rw [run_storage get]
      rfl
  | some data =>
      have get : store.call (.get id) = some (store, .value data) := by rw [OrderedStore.call, found]
      rw [run_storage get]
      rfl

/-- `Trim` deletes a range from the least id on. -/
theorem run_trim (id : UInt64) :
    CallProgram.run OrderedStore.call store (trim id) =
      some ({ store with map := store.map.deleteRange 0 id }, some (.ok ())) := by
  rw [trim, run_storage (store.call_execute (.deleteRange 0 id) UInt64.zero_le)]
  rfl

/-- The constructor finds the next id. -/
theorem run_start (map : FiniteMap UInt64 Data) :
    CallProgram.run OrderedStore.call ⟨map, [], []⟩ start =
      some (⟨map, [⟨map, some map.last?⟩], []⟩, some (QueueService.start map).endIndex) := by
  have made : OrderedStore.call ⟨map, [], []⟩ .newIterator = some (⟨map, [⟨map, none⟩], []⟩, .ok) := rfl
  have moved : OrderedStore.call ⟨map, [⟨map, none⟩], []⟩ (.seekToLast 0) =
      some (⟨map, [⟨map, some map.last?⟩], []⟩, .ok) := rfl
  have seen : OrderedStore.call ⟨map, [⟨map, some map.last?⟩], []⟩ (.valid 0) =
      some (⟨map, [⟨map, some map.last?⟩], []⟩, .valid map.last?.isSome) := rfl
  rw [start, run_storage made, run_storage moved, run_storage seen, QueueService.start]
  cases last : map.last? with
  | none => rfl
  | some key =>
      have read : OrderedStore.call ⟨map, [⟨map, some (some key)⟩], []⟩ (.getKey 0) =
          some (⟨map, [⟨map, some (some key)⟩], []⟩, .key key) := rfl
      exact run_storage read _

end Programs

namespace StoredQueue
variable {order : ByteOrder} {queue : StoredQueue} {run : QueueRun}

/-- The bytes and the next id of a queue are those of a queue on a map. -/
structure Keeps (order : ByteOrder) (queue : StoredQueue) (service : QueueService) : Prop where
  kvStorage : ∃ store, Represents (u64Serde order) stringSerde queue.kvStorage store ∧ store.map = service.kvStorage
  endIndex : queue.endIndex = service.endIndex

/-- What a call leaves behind on a map, it leaves behind on the bytes. -/
theorem step_ends (call : QueueCall) (reply : QueueReply) (service : QueueService)
    {store after : OrderedStore UInt64 Data} (represents : Represents (u64Serde order) stringSerde (queue.before call) store)
    (ran : CallProgram.run OrderedStore.call store (call.program queue.endIndex) =
      some (after, some (reply, service.endIndex))) (same : after.map = service.kvStorage) :
    ∃ next, queue.step order call = some (next, reply) ∧ next.Keeps order service := by
  have simulated : ∃ storage, CallProgram.run (KVStorage.callOrdered (u64Serde order) stringSerde) (queue.before call)
      (call.program queue.endIndex) = some (storage, some (reply, service.endIndex)) ∧
      Represents (u64Serde order) stringSerde storage after := by
    refine CallProgram.run_simulates ?_ represents ran
    intro storage other request otherAfter given related answered
    exact related.call answered
  obtain ⟨storage, ranStorage, still⟩ := simulated
  refine ⟨⟨storage, service.endIndex⟩, ?_, ⟨after, still, same⟩, rfl⟩
  rw [step, ranStorage]

/-- A new service on any bytes of a map finds the next id. -/
theorem restart (queue : StoredQueue) {store : OrderedStore UInt64 Data}
    (represents : Represents (u64Serde order) stringSerde queue.kvStorage store) :
    ∃ next, queue.step order .restart = some (next, .restarted) ∧ next.Keeps order (.start store.map) := by
  have ran := run_start store.map
  exact step_ends .restart .restarted (.start store.map) represents.reopen (CallProgram.run_bind ran) rfl

/-- One call replies like the queue on a map. -/
theorem Keeps.step (keeps : queue.Keeps order run.service) (call : QueueCall) :
    ∃ next reply, queue.step order call = some (next, reply) ∧ next.Keeps order (run.step call).service ∧
      (run.step call).history = run.history ++ [(call, reply)] := by
  obtain ⟨⟨store, represents, same⟩, endIndex⟩ := keeps
  cases call with
  | append data =>
      obtain ⟨next, stepped, still⟩ := step_ends (.append data) (.append (.ok queue.endIndex))
        (run.step (.append data)).service represents
        (by rw [QueueCall.program, CallProgram.run_bind (run_append queue.endIndex data), endIndex]; rfl)
        (by rw [same]; rfl)
      exact ⟨next, _, stepped, still, by rw [endIndex]; rfl⟩
  | read id =>
      obtain ⟨next, stepped, still⟩ := step_ends (.read id) (.read (run.service.read (.ok ()) id)) run.service represents
        (by rw [QueueCall.program, CallProgram.run_bind (run_read run.service same.symm id), endIndex]; rfl) same
      exact ⟨next, _, stepped, still, rfl⟩
  | trim id =>
      obtain ⟨next, stepped, still⟩ := step_ends (.trim id) (.trim (.ok ())) (run.step (.trim id)).service represents
        (by rw [QueueCall.program, CallProgram.run_bind (run_trim id), endIndex]; rfl)
        (by rw [same]; rfl)
      exact ⟨next, _, stepped, still, rfl⟩
  | restart =>
      obtain ⟨next, stepped, still⟩ := queue.restart represents
      rw [same] at still
      exact ⟨next, _, stepped, still, rfl⟩

/-- A sequence of calls replies like the queue on a map. -/
theorem Keeps.replies (keeps : queue.Keeps order run.service) (calls : List QueueCall) :
    ∃ replies, queue.replies order calls = some replies ∧
      (calls.foldl QueueRun.step run).history.map Prod.snd = run.history.map Prod.snd ++ replies := by
  induction calls generalizing queue run with
  | nil => exact ⟨[], rfl, (List.append_nil _).symm⟩
  | cons first rest ih =>
      obtain ⟨next, reply, stepped, still, history⟩ := keeps.step first
      obtain ⟨others, later, whole⟩ := ih still
      refine ⟨reply :: others, ?_, ?_⟩
      · rw [StoredQueue.replies, stepped]
        simp only [Option.bind_eq_bind, Option.bind_some, later]
      · rw [List.foldl_cons, whole, history, List.map_append, List.append_assoc]
        rfl

end StoredQueue

/-- A queue on a new database of the simulator, down to its bytes, goes through every sequence of calls and restarts
with the replies of the queue on an ordered map. -/
theorem queue_stored (order : ByteOrder) (endIndex : UInt64) (calls : List QueueCall) :
    (StoredQueue.mk .opened endIndex).replies order (.restart :: calls) =
      some (.restarted :: (calls.foldl QueueRun.step .initial).history.map Prod.snd) := by
  have opened : Represents (u64Serde order) stringSerde .opened .empty := .opened
  obtain ⟨queue, started, keeps⟩ := StoredQueue.restart ⟨.opened, endIndex⟩ opened
  have initial : queue.Keeps order QueueRun.initial.service := keeps
  obtain ⟨replies, given, history⟩ := initial.replies calls
  rw [StoredQueue.replies, started, history]
  simp only [Option.bind_eq_bind, Option.bind_some, given]
  rfl

end Metamorphosis
