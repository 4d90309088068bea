import Metamorphosis.Construction.Errors
import Metamorphosis.Construction.Simulator.Database
import Metamorphosis.Library.CallProgram
import Metamorphosis.Library.FiniteMap

/-!
The queue with one replica. Its storage is an ordered map from ids to messages first, and every call of the
storage may fail. Then the same methods are calls of a `KVStorage` on a database of the simulator, where the calls
do not fail.
-/

namespace Metamorphosis

/-- `ReadStatus`. -/
inductive ReadStatus where
  | ok
  | noData
deriving DecidableEq

/-- `ReadReply`. -/
structure ReadReply where
  data : Data
  status : ReadStatus
deriving DecidableEq

/-- `QueueService`. The next id is kept in memory only. -/
structure QueueService where
  kvStorage : FiniteMap UInt64 Data
  endIndex : UInt64

namespace QueueService

/-- The constructor reads the last key. -/
def start (storage : FiniteMap UInt64 Data) : QueueService where
  kvStorage := storage
  endIndex :=
    match storage.last? with
    | none => 0
    | some key => key + 1

/-- `Append`. The id is used up even if the storage fails. -/
def append (service : QueueService) (storage : Except DBError Unit) (data : Data) :
    Except RpcError UInt64 × QueueService :=
  let index := service.endIndex
  match storage with
  | .error error => (.error ⟨.internal, error.message⟩, { service with endIndex := index + 1 })
  | .ok _ => (.ok index, ⟨service.kvStorage.put index data, index + 1⟩)

/-- `Read`. -/
def read (service : QueueService) (storage : Except DBError Unit) (id : UInt64) : Except RpcError ReadReply :=
  match storage with
  | .error error =>
      if error.errorType = .notFound then .ok ⟨[], .noData⟩ else .error ⟨.internal, error.message⟩
  | .ok _ =>
      match service.kvStorage.lookup id with
      | some data => .ok ⟨data, .ok⟩
      | none => .ok ⟨[], .noData⟩

/-- `Trim`. -/
def trim (service : QueueService) (storage : Except DBError Unit) (id : UInt64) :
    Except RpcError Unit × QueueService :=
  match storage with
  | .error error => (.error ⟨.internal, error.message⟩, service)
  | .ok _ => (.ok (), { service with kvStorage := service.kvStorage.deleteRange 0 id })

end QueueService

/-- What happens to a queue. -/
inductive QueueCall where
  | append (data : Data)
  | read (id : UInt64)
  | trim (id : UInt64)
  | restart
deriving DecidableEq

/-- What a call returns. -/
inductive QueueReply where
  | append (reply : Except RpcError UInt64)
  | read (reply : Except RpcError ReadReply)
  | trim (reply : Except RpcError Unit)
  | restarted

/-- A queue and everything that has happened to it, the latest at the end. -/
structure QueueRun where
  service : QueueService
  history : List (QueueCall × QueueReply)

namespace QueueRun

/-- The service starts on a new database. -/
def initial : QueueRun := ⟨.start .empty, []⟩

/-- One call with a storage that does not fail, or a new service on the same database. -/
def step (run : QueueRun) (call : QueueCall) : QueueRun :=
  match call with
  | .append data =>
      let (reply, service) := run.service.append (.ok ()) data
      ⟨service, run.history ++ [(call, .append reply)]⟩
  | .read id => ⟨run.service, run.history ++ [(call, .read (run.service.read (.ok ()) id))]⟩
  | .trim id =>
      let (reply, service) := run.service.trim (.ok ()) id
      ⟨service, run.history ++ [(call, .trim reply)]⟩
  | .restart => ⟨.start run.service.kvStorage, run.history ++ [(call, .restarted)]⟩

/-- Runs whose calls all meet a condition on the state before them. -/
inductive Reached (allowed : QueueRun → QueueCall → Prop) : QueueRun → Prop where
  | initial : Reached allowed .initial
  | step {run : QueueRun} (call : QueueCall) (before : Reached allowed run) (permitted : allowed run call) :
      Reached allowed (run.step call)

end QueueRun

/-- A method of the queue as calls of `kv_storage_`. -/
abbrev QueueProgram := CallProgram (StorageCall UInt64 Data) (StorageAnswer UInt64 Data)

namespace QueueProgram

def storage (call : StorageCall UInt64 Data) : QueueProgram (StorageAnswer UInt64 Data) := .call call .done

/-- The constructor reads the last key. Its iterator is the first one of a storage that was just opened. -/
def start : QueueProgram UInt64 := do
  let _ ← storage .newIterator
  let _ ← storage (.seekToLast 0)
  match ← storage (.valid 0) with
  | .valid true =>
      match ← storage (.getKey 0) with
      | .key key => pure (key + 1)
      | _ => .abort
  | _ => pure 0

/-- `Append` with the id that `end_index_` gave. -/
def append (index : UInt64) (data : Data) : QueueProgram (Except RpcError UInt64) := do
  match ← storage (.execute (.put index data)) with
  | .ok => pure (.ok index)
  | _ => .abort

/-- `Read`. -/
def read (id : UInt64) : QueueProgram (Except RpcError ReadReply) := do
  match ← storage (.get id) with
  | .value data => pure (.ok ⟨data, .ok⟩)
  | .notFound => pure (.ok ⟨[], .noData⟩)
  | _ => .abort

/-- `Trim`. -/
def trim (id : UInt64) : QueueProgram (Except RpcError Unit) := do
  match ← storage (.execute (.deleteRange 0 id)) with
  | .ok => pure (.ok ())
  | _ => .abort

end QueueProgram

/-- A call with its reply and with the next id after it. -/
def QueueCall.program (endIndex : UInt64) : QueueCall → QueueProgram (QueueReply × UInt64)
  | .append data => do
      let reply ← QueueProgram.append endIndex data
      pure (.append reply, endIndex + 1)
  | .read id => do
      let reply ← QueueProgram.read id
      pure (.read reply, endIndex)
  | .trim id => do
      let reply ← QueueProgram.trim id
      pure (.trim reply, endIndex)
  | .restart => do
      let endIndex ← QueueProgram.start
      pure (.restarted, endIndex)

/-- `QueueService` on the bytes of a database. -/
structure StoredQueue where
  kvStorage : KVStorage
  endIndex : UInt64

namespace StoredQueue

/-- The storage at the start of a call. A new service opens the database again. -/
def before (queue : StoredQueue) : QueueCall → KVStorage
  | .restart => queue.kvStorage.reopen
  | _ => queue.kvStorage

/-- One call; `none` where the process ends. -/
def step (order : ByteOrder) (queue : StoredQueue) (call : QueueCall) : Option (StoredQueue × QueueReply) :=
  match CallProgram.run (KVStorage.callOrdered (u64Serde order) stringSerde) (queue.before call)
      (call.program queue.endIndex) with
  | some (storage, some (reply, endIndex)) => some (⟨storage, endIndex⟩, reply)
  | _ => none

/-- The replies of a sequence of calls. -/
def replies (order : ByteOrder) (queue : StoredQueue) : List QueueCall → Option (List QueueReply)
  | [] => some []
  | first :: rest => do
      let (queue, reply) ← queue.step order first
      let others ← queue.replies order rest
      some (reply :: others)

end StoredQueue

end Metamorphosis
