import Mathlib.Data.List.Lex
import Metamorphosis.Construction.Node
import Metamorphosis.Construction.Simulator.Database
import Metamorphosis.Library.CallProgram

/-!
The parts of `RaftNode` and `MetamorphosisNode` that use the databases, as calls of the two `KVStorage`s. The other
files of the model speak about the stored values alone.
-/

namespace Metamorphosis

/-- A call of `raft_state` or of `raft_log`. The other ones name the batch or iterator that is made next. -/
inductive DatabaseCall (Entry : Type) where
  | state (call : StorageCall (List UInt8) UInt64)
  | log (call : StorageCall UInt64 Entry)
  | nextStateBatch
  | nextLogBatch
  | nextLogIterator

inductive DatabaseAnswer (Entry : Type) where
  | state (answer : StorageAnswer (List UInt8) UInt64)
  | log (answer : StorageAnswer UInt64 Entry)
  | name (number : Nat)

/-- The two databases of a node. -/
structure Databases where
  raftState : KVStorage
  raftLog : KVStorage

namespace Databases
variable {Entry : Type}

def opened : Databases := ⟨.opened, .opened⟩

/-- The databases are opened again by another process. -/
def reopen (databases : Databases) : Databases := ⟨databases.raftState.reopen, databases.raftLog.reopen⟩

/-- The keys of `raft_state` are strings with numbers as values, and those of `raft_log` are numbers. -/
def answer (order : ByteOrder) (entrySerde : Serde Entry) (databases : Databases) :
    DatabaseCall Entry → Option (Databases × DatabaseAnswer Entry)
  | .state call =>
      (databases.raftState.callOrdered stringSerde (u64Serde order) call).map fun result =>
        ({ databases with raftState := result.1 }, .state result.2)
  | .log call =>
      (databases.raftLog.callOrdered (u64Serde order) entrySerde call).map fun result =>
        ({ databases with raftLog := result.1 }, .log result.2)
  | .nextStateBatch => some (databases, .name databases.raftState.batches.length)
  | .nextLogBatch => some (databases, .name databases.raftLog.batches.length)
  | .nextLogIterator => some (databases, .name databases.raftLog.iterators.length)

end Databases

abbrev DatabaseProgram (Entry A : Type) := CallProgram (DatabaseCall Entry) (DatabaseAnswer Entry) A

namespace DatabaseProgram
variable {Entry : Type}

def stateAnswer : DatabaseAnswer Entry → DatabaseProgram Entry (StorageAnswer (List UInt8) UInt64)
  | .state answer => .done answer
  | _ => .abort

def logAnswer : DatabaseAnswer Entry → DatabaseProgram Entry (StorageAnswer UInt64 Entry)
  | .log answer => .done answer
  | _ => .abort

def nameAnswer : DatabaseAnswer Entry → DatabaseProgram Entry Nat
  | .name number => .done number
  | _ => .abort

/-- A call of `raft_state`. -/
def state (call : StorageCall (List UInt8) UInt64) : DatabaseProgram Entry (StorageAnswer (List UInt8) UInt64) :=
  .call (.state call) stateAnswer

/-- A call of `raft_log`. -/
def log (call : StorageCall UInt64 Entry) : DatabaseProgram Entry (StorageAnswer UInt64 Entry) :=
  .call (.log call) logAnswer

/-- `ExpectOk`. -/
def expectOk {K V : Type} : StorageAnswer K V → DatabaseProgram Entry Unit
  | .ok => .done ()
  | _ => .abort

/-- `GetValue` of a result. -/
def getValue {K V : Type} : StorageAnswer K V → DatabaseProgram Entry V
  | .value value => .done value
  | _ => .abort

def bytes (text : String) : List UInt8 := text.toList.map fun letter => UInt8.ofNat letter.toNat

def currentTermKey : List UInt8 := bytes "current_term"

def votedForKey : List UInt8 := bytes "voted_for"

/-- The constructor sets up `current_term`. -/
def setup : DatabaseProgram Entry Unit := do
  match ← state (.get currentTermKey) with
  | .value _ => pure ()
  | _ => expectOk (← state (.execute (.put currentTermKey 0)))

/-- `GetCurrentTerm`. -/
def getCurrentTerm : DatabaseProgram Entry UInt64 := do
  getValue (← state (.get currentTermKey))

/-- `GetVotedFor`. -/
def getVotedFor : DatabaseProgram Entry (Option UInt64) := do
  match ← state (.get votedForKey) with
  | .value candidate => pure (some candidate)
  | _ => pure none

/-- `UpdateTerm` puts a vote or deletes the old one. -/
def voteCommand : Option UInt64 → Command (List UInt8) UInt64
  | some candidate => .put votedForKey candidate
  | none => .delete votedForKey

/-- `UpdateTerm`. -/
def updateTerm (term : UInt64) (votedFor : Option UInt64) : DatabaseProgram Entry Unit := do
  let currentTerm ← getCurrentTerm
  if currentTerm < term then
    let batch ← .call .nextStateBatch nameAnswer
    expectOk (← state .makeWriteBatch)
    expectOk (← state (.batch batch (.put currentTermKey term)))
    expectOk (← state (.batch batch (voteCommand votedFor)))
    expectOk (← state (.write batch))
  else .abort

/-- `RequestVote` puts the candidate. -/
def vote (candidate : UInt64) : DatabaseProgram Entry Unit := do
  expectOk (← state (.execute (.put votedForKey candidate)))

/-- An iterator at the end of `raft_log`, if there is an entry. -/
def seekToLast : DatabaseProgram Entry (Option Nat) := do
  let iterator ← .call .nextLogIterator nameAnswer
  expectOk (← log .newIterator)
  expectOk (← log (.seekToLast iterator))
  match ← log (.valid iterator) with
  | .valid true => pure (some iterator)
  | _ => pure none

/-- `GetSavedLogSize`. -/
def getSavedLogSize : DatabaseProgram Entry UInt64 := do
  match ← seekToLast with
  | none => pure 0
  | some iterator =>
      match ← log (.getKey iterator) with
      | .key key => pure key
      | _ => .abort

/-- `GetLastSavedLogTerm`. -/
def getLastSavedLogTerm (term : Entry → Nat) : DatabaseProgram Entry Nat := do
  match ← seekToLast with
  | none => pure 0
  | some iterator => term <$> getValue (← log (.getValue iterator))

/-- `raft_log->Get(index).GetValue()`. -/
def getEntry (index : UInt64) : DatabaseProgram Entry Entry := do
  getValue (← log (.get index))

/-- The loop that puts entries into a batch. -/
def putEntries (batch : Nat) (index : UInt64) : List Entry → DatabaseProgram Entry Unit
  | [] => pure ()
  | entry :: rest => do
      expectOk (← log (.batch batch (.put index entry)))
      putEntries batch (index + 1) rest

/-- The index up to which `AppendEntries` keeps the log: `std::max(prev_log_index, commit_index)`. -/
def kept (prevLogIndex commitIndex : UInt64) : UInt64 :=
  if prevLogIndex < commitIndex then commitIndex else prevLogIndex

/-- The entries of a request that `AppendEntries` writes. -/
def written (prevLogIndex commitIndex : UInt64) (entries : List Entry) : List Entry :=
  entries.drop (kept prevLogIndex commitIndex - prevLogIndex).toNat

/-- `AppendEntries` writes its entries in one batch. -/
def writeEntries (prevLogIndex commitIndex : UInt64) (entries : List Entry) : DatabaseProgram Entry Unit := do
  let first := kept prevLogIndex commitIndex + 1
  let batch ← .call .nextLogBatch nameAnswer
  expectOk (← log .makeWriteBatch)
  expectOk (← log (.batch batch (.deleteRange first 0xffffffffffffffff)))
  putEntries batch first (written prevLogIndex commitIndex entries)
  expectOk (← log (.write batch))

/-- `StartLeaderMainSession` saves the pending log in one batch. -/
def saveEntries (matchIndex : UInt64) (pendingLog : List Entry) : DatabaseProgram Entry Unit := do
  let batch ← .call .nextLogBatch nameAnswer
  expectOk (← log .makeWriteBatch)
  putEntries batch (matchIndex + 1) pendingLog
  expectOk (← log (.write batch))

end DatabaseProgram

/-- What a node does with its databases. It may also end at any time and be started again. -/
inductive DatabaseAction {n : Nat} (S : Service n) where
  | restart
  | getCurrentTerm
  | getVotedFor
  | getSavedLogSize
  | getLastSavedLogTerm
  | getEntry (index : UInt64)
  | updateTerm (term : UInt64) (votedFor : Option (Fin n))
  | vote (candidate : Fin n)
  | writeEntries (prevLogIndex commitIndex : UInt64) (entries : List S.Entry)
  | saveEntries (matchIndex : UInt64) (pendingLog : List S.Entry)

inductive DatabaseResult (Entry : Type) where
  | done
  | aborted
  | number (value : UInt64)
  | votedFor (candidate : Option UInt64)
  | term (term : Nat)
  | entry (entry : Entry)

/-- A node's number as it is stored. -/
def nodeId {n : Nat} (node : Fin n) : UInt64 := UInt64.ofNat node.val

variable {n : Nat} {S : Service n}

def DatabaseAction.program : DatabaseAction S → DatabaseProgram S.Entry (DatabaseResult S.Entry)
  | .restart => do DatabaseProgram.setup; pure .done
  | .getCurrentTerm => .number <$> DatabaseProgram.getCurrentTerm
  | .getVotedFor => .votedFor <$> DatabaseProgram.getVotedFor
  | .getSavedLogSize => .number <$> DatabaseProgram.getSavedLogSize
  | .getLastSavedLogTerm => .term <$> DatabaseProgram.getLastSavedLogTerm S.term
  | .getEntry index => .entry <$> DatabaseProgram.getEntry index
  | .updateTerm term votedFor => do DatabaseProgram.updateTerm term (votedFor.map nodeId); pure .done
  | .vote candidate => do DatabaseProgram.vote (nodeId candidate); pure .done
  | .writeEntries prevLogIndex commitIndex entries => do
      DatabaseProgram.writeEntries prevLogIndex commitIndex entries
      pure .done
  | .saveEntries matchIndex pendingLog => do DatabaseProgram.saveEntries matchIndex pendingLog; pure .done

namespace Databases

/-- The state in which an action starts. -/
def before (databases : Databases) : DatabaseAction S → Databases
  | .restart => databases.reopen
  | _ => databases

variable (order : ByteOrder) (entrySerde : Serde S.Entry)

/-- One action with its result. -/
def perform (databases : Databases) (action : DatabaseAction S) : Option (Databases × DatabaseResult S.Entry) :=
  (CallProgram.run (answer order entrySerde) (databases.before action) action.program).map fun ended =>
    (ended.1, ended.2.getD .aborted)

/-- The results of a sequence of actions. -/
def results (databases : Databases) : List (DatabaseAction S) → Option (List (DatabaseResult S.Entry))
  | [] => some []
  | first :: rest => do
      let (databases, result) ← databases.perform order entrySerde first
      let others ← databases.results rest
      some (result :: others)

end Databases

end Metamorphosis
