import Mathlib.Logic.Encodable.Basic
import Metamorphosis.Construction.Databases
import Metamorphosis.Construction.RaftNode
import Metamorphosis.Proof.Simulator.Storage

/-!
The databases of a node keep the three members that the model of a node calls its disk. The bytes of the databases are
finite maps first, and the maps are the members then.
-/

namespace Metamorphosis
open DatabaseProgram
variable {n : Nat} {S : Service n}

/-- The calls of `AppendEntries` and `StartLeaderMainSession` that put entries. -/
def puts {Entry : Type} (index : UInt64) : List Entry → List (Command UInt64 Entry)
  | [] => []
  | entry :: rest => .put index entry :: puts (index + 1) rest

/-- The two databases as maps. -/
structure NodeStores (S : Service n) where
  raftState : OrderedStore (List UInt8) UInt64
  raftLog : OrderedStore UInt64 S.Entry

namespace NodeStores

def answer (stores : NodeStores S) : DatabaseCall S.Entry → Option (NodeStores S × DatabaseAnswer S.Entry)
  | .state call => (stores.raftState.call call).map fun result => ({ stores with raftState := result.1 }, .state result.2)
  | .log call => (stores.raftLog.call call).map fun result => ({ stores with raftLog := result.1 }, .log result.2)
  | .nextStateBatch => some (stores, .name stores.raftState.batches.length)
  | .nextLogBatch => some (stores, .name stores.raftLog.batches.length)
  | .nextLogIterator => some (stores, .name stores.raftLog.cursors.length)

variable {order : ByteOrder} {entrySerde : Serde S.Entry} {databases : Databases} {stores after : NodeStores S}

/-- The databases hold the bytes of the maps. -/
structure Represented (order : ByteOrder) (entrySerde : Serde S.Entry) (databases : Databases) (stores : NodeStores S) :
    Prop where
  raftState : Represents stringSerde (u64Serde order) databases.raftState stores.raftState
  raftLog : Represents (u64Serde order) entrySerde databases.raftLog stores.raftLog

/-- The databases answer a call as the maps do. -/
theorem Represented.answer (represented : Represented order entrySerde databases stores) {call : DatabaseCall S.Entry}
    {given : DatabaseAnswer S.Entry} (answered : stores.answer call = some (after, given)) :
    ∃ next, databases.answer order entrySerde call = some (next, given) ∧ Represented order entrySerde next after := by
  cases call with
  | state call =>
      obtain ⟨result, called, rfl, rfl⟩ := Option.map_eq_some_iff.mp answered
      obtain ⟨storage, calledS, represents⟩ := represented.raftState.call called
      refine ⟨{ databases with raftState := storage }, ?_, represents, represented.raftLog⟩
      rw [Databases.answer, KVStorage.callOrdered, calledS]
      rfl
  | log call =>
      obtain ⟨result, called, rfl, rfl⟩ := Option.map_eq_some_iff.mp answered
      obtain ⟨storage, calledS, represents⟩ := represented.raftLog.call called
      refine ⟨{ databases with raftLog := storage }, ?_, represented.raftState, represents⟩
      rw [Databases.answer, KVStorage.callOrdered, calledS]
      rfl
  | nextStateBatch =>
      cases answered
      refine ⟨databases, ?_, represented⟩
      rw [Databases.answer, represented.raftState.batches, List.length_map]
  | nextLogBatch =>
      cases answered
      refine ⟨databases, ?_, represented⟩
      rw [Databases.answer, represented.raftLog.batches, List.length_map]
  | nextLogIterator =>
      cases answered
      refine ⟨databases, ?_, represented⟩
      rw [Databases.answer, represented.raftLog.size]

/-- Another process opens the databases. -/
def reopen (stores : NodeStores S) : NodeStores S := ⟨⟨stores.raftState.map, [], []⟩, ⟨stores.raftLog.map, [], []⟩⟩

/-- The state in which an action starts. -/
def before (stores : NodeStores S) : DatabaseAction S → NodeStores S
  | .restart => stores.reopen
  | _ => stores

/-- Nothing of a map is lost when its database is opened again. -/
theorem Represented.reopen (represented : Represented order entrySerde databases stores) :
    Represented order entrySerde databases.reopen stores.reopen where
  raftState := represented.raftState.reopen
  raftLog := represented.raftLog.reopen

/-- Every action starts from databases that represent the maps. -/
theorem Represented.before (represented : Represented order entrySerde databases stores) (action : DatabaseAction S) :
    Represented order entrySerde (databases.before action) (stores.before action) := by
  cases action with
  | restart => exact represented.reopen
  | _ => exact represented

end NodeStores

section Log
variable {V : Type} {map : FiniteMap UInt64 V} {log : OrderedMap V}

/-- An entry of the log with its key in the database. -/
def storedEntry (entry : Nat × V) : UInt64 × V := (UInt64.ofNat entry.1, entry.2)

/-- A map holds a log whose keys all come before the greatest number. -/
structure LogHeld (map : FiniteMap UInt64 V) (log : OrderedMap V) : Prop where
  lists : FiniteMap.Lists (log.entries.map storedEntry) map
  keys : ∀ entry ∈ log.entries, entry.1 < 2 ^ 64 - 1

/-- An empty map holds the empty log. -/
theorem LogHeld.empty : LogHeld (.empty : FiniteMap UInt64 V) OrderedMap.empty where
  lists := .empty
  keys _ member := absurd member List.not_mem_nil

/-- A key that fits is read back as it was. -/
theorem storedEntry_key {entry : Nat × V} (bound : entry.1 < 2 ^ 64 - 1) : (storedEntry entry).1.toNat = entry.1 :=
  UInt64.toNat_ofNat_of_lt' (bound.trans (by decide))

/-- The map has the entries of the log under their indices. -/
theorem LogHeld.lookup (held : LogHeld map log) (key : UInt64) : map.lookup key = log.get? key.toNat := by
  cases found : log.get? key.toNat with
  | none =>
      apply held.lists.lookup_none
      intro stored member same
      obtain ⟨entry, inside, rfl⟩ := List.mem_map.mp member
      rw [OrderedMap.get?, Option.map_eq_none_iff, List.find?_eq_none] at found
      apply found entry inside
      rw [← same, storedEntry_key (held.keys entry inside), beq_self_eq_true]
  | some value =>
      obtain ⟨entry, first, rfl⟩ := Option.map_eq_some_iff.mp found
      have key_eq : entry.1 = key.toNat := by simpa using List.find?_some first
      apply (held.lists.lookup key entry.2).mpr
      refine List.mem_map.mpr ⟨entry, List.mem_of_find?_eq_some first, ?_⟩
      rw [storedEntry, key_eq, UInt64.ofNat_toNat]

/-- The last key of the map is the last one of the log. -/
theorem LogHeld.last? (held : LogHeld map log) : map.last? = log.last?.map fun entry => UInt64.ofNat entry.1 := by
  rw [held.lists.last?, OrderedMap.last?, List.getLast?_eq_getElem?, List.length_map, List.getElem?_map, Option.map_map]
  rfl

/-- The last entry of the log is found under its index. -/
theorem LogHeld.lookup_last (held : LogHeld map log) {entry : Nat × V} (last : log.last? = some entry) :
    map.lookup (UInt64.ofNat entry.1) = some entry.2 :=
  (held.lists.lookup _ _).mpr (List.mem_map.mpr ⟨entry, List.mem_of_getLast? last, rfl⟩)

/-- Entries are kept where a comparison of keys says so, before and after they are stored. -/
theorem LogHeld.filter (held : LogHeld map log) (keeps : UInt64 → Bool) (keep : Nat → Bool)
    (same : ∀ key, key < 2 ^ 64 - 1 → keeps (UInt64.ofNat key) = keep key) :
    (log.entries.map storedEntry).filter (fun entry => keeps entry.1) =
      (log.entries.filter fun entry => keep entry.1).map storedEntry := by
  rw [List.filter_map]
  congr 1
  apply List.filter_congr
  intro entry member
  exact same entry.1 (held.keys entry member)

/-- A new entry is held if its index fits. -/
theorem LogHeld.put (held : LogHeld map log) (key : UInt64) (bound : key.toNat < 2 ^ 64 - 1) (value : V) :
    LogHeld (map.put key value) (log.put key.toNat value) where
  lists := by
    have below := held.filter (fun other => other < key) (fun other => other < key.toNat) fun other less => by
      rw [decide_eq_decide, UInt64.lt_iff_toNat_lt, UInt64.toNat_ofNat_of_lt' (less.trans (by decide))]
    have above := held.filter (fun other => key < other) (fun other => key.toNat < other) fun other less => by
      rw [decide_eq_decide, UInt64.lt_iff_toNat_lt, UInt64.toNat_ofNat_of_lt' (less.trans (by decide))]
    have lists := held.lists.put key value
    rw [below, above] at lists
    have stored : storedEntry (key.toNat, value) = (key, value) := by rw [storedEntry, UInt64.ofNat_toNat]
    rw [OrderedMap.put, List.map_append, List.map_cons, stored]
    exact lists
  keys entry member := by
    rcases List.mem_append.mp member with old | new
    · exact held.keys entry (List.mem_of_mem_filter old)
    · rcases List.mem_cons.mp new with rfl | old
      · exact bound
      · exact held.keys entry (List.mem_of_mem_filter old)

/-- Every key from a given one on disappears, because the greatest number is no key. -/
theorem LogHeld.deleteRange (held : LogHeld map log) (key : UInt64) :
    LogHeld (map.deleteRange key 0xffffffffffffffff) (log.deleteFrom key.toNat) where
  lists := by
    have lists := held.lists.deleteIf fun other => key ≤ other ∧ other < 0xffffffffffffffff
    have kept := held.filter (fun other => !decide (key ≤ other ∧ other < 0xffffffffffffffff))
      (fun other => other < key.toNat) fun other less => by
        have number : (UInt64.ofNat other).toNat = other := UInt64.toNat_ofNat_of_lt' (less.trans (by decide))
        rw [← decide_not, decide_eq_decide, not_and_or, UInt64.not_le, UInt64.lt_iff_toNat_lt, UInt64.lt_iff_toNat_lt,
          number]
        exact or_iff_left (not_not.mpr less)
    rw [kept] at lists
    exact lists
  keys entry member := held.keys entry (List.mem_of_mem_filter member)

/-- The next index does not wrap around. -/
theorem next_toNat {index : UInt64} (bound : index.toNat < 2 ^ 64 - 1) : (index + 1).toNat = index.toNat + 1 := by
  rw [UInt64.toNat_add]
  exact Nat.mod_eq_of_lt (by simp; omega)

/-- A batch of entries is put under consecutive keys. -/
theorem LogHeld.puts (held : LogHeld map log) (index : UInt64) (entries : List V)
    (bound : index.toNat + entries.length ≤ 2 ^ 64 - 1) :
    LogHeld ((puts index entries).foldl OrderedStore.execute map) (log.putAll index.toNat entries) := by
  induction entries generalizing map log index with
  | nil => exact held
  | cons entry rest ih =>
      rw [List.length_cons] at bound
      have first := held.put index (by omega) entry
      have next := next_toNat (show index.toNat < 2 ^ 64 - 1 by omega)
      have later := ih first (index + 1) (by omega)
      rw [next] at later
      exact later

end Log
section Programs
variable {stores : NodeStores S} {A : Type}

/-- A program goes on after a call of `raft_state`. -/
theorem run_state {request : StorageCall (List UInt8) UInt64} {after : OrderedStore (List UInt8) UInt64}
    {given : StorageAnswer (List UInt8) UInt64} (called : stores.raftState.call request = some (after, given))
    (rest : StorageAnswer (List UInt8) UInt64 → DatabaseProgram S.Entry A) :
    CallProgram.run NodeStores.answer stores (state request >>= rest) =
      CallProgram.run NodeStores.answer { stores with raftState := after } (rest given) := by
  apply CallProgram.run_bind
  have answered : stores.answer (.state request) = some ({ stores with raftState := after }, .state given) := by
    rw [NodeStores.answer, called]
    rfl
  rw [state, CallProgram.run_call answered]
  rfl

/-- A program goes on after a call of `raft_log`. -/
theorem run_log {request : StorageCall UInt64 S.Entry} {after : OrderedStore UInt64 S.Entry}
    {given : StorageAnswer UInt64 S.Entry} (called : stores.raftLog.call request = some (after, given))
    (rest : StorageAnswer UInt64 S.Entry → DatabaseProgram S.Entry A) :
    CallProgram.run NodeStores.answer stores (log request >>= rest) =
      CallProgram.run NodeStores.answer { stores with raftLog := after } (rest given) := by
  apply CallProgram.run_bind
  have answered : stores.answer (.log request) = some ({ stores with raftLog := after }, .log given) := by
    rw [NodeStores.answer, called]
    rfl
  rw [log, CallProgram.run_call answered]
  rfl

/-- The value of a key of `raft_state`. -/
theorem run_get (key : List UInt8) (rest : StorageAnswer (List UInt8) UInt64 → DatabaseProgram S.Entry A) :
    CallProgram.run NodeStores.answer stores (state (.get key) >>= rest) =
      CallProgram.run NodeStores.answer stores
        (rest ((stores.raftState.map.lookup key).elim .notFound .value)) := by
  apply run_state
  rw [OrderedStore.call]
  cases stores.raftState.map.lookup key with
  | none => rfl
  | some value => rfl

/-- A program goes on after a call that is expected to succeed. -/
theorem run_state_ok {request : StorageCall (List UInt8) UInt64} {after : OrderedStore (List UInt8) UInt64}
    (called : stores.raftState.call request = some (after, .ok)) (rest : Unit → DatabaseProgram S.Entry A) :
    CallProgram.run NodeStores.answer stores (state request >>= fun given => expectOk given >>= rest) =
      CallProgram.run NodeStores.answer { stores with raftState := after } (rest ()) :=
  run_state called _

/-- A call of the log database that succeeds passes `ExpectOk`. -/
theorem run_log_ok {request : StorageCall UInt64 S.Entry} {after : OrderedStore UInt64 S.Entry}
    (called : stores.raftLog.call request = some (after, .ok)) (rest : Unit → DatabaseProgram S.Entry A) :
    CallProgram.run NodeStores.answer stores (log request >>= fun given => expectOk given >>= rest) =
      CallProgram.run NodeStores.answer { stores with raftLog := after } (rest ()) :=
  run_log called _

end Programs

section State
variable {map : FiniteMap (List UInt8) UInt64} {currentTerm : Option Nat} {votedFor : Option (Fin n)}

theorem votedForKey_ne : votedForKey ≠ currentTermKey := by decide

/-- A map holds a term and a vote under their keys. -/
structure StateHeld (map : FiniteMap (List UInt8) UInt64) (currentTerm : Option Nat) (votedFor : Option (Fin n)) :
    Prop where
  currentTerm : (map.lookup currentTermKey).map UInt64.toNat = currentTerm
  votedFor : map.lookup votedForKey = votedFor.map nodeId

/-- A new term replaces the old one and leaves the vote. -/
theorem StateHeld.putTerm (held : StateHeld map currentTerm votedFor) (term : UInt64) :
    StateHeld (map.put currentTermKey term) (some term.toNat) votedFor where
  currentTerm := by
    rw [map.lookup_put_self]
    rfl
  votedFor := by
    rw [map.lookup_put_of_ne votedForKey_ne]
    exact held.votedFor

/-- A vote leaves the term. -/
theorem StateHeld.putVote (held : StateHeld map currentTerm votedFor) (candidate : Fin n) :
    StateHeld (map.put votedForKey (nodeId candidate)) currentTerm (some candidate) where
  currentTerm := by
    rw [map.lookup_put_of_ne votedForKey_ne.symm]
    exact held.currentTerm
  votedFor := map.lookup_put_self votedForKey _

/-- A deleted vote leaves the term, too. -/
theorem StateHeld.deleteVote (held : StateHeld map currentTerm votedFor) :
    StateHeld (map.delete votedForKey) currentTerm (none : Option (Fin n)) where
  currentTerm := by
    rw [map.lookup_delete_of_ne votedForKey_ne.symm]
    exact held.currentTerm
  votedFor := map.lookup_delete_self votedForKey

end State

theorem found_set {A : Type} {list : List A} {place : Nat} {old : A} (found : list[place]? = some old) (new : A) :
    (list.set place new)[place]? = some new :=
  List.getElem?_set_self (List.getElem?_eq_some_iff.mp found).1

section Batches
variable {K V : Type} [LinearOrder K] {store : OrderedStore K V} {batch : Nat} {commands : List (Command K V)}

/-- A command is added to its batch. -/
theorem OrderedStore.call_batch (found : store.batches[batch]? = some (some commands)) {command : Command K V}
    (permitted : Permits command) : store.call (.batch batch command) =
      some ({ store with batches := store.batches.set batch (some (commands ++ [command])) }, .ok) := by
  rw [OrderedStore.call, found]
  exact if_pos permitted

/-- A written batch is carried out in its order. -/
theorem OrderedStore.call_write (found : store.batches[batch]? = some (some commands)) : store.call (.write batch) =
    some ({ store with map := commands.foldl execute store.map, batches := store.batches.set batch none }, .ok) := by
  rw [OrderedStore.call, found]
  rfl

end Batches

/-- `UpdateTerm` leaves the new term and the new vote behind. -/
theorem StateHeld.updateTerm {map : FiniteMap (List UInt8) UInt64} {currentTerm : Option Nat} {old : Option (Fin n)}
    (held : StateHeld map currentTerm old) (term : UInt64) (votedFor : Option (Fin n)) :
    StateHeld ([Command.put currentTermKey term, voteCommand (votedFor.map nodeId)].foldl OrderedStore.execute map)
      (some term.toNat) votedFor := by
  cases votedFor with
  | none => exact (held.putTerm term).deleteVote
  | some candidate => exact (held.putTerm term).putVote candidate

namespace NodeStores
variable {stores : NodeStores S} {disk : Disk S}

/-- The maps hold the members of a disk. -/
structure Holds (stores : NodeStores S) (disk : Disk S) : Prop where
  raftState : StateHeld stores.raftState.map disk.currentTerm disk.votedFor
  raftLog : LogHeld stores.raftLog.map disk.raftLog

/-- The constructor of a node leaves a term behind. -/
theorem Holds.setup (holds : stores.Holds disk) :
    ∃ after, CallProgram.run answer stores setup = some (after, some ()) ∧ after.Holds (construct disk).disk := by
  rw [DatabaseProgram.setup, run_get]
  have term := holds.raftState.currentTerm
  cases found : stores.raftState.map.lookup currentTermKey with
  | none =>
      rw [found] at term
      refine ⟨_, run_state (stores.raftState.call_execute (.put currentTermKey 0) trivial) _, ?_, holds.raftLog⟩
      rw [Node.disk, construct, ← term]
      exact holds.raftState.putTerm 0
  | some value =>
      refine ⟨stores, rfl, ?_, holds.raftLog⟩
      have present : (construct disk).disk.currentTerm = disk.currentTerm := by
        rw [Node.disk, construct, ← term, found]
        rfl
      rw [present]
      exact holds.raftState

/-- A vote is put under its key. -/
theorem Holds.vote (holds : stores.Holds disk) (candidate : Fin n) :
    ∃ after, CallProgram.run answer stores (vote (nodeId candidate)) = some (after, some ()) ∧
      after.Holds { disk with votedFor := some candidate } :=
  ⟨_, run_state (stores.raftState.call_execute (.put votedForKey _) trivial) _, holds.raftState.putVote candidate, holds.raftLog⟩

/-- The term is read from its key. -/
theorem run_getCurrentTerm {term : UInt64} (found : stores.raftState.map.lookup currentTermKey = some term) :
    CallProgram.run answer stores getCurrentTerm = some (stores, some term) := by
  rw [getCurrentTerm, run_get, found]
  rfl

theorem run_nextStateBatch (stores : NodeStores S) :
    CallProgram.run answer stores (.call .nextStateBatch nameAnswer) =
      some (stores, some stores.raftState.batches.length) := rfl

/-- `UpdateTerm` writes a greater term in one batch. -/
theorem Holds.updateTerm (holds : stores.Holds disk) {currentTerm term : UInt64} (votedFor : Option (Fin n))
    (found : stores.raftState.map.lookup currentTermKey = some currentTerm) (greater : currentTerm < term) :
    ∃ after, CallProgram.run answer stores (DatabaseProgram.updateTerm term (votedFor.map nodeId)) = some (after, some ()) ∧
      after.Holds { disk with currentTerm := some term.toNat, votedFor := votedFor } := by
  rw [DatabaseProgram.updateTerm, CallProgram.run_bind (run_getCurrentTerm found), if_pos greater]
  have empty : (stores.raftState.batches ++ [some []])[stores.raftState.batches.length]? = some (some []) := by simp
  have first := found_set empty (some ([] ++ [.put currentTermKey term]))
  have second := found_set first (some ([] ++ [.put currentTermKey term] ++ [voteCommand (votedFor.map nodeId)]))
  have allowed : OrderedStore.Permits (Command.put currentTermKey term) := trivial
  have permitted : OrderedStore.Permits (voteCommand (votedFor.map nodeId)) := by
    cases votedFor with
    | none => trivial
    | some candidate => trivial
  rw [CallProgram.run_bind (run_nextStateBatch stores), run_state_ok rfl,
    run_state_ok (OrderedStore.call_batch empty allowed), run_state_ok (OrderedStore.call_batch first permitted),
    run_state (OrderedStore.call_write second)]
  exact ⟨_, rfl, holds.raftState.updateTerm term votedFor, holds.raftLog⟩

/-- A term that is not greater aborts `UpdateTerm` before it writes. -/
theorem run_updateTerm_abort {currentTerm term : UInt64} (votedFor : Option UInt64)
    (found : stores.raftState.map.lookup currentTermKey = some currentTerm) (greater : ¬ currentTerm < term) :
    CallProgram.run answer stores (DatabaseProgram.updateTerm term votedFor) = some (stores, none) := by
  rw [DatabaseProgram.updateTerm, CallProgram.run_bind (run_getCurrentTerm found), if_neg greater]
  rfl

/-- A new iterator stands at the end of `raft_log`. -/
def atLast (stores : NodeStores S) : NodeStores S :=
  { stores with raftLog := { stores.raftLog with
      cursors := (stores.raftLog.cursors ++ [Cursor.mk stores.raftLog.map none]).set stores.raftLog.cursors.length
        (Cursor.mk stores.raftLog.map (some stores.raftLog.map.last?)) } }

/-- An iterator changes nothing in the databases. -/
theorem Holds.atLast (holds : stores.Holds disk) : stores.atLast.Holds disk := ⟨holds.raftState, holds.raftLog⟩

/-- The new iterator is at the last entry. -/
theorem atLast_cursor (stores : NodeStores S) : stores.atLast.raftLog.cursors[stores.raftLog.cursors.length]? =
    some ⟨stores.raftLog.map, some stores.raftLog.map.last?⟩ :=
  List.getElem?_set_self (by simp)

theorem run_nextLogIterator (stores : NodeStores S) :
    CallProgram.run answer stores (.call .nextLogIterator nameAnswer) =
      some (stores, some stores.raftLog.cursors.length) := rfl

/-- `SeekToLast` on a new iterator finds the last entry, if there is one. -/
theorem run_seekToLast (stores : NodeStores S) : CallProgram.run answer stores seekToLast =
    some (stores.atLast, some (stores.raftLog.map.last?.map fun _ => stores.raftLog.cursors.length)) := by
  have made : (stores.raftLog.cursors ++ [Cursor.mk stores.raftLog.map none])[stores.raftLog.cursors.length]? =
      some (Cursor.mk stores.raftLog.map none) := by simp
  have moved : OrderedStore.call
      ⟨stores.raftLog.map, stores.raftLog.cursors ++ [Cursor.mk stores.raftLog.map none], stores.raftLog.batches⟩
      (.seekToLast stores.raftLog.cursors.length) = some (stores.atLast.raftLog, .ok) := by
    rw [OrderedStore.call, OrderedStore.moveCursor, made]
    rfl
  have seen : stores.atLast.raftLog.call (.valid stores.raftLog.cursors.length) =
      some (stores.atLast.raftLog, .valid stores.raftLog.map.last?.isSome) := by
    rw [OrderedStore.call, atLast_cursor]
    rfl
  rw [seekToLast, CallProgram.run_bind (run_nextLogIterator stores), run_log_ok rfl, run_log_ok moved]
  change CallProgram.run answer stores.atLast _ = _
  rw [run_log seen]
  cases stores.raftLog.map.last? with
  | none => rfl
  | some key => rfl

theorem construct_raftLog (disk : Disk S) : (construct disk).raftLog = disk.raftLog := rfl

/-- `GetSavedLogSize` reads the last key. -/
theorem Holds.getSavedLogSize (holds : stores.Holds disk) : CallProgram.run answer stores getSavedLogSize =
    some (stores.atLast, some (UInt64.ofNat (construct disk).getSavedLogSize)) := by
  have last := holds.raftLog.last?
  rw [DatabaseProgram.getSavedLogSize, CallProgram.run_bind (run_seekToLast stores), Node.getSavedLogSize,
    construct_raftLog]
  cases found : disk.raftLog.last? with
  | none =>
      rw [found] at last
      rw [last]
      rfl
  | some entry =>
      rw [found] at last
      have read : stores.atLast.raftLog.call (.getKey stores.raftLog.cursors.length) =
          some (stores.atLast.raftLog, .key (UInt64.ofNat entry.1)) := by
        rw [OrderedStore.call, atLast_cursor, last]
        rfl
      rw [last]
      exact run_log read _

/-- `GetLastSavedLogTerm` reads the last value. -/
theorem Holds.getLastSavedLogTerm (holds : stores.Holds disk) :
    CallProgram.run answer stores (getLastSavedLogTerm S.term) =
      some (stores.atLast, some (construct disk).getLastSavedLogTerm) := by
  have last := holds.raftLog.last?
  rw [DatabaseProgram.getLastSavedLogTerm, CallProgram.run_bind (run_seekToLast stores), Node.getLastSavedLogTerm,
    construct_raftLog]
  cases found : disk.raftLog.last? with
  | none =>
      rw [found] at last
      rw [last]
      rfl
  | some entry =>
      rw [found] at last
      have stored := holds.raftLog.lookup_last found
      have read : stores.atLast.raftLog.call (.getValue stores.raftLog.cursors.length) =
          some (stores.atLast.raftLog, .value entry.2) := by
        rw [OrderedStore.call, atLast_cursor, last]
        simp only [Option.bind_eq_bind, Option.bind_some, Option.map_some, stored]
      rw [last]
      exact run_log read _

/-- The vote is read as the number of its node. -/
theorem Holds.getVotedFor (holds : stores.Holds disk) :
    CallProgram.run answer stores getVotedFor = some (stores, some (disk.votedFor.map nodeId)) := by
  rw [DatabaseProgram.getVotedFor, run_get, holds.raftState.votedFor]
  cases disk.votedFor with
  | none => rfl
  | some candidate => rfl

/-- `raft_log->Get(index).GetValue()` aborts where there is no entry. -/
theorem Holds.getEntry (holds : stores.Holds disk) (index : UInt64) :
    CallProgram.run answer stores (getEntry index) = some (stores, disk.raftLog.get? index.toNat) := by
  have stored := holds.raftLog.lookup index
  cases found : disk.raftLog.get? index.toNat with
  | none =>
      have called : stores.raftLog.call (.get index) = some (stores.raftLog, .notFound) := by
        rw [OrderedStore.call, stored, found]
      exact run_log called _
  | some entry =>
      have called : stores.raftLog.call (.get index) = some (stores.raftLog, .value entry) := by
        rw [OrderedStore.call, stored, found]
      exact run_log called _

/-- Some batch of `raft_log` has been filled with commands, and nothing else has changed. -/
structure Filled (stores after : NodeStores S) (batch : Nat) (commands : List (Command UInt64 S.Entry)) : Prop where
  raftState : after.raftState = stores.raftState
  map : after.raftLog.map = stores.raftLog.map
  batch : after.raftLog.batches[batch]? = some (some commands)

/-- A program goes on after it has added a command. -/
theorem Filled.add {after : NodeStores S} {batch : Nat} {commands : List (Command UInt64 S.Entry)}
    (filled : stores.Filled after batch commands) {command : Command UInt64 S.Entry}
    (permitted : OrderedStore.Permits command) :
    ∃ next, stores.Filled next batch (commands ++ [command]) ∧ ∀ rest : Unit → DatabaseProgram S.Entry Unit,
      CallProgram.run answer after (DatabaseProgram.log (.batch batch command) >>= fun given => expectOk given >>= rest) =
        CallProgram.run answer next (rest ()) := by
  refine ⟨⟨after.raftState, ⟨after.raftLog.map, after.raftLog.cursors,
    after.raftLog.batches.set batch (some (commands ++ [command]))⟩⟩, ?_, fun rest => ?_⟩
  · exact ⟨filled.raftState, filled.map, found_set filled.batch _⟩
  · exact run_log_ok (OrderedStore.call_batch filled.batch permitted) rest

/-- The loop fills its batch with one command for each entry. -/
theorem Filled.putEntries {after : NodeStores S} {batch : Nat} {commands : List (Command UInt64 S.Entry)}
    (filled : stores.Filled after batch commands) (index : UInt64) (entries : List S.Entry) :
    ∃ last, CallProgram.run answer after (putEntries batch index entries) = some (last, some ()) ∧
      stores.Filled last batch (commands ++ puts index entries) := by
  induction entries generalizing after commands index with
  | nil =>
      rw [puts, List.append_nil]
      exact ⟨after, rfl, filled⟩
  | cons entry rest ih =>
      obtain ⟨next, filledNext, goesOn⟩ := filled.add (show OrderedStore.Permits (Command.put index entry) from trivial)
      obtain ⟨last, ran, filledLast⟩ := ih filledNext (index + 1)
      refine ⟨last, ?_, ?_⟩
      · rw [DatabaseProgram.putEntries, goesOn]
        exact ran
      · rw [List.append_assoc] at filledLast
        exact filledLast

/-- The batch is written and leaves its entries behind. -/
theorem Filled.write {after : NodeStores S} {batch : Nat} {commands : List (Command UInt64 S.Entry)}
    {log : OrderedMap S.Entry} (filled : stores.Filled after batch commands) (holds : stores.Holds disk)
    (held : LogHeld (commands.foldl OrderedStore.execute stores.raftLog.map) log) :
    ∃ last, CallProgram.run answer after (DatabaseProgram.log (.write batch) >>= expectOk) = some (last, some ()) ∧
      last.Holds { disk with raftLog := log } := by
  rw [run_log (OrderedStore.call_write filled.batch)]
  refine ⟨_, rfl, ?_, ?_⟩
  · rw [filled.raftState]
    exact holds.raftState
  · rw [filled.map]
    exact held

theorem run_nextLogBatch (stores : NodeStores S) :
    CallProgram.run answer stores (.call .nextLogBatch nameAnswer) =
      some (stores, some stores.raftLog.batches.length) := rfl

/-- A new batch of `raft_log` is empty. -/
theorem filled_new (stores : NodeStores S) : stores.Filled
    ⟨stores.raftState, ⟨stores.raftLog.map, stores.raftLog.cursors, stores.raftLog.batches ++ [some []]⟩⟩
    stores.raftLog.batches.length [] where
  raftState := rfl
  map := rfl
  batch := by simp

/-- `StartLeaderMainSession` puts the pending entries behind the log. -/
theorem Holds.saveEntries (holds : stores.Holds disk) (matchIndex : UInt64) (pendingLog : List S.Entry)
    (fits : matchIndex.toNat + pendingLog.length < 2 ^ 64 - 1) :
    ∃ last, CallProgram.run answer stores (saveEntries matchIndex pendingLog) = some (last, some ()) ∧
      last.Holds { disk with raftLog := disk.raftLog.putAll (matchIndex.toNat + 1) pendingLog } := by
  have first := next_toNat (show matchIndex.toNat < 2 ^ 64 - 1 by omega)
  obtain ⟨after, put, filled⟩ := (filled_new stores).putEntries (matchIndex + 1) pendingLog
  have held := holds.raftLog.puts (matchIndex + 1) pendingLog (by omega)
  rw [first] at held
  rw [DatabaseProgram.saveEntries, CallProgram.run_bind (run_nextLogBatch stores), run_log_ok rfl, CallProgram.run_bind put]
  exact filled.write holds held

/-- `AppendEntries` cuts the log off and puts its entries. -/
theorem Holds.writeEntries (holds : stores.Holds disk) (prevLogIndex commitIndex : UInt64) (entries : List S.Entry)
    (fits : (kept prevLogIndex commitIndex).toNat + (written prevLogIndex commitIndex entries).length < 2 ^ 64 - 1) :
    ∃ last, CallProgram.run answer stores (writeEntries prevLogIndex commitIndex entries) = some (last, some ()) ∧
      last.Holds { disk with
        raftLog := (disk.raftLog.deleteFrom ((kept prevLogIndex commitIndex).toNat + 1)).putAll
          ((kept prevLogIndex commitIndex).toNat + 1) (written prevLogIndex commitIndex entries) } := by
  have first := next_toNat (show (kept prevLogIndex commitIndex).toNat < 2 ^ 64 - 1 by omega)
  have allowed : OrderedStore.Permits
      (.deleteRange (kept prevLogIndex commitIndex + 1) 0xffffffffffffffff : Command UInt64 S.Entry) :=
    UInt64.le_iff_toNat_le.mpr (Nat.le_of_lt_succ (UInt64.toNat_lt _))
  obtain ⟨cut, filledCut, goesOn⟩ := (filled_new stores).add allowed
  obtain ⟨after, put, filled⟩ :=
    filledCut.putEntries (kept prevLogIndex commitIndex + 1) (written prevLogIndex commitIndex entries)
  have held := (holds.raftLog.deleteRange (kept prevLogIndex commitIndex + 1)).puts (kept prevLogIndex commitIndex + 1)
    (written prevLogIndex commitIndex entries) (by omega)
  rw [first] at held
  rw [DatabaseProgram.writeEntries, CallProgram.run_bind (run_nextLogBatch stores), run_log_ok rfl, goesOn,
    CallProgram.run_bind put]
  exact filled.write holds held

end NodeStores

/-- The keys of the log stay below the greatest number, which no range contains. -/
def DatabaseAction.Fits : DatabaseAction S → Prop
  | .writeEntries prevLogIndex commitIndex entries =>
      (kept prevLogIndex commitIndex).toNat + (written prevLogIndex commitIndex entries).length < 2 ^ 64 - 1
  | .saveEntries matchIndex pendingLog => matchIndex.toNat + pendingLog.length < 2 ^ 64 - 1
  | _ => True

instance : ∀ action : DatabaseAction S, Decidable action.Fits
  | .writeEntries .. | .saveEntries .. => inferInstanceAs (Decidable (_ < _))
  | .restart | .getCurrentTerm | .getVotedFor | .getSavedLogSize | .getLastSavedLogTerm | .getEntry _ | .updateTerm ..
  | .vote _ => isTrue trivial

namespace Node

/-- What an action is to the members of a node. `castVote`, `acceptEntries` and `saveRound` write with `vote`,
`writeEntries` and `saveEntries`. -/
def perform (node : Node S) : DatabaseAction S → Node S × DatabaseResult S.Entry
  | .restart => (construct node.disk, .done)
  | .getCurrentTerm => (node, .number (UInt64.ofNat node.currentTerm))
  | .getVotedFor => (node, .votedFor (node.votedFor.map nodeId))
  | .getSavedLogSize => (node, .number (UInt64.ofNat node.getSavedLogSize))
  | .getLastSavedLogTerm => (node, .term node.getLastSavedLogTerm)
  | .getEntry index => (node, ((node.raftLog.get? index.toNat).map DatabaseResult.entry).getD .aborted)
  | .updateTerm term votedFor =>
      match (Metamorphosis.updateTerm term.toNat votedFor node).result with
      | none => (node, .aborted)
      | some (_, after) => (after, .done)
  | .vote candidate => (node.vote candidate, .done)
  | .writeEntries prevLogIndex commitIndex entries =>
      (node.writeEntries prevLogIndex.toNat commitIndex.toNat entries, .done)
  | .saveEntries matchIndex pendingLog => (node.saveEntries matchIndex.toNat pendingLog, .done)

/-- The results of a sequence of actions. -/
def results (node : Node S) : List (DatabaseAction S) → List (DatabaseResult S.Entry)
  | [] => []
  | first :: rest => (node.perform first).2 :: (node.perform first).1.results rest

end Node

/-- The entries up to the greater one of both indices are kept. -/
theorem kept_toNat (prevLogIndex commitIndex : UInt64) :
    (kept prevLogIndex commitIndex).toNat = max prevLogIndex.toNat commitIndex.toNat := by
  rw [kept]
  split
  · rename_i less
    exact (Nat.max_eq_right (UInt64.lt_iff_toNat_lt.mp less).le).symm
  · rename_i less
    exact (Nat.max_eq_left (UInt64.le_iff_toNat_le.mp (UInt64.not_lt.mp less))).symm

/-- The entries of the request behind them are written. -/
theorem written_eq {Entry : Type} (prevLogIndex commitIndex : UInt64) (entries : List Entry) :
    written prevLogIndex commitIndex entries =
      entries.drop (max prevLogIndex.toNat commitIndex.toNat - prevLogIndex.toNat) := by
  have above : prevLogIndex ≤ kept prevLogIndex commitIndex := by
    rw [UInt64.le_iff_toNat_le, kept_toNat]
    exact Nat.le_max_left ..
  rw [written, UInt64.toNat_sub_of_le _ _ above, kept_toNat]

/-- `UpdateTerm` sets a greater term and the vote. -/
theorem updateTerm_greater {node : Node S} {term : Nat} {votedFor : Option (Fin n)} (greater : node.currentTerm < term) :
    (Metamorphosis.updateTerm term votedFor node).result =
      some ((), { node with currentTerm := term, votedFor := votedFor }) := by
  simp [Metamorphosis.updateTerm, greater]

/-- `UpdateTerm` aborts if the term is not greater. -/
theorem updateTerm_aborts {node : Node S} {term : Nat} {votedFor : Option (Fin n)} (greater : ¬ node.currentTerm < term) :
    (Metamorphosis.updateTerm term votedFor node).result = none := by
  simp [Metamorphosis.updateTerm, greater]

/-- A node starts again with what its databases hold. -/
theorem NodeStores.Holds.restart {stores : NodeStores S} {disk : Disk S} (holds : stores.Holds disk) :
    ∃ after, CallProgram.run NodeStores.answer (stores.before .restart) DatabaseAction.restart.program =
      some (after, some .done) ∧ after.Holds (construct disk).disk := by
  have reopened : stores.reopen.Holds disk := ⟨holds.raftState, holds.raftLog⟩
  obtain ⟨after, ran, kept⟩ := reopened.setup
  exact ⟨after, CallProgram.run_bind ran, kept⟩

/-- One action on the databases is the action on the node. -/
theorem NodeStores.Holds.perform {stores : NodeStores S} {node : Node S} (holds : stores.Holds node.disk)
    {action : DatabaseAction S} (fits : action.Fits) :
    ∃ after result, CallProgram.run NodeStores.answer (stores.before action) action.program = some (after, result) ∧
      result.getD .aborted = (node.perform action).2 ∧ after.Holds (node.perform action).1.disk := by
  obtain ⟨term, found, currentTerm⟩ := Option.map_eq_some_iff.mp holds.raftState.currentTerm
  cases action with
  | restart =>
      obtain ⟨after, ran, kept⟩ := holds.restart
      exact ⟨after, _, ran, rfl, kept⟩
  | getCurrentTerm =>
      refine ⟨stores, _, CallProgram.run_bind (NodeStores.run_getCurrentTerm found), ?_, holds⟩
      rw [Node.perform, ← currentTerm, UInt64.ofNat_toNat]
      rfl
  | getVotedFor => exact ⟨stores, _, CallProgram.run_bind holds.getVotedFor, rfl, holds⟩
  | getSavedLogSize => exact ⟨_, _, CallProgram.run_bind holds.getSavedLogSize, rfl, holds.atLast⟩
  | getLastSavedLogTerm => exact ⟨_, _, CallProgram.run_bind holds.getLastSavedLogTerm, rfl, holds.atLast⟩
  | getEntry index =>
      have ran := holds.getEntry index
      rw [Node.perform]
      cases entry : node.raftLog.get? index.toNat with
      | none =>
          rw [Node.disk, entry] at ran
          exact ⟨stores, _, CallProgram.run_bind_abort ran, rfl, holds⟩
      | some entry =>
          rw [Node.disk, entry] at ran
          exact ⟨stores, _, CallProgram.run_bind ran, rfl, holds⟩
  | updateTerm next votedFor =>
      by_cases greater : term < next
      · obtain ⟨after, ran, kept⟩ := holds.updateTerm votedFor found greater
        rw [UInt64.lt_iff_toNat_lt, currentTerm] at greater
        rw [Node.perform, updateTerm_greater greater]
        exact ⟨after, _, CallProgram.run_bind ran, rfl, kept⟩
      · have ran := NodeStores.run_updateTerm_abort (votedFor.map nodeId) found greater
        rw [UInt64.lt_iff_toNat_lt, currentTerm] at greater
        rw [Node.perform, updateTerm_aborts greater]
        exact ⟨stores, _, CallProgram.run_bind_abort ran, rfl, holds⟩
  | vote candidate =>
      obtain ⟨after, ran, kept⟩ := holds.vote candidate
      exact ⟨after, _, CallProgram.run_bind ran, rfl, kept⟩
  | writeEntries prevLogIndex commitIndex entries =>
      obtain ⟨after, ran, kept⟩ := holds.writeEntries prevLogIndex commitIndex entries fits
      rw [kept_toNat, written_eq] at kept
      exact ⟨after, _, CallProgram.run_bind ran, rfl, kept⟩
  | saveEntries matchIndex pendingLog =>
      obtain ⟨after, ran, kept⟩ := holds.saveEntries matchIndex pendingLog fits
      exact ⟨after, _, CallProgram.run_bind ran, rfl, kept⟩

/-- The databases hold the bytes of what a node has on its disk. -/
def Databases.Keeps (order : ByteOrder) (entrySerde : Serde S.Entry) (databases : Databases) (disk : Disk S) : Prop :=
  ∃ stores, NodeStores.Represented order entrySerde databases stores ∧ stores.Holds disk

section Runs
variable {order : ByteOrder} {entrySerde : Serde S.Entry} {databases : Databases} {node : Node S}

/-- An action that runs on the maps runs on the databases and has the same result. -/
theorem NodeStores.Represented.perform {stores next : NodeStores S} {action : DatabaseAction S}
    {result : Option (DatabaseResult S.Entry)} (represented : NodeStores.Represented order entrySerde databases stores)
    (ran : CallProgram.run NodeStores.answer (stores.before action) action.program = some (next, result)) :
    ∃ after, databases.perform order entrySerde action = some (after, result.getD .aborted) ∧
      NodeStores.Represented order entrySerde after next := by
  have simulated : ∃ after, CallProgram.run (Databases.answer order entrySerde) (databases.before action) action.program =
      some (after, result) ∧ NodeStores.Represented order entrySerde after next := by
    refine CallProgram.run_simulates ?_ (represented.before action) ran
    intro state other request otherAfter given related answered
    exact related.answer answered
  obtain ⟨after, ranD, related⟩ := simulated
  refine ⟨after, ?_, related⟩
  rw [Databases.perform, ranD]
  rfl

/-- One action of the databases has the result of the node model, and they still keep the disk of the node. -/
theorem Databases.Keeps.perform (keeps : databases.Keeps order entrySerde node.disk) {action : DatabaseAction S}
    (fits : action.Fits) : ∃ after, databases.perform order entrySerde action = some (after, (node.perform action).2) ∧
      after.Keeps order entrySerde (node.perform action).1.disk := by
  obtain ⟨stores, represented, holds⟩ := keeps
  obtain ⟨next, result, ran, same, still⟩ := holds.perform fits
  obtain ⟨after, performed, representedAfter⟩ := represented.perform ran
  rw [same] at performed
  exact ⟨after, performed, next, representedAfter, still⟩

/-- So has every sequence of actions. -/
theorem Databases.Keeps.results (keeps : databases.Keeps order entrySerde node.disk) {actions : List (DatabaseAction S)}
    (fits : ∀ action ∈ actions, action.Fits) :
    databases.results order entrySerde actions = some (node.results actions) := by
  induction actions generalizing databases node with
  | nil => rfl
  | cons first rest ih =>
      obtain ⟨after, performed, still⟩ := keeps.perform (fits first List.mem_cons_self)
      have others := ih still fun action member => fits action (List.mem_cons_of_mem first member)
      rw [Databases.results, performed, Node.results]
      simp only [Option.bind_eq_bind, Option.bind_some, others]

end Runs

/-- The databases of a node, down to their bytes, give the results that the model of a node gives: for every sequence of
reads, writes and restarts that starts with empty databases. -/
theorem databases_refine (S : Service n) (order : ByteOrder) (entrySerde : Serde S.Entry)
    (actions : List (DatabaseAction S)) (fits : ∀ action ∈ actions, action.Fits) :
    Databases.opened.results order entrySerde (.restart :: actions) =
      some (.done :: (construct ⟨none, none, .empty⟩ : Node S).results actions) := by
  have opened : NodeStores.Represented order entrySerde .opened (⟨.empty, .empty⟩ : NodeStores S) := ⟨.opened, .opened⟩
  have empty : (⟨.empty, .empty⟩ : NodeStores S).Holds ⟨none, none, .empty⟩ := ⟨⟨rfl, rfl⟩, .empty⟩
  obtain ⟨next, ran, holds⟩ := empty.restart
  obtain ⟨after, performed, represented⟩ := opened.perform ran
  have keeps : after.Keeps order entrySerde (construct ⟨none, none, .empty⟩ : Node S).disk := ⟨next, represented, holds⟩
  rw [Databases.results, performed]
  simp only [Option.bind_eq_bind, Option.bind_some, Option.getD_some, keeps.results fits]

/-- Values are numbered, and a value is as many bytes as its number says. -/
def unarySerde (A : Type) [Encodable A] : Serde A where
  serialize value := List.replicate (Encodable.encode value) 0
  deserialize data := Encodable.decode data.length
  roundTrip value := by rw [List.length_replicate, Encodable.encodek]

instance : Encodable (LogEntry Nat) :=
  Encodable.ofLeftInverse (fun entry => (entry.term, entry.request.requestId, entry.request.clientId, entry.request.command))
    (fun fields => ⟨fields.1, ⟨fields.2.1, fields.2.2.1, fields.2.2.2⟩⟩) fun _ => rfl

/-- A node votes for itself, saves two entries, gives up the second one, and reads what it finds after a crash. -/
def storedActions : List (DatabaseAction (raftService loggingStateMachine 3)) :=
  [.updateTerm 1 (some (Fin.last 2)), .saveEntries 0 [⟨1, ⟨5, 1, (7 : Nat)⟩⟩, ⟨1, ⟨6, 1, (8 : Nat)⟩⟩], .updateTerm 2 none,
    .writeEntries 1 0 [], .updateTerm 2 none, .restart, .getCurrentTerm, .getVotedFor, .getSavedLogSize,
    .getLastSavedLogTerm, .getEntry 1, .getEntry 2]

/-- A node that restarts finds its term, its vote and its log, and aborts where a `VERIFY` fails. -/
theorem databases_refine_restarted :
    Databases.opened.results .little (unarySerde (LogEntry Nat)) (.restart :: storedActions) =
      some [.done, .done, .done, .done, .done, .aborted, .done, .number 2, .votedFor none, .number 1, .term 1,
        .entry ⟨1, ⟨5, 1, (7 : Nat)⟩⟩, .aborted] := by
  rw [databases_refine _ _ _ _ (by decide +kernel)]
  rfl

end Metamorphosis
