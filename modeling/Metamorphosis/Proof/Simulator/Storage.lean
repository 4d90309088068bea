import Mathlib.Data.List.Lex
import Metamorphosis.Construction.Simulator.Database
import Metamorphosis.Library.FiniteMap

/-!
`KVStorage` on the simulator's database is an ordered finite map. The map is stated first, with the
calls of `KVStorage` but in terms of keys and values alone.
-/

namespace Metamorphosis
variable {K V : Type} [LinearOrder K]

/-- An iterator over a map that never changes. It has no place before the first seek, and the place
`none` is the end. -/
structure Cursor (K V : Type) where
  map : FiniteMap K V
  place : Option (Option K)

/-- A finite map with the iterators and the batches that were made of it. -/
structure OrderedStore (K V : Type) where
  map : FiniteMap K V
  cursors : List (Cursor K V)
  batches : List (Option (List (Command K V)))

namespace OrderedStore

def empty : OrderedStore K V := ⟨.empty, [], []⟩

/-- A range ends behind its start. -/
def Permits : Command K V → Prop
  | .deleteRange startKey endKey => startKey ≤ endKey
  | _ => True

instance : ∀ command : Command K V, Decidable (Permits command)
  | .deleteRange startKey endKey => inferInstanceAs (Decidable (startKey ≤ endKey))
  | .put .. | .delete _ => isTrue trivial

def execute (map : FiniteMap K V) : Command K V → FiniteMap K V
  | .put key value => map.put key value
  | .deleteRange startKey endKey => map.deleteRange startKey endKey
  | .delete key => map.delete key

/-- A cursor moves. -/
def moveCursor (store : OrderedStore K V) (iterator : Nat) (move : Cursor K V → Option (Option K)) :
    Option (OrderedStore K V × StorageAnswer K V) := do
  let cursor ← store.cursors[iterator]?
  let place ← move cursor
  some ({ store with cursors := store.cursors.set iterator { cursor with place := some place } }, .ok)

/-- One call; `none` where the caller may not make it. -/
def call (store : OrderedStore K V) : StorageCall K V → Option (OrderedStore K V × StorageAnswer K V)
  | .get key =>
      match store.map.lookup key with
      | none => some (store, .notFound)
      | some value => some (store, .value value)
  | .execute command =>
      if Permits command then some ({ store with map := execute store.map command }, .ok) else none
  | .newIterator => some ({ store with cursors := store.cursors ++ [⟨store.map, none⟩] }, .ok)
  | .seekToFirst iterator => store.moveCursor iterator fun cursor => some cursor.map.first?
  | .seekToLast iterator => store.moveCursor iterator fun cursor => some cursor.map.last?
  | .next iterator => store.moveCursor iterator fun cursor => do
      let key ← (← cursor.place)
      some (cursor.map.after? key)
  | .prev iterator => store.moveCursor iterator fun cursor => do
      let key ← (← cursor.place)
      some (cursor.map.before? key)
  | .getKey iterator => do
      let cursor ← store.cursors[iterator]?
      let key ← (← cursor.place)
      some (store, .key key)
  | .getValue iterator => do
      let cursor ← store.cursors[iterator]?
      let key ← (← cursor.place)
      let value ← cursor.map.lookup key
      some (store, .value value)
  | .valid iterator => do
      let cursor ← store.cursors[iterator]?
      let place ← cursor.place
      some (store, .valid place.isSome)
  | .makeWriteBatch => some ({ store with batches := store.batches ++ [some []] }, .ok)
  | .batch batch command => do
      let commands ← (← store.batches[batch]?)
      if Permits command then
        some ({ store with batches := store.batches.set batch (some (commands ++ [command])) }, .ok)
      else none
  | .write batch => do
      let commands ← (← store.batches[batch]?)
      some ({ store with
        map := commands.foldl execute store.map
        batches := store.batches.set batch none }, .ok)

/-- A command that is permitted changes the map. -/
theorem call_execute (store : OrderedStore K V) (command : Command K V) (permitted : Permits command) :
    store.call (.execute command) = some ({ store with map := execute store.map command }, .ok) := by
  rw [call, if_pos permitted]

/-- The answers of a sequence of calls that a caller may make. -/
def answers (store : OrderedStore K V) : List (StorageCall K V) → Option (List (StorageAnswer K V))
  | [] => some []
  | first :: rest => do
      let (store, answer) ← store.call first
      let others ← store.answers rest
      some (answer :: others)

end OrderedStore

variable (keySerde : Serde K) (valueSerde : Serde V)

/-- The bytes of an entry. -/
def encodeEntry (entry : K × V) : Data × Data := (keySerde.serialize entry.1, valueSerde.serialize entry.2)

/-- Serialized keys are compared as the keys are. -/
theorem less_serialize (a b : K) :
    KVStorage.less keySerde (keySerde.serialize a) (keySerde.serialize b) = some (decide (a < b)) := by
  simp only [KVStorage.less, lessKeys, compareKeys, keySerde.roundTrip, Option.bind_eq_bind, Option.bind_some]
  rcases lt_trichotomy a b with less | rfl | greater
  · simp [less]
  · simp
  · simp [greater, greater.not_gt]

variable {entries : List (K × V)} {map : FiniteMap K V}

/-- `lower_bound` splits the entries at a key. -/
theorem lowerBound_encode (lists : FiniteMap.Lists entries map) (key : K) :
    lowerBound (KVStorage.less keySerde) (keySerde.serialize key) (entries.map (encodeEntry keySerde valueSerde)) =
      some ((entries.filter fun entry => entry.1 < key).map (encodeEntry keySerde valueSerde),
        (entries.filter fun entry => key ≤ entry.1).map (encodeEntry keySerde valueSerde)) := by
  obtain ⟨taken, dropped⟩ := FiniteMap.span_lt lists.sorted key
  rw [← taken, ← dropped]
  clear taken dropped lists
  induction entries with
  | nil => rfl
  | cons entry rest ih =>
      have compared : KVStorage.less keySerde (encodeEntry keySerde valueSerde entry).1 (keySerde.serialize key) =
          some (decide (entry.1 < key)) := less_serialize keySerde entry.1 key
      rw [List.map_cons, lowerBound, compared]
      by_cases below : entry.1 < key
      · simp [below, ih]
      · simp [below]

/-- `Get` finds the value of the key. -/
theorem getData_encode (lists : FiniteMap.Lists entries map) (key : K) :
    getData (KVStorage.less keySerde) (entries.map (encodeEntry keySerde valueSerde)) (keySerde.serialize key) =
      some ((map.lookup key).map valueSerde.serialize) := by
  rw [getData, lowerBound_encode keySerde valueSerde lists key]
  rcases lists.from_key key with ⟨value, found, same⟩ | ⟨missing, _, same⟩
  · simp [same, encodeEntry, less_serialize, found]
  · rw [same, missing]
    cases greater : entries.filter fun entry => key < entry.1 with
    | nil => rfl
    | cons entry rest => simp [encodeEntry, less_serialize, FiniteMap.above_of_filter greater]

/-- The new entry stands between the smaller and the greater keys. -/
theorem putData_encode (lists : FiniteMap.Lists entries map) (key : K) (value : V) :
    putData (KVStorage.less keySerde) (entries.map (encodeEntry keySerde valueSerde)) (keySerde.serialize key)
      (valueSerde.serialize value) = some ((entries.filter (fun entry => entry.1 < key) ++
        (key, value) :: entries.filter fun entry => key < entry.1).map (encodeEntry keySerde valueSerde)) := by
  rw [putData, lowerBound_encode keySerde valueSerde lists key]
  rcases lists.from_key key with ⟨old, found, same⟩ | ⟨missing, _, same⟩
  · simp [same, encodeEntry, less_serialize]
  · rw [same]
    cases greater : entries.filter fun entry => key < entry.1 with
    | nil => simp [encodeEntry]
    | cons entry rest => simp [encodeEntry, less_serialize, FiniteMap.above_of_filter greater]

/-- `Delete` removes the key. -/
theorem deleteData_encode (lists : FiniteMap.Lists entries map) (key : K) :
    deleteData (KVStorage.less keySerde) (entries.map (encodeEntry keySerde valueSerde)) (keySerde.serialize key) =
      some ((entries.filter fun entry => !decide (entry.1 = key)).map (encodeEntry keySerde valueSerde)) := by
  rw [deleteData, lowerBound_encode keySerde valueSerde lists key, ← FiniteMap.filter_ne lists.sorted key]
  rcases lists.from_key key with ⟨old, found, same⟩ | ⟨missing, _, same⟩
  · simp [same, encodeEntry, less_serialize]
  · rw [← same, FiniteMap.filter_lt_append lists.sorted key, same]
    cases greater : entries.filter fun entry => key < entry.1 with
    | nil => rfl
    | cons entry rest => simp [encodeEntry, less_serialize, FiniteMap.above_of_filter greater]

/-- `DeleteRange` removes the keys from the first one up to the last one, without it. -/
theorem deleteRangeData_encode (lists : FiniteMap.Lists entries map) {startKey endKey : K} (ordered : startKey ≤ endKey) :
    deleteRangeData (KVStorage.less keySerde) (entries.map (encodeEntry keySerde valueSerde))
      (keySerde.serialize startKey) (keySerde.serialize endKey) =
      some ((entries.filter fun entry => !decide (startKey ≤ entry.1 ∧ entry.1 < endKey)).map
        (encodeEntry keySerde valueSerde)) := by
  have shorter : (entries.filter fun entry => entry.1 < startKey).length ≤
      (entries.filter fun entry => entry.1 < endKey).length :=
    (List.monotone_filter_right entries fun entry below =>
      decide_eq_true ((of_decide_eq_true below).trans_le ordered)).length_le
  rw [deleteRangeData, lowerBound_encode keySerde valueSerde lists startKey,
    lowerBound_encode keySerde valueSerde lists endKey, ← FiniteMap.filter_range lists.sorted ordered]
  have divided := FiniteMap.filter_lt_append lists.sorted startKey
  cases behind : entries.filter fun entry => startKey ≤ entry.1 with
  | nil =>
      have none : entries.filter (fun entry => endKey ≤ entry.1) = [] := by
        refine List.filter_eq_nil_iff.mpr fun entry member beyond => ?_
        have left := List.filter_eq_nil_iff.mp behind entry member
        exact left (decide_eq_true (ordered.trans (of_decide_eq_true beyond)))
      rw [behind, List.append_nil] at divided
      simp [none, divided]
  | cons entry rest => simp [Nat.not_lt.mpr shorter]

/-- A permitted command does to the bytes what it does to the map. -/
theorem executeData_encode (lists : FiniteMap.Lists entries map) {command : Command K V}
    (permitted : OrderedStore.Permits command) :
    ∃ after, executeData (KVStorage.less keySerde) (entries.map (encodeEntry keySerde valueSerde))
        (KVStorage.serializeCommand keySerde valueSerde command) = some (after.map (encodeEntry keySerde valueSerde)) ∧
      FiniteMap.Lists after (OrderedStore.execute map command) := by
  cases command with
  | put key value => exact ⟨_, putData_encode keySerde valueSerde lists key value, lists.put key value⟩
  | deleteRange startKey endKey =>
      exact ⟨_, deleteRangeData_encode keySerde valueSerde lists permitted,
        lists.deleteIf fun key => startKey ≤ key ∧ key < endKey⟩
  | delete key =>
      exact ⟨_, deleteData_encode keySerde valueSerde lists key, lists.deleteIf fun other => other = key⟩

/-- A batch is carried out in its order. -/
theorem writeData_encode (lists : FiniteMap.Lists entries map) {commands : List (Command K V)}
    (permitted : ∀ command ∈ commands, OrderedStore.Permits command) :
    ∃ after, writeData (KVStorage.less keySerde) (entries.map (encodeEntry keySerde valueSerde))
        (commands.map (KVStorage.serializeCommand keySerde valueSerde)) =
          some (after.map (encodeEntry keySerde valueSerde)) ∧
      FiniteMap.Lists after (commands.foldl OrderedStore.execute map) := by
  induction commands generalizing entries map with
  | nil => exact ⟨entries, rfl, lists⟩
  | cons command rest ih =>
      obtain ⟨middle, executed, listsMiddle⟩ :=
        executeData_encode keySerde valueSerde lists (permitted command List.mem_cons_self)
      obtain ⟨after, written, listsAfter⟩ :=
        ih listsMiddle fun other member => permitted other (List.mem_cons_of_mem _ member)
      refine ⟨after, ?_, listsAfter⟩
      rw [List.map_cons, writeData, executed]
      exact written

/-- An iterator stands where the cursor stands. -/
def Follows (it : DataIterator) (cursor : Cursor K V) : Prop :=
  ∃ entries : List (K × V), it.storage = entries.map (encodeEntry keySerde valueSerde) ∧
    FiniteMap.Lists entries cursor.map ∧
    (it.place = none ∧ cursor.place = none ∨
      ∃ place, it.place = some place ∧ place ≤ entries.length ∧ cursor.place = some ((entries[place]?).map Prod.fst))

variable {keySerde valueSerde} {it : DataIterator} {cursor : Cursor K V}

/-- `SeekToFirst` goes to the first key. -/
theorem Follows.seekToFirst (follows : Follows keySerde valueSerde it cursor) :
    Follows keySerde valueSerde it.seekToFirst { cursor with place := some cursor.map.first? } := by
  obtain ⟨entries, stored, lists, _⟩ := follows
  exact ⟨entries, stored, lists, Or.inr ⟨0, rfl, Nat.zero_le _, congrArg some lists.first?⟩⟩

/-- `SeekToLast` goes to the last key. -/
theorem Follows.seekToLast (follows : Follows keySerde valueSerde it cursor) :
    Follows keySerde valueSerde it.seekToLast { cursor with place := some cursor.map.last? } := by
  obtain ⟨entries, stored, lists, _⟩ := follows
  have length : it.storage.length = entries.length := by rw [stored, List.length_map]
  refine ⟨entries, stored, lists, Or.inr ⟨entries.length - 1, ?_, Nat.sub_le .., congrArg some lists.last?⟩⟩
  rw [DataIterator.seekToLast, length]
  cases none : it.storage.isEmpty with
  | false => rfl
  | true =>
      have zero : entries.length = 0 := by rw [← length, List.isEmpty_iff.mp none, List.length_nil]
      simp [zero]

/-- A cursor with a key belongs to an iterator that is valid. -/
theorem Follows.at_key (follows : Follows keySerde valueSerde it cursor) {key : K} (place : cursor.place = some (some key)) :
    ∃ (entries : List (K × V)) (i : Nat) (inside : i < entries.length),
      it.storage = entries.map (encodeEntry keySerde valueSerde) ∧ FiniteMap.Lists entries cursor.map ∧
      it.place = some i ∧ it.ensureIteratorIsValid = some i ∧ entries[i].1 = key := by
  obtain ⟨entries, stored, lists, ⟨_, none⟩ | ⟨i, found, _, same⟩⟩ := follows
  · rw [none] at place
    cases place
  rw [place] at same
  obtain ⟨entry, at_, key_⟩ := Option.map_eq_some_iff.mp (Option.some.inj same).symm
  obtain ⟨inside, rfl⟩ := List.getElem?_eq_some_iff.mp at_
  refine ⟨entries, i, inside, stored, lists, found, ?_, key_⟩
  have different : i ≠ it.storage.length := by
    rw [stored, List.length_map]
    exact inside.ne
  simp [DataIterator.ensureIteratorIsValid, DataIterator.valid, found, different]

/-- `Next` goes to the next greater key. -/
theorem Follows.next (follows : Follows keySerde valueSerde it cursor) {key : K} (place : cursor.place = some (some key)) :
    ∃ after, it.next = some after ∧
      Follows keySerde valueSerde after { cursor with place := some (cursor.map.after? key) } := by
  obtain ⟨entries, i, inside, stored, lists, _, ensured, rfl⟩ := follows.at_key place
  refine ⟨{ it with place := some (i + 1) }, by rw [DataIterator.next, ensured]; rfl, entries, stored, lists, ?_⟩
  exact Or.inr ⟨i + 1, rfl, inside, congrArg some (lists.after? inside)⟩

/-- `Prev` goes to the next smaller key. -/
theorem Follows.prev (follows : Follows keySerde valueSerde it cursor) {key : K} (place : cursor.place = some (some key)) :
    ∃ after, it.prev = some after ∧
      Follows keySerde valueSerde after { cursor with place := some (cursor.map.before? key) } := by
  obtain ⟨entries, i, inside, stored, lists, _, ensured, rfl⟩ := follows.at_key place
  cases i with
  | zero =>
      refine ⟨{ it with place := some it.storage.length }, by rw [DataIterator.prev, ensured]; rfl,
        entries, stored, lists, Or.inr ⟨entries.length, ?_, Nat.le_refl _, ?_⟩⟩
      · rw [stored, List.length_map]
      · rw [lists.before?_first inside, List.getElem?_eq_none (Nat.le_refl _)]
        rfl
  | succ i =>
      refine ⟨{ it with place := some i }, by rw [DataIterator.prev, ensured]; rfl, entries, stored, lists,
        Or.inr ⟨i, rfl, by omega, ?_⟩⟩
      rw [lists.before?_succ inside, List.getElem?_eq_getElem (by omega)]
      rfl

/-- `GetKey` gives the key. -/
theorem Follows.getKey (follows : Follows keySerde valueSerde it cursor) {key : K} (place : cursor.place = some (some key)) :
    it.getKey = some (keySerde.serialize key) := by
  obtain ⟨entries, i, inside, stored, lists, _, ensured, rfl⟩ := follows.at_key place
  simp [DataIterator.getKey, ensured, stored, List.getElem?_eq_getElem inside, encodeEntry]

/-- `GetValue` gives the value that the key had when the iterator was made. -/
theorem Follows.getValue (follows : Follows keySerde valueSerde it cursor) {key : K} {value : V}
    (place : cursor.place = some (some key)) (found : cursor.map.lookup key = some value) :
    it.getValue = some (valueSerde.serialize value) := by
  obtain ⟨entries, i, inside, stored, lists, _, ensured, rfl⟩ := follows.at_key place
  have same : cursor.map.lookup entries[i].1 = some entries[i].2 := (lists.lookup _ _).mpr (List.getElem_mem inside)
  rw [same] at found
  cases found
  simp [DataIterator.getValue, ensured, stored, List.getElem?_eq_getElem inside, encodeEntry]

/-- `Valid` says whether there is a key. -/
theorem Follows.valid (follows : Follows keySerde valueSerde it cursor) {place : Option K} (at_ : cursor.place = some place) :
    it.valid = some place.isSome := by
  obtain ⟨entries, stored, lists, ⟨_, none⟩ | ⟨i, found, bound, same⟩⟩ := follows
  · rw [none] at at_
    cases at_
  rw [same] at at_
  cases at_
  rw [DataIterator.valid, found, stored, List.length_map]
  by_cases inside : i < entries.length
  · simp [List.getElem?_eq_getElem inside, inside.ne]
  · have last : i = entries.length := by omega
    simp [last]

variable (keySerde valueSerde)

/-- A `KVStorage` holds the bytes of a store. -/
structure Represents (storage : KVStorage) (store : OrderedStore K V) : Prop where
  data : ∃ entries : List (K × V), storage.data = entries.map (encodeEntry keySerde valueSerde) ∧
    FiniteMap.Lists entries store.map
  size : storage.iterators.length = store.cursors.length
  iterators : ∀ (i : Nat) it cursor, storage.iterators[i]? = some it → store.cursors[i]? = some cursor →
    Follows keySerde valueSerde it cursor
  batches : storage.batches =
    store.batches.map (Option.map (List.map (KVStorage.serializeCommand keySerde valueSerde)))
  permitted : ∀ (i : Nat) commands, store.batches[i]? = some (some commands) →
    ∀ command ∈ commands, OrderedStore.Permits command

variable {keySerde valueSerde} {storage : KVStorage} {store after : OrderedStore K V} {answer : StorageAnswer K V}

/-- A new storage is empty. -/
theorem Represents.opened : Represents keySerde valueSerde .opened (.empty : OrderedStore K V) where
  data := ⟨[], rfl, .empty⟩
  size := rfl
  iterators _ _ _ found := nomatch found
  batches := rfl
  permitted _ _ found := nomatch found

/-- Another process opens the database. -/
theorem Represents.reopen (represents : Represents keySerde valueSerde storage store) :
    Represents keySerde valueSerde storage.reopen ⟨store.map, [], []⟩ :=
  { Represents.opened with data := represents.data }

/-- The iterator of a cursor. -/
theorem Represents.iterator (represents : Represents keySerde valueSerde storage store) {i : Nat} {cursor : Cursor K V}
    (found : store.cursors[i]? = some cursor) :
    ∃ it, storage.iterators[i]? = some it ∧ Follows keySerde valueSerde it cursor := by
  have inside : i < storage.iterators.length := by
    rw [represents.size]
    exact (List.getElem?_eq_some_iff.mp found).1
  exact ⟨_, List.getElem?_eq_getElem inside,
    represents.iterators i _ cursor (List.getElem?_eq_getElem inside) found⟩

/-- An iterator moves as its cursor does. -/
theorem Represents.move (represents : Represents keySerde valueSerde storage store) {i : Nat}
    {move : Cursor K V → Option (Option K)} {moveIt : DataIterator → Option DataIterator}
    (moves : ∀ it cursor place, Follows keySerde valueSerde it cursor → move cursor = some place →
      ∃ moved, moveIt it = some moved ∧ Follows keySerde valueSerde moved { cursor with place := some place })
    (called : store.moveCursor i move = some (after, answer)) :
    ∃ storageAfter, storage.moveIterator i moveIt = some (storageAfter, answer) ∧
      Represents keySerde valueSerde storageAfter after := by
  rw [OrderedStore.moveCursor] at called
  obtain ⟨cursor, found, called⟩ := Option.bind_eq_some_iff.mp called
  obtain ⟨place, moved, called⟩ := Option.bind_eq_some_iff.mp called
  cases called
  obtain ⟨it, at_, follows⟩ := represents.iterator found
  obtain ⟨itAfter, movedIt, followsAfter⟩ := moves it cursor place follows moved
  refine ⟨{ storage with iterators := storage.iterators.set i itAfter }, ?_, ?_⟩
  · simp [KVStorage.moveIterator, at_, movedIt]
  refine { represents with
    size := by simp [represents.size]
    iterators := fun j other otherCursor atOther atCursor => ?_ }
  dsimp only at atOther atCursor
  by_cases same : i = j
  · subst same
    rw [List.getElem?_set_self (List.getElem?_eq_some_iff.mp at_).1] at atOther
    rw [List.getElem?_set_self (List.getElem?_eq_some_iff.mp found).1] at atCursor
    cases atOther
    cases atCursor
    exact followsAfter
  · rw [List.getElem?_set_ne same] at atOther atCursor
    exact represents.iterators j other otherCursor atOther atCursor

/-- The commands of a batch are stored serialized. -/
theorem Represents.batch (represents : Represents keySerde valueSerde storage store) {i : Nat}
    {commands : List (Command K V)} (found : store.batches[i]? = some (some commands)) :
    storage.batches[i]? = some (some (commands.map (KVStorage.serializeCommand keySerde valueSerde))) := by
  rw [represents.batches, List.getElem?_map, found]
  rfl

/-- A new iterator stands nowhere and keeps the entries of now. -/
theorem Represents.newIterator (represents : Represents keySerde valueSerde storage store) :
    Represents keySerde valueSerde
      { storage with iterators := storage.iterators ++ [⟨storage.data, none⟩] }
      { store with cursors := store.cursors ++ [⟨store.map, none⟩] } := by
  obtain ⟨entries, stored, lists⟩ := represents.data
  refine { represents with
    size := by simp [represents.size]
    iterators := fun i it cursor atIt atCursor => ?_ }
  dsimp only at atIt atCursor
  rcases Nat.lt_trichotomy i store.cursors.length with inside | rfl | outside
  · rw [List.getElem?_append_left inside] at atCursor
    rw [List.getElem?_append_left (represents.size ▸ inside)] at atIt
    exact represents.iterators i it cursor atIt atCursor
  · rw [List.getElem?_concat_length] at atCursor
    rw [← represents.size, List.getElem?_concat_length] at atIt
    cases atIt
    cases atCursor
    exact ⟨entries, stored, lists, Or.inl ⟨rfl, rfl⟩⟩
  · rw [List.getElem?_eq_none (by simp; omega)] at atCursor
    cases atCursor

/-- A new batch is empty. -/
theorem Represents.newBatch (represents : Represents keySerde valueSerde storage store) :
    Represents keySerde valueSerde
      { storage with batches := storage.batches ++ [some []] } { store with batches := store.batches ++ [some []] } := by
  refine { represents with
    batches := by simp [represents.batches]
    permitted := fun i commands found command member => ?_ }
  dsimp only at found
  rcases Nat.lt_trichotomy i store.batches.length with inside | rfl | outside
  · rw [List.getElem?_append_left inside] at found
    exact represents.permitted i commands found command member
  · rw [List.getElem?_concat_length] at found
    cases found
    cases member
  · rw [List.getElem?_eq_none (by simp; omega)] at found
    cases found

/-- A batch gets other commands, or it is gone. -/
theorem Represents.setBatch (represents : Represents keySerde valueSerde storage store) {i : Nat}
    {old : Option (List (Command K V))} (found : store.batches[i]? = some old) (new : Option (List (Command K V)))
    (allowed : ∀ commands, new = some commands → ∀ command ∈ commands, OrderedStore.Permits command) :
    Represents keySerde valueSerde
      { storage with
        batches := storage.batches.set i (new.map (List.map (KVStorage.serializeCommand keySerde valueSerde))) }
      { store with batches := store.batches.set i new } := by
  refine { represents with
    batches := by simp [represents.batches, List.map_set]
    permitted := fun j commands known => ?_ }
  dsimp only at known
  by_cases same : i = j
  · subst same
    rw [List.getElem?_set_self (List.getElem?_eq_some_iff.mp found).1] at known
    exact allowed commands (Option.some.inj known)
  · rw [List.getElem?_set_ne same] at known
    exact represents.permitted j commands known

/-- Every call that may be made succeeds, with the answer of the ordered map. -/
theorem Represents.call (represents : Represents keySerde valueSerde storage store) {request : StorageCall K V}
    (called : store.call request = some (after, answer)) :
    ∃ storageAfter, storage.call keySerde valueSerde request = some (storageAfter, answer) ∧
      Represents keySerde valueSerde storageAfter after := by
  obtain ⟨entries, stored, lists⟩ := represents.data
  cases request with
  | get key =>
      have found := getData_encode keySerde valueSerde lists key
      rw [← stored] at found
      simp only [OrderedStore.call] at called
      cases known : store.map.lookup key with
      | none =>
          rw [known] at called found
          cases called
          exact ⟨storage, by simp [KVStorage.call, found], represents⟩
      | some value =>
          rw [known] at called found
          cases called
          exact ⟨storage, by simp [KVStorage.call, found, valueSerde.roundTrip], represents⟩
  | execute command =>
      simp only [OrderedStore.call] at called
      split at called
      swap
      · cases called
      rename_i permitted
      cases called
      obtain ⟨entriesAfter, executed, listsAfter⟩ := executeData_encode keySerde valueSerde lists permitted
      rw [← stored] at executed
      exact ⟨{ storage with data := entriesAfter.map (encodeEntry keySerde valueSerde) },
        by simp [KVStorage.call, executed], { represents with data := ⟨entriesAfter, rfl, listsAfter⟩ }⟩
  | newIterator =>
      cases called
      exact ⟨_, rfl, represents.newIterator⟩
  | seekToFirst i =>
      exact represents.move (fun it cursor place follows moved => by
        cases moved
        exact ⟨_, rfl, follows.seekToFirst⟩) called
  | seekToLast i =>
      exact represents.move (fun it cursor place follows moved => by
        cases moved
        exact ⟨_, rfl, follows.seekToLast⟩) called
  | next i =>
      refine represents.move (fun it cursor place follows moved => ?_) called
      obtain ⟨_, at_, moved⟩ := Option.bind_eq_some_iff.mp moved
      obtain ⟨key, rfl, moved⟩ := Option.bind_eq_some_iff.mp moved
      cases moved
      exact follows.next at_
  | prev i =>
      refine represents.move (fun it cursor place follows moved => ?_) called
      obtain ⟨_, at_, moved⟩ := Option.bind_eq_some_iff.mp moved
      obtain ⟨key, rfl, moved⟩ := Option.bind_eq_some_iff.mp moved
      cases moved
      exact follows.prev at_
  | getKey i =>
      obtain ⟨cursor, found, called⟩ := Option.bind_eq_some_iff.mp called
      obtain ⟨_, at_, called⟩ := Option.bind_eq_some_iff.mp called
      obtain ⟨key, rfl, called⟩ := Option.bind_eq_some_iff.mp called
      cases called
      obtain ⟨it, atIt, follows⟩ := represents.iterator found
      exact ⟨storage, by simp [KVStorage.call, atIt, follows.getKey at_, keySerde.roundTrip], represents⟩
  | getValue i =>
      simp only [OrderedStore.call, Option.bind_eq_bind, Option.bind_eq_some_iff] at called
      obtain ⟨cursor, found, _, at_, key, rfl, value, known, called⟩ := called
      cases called
      obtain ⟨it, atIt, follows⟩ := represents.iterator found
      exact ⟨storage, by simp [KVStorage.call, atIt, follows.getValue at_ known, valueSerde.roundTrip], represents⟩
  | valid i =>
      obtain ⟨cursor, found, called⟩ := Option.bind_eq_some_iff.mp called
      obtain ⟨place, at_, called⟩ := Option.bind_eq_some_iff.mp called
      cases called
      obtain ⟨it, atIt, follows⟩ := represents.iterator found
      exact ⟨storage, by simp [KVStorage.call, atIt, follows.valid at_], represents⟩
  | makeWriteBatch =>
      cases called
      exact ⟨_, rfl, represents.newBatch⟩
  | batch i command =>
      obtain ⟨_, found, called⟩ := Option.bind_eq_some_iff.mp called
      obtain ⟨commands, rfl, called⟩ := Option.bind_eq_some_iff.mp called
      split at called
      swap
      · cases called
      rename_i permitted
      cases called
      refine ⟨_, ?_, represents.setBatch found (some (commands ++ [command])) ?_⟩
      · simp [KVStorage.call, represents.batch found]
      · rintro _ ⟨⟩ other member
        rcases List.mem_append.mp member with earlier | last
        · exact represents.permitted i commands found other earlier
        · exact List.mem_singleton.mp last ▸ permitted
  | write i =>
      obtain ⟨_, found, called⟩ := Option.bind_eq_some_iff.mp called
      obtain ⟨commands, rfl, called⟩ := Option.bind_eq_some_iff.mp called
      cases called
      obtain ⟨entriesAfter, written, listsAfter⟩ :=
        writeData_encode keySerde valueSerde lists (represents.permitted i commands found)
      rw [← stored] at written
      have emptied : Represents keySerde valueSerde { storage with batches := storage.batches.set i none }
          { store with batches := store.batches.set i none } :=
        represents.setBatch found none (by rintro _ ⟨⟩)
      exact ⟨{ storage with
          data := entriesAfter.map (encodeEntry keySerde valueSerde)
          batches := storage.batches.set i none },
        by simp [KVStorage.call, represents.batch found, written],
        { emptied with data := ⟨entriesAfter, rfl, listsAfter⟩ }⟩

/-- A storage answers a sequence of calls as the map does. -/
theorem Represents.answers (represents : Represents keySerde valueSerde storage store) {calls : List (StorageCall K V)}
    {answers : List (StorageAnswer K V)} (given : store.answers calls = some answers) :
    storage.answers keySerde valueSerde calls = some answers := by
  induction calls generalizing storage store answers with
  | nil => exact given
  | cons first rest ih =>
      obtain ⟨⟨after, answer⟩, called, given⟩ := Option.bind_eq_some_iff.mp given
      obtain ⟨others, later, given⟩ := Option.bind_eq_some_iff.mp given
      cases given
      obtain ⟨storageAfter, calledStorage, representsAfter⟩ := represents.call called
      rw [KVStorage.answers, calledStorage]
      simp [ih representsAfter later]

/-- A `KVStorage` on a new database gives the answers of an ordered finite map, for every sequence of
calls that a caller may make. -/
def RefinesOrderedMap {K V : Type} [LinearOrder K] (keySerde : Serde K) (valueSerde : Serde V) : Prop :=
  ∀ (calls : List (StorageCall K V)) (answers : List (StorageAnswer K V)),
    (OrderedStore.empty : OrderedStore K V).answers calls = some answers →
      KVStorage.opened.answers keySerde valueSerde calls = some answers

/-- With numbers or strings as keys, whatever the order of a number's bytes and whatever the values. -/
theorem kvStorage_refines (V : Type) (valueSerde : Serde V) :
    (∀ order, RefinesOrderedMap (u64Serde order) valueSerde) ∧ RefinesOrderedMap stringSerde valueSerde :=
  ⟨fun _ _ _ given => Represents.opened.answers given, fun _ _ given => Represents.opened.answers given⟩

/-- Two keys are written, an iterator is opened, the keys are deleted, and the iterator still finds them. -/
def iteratedCalls : List (StorageCall UInt64 (List UInt8)) :=
  [.execute (.put 256 [1]), .execute (.put 2 [2]), .newIterator, .execute (.deleteRange 0 300), .seekToLast 0,
    .getKey 0, .prev 0, .getKey 0, .prev 0, .valid 0, .get 2]

def iteratedAnswers : List (StorageAnswer UInt64 (List UInt8)) :=
  [.ok, .ok, .ok, .ok, .ok, .key 256, .ok, .key 2, .ok, .valid false, .notFound]

/-- The least significant byte comes first, but the keys are ordered as numbers. -/
theorem kvStorage_refines_iterated :
    (OrderedStore.empty : OrderedStore UInt64 (List UInt8)).answers iteratedCalls = some iteratedAnswers ∧
      KVStorage.opened.answers (u64Serde .little) stringSerde iteratedCalls = some iteratedAnswers := by
  have given : (OrderedStore.empty : OrderedStore UInt64 (List UInt8)).answers iteratedCalls = some iteratedAnswers := by
    decide +kernel
  exact ⟨given, (kvStorage_refines (List UInt8) stringSerde).1 .little iteratedCalls iteratedAnswers given⟩

end Metamorphosis
