import Mathlib.Algebra.Group.Nat.Defs
import Mathlib.Order.Lattice

/-!
The database of the simulator and the `KVStorage` that wraps it. A failed `VERIFY`, and what the
language leaves undefined, is `none`.
-/

instance Metamorphosis.u64LinearOrder : LinearOrder UInt64 where
  le_refl := UInt64.le_refl
  le_trans _ _ _ := UInt64.le_trans
  lt_iff_le_not_ge _ _ := by rw [UInt64.not_le]; exact ⟨fun less => ⟨UInt64.le_of_lt less, less⟩, And.right⟩
  le_antisymm _ _ := UInt64.le_antisymm
  le_total := UInt64.le_total
  toDecidableLE := inferInstance
  toDecidableEq := inferInstance
  toDecidableLT := inferInstance

instance Metamorphosis.byteLinearOrder : LinearOrder UInt8 where
  le_refl := UInt8.le_refl
  le_trans _ _ _ := UInt8.le_trans
  lt_iff_le_not_ge _ _ := by rw [UInt8.not_le]; exact ⟨fun less => ⟨UInt8.le_of_lt less, less⟩, And.right⟩
  le_antisymm _ _ := UInt8.le_antisymm
  le_total := UInt8.le_total
  toDecidableLE := inferInstance
  toDecidableEq := inferInstance
  toDecidableLT := inferInstance

namespace Metamorphosis

/-- `Data` and `DataView`. -/
abbrev Data := List UInt8

/-- `CSerde`: a value can be read back from what was written for it. -/
structure Serde (A : Type) where
  serialize : A → Data
  deserialize : Data → Option A
  roundTrip : ∀ value, deserialize (serialize value) = some value

/-- The order of the bytes of a number in memory. -/
inductive ByteOrder where
  | little
  | big

namespace ByteOrder

/-- Bytes with the least significant one first. -/
def arrange (order : ByteOrder) (bytes : Data) : Data :=
  match order with
  | little => bytes
  | big => bytes.reverse

end ByteOrder

/-- The eight bytes of a number, the least significant one first. -/
def bytesOf (value : UInt64) : Data :=
  (List.range 8).map fun place => UInt8.ofNat (value.toNat / 256 ^ place)

/-- The number that some bytes stand for, the least significant one first. -/
def numberOf (bytes : Data) : Nat := bytes.foldr (fun byte rest => byte.toNat + 256 * rest) 0

theorem numberOf_bytesOf (value : UInt64) : numberOf (bytesOf value) = value.toNat := by
  have bound := value.toNat_lt
  simp only [bytesOf, numberOf, List.range, List.range.loop, List.map_cons, List.map_nil, List.foldr_cons,
    List.foldr_nil, UInt8.toNat_ofNat']
  omega

/-- `U64Serde` reads and writes the memory of a number. -/
def u64Serde (order : ByteOrder) : Serde UInt64 where
  serialize value := order.arrange (bytesOf value)
  deserialize data := if data.length = 8 then some (UInt64.ofNat (numberOf (order.arrange data))) else none
  roundTrip value := by
    have whole : UInt64.ofNat (numberOf (bytesOf value)) = value := by
      rw [numberOf_bytesOf]
      exact UInt64.ofNat_toNat
    cases order with
    | little =>
        rw [if_pos (by simp [ByteOrder.arrange, bytesOf])]
        exact congrArg some whole
    | big =>
        rw [if_pos (by simp [ByteOrder.arrange, bytesOf])]
        simp only [ByteOrder.arrange, List.reverse_reverse]
        exact congrArg some whole

/-- `StringSerde`. A string is its bytes. -/
def stringSerde : Serde (List UInt8) where
  serialize value := value
  deserialize data := some data
  roundTrip _ := rfl

/-- `KVStorage::Comparator::Compare` decodes both keys. -/
def compareKeys {K : Type} [LT K] [DecidableLT K] (serde : Serde K) (a b : Data) : Option Int := do
  let a ← serde.deserialize a
  let b ← serde.deserialize b
  if a < b then some (-1)
  else if b < a then some 1
  else some 0

/-- `HostDatabase::Comparator`. -/
def lessKeys (compare : Data → Data → Option Int) (left right : Data) : Option Bool :=
  (compare left right).map fun order => order < 0

/-- `HostDatabase::Map` in the order of its iterators. -/
abbrev DataMap := List (Data × Data)

section Map
variable (less : Data → Data → Option Bool)

/-- The entries before `lower_bound` and the entries from there on. -/
def lowerBound (key : Data) : DataMap → Option (DataMap × DataMap)
  | [] => some ([], [])
  | entry :: rest => do
      if ← less entry.1 key then
        let (before, after) ← lowerBound key rest
        some (entry :: before, after)
      else some ([], entry :: rest)

/-- `data[key] = value`. A key that is there keeps its bytes. -/
def putData (data : DataMap) (key value : Data) : Option DataMap := do
  let (before, after) ← lowerBound less key data
  match after with
  | [] => some (before ++ [(key, value)])
  | entry :: rest =>
      if ← less key entry.1 then some (before ++ (key, value) :: entry :: rest)
      else some (before ++ (entry.1, value) :: rest)

/-- `Database::Get`. The inner `none` is `NotFound`. -/
def getData (data : DataMap) (key : Data) : Option (Option Data) := do
  let (_, after) ← lowerBound less key data
  match after with
  | [] => some none
  | entry :: _ => if ← less key entry.1 then some none else some (some entry.2)

/-- `Database::DeleteRange`. It is undefined to erase from a later place to an earlier one. -/
def deleteRangeData (data : DataMap) (startKey endKey : Data) : Option DataMap := do
  let (before, after) ← lowerBound less startKey data
  if after.isEmpty then some data
  else
    let (kept, rest) ← lowerBound less endKey data
    if kept.length < before.length then none else some (before ++ rest)

/-- `Database::Delete`. -/
def deleteData (data : DataMap) (key : Data) : Option DataMap := do
  let (before, after) ← lowerBound less key data
  match after with
  | [] => some data
  | entry :: rest => if ← less key entry.1 then some data else some (before ++ rest)

end Map

/-- The commands of a `WriteBatch`. -/
inductive Command (K V : Type) where
  | put (key : K) (value : V)
  | deleteRange (startKey endKey : K)
  | delete (key : K)
deriving DecidableEq

/-- `Database::Put`, `Database::DeleteRange` and `Database::Delete`. -/
def executeData (less : Data → Data → Option Bool) (data : DataMap) : Command Data Data → Option DataMap
  | .put key value => putData less data key value
  | .deleteRange startKey endKey => deleteRangeData less data startKey endKey
  | .delete key => deleteData less data key

/-- `Database::Write` executes the commands one after another. -/
def writeData (less : Data → Data → Option Bool) (data : DataMap) : List (Command Data Data) → Option DataMap
  | [] => some data
  | command :: rest => do
      let data ← executeData less data command
      writeData less data rest

/-- `sim::db::Iterator`: a copy of the data and a place in it. The constructor takes the place from
its moved-from parameter, so there is none before the first seek. -/
structure DataIterator where
  storage : DataMap
  place : Option Nat

namespace DataIterator

/-- `Valid`: the place is not `storage.end()`. -/
def valid (it : DataIterator) : Option Bool := it.place.map fun place => place ≠ it.storage.length

def seekToLast (it : DataIterator) : DataIterator :=
  { it with place := some (if it.storage.isEmpty then it.storage.length else it.storage.length - 1) }

def seekToFirst (it : DataIterator) : DataIterator := { it with place := some 0 }

/-- `EnsureIteratorIsValid`. -/
def ensureIteratorIsValid (it : DataIterator) : Option Nat := do
  let place ← it.place
  if ← it.valid then some place else none

def next (it : DataIterator) : Option DataIterator := do
  let place ← it.ensureIteratorIsValid
  some { it with place := some (place + 1) }

def prev (it : DataIterator) : Option DataIterator := do
  let place ← it.ensureIteratorIsValid
  if place = 0 then some { it with place := some it.storage.length }
  else some { it with place := some (place - 1) }

def getKey (it : DataIterator) : Option Data := do
  let place ← it.ensureIteratorIsValid
  let entry ← it.storage[place]?
  some entry.1

def getValue (it : DataIterator) : Option Data := do
  let place ← it.ensureIteratorIsValid
  let entry ← it.storage[place]?
  some entry.2

end DataIterator

/-- What a program may do with a `KVStorage`, its iterators and its batches. These are named by the
order in which they were made. -/
inductive StorageCall (K V : Type) where
  | get (key : K)
  | execute (command : Command K V)
  | newIterator
  | seekToFirst (iterator : Nat)
  | seekToLast (iterator : Nat)
  | next (iterator : Nat)
  | prev (iterator : Nat)
  | getKey (iterator : Nat)
  | getValue (iterator : Nat)
  | valid (iterator : Nat)
  | makeWriteBatch
  | batch (batch : Nat) (command : Command K V)
  | write (batch : Nat)

/-- What a call returns. -/
inductive StorageAnswer (K V : Type) where
  | ok
  | notFound
  | value (value : V)
  | key (key : K)
  | valid (valid : Bool)
deriving DecidableEq

/-- A `KVStorage` on a database. A batch that was written is gone. -/
structure KVStorage where
  data : DataMap
  iterators : List DataIterator
  batches : List (Option (List (Command Data Data)))

namespace KVStorage

/-- `Open` on a new database. -/
def opened : KVStorage := ⟨[], [], []⟩

variable {K V : Type} [LT K] [DecidableLT K] (keySerde : Serde K) (valueSerde : Serde V)

/-- The keys and values of a command are serialized. -/
def serializeCommand : Command K V → Command Data Data
  | .put key value => .put (keySerde.serialize key) (valueSerde.serialize value)
  | .deleteRange startKey endKey => .deleteRange (keySerde.serialize startKey) (keySerde.serialize endKey)
  | .delete key => .delete (keySerde.serialize key)

/-- The order that `Open` gives to the database. -/
def less : Data → Data → Option Bool := lessKeys (compareKeys keySerde)

/-- An iterator moves. -/
def moveIterator (storage : KVStorage) (iterator : Nat) (move : DataIterator → Option DataIterator) :
    Option (KVStorage × StorageAnswer K V) := do
  let it ← storage.iterators[iterator]?
  let it ← move it
  some ({ storage with iterators := storage.iterators.set iterator it }, .ok)

/-- One call of `KVStorage`, `KVStorage::Iterator` or `KVStorage::WriteBatch`. -/
def call (storage : KVStorage) : StorageCall K V → Option (KVStorage × StorageAnswer K V)
  | .get key => do
      match ← getData (less keySerde) storage.data (keySerde.serialize key) with
      | none => some (storage, .notFound)
      | some found =>
          let value ← valueSerde.deserialize found
          some (storage, .value value)
  | .execute command => do
      let data ← executeData (less keySerde) storage.data (serializeCommand keySerde valueSerde command)
      some ({ storage with data := data }, .ok)
  | .newIterator =>
      some ({ storage with iterators := storage.iterators ++ [⟨storage.data, none⟩] }, .ok)
  | .seekToFirst iterator => storage.moveIterator iterator fun it => some it.seekToFirst
  | .seekToLast iterator => storage.moveIterator iterator fun it => some it.seekToLast
  | .next iterator => storage.moveIterator iterator DataIterator.next
  | .prev iterator => storage.moveIterator iterator DataIterator.prev
  | .getKey iterator => do
      let it ← storage.iterators[iterator]?
      let key ← keySerde.deserialize (← it.getKey)
      some (storage, .key key)
  | .getValue iterator => do
      let it ← storage.iterators[iterator]?
      let value ← valueSerde.deserialize (← it.getValue)
      some (storage, .value value)
  | .valid iterator => do
      let it ← storage.iterators[iterator]?
      some (storage, .valid (← it.valid))
  | .makeWriteBatch => some ({ storage with batches := storage.batches ++ [some []] }, .ok)
  | .batch batch command => do
      let commands ← (← storage.batches[batch]?)
      some ({ storage with batches :=
        storage.batches.set batch (some (commands ++ [serializeCommand keySerde valueSerde command])) }, .ok)
  | .write batch => do
      let commands ← (← storage.batches[batch]?)
      let data ← writeData (less keySerde) storage.data commands
      some ({ storage with data := data, batches := storage.batches.set batch none }, .ok)

/-- The answers of a sequence of calls. -/
def answers (storage : KVStorage) : List (StorageCall K V) → Option (List (StorageAnswer K V))
  | [] => some []
  | first :: rest => do
      let (storage, answer) ← storage.call keySerde valueSerde first
      let others ← storage.answers rest
      some (answer :: others)

end KVStorage

/-- The database is opened again by another process, which has no iterators and no batches. -/
def KVStorage.reopen (storage : KVStorage) : KVStorage := { opened with data := storage.data }

/-- A call of a storage whose keys have the order of `std::less<>`. -/
def KVStorage.callOrdered {K V : Type} [LinearOrder K] (keySerde : Serde K) (valueSerde : Serde V) (storage : KVStorage)
    (request : StorageCall K V) : Option (KVStorage × StorageAnswer K V) :=
  storage.call keySerde valueSerde request

end Metamorphosis
