import Mathlib.Data.List.Forall2
import Metamorphosis.Library.ReplicatedLog.Completeness
import Metamorphosis.Proof.Outcomes

namespace Metamorphosis
open ReplicatedLog
variable {n : Nat} {S : Service n}

/-- A log entry as its leader made it, with the time of its creation. -/
abbrev Item (S : Service n) := S.Entry × Nat

def itemTerm (item : Item S) : Nat := S.term item.1

/-- When a stored entry counts as a copy of the entry that a leader made. -/
structure Copies (S : Service n) where
  Copy : S.Entry → S.Entry → Prop
  refl : ∀ entry, Copy entry entry
  term : ∀ {copy entry}, Copy copy entry → S.term copy = S.term entry
  encode : ∀ {commitIndex index copy entry}, Copy copy entry → Copy (S.encode commitIndex index copy) entry
  newEntry : ∀ {ext currentTerm request entry after},
    S.newEntry ext currentTerm request = .inr (entry, after) → S.term entry = currentTerm

variable (P : Copies S)

/-- A list of entries mirrors a list of items. -/
def Mirrors (copies : List S.Entry) (items : List (Item S)) : Prop :=
  List.Forall₂ (fun copy item => P.Copy copy item.1) copies items

/-- A database mirrors a list of items under the keys `1, 2, …`. -/
def Stores (map : OrderedMap S.Entry) (items : List (Item S)) : Prop :=
  ∃ copies, map = OrderedMap.ofList copies ∧ Mirrors P copies items

variable {P} {copies more : List S.Entry} {items rest : List (Item S)} {map : OrderedMap S.Entry}

namespace Mirrors

/-- Both have the same number of entries. -/
theorem length (mirrors : Mirrors P copies items) : copies.length = items.length :=
  List.Forall₂.length_eq mirrors

theorem take (mirrors : Mirrors P copies items) (m : Nat) : Mirrors P (copies.take m) (items.take m) :=
  List.forall₂_take m mirrors

theorem drop (mirrors : Mirrors P copies items) (m : Nat) : Mirrors P (copies.drop m) (items.drop m) :=
  List.forall₂_drop m mirrors

theorem append (first : Mirrors P copies items) (second : Mirrors P more rest) :
    Mirrors P (copies ++ more) (items ++ rest) := List.rel_append first second

/-- A copy is one of the item at the same place. -/
theorem getElem? (mirrors : Mirrors P copies items) {index : Nat} {copy : S.Entry}
    (found : copies[index]? = some copy) : ∃ item, items[index]? = some item ∧ P.Copy copy item.1 := by
  obtain ⟨inside, same⟩ := List.getElem?_eq_some_iff.mp found
  have insideItems : index < items.length := mirrors.length ▸ inside
  refine ⟨items[index], List.getElem?_eq_getElem insideItems, ?_⟩
  have related := List.Forall₂.get mirrors inside insideItems
  simpa [← same] using related

/-- The last terms agree. -/
theorem lastTerm (mirrors : Mirrors P copies items) :
    (match copies.getLast? with | none => 0 | some copy => S.term copy) =
      ReplicatedLog.lastTerm itemTerm items := by
  rw [ReplicatedLog.lastTerm, List.getLast?_eq_getElem?, List.getLast?_eq_getElem?, mirrors.length]
  cases found : copies[items.length - 1]? with
  | none =>
      have outside := List.getElem?_eq_none_iff.mp found
      rw [mirrors.length] at outside
      rw [List.getElem?_eq_none outside]
  | some copy =>
      obtain ⟨item, foundItem, related⟩ := mirrors.getElem? found
      rw [foundItem]
      exact P.term related

end Mirrors

namespace Stores

/-- A stored entry is a copy of the item at its index. -/
theorem found (stores : Stores P map items) {index : Nat} {copy : S.Entry}
    (present : map.get? index = some copy) :
    1 ≤ index ∧ ∃ item, items[index - 1]? = some item ∧ P.Copy copy item.1 := by
  obtain ⟨copies, rfl, mirrors⟩ := stores
  cases index with
  | zero =>
      rw [OrderedMap.ofList_get?_zero] at present
      cases present
  | succ index =>
      rw [OrderedMap.ofList_get?] at present
      exact ⟨by omega, mirrors.getElem? present⟩

/-- Every index of the items is a key. -/
theorem present (stores : Stores P map items) {index : Nat} (positive : 1 ≤ index) (inside : index ≤ items.length) :
    ∃ copy item, map.get? index = some copy ∧ items[index - 1]? = some item ∧ P.Copy copy item.1 := by
  obtain ⟨copies, rfl, mirrors⟩ := stores
  obtain ⟨index, rfl⟩ : ∃ k, index = k + 1 := ⟨index - 1, by omega⟩
  have insideCopies : index < copies.length := by
    rw [mirrors.length]
    omega
  have found : copies[index]? = some copies[index] := List.getElem?_eq_getElem insideCopies
  obtain ⟨item, foundItem, related⟩ := mirrors.getElem? found
  exact ⟨copies[index], item, by rw [OrderedMap.ofList_get?, found], foundItem, related⟩

/-- `GetSavedLogSize` is the number of items. -/
theorem size {node : Node S} (stores : Stores P node.raftLog items) : node.getSavedLogSize = items.length := by
  obtain ⟨copies, same, mirrors⟩ := stores
  rw [Node.getSavedLogSize, same, OrderedMap.ofList_last?, ← mirrors.length]
  cases last : copies.getLast? with
  | none => simp [List.getLast?_eq_none_iff.mp last]
  | some copy => rfl

/-- `GetLastSavedLogTerm` is the term of the last item. -/
theorem lastTerm {node : Node S} (stores : Stores P node.raftLog items) :
    node.getLastSavedLogTerm = ReplicatedLog.lastTerm itemTerm items := by
  obtain ⟨copies, same, mirrors⟩ := stores
  rw [← mirrors.lastTerm, Node.getLastSavedLogTerm, same, OrderedMap.ofList_last?]
  cases copies.getLast? <;> rfl

/-- Entries written after the last key extend the items. -/
theorem putAll (stores : Stores P map items) (mirrors : Mirrors P more rest) :
    Stores P (map.putAll (items.length + 1) more) (items ++ rest) := by
  obtain ⟨copies, rfl, stored⟩ := stores
  refine ⟨copies ++ more, ?_, stored.append mirrors⟩
  rw [← stored.length, OrderedMap.ofList_putAll]

/-- A truncation keeps the first items. -/
theorem deleteFrom (stores : Stores P map items) (kept : Nat) :
    Stores P (map.deleteFrom (kept + 1)) (items.take kept) := by
  obtain ⟨copies, rfl, stored⟩ := stores
  exact ⟨copies.take kept, OrderedMap.ofList_deleteFrom .., stored.take kept⟩

/-- A rewritten log keeps the first items and continues with the request's. -/
theorem rewritten {node : Node S} (stores : Stores P node.raftLog items)
    {request : AppendEntriesRequest n S.Entry} (mirrors : Mirrors P request.entries rest)
    (inside : node.keptIndex request ≤ items.length) :
    Stores P (node.rewritten request).raftLog
      (items.take (node.keptIndex request) ++ rest.drop (node.keptIndex request - request.prevLogIndex)) := by
  have kept := stores.deleteFrom (node.keptIndex request)
  have length : (items.take (node.keptIndex request)).length = node.keptIndex request := by
    rw [List.length_take, Nat.min_eq_left inside]
  have written := kept.putAll (mirrors.drop (node.keptIndex request - request.prevLogIndex))
  rw [length] at written
  exact written

/-- `GetLogEntry` reads the saved and the pending items. -/
theorem getLogEntry {node : Node S} (stores : Stores P node.raftLog items)
    (pending : Mirrors P node.pendingLog rest) {index : Nat} {copy : S.Entry}
    (read : node.getLogEntry index = some copy) :
    1 ≤ index ∧ ∃ item, (items ++ rest)[index - 1]? = some item ∧ P.Copy copy item.1 := by
  rw [Node.getLogEntry, stores.size] at read
  split at read
  swap
  · cases read
  rename_i range
  refine ⟨range.1, ?_⟩
  split at read
  · rename_i saved
    obtain ⟨_, item, found, related⟩ := stores.found read
    refine ⟨item, ?_, related⟩
    rw [List.getElem?_append_left (by omega)]
    exact found
  · rename_i unsaved
    obtain ⟨item, found, related⟩ := pending.getElem? read
    refine ⟨item, ?_, related⟩
    rw [List.getElem?_append_right (by omega), ← found]
    congr 1
    omega

/-- A request carries copies of consecutive items. -/
theorem collectEntries {node : Node S} (stores : Stores P node.raftLog items)
    (pending : Mirrors P node.pendingLog rest) {index count : Nat} {entries : List S.Entry}
    (positive : 1 ≤ index) (collected : node.collectEntries index count = some entries) :
    entries.length = count ∧ (0 < count → index - 1 + count ≤ (items ++ rest).length) ∧
      Mirrors P entries (((items ++ rest).drop (index - 1)).take count) := by
  induction count generalizing index entries with
  | zero =>
      cases collected
      exact ⟨rfl, by omega, by rw [List.take_zero]; exact List.Forall₂.nil⟩
  | succ count ih =>
      simp only [Node.collectEntries, Option.bind_eq_bind, Option.bind_eq_some_iff] at collected
      obtain ⟨copy, read, others, collected, same⟩ := collected
      cases same
      obtain ⟨_, item, found, related⟩ := getLogEntry stores pending read
      obtain ⟨length, bound, mirrors⟩ := ih (by omega) collected
      have inside : index - 1 < (items ++ rest).length := (List.getElem?_eq_some_iff.mp found).1
      refine ⟨by rw [List.length_cons, length], fun _ => by omega, ?_⟩
      have next : index + 1 - 1 = index - 1 + 1 := by omega
      rw [next] at mirrors
      rw [List.drop_eq_getElem_cons inside, List.take_succ_cons]
      refine List.Forall₂.cons ?_ mirrors
      have same : (items ++ rest)[index - 1] = item := (List.getElem?_eq_some_iff.mp found).2
      rw [same]
      exact P.encode related

end Stores

/-- The entries of a node's log. -/
def Node.values (node : Node S) : List S.Entry := node.raftLog.entries.map Prod.snd

/-- A log that stores items has no gaps. -/
theorem Stores.values {node : Node S} (stores : Stores P node.raftLog items) :
    node.raftLog = OrderedMap.ofList node.values ∧ Mirrors P node.values items := by
  obtain ⟨copies, same, mirrors⟩ := stores
  have equal : node.values = copies := by rw [Node.values, same, OrderedMap.ofList_values]
  rw [equal]
  exact ⟨same, mirrors⟩

/-- The log after a request, entry by entry. -/
theorem Node.rewritten_log (node : Node S) (request : AppendEntriesRequest n S.Entry)
    (stored : node.raftLog = OrderedMap.ofList node.values) (inside : node.keptIndex request ≤ node.values.length) :
    (node.rewritten request).raftLog =
      OrderedMap.ofList (node.values.take (node.keptIndex request) ++ node.writtenEntries request) := by
  have length : (node.values.take (node.keptIndex request)).length = node.keptIndex request := by
    rw [List.length_take, Nat.min_eq_left inside]
  have written := OrderedMap.ofList_putAll (node.values.take (node.keptIndex request)) (node.writtenEntries request)
  rw [length, ← OrderedMap.ofList_deleteFrom, ← stored] at written
  exact written

/-- Up to the kept index the log is the old one, and behind it the request's entries follow. -/
theorem Node.rewritten_get? {node : Node S} {request : AppendEntriesRequest n S.Entry}
    (stored : node.raftLog = OrderedMap.ofList node.values) (inside : node.keptIndex request ≤ node.values.length)
    {index : Nat} (positive : 1 ≤ index) :
    (node.rewritten request).raftLog.get? index =
      if index ≤ node.keptIndex request then node.raftLog.get? index
      else request.entries[index - request.prevLogIndex - 1]? := by
  obtain ⟨index, rfl⟩ : ∃ k, index = k + 1 := ⟨index - 1, by omega⟩
  have bound : request.prevLogIndex ≤ node.keptIndex request := Nat.le_max_left ..
  have length : (node.values.take (node.keptIndex request)).length = node.keptIndex request := by
    rw [List.length_take, Nat.min_eq_left inside]
  rw [node.rewritten_log request stored inside, OrderedMap.ofList_get?]
  split
  · rename_i old
    rw [List.getElem?_append_left (by omega), List.getElem?_take_of_lt (by omega), stored, OrderedMap.ofList_get?]
  · rename_i new
    rw [List.getElem?_append_right (by omega), length, writtenEntries, List.getElem?_drop]
    congr 1
    omega

/-- A saved log continues with the entries that were pending. -/
theorem Node.save_log {node : Node S} {self : Fin n} {fibers : LeaderFibers S}
    (stored : node.raftLog = OrderedMap.ofList node.values)
    (place : node.savedIndex self fibers = node.values.length) :
    (node.save self fibers).raftLog = OrderedMap.ofList (node.values ++ node.pendingLog) := by
  rw [save, place, stored, OrderedMap.ofList_putAll]

end Metamorphosis
