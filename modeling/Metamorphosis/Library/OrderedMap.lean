import Mathlib.Data.List.Basic
import Mathlib.Tactic.Common

/-- A finite map from numbers to values, held in the order of its keys. -/
structure OrderedMap (V : Type) where
  entries : List (Nat × V)
  sorted : entries.Pairwise fun p q => p.1 < q.1

namespace OrderedMap
variable {V : Type}

def empty : OrderedMap V := ⟨[], List.Pairwise.nil⟩

/-- The value stored under a key. -/
def get? (map : OrderedMap V) (key : Nat) : Option V :=
  (map.entries.find? fun p => p.1 == key).map Prod.snd

/-- The entry with the greatest key. -/
def last? (map : OrderedMap V) : Option (Nat × V) := map.entries.getLast?

/-- A stored value replaces the value that the key had before. -/
def put (map : OrderedMap V) (key : Nat) (value : V) : OrderedMap V where
  entries := map.entries.filter (fun p => p.1 < key) ++
    (key, value) :: map.entries.filter (fun p => key < p.1)
  sorted := by
    rw [List.pairwise_append, List.pairwise_cons]
    refine ⟨map.sorted.filter _, ⟨?_, map.sorted.filter _⟩, ?_⟩
    · intro p member
      simpa using (List.mem_filter.mp member).2
    · intro p member q memberQ
      have below : p.1 < key := by simpa using (List.mem_filter.mp member).2
      rcases List.mem_cons.mp memberQ with rfl | above
      · exact below
      · have above : key < q.1 := by simpa using (List.mem_filter.mp above).2
        exact Nat.lt_trans below above

/-- Every key from `start` on is deleted. -/
def deleteFrom (map : OrderedMap V) (start : Nat) : OrderedMap V where
  entries := map.entries.filter fun p => p.1 < start
  sorted := map.sorted.filter _

/-- The values are stored one after another, the first under `start`. -/
def putAll (map : OrderedMap V) (start : Nat) : List V → OrderedMap V
  | [] => map
  | value :: rest => (map.put start value).putAll (start + 1) rest

@[ext] theorem ext {first second : OrderedMap V} (same : first.entries = second.entries) :
    first = second := by
  cases first
  cases second
  cases same
  rfl

/-- Consecutive keys from `start` on. -/
def number (start : Nat) : List V → List (Nat × V)
  | [] => []
  | value :: rest => (start, value) :: number (start + 1) rest

/-- The numbers begin with the start and have no gaps. -/
theorem number_key {start : Nat} {values : List V} {p : Nat × V} (member : p ∈ number start values) :
    start ≤ p.1 ∧ p.1 < start + values.length := by
  induction values generalizing start with
  | nil => simp [number] at member
  | cons value rest ih =>
      simp only [number, List.mem_cons] at member
      rcases member with rfl | later
      · simp
      · have bounds := ih later
        simp only [List.length_cons]
        omega

/-- The numbers grow. -/
theorem number_sorted (start : Nat) (values : List V) :
    (number start values).Pairwise fun p q => p.1 < q.1 := by
  induction values generalizing start with
  | nil => exact List.Pairwise.nil
  | cons value rest ih =>
      refine List.pairwise_cons.mpr ⟨fun p member => ?_, ih (start + 1)⟩
      have bounds := number_key member
      omega

/-- The second part is numbered after the first. -/
theorem number_append (start : Nat) (first second : List V) :
    number start (first ++ second) = number start first ++ number (start + first.length) second := by
  induction first generalizing start with
  | nil => simp [number]
  | cons value rest ih => simp [number, ih, Nat.add_assoc, Nat.add_comm 1]

/-- The map whose keys are exactly `1, …, n` for a list of `n` values. -/
def ofList (values : List V) : OrderedMap V := ⟨number 1 values, number_sorted 1 values⟩

@[simp] theorem ofList_nil : ofList ([] : List V) = empty := rfl

/-- The values are as before. -/
theorem number_values (start : Nat) (values : List V) : (number start values).map Prod.snd = values := by
  induction values generalizing start with
  | nil => rfl
  | cons value rest ih => simp [number, ih]

theorem ofList_values (values : List V) : (ofList values).entries.map Prod.snd = values :=
  number_values 1 values

/-- The keys are the numbers in a row. -/
theorem number_keys (start : Nat) (values : List V) :
    (number start values).map Prod.fst = List.range' start values.length := by
  induction values generalizing start with
  | nil => rfl
  | cons value rest ih => simp [number, ih, List.range'_succ]

theorem ofList_keys (values : List V) : (ofList values).entries.map Prod.fst = List.range' 1 values.length :=
  number_keys 1 values

/-- A value is found under its number. -/
theorem number_find (start : Nat) (values : List V) (key : Nat) (above : start ≤ key) :
    ((number start values).find? fun p => p.1 == key).map Prod.snd = values[key - start]? := by
  induction values generalizing start with
  | nil => simp [number]
  | cons value rest ih =>
      by_cases here : start = key
      · subst here
        simp [number]
      · have later := ih (start + 1) (by omega)
        have shifted : key - start = (key - (start + 1)) + 1 := by omega
        simp [number, here, later, shifted]

/-- The values of a list are found from the key 1 on. -/
@[simp] theorem ofList_get? (values : List V) (index : Nat) :
    (ofList values).get? (index + 1) = values[index]? := by
  simpa [get?, ofList] using number_find 1 values (index + 1) (by omega)

@[simp] theorem ofList_get?_zero (values : List V) : (ofList values).get? 0 = none := by
  simp only [get?, ofList, Option.map_eq_none_iff, List.find?_eq_none]
  intro p member
  have bounds := number_key member
  simp only [beq_iff_eq]
  omega

/-- The last value has the last number. -/
theorem number_getLast? (start : Nat) (values : List V) :
    (number start values).getLast? =
      values.getLast?.map fun value => (start + values.length - 1, value) := by
  induction values generalizing start with
  | nil => simp [number]
  | cons value rest ih =>
      cases rest with
      | nil => simp [number]
      | cons next rest =>
          have tail := ih (start + 1)
          simp only [number] at tail ⊢
          rw [List.getLast?_cons_cons, tail, List.getLast?_cons_cons]
          simp only [List.length_cons]
          congr 1
          funext last
          congr 1
          omega

/-- The greatest key of a numbered list is its length. -/
theorem ofList_last? (values : List V) :
    (ofList values).last? = values.getLast?.map fun value => (values.length, value) := by
  rw [last?, ofList, number_getLast?]
  simp

/-- The entries below a bound are those of a shorter list. -/
theorem number_filter_lt (start : Nat) (values : List V) (bound : Nat) :
    (number start values).filter (fun p => p.1 < bound) = number start (values.take (bound - start)) := by
  induction values generalizing start with
  | nil => simp [number]
  | cons value rest ih =>
      by_cases inside : start < bound
      · have shifted : bound - start = (bound - (start + 1)) + 1 := by omega
        simp [number, inside, ih, shifted]
      · have zero : bound - start = 0 := by omega
        have tail := ih (start + 1)
        have zero' : bound - (start + 1) = 0 := by omega
        rw [zero'] at tail
        simp only [number, List.take_zero] at tail
        simp [number, inside, zero, tail]

/-- Deleting from an index on truncates a numbered list. -/
@[simp] theorem ofList_deleteFrom (values : List V) (length : Nat) :
    (ofList values).deleteFrom (length + 1) = ofList (values.take length) := by
  apply ext
  simpa [ofList, deleteFrom] using number_filter_lt 1 values (length + 1)

/-- A value that is put behind the last key is appended. -/
theorem ofList_put (values : List V) (value : V) :
    (ofList values).put (values.length + 1) value = ofList (values ++ [value]) := by
  apply ext
  have below := number_filter_lt 1 values (values.length + 1)
  have above : (number 1 values).filter (fun p => values.length + 1 < p.1) = [] := by
    apply List.filter_eq_nil_iff.mpr
    intro p member
    have bounds := number_key member
    simp only [decide_eq_true_eq]
    omega
  simp only [put, ofList, below, above, number_append]
  simp [number, Nat.add_comm]

/-- Storing the next keys extends a numbered list. -/
theorem ofList_putAll (values more : List V) :
    (ofList values).putAll (values.length + 1) more = ofList (values ++ more) := by
  induction more generalizing values with
  | nil => simp [putAll]
  | cons value rest ih =>
      rw [putAll, ofList_put]
      have next := ih (values ++ [value])
      rw [List.length_append, List.length_singleton] at next
      rw [next, List.append_assoc, List.singleton_append]

end OrderedMap
