import Mathlib.Data.Finset.Max
import Mathlib.Logic.Function.Basic

/-- A value for each of finitely many keys. -/
structure FiniteMap (K V : Type) where
  keys : Finset K
  lookup : K → Option V
  mem_keys : ∀ key, key ∈ keys ↔ (lookup key).isSome = true

namespace FiniteMap
variable {K V : Type}

def empty : FiniteMap K V where
  keys := ∅
  lookup _ := none
  mem_keys key := by simp

variable [LinearOrder K]

/-- A stored value replaces the value that the key had before. -/
def put (map : FiniteMap K V) (key : K) (value : V) : FiniteMap K V where
  keys := insert key map.keys
  lookup := Function.update map.lookup key (some value)
  mem_keys other := by
    rw [Finset.mem_insert, map.mem_keys]
    by_cases same : other = key
    · simp [same]
    · simp [same]

/-- The keys that satisfy a condition disappear. -/
def deleteIf (map : FiniteMap K V) (gone : K → Bool) : FiniteMap K V where
  keys := map.keys.filter fun key => gone key = false
  lookup key := if gone key then none else map.lookup key
  mem_keys key := by
    rw [Finset.mem_filter, map.mem_keys]
    cases gone key with
    | false => simp
    | true => simp

def delete (map : FiniteMap K V) (key : K) : FiniteMap K V := map.deleteIf fun other => other = key

/-- A key has the value that was put last. -/
theorem lookup_put_self (map : FiniteMap K V) (key : K) (value : V) : (map.put key value).lookup key = some value := by
  simp [put]

/-- A put leaves all other keys alone. -/
theorem lookup_put_of_ne (map : FiniteMap K V) {key other : K} (different : other ≠ key) (value : V) :
    (map.put key value).lookup other = map.lookup other := by
  simp [put, different]

/-- A deleted key has no value. -/
theorem lookup_delete_self (map : FiniteMap K V) (key : K) : (map.delete key).lookup key = none :=
  if_pos (decide_eq_true rfl)

/-- A delete leaves all other keys alone. -/
theorem lookup_delete_of_ne (map : FiniteMap K V) {key other : K} (different : other ≠ key) :
    (map.delete key).lookup other = map.lookup other :=
  if_neg fun same => different (of_decide_eq_true same)

/-- The keys of `[start, stop)` disappear. -/
def deleteRange (map : FiniteMap K V) (start stop : K) : FiniteMap K V :=
  map.deleteIf fun key => start ≤ key ∧ key < stop

/-- The least of some keys. -/
def least (keys : Finset K) : Option K :=
  if inhabited : keys.Nonempty then some (keys.min' inhabited) else none

/-- The greatest of some keys. -/
def greatest (keys : Finset K) : Option K :=
  if inhabited : keys.Nonempty then some (keys.max' inhabited) else none

def first? (map : FiniteMap K V) : Option K := least map.keys

def last? (map : FiniteMap K V) : Option K := greatest map.keys

/-- The key that follows another one. -/
def after? (map : FiniteMap K V) (key : K) : Option K := least (map.keys.filter (key < ·))

/-- The key that another one follows. -/
def before? (map : FiniteMap K V) (key : K) : Option K := greatest (map.keys.filter (· < key))

/-- A key that is not above any other one is the least. -/
theorem least_eq_some {keys : Finset K} {key : K} (member : key ∈ keys) (bound : ∀ other ∈ keys, key ≤ other) :
    least keys = some key := by
  have inhabited : keys.Nonempty := ⟨key, member⟩
  rw [least, dif_pos inhabited]
  exact congrArg some (le_antisymm (Finset.min'_le keys key member) (Finset.le_min' keys inhabited key bound))

/-- A key that is not below any other one is the greatest. -/
theorem greatest_eq_some {keys : Finset K} {key : K} (member : key ∈ keys) (bound : ∀ other ∈ keys, other ≤ key) :
    greatest keys = some key := by
  have inhabited : keys.Nonempty := ⟨key, member⟩
  rw [greatest, dif_pos inhabited]
  exact congrArg some (le_antisymm (Finset.max'_le keys inhabited key bound) (Finset.le_max' keys key member))

theorem least_eq_none {keys : Finset K} (absent : ∀ key, key ∉ keys) : least keys = none :=
  dif_neg fun ⟨key, member⟩ => absent key member

theorem greatest_eq_none {keys : Finset K} (absent : ∀ key, key ∉ keys) : greatest keys = none :=
  dif_neg fun ⟨key, member⟩ => absent key member

section Sorted
variable {entries : List (K × V)}

/-- In a list that is sorted by keys, the smaller keys come first. -/
theorem span_lt (sorted : entries.Pairwise fun p q => p.1 < q.1) (key : K) :
    entries.takeWhile (fun entry => entry.1 < key) = entries.filter (fun entry => entry.1 < key) ∧
      entries.dropWhile (fun entry => entry.1 < key) = entries.filter (fun entry => key ≤ entry.1) := by
  induction entries with
  | nil => exact ⟨rfl, rfl⟩
  | cons entry rest ih =>
      obtain ⟨greater, sorted⟩ := List.pairwise_cons.mp sorted
      by_cases below : entry.1 < key
      · obtain ⟨taken, dropped⟩ := ih sorted
        simp [below, not_le.mpr below, taken, dropped]
      · have above : ∀ other ∈ rest, key ≤ other.1 := fun other member =>
          (not_lt.mp below).trans (greater other member).le
        have kept : rest.filter (fun entry => key ≤ entry.1) = rest :=
          List.filter_eq_self.mpr fun other member => decide_eq_true (above other member)
        have gone : rest.filter (fun entry => entry.1 < key) = [] :=
          List.filter_eq_nil_iff.mpr fun other member => by simpa using above other member
        simp [below, not_lt.mp below, kept, gone]

/-- A key stands in front of the greater ones, if it is there. -/
theorem filter_le_cases (sorted : entries.Pairwise fun p q => p.1 < q.1) (key : K) :
    (∃ value, (key, value) ∈ entries ∧
      entries.filter (fun entry => key ≤ entry.1) = (key, value) :: entries.filter fun entry => key < entry.1) ∨
    ((∀ entry ∈ entries, entry.1 ≠ key) ∧
      entries.filter (fun entry => key ≤ entry.1) = entries.filter fun entry => key < entry.1) := by
  induction entries with
  | nil => exact Or.inr ⟨nofun, rfl⟩
  | cons entry rest ih =>
      obtain ⟨greater, sorted⟩ := List.pairwise_cons.mp sorted
      rcases lt_trichotomy entry.1 key with below | rfl | above
      · have left : ¬ key ≤ entry.1 := not_le.mpr below
        have right : ¬ key < entry.1 := below.not_gt
        rcases ih sorted with ⟨value, member, same⟩ | ⟨absent, same⟩
        · exact Or.inl ⟨value, List.mem_cons_of_mem _ member, by simp [left, right, same]⟩
        · refine Or.inr ⟨fun other member => ?_, by simp [left, right, same]⟩
          rcases List.mem_cons.mp member with rfl | later
          · exact below.ne
          · exact absent other later
      · refine Or.inl ⟨entry.2, List.mem_cons_self, ?_⟩
        have same : rest.filter (fun other => entry.1 ≤ other.1) = rest.filter fun other => entry.1 < other.1 :=
          List.filter_congr fun other member => by simp [greater other member, (greater other member).le]
        simp [same]
      · refine Or.inr ⟨fun other member => ?_, ?_⟩
        · rcases List.mem_cons.mp member with rfl | later
          · exact above.ne'
          · exact (above.trans (greater other later)).ne'
        · refine List.filter_congr fun other member => ?_
          have beyond : key < other.1 := by
            rcases List.mem_cons.mp member with rfl | later
            · exact above
            · exact above.trans (greater other later)
          simp [beyond, beyond.le]

/-- A sorted list is divided by a key. -/
theorem filter_lt_append (sorted : entries.Pairwise fun p q => p.1 < q.1) (key : K) :
    entries.filter (fun entry => entry.1 < key) ++ entries.filter (fun entry => key ≤ entry.1) = entries := by
  obtain ⟨taken, dropped⟩ := span_lt sorted key
  rw [← taken, ← dropped]
  exact List.takeWhile_append_dropWhile

/-- The entries below a key and those above it are all others. -/
theorem filter_ne (sorted : entries.Pairwise fun p q => p.1 < q.1) (key : K) :
    entries.filter (fun entry => entry.1 < key) ++ entries.filter (fun entry => key < entry.1) =
      entries.filter fun entry => !decide (entry.1 = key) := by
  conv_rhs => rw [← filter_lt_append sorted key, List.filter_append, List.filter_filter, List.filter_filter]
  congr 1
  · refine List.filter_congr fun entry _ => ?_
    by_cases below : entry.1 < key
    · simp [below, below.ne]
    · simp [below]
  · refine List.filter_congr fun entry _ => ?_
    rcases lt_trichotomy entry.1 key with below | same | above
    · simp [below.not_gt, below.not_ge]
    · simp [same]
    · simp [above, above.ne', above.le]

/-- The first entry above a key is above it. -/
theorem above_of_filter {key : K} {entry : K × V} {rest : List (K × V)}
    (greater : entries.filter (fun entry => key < entry.1) = entry :: rest) : key < entry.1 := by
  have member : entry ∈ entries.filter fun entry => key < entry.1 := by simp [greater]
  simpa using (List.mem_filter.mp member).2

/-- What is before a range and what is behind it. -/
theorem filter_range (sorted : entries.Pairwise fun p q => p.1 < q.1) {start stop : K} (ordered : start ≤ stop) :
    entries.filter (fun entry => entry.1 < start) ++ entries.filter (fun entry => stop ≤ entry.1) =
      entries.filter fun entry => !decide (start ≤ entry.1 ∧ entry.1 < stop) := by
  induction entries with
  | nil => rfl
  | cons entry rest ih =>
      obtain ⟨greater, sorted⟩ := List.pairwise_cons.mp sorted
      by_cases below : entry.1 < start
      · have inside : ¬ stop ≤ entry.1 := not_le.mpr (below.trans_le ordered)
        have outside : ¬ start ≤ entry.1 := not_le.mpr below
        simpa [below, inside, outside] using ih sorted
      · have from_ : ∀ other ∈ entry :: rest, start ≤ other.1 := by
          intro other member
          rcases List.mem_cons.mp member with rfl | later
          · exact not_lt.mp below
          · exact (not_lt.mp below).trans (greater other later).le
        have gone : (entry :: rest).filter (fun entry => entry.1 < start) = [] :=
          List.filter_eq_nil_iff.mpr fun other member => by simpa using from_ other member
        rw [gone, List.nil_append]
        refine List.filter_congr fun other member => ?_
        by_cases inside : other.1 < stop
        · simp [from_ other member, inside, not_le.mpr inside]
        · simp [inside, not_lt.mp inside]

end Sorted

/-- A list holds the entries of a map in the order of the keys. -/
structure Lists (entries : List (K × V)) (map : FiniteMap K V) : Prop where
  sorted : entries.Pairwise fun p q => p.1 < q.1
  lookup : ∀ key value, map.lookup key = some value ↔ (key, value) ∈ entries

/-- The empty list lists the empty map. -/
theorem Lists.empty : Lists [] (FiniteMap.empty : FiniteMap K V) where
  sorted := .nil
  lookup _ _ := by simp [FiniteMap.empty]

variable {entries : List (K × V)} {map : FiniteMap K V}

/-- The keys of the map are those of the list. -/
theorem Lists.mem_keys (lists : Lists entries map) {key : K} : key ∈ map.keys ↔ ∃ value, (key, value) ∈ entries := by
  rw [map.mem_keys, Option.isSome_iff_exists]
  exact exists_congr fun value => lists.lookup key value

/-- A key that the list does not have is not in the map. -/
theorem Lists.lookup_none (lists : Lists entries map) {key : K} (absent : ∀ entry ∈ entries, entry.1 ≠ key) :
    map.lookup key = none := by
  cases found : map.lookup key with
  | none => rfl
  | some value => exact absurd rfl (absent _ ((lists.lookup key value).mp found))

/-- The entries from a key on begin with the key, if it is there, and go on with the greater ones. -/
theorem Lists.from_key (lists : Lists entries map) (key : K) :
    (∃ value, map.lookup key = some value ∧
      entries.filter (fun entry => key ≤ entry.1) = (key, value) :: entries.filter fun entry => key < entry.1) ∨
    (map.lookup key = none ∧ (∀ entry ∈ entries, entry.1 ≠ key) ∧
      entries.filter (fun entry => key ≤ entry.1) = entries.filter fun entry => key < entry.1) := by
  rcases filter_le_cases lists.sorted key with ⟨value, member, same⟩ | ⟨absent, same⟩
  · exact Or.inl ⟨value, (lists.lookup key value).mpr member, same⟩
  · exact Or.inr ⟨lists.lookup_none absent, absent, same⟩

/-- Every key stands at a place of the list. -/
theorem Lists.mem_keys_iff (lists : Lists entries map) {key : K} :
    key ∈ map.keys ↔ ∃ i, ∃ inside : i < entries.length, entries[i].1 = key := by
  rw [lists.mem_keys]
  constructor
  · rintro ⟨value, stored⟩
    obtain ⟨i, inside, found⟩ := List.getElem_of_mem stored
    exact ⟨i, inside, by rw [found]⟩
  · rintro ⟨i, inside, rfl⟩
    exact ⟨entries[i].2, List.getElem_mem inside⟩

/-- Positions and keys are in the same order. -/
theorem Lists.key_lt_iff (lists : Lists entries map) {i j : Nat} (first : i < entries.length)
    (second : j < entries.length) : entries[i].1 < entries[j].1 ↔ i < j := by
  have increasing := List.pairwise_iff_getElem.mp lists.sorted
  constructor
  · intro less
    by_contra behind
    rcases Nat.lt_or_eq_of_le (Nat.le_of_not_lt behind) with greater | rfl
    · exact absurd less (increasing j i second first greater).not_gt
    · exact lt_irrefl _ less
  · exact increasing i j first second

/-- Keys are ordered as their places are. -/
theorem Lists.key_le_iff (lists : Lists entries map) {i j : Nat} (first : i < entries.length)
    (second : j < entries.length) : entries[i].1 ≤ entries[j].1 ↔ i ≤ j := by
  rw [← not_lt, lists.key_lt_iff second first, Nat.not_lt]

/-- The first key of the map is the first one of the list. -/
theorem Lists.first? (lists : Lists entries map) : map.first? = (entries[0]?).map Prod.fst := by
  by_cases inside : 0 < entries.length
  · rw [List.getElem?_eq_getElem inside]
    refine least_eq_some (lists.mem_keys_iff.mpr ⟨0, inside, rfl⟩) fun other member => ?_
    obtain ⟨i, bound, rfl⟩ := lists.mem_keys_iff.mp member
    exact (lists.key_le_iff inside bound).mpr (Nat.zero_le i)
  · rw [List.getElem?_eq_none (by omega)]
    refine least_eq_none fun other member => ?_
    obtain ⟨i, bound, _⟩ := lists.mem_keys_iff.mp member
    omega

/-- The last key of the map is the last one of the list. -/
theorem Lists.last? (lists : Lists entries map) : map.last? = (entries[entries.length - 1]?).map Prod.fst := by
  by_cases inside : entries.length - 1 < entries.length
  · rw [List.getElem?_eq_getElem inside]
    refine greatest_eq_some (lists.mem_keys_iff.mpr ⟨_, inside, rfl⟩) fun other member => ?_
    obtain ⟨i, bound, rfl⟩ := lists.mem_keys_iff.mp member
    exact (lists.key_le_iff bound inside).mpr (by omega)
  · rw [List.getElem?_eq_none (by omega)]
    refine greatest_eq_none fun other member => ?_
    obtain ⟨i, bound, _⟩ := lists.mem_keys_iff.mp member
    omega

/-- The next greater key stands at the next place. -/
theorem Lists.after? (lists : Lists entries map) {i : Nat} (inside : i < entries.length) :
    map.after? entries[i].1 = (entries[i + 1]?).map Prod.fst := by
  by_cases more : i + 1 < entries.length
  · rw [List.getElem?_eq_getElem more]
    refine least_eq_some (Finset.mem_filter.mpr ⟨lists.mem_keys_iff.mpr ⟨i + 1, more, rfl⟩,
      (lists.key_lt_iff inside more).mpr (Nat.lt_succ_self i)⟩) fun other member => ?_
    obtain ⟨member, above⟩ := Finset.mem_filter.mp member
    obtain ⟨j, bound, rfl⟩ := lists.mem_keys_iff.mp member
    exact (lists.key_le_iff more bound).mpr ((lists.key_lt_iff inside bound).mp above)
  · rw [List.getElem?_eq_none (by omega)]
    refine least_eq_none fun other member => ?_
    obtain ⟨member, above⟩ := Finset.mem_filter.mp member
    obtain ⟨j, bound, rfl⟩ := lists.mem_keys_iff.mp member
    have later := (lists.key_lt_iff inside bound).mp above
    omega

/-- Nothing comes before the first entry. -/
theorem Lists.before?_first (lists : Lists entries map) (inside : 0 < entries.length) :
    map.before? entries[0].1 = none := by
  refine greatest_eq_none fun other member => ?_
  obtain ⟨member, below⟩ := Finset.mem_filter.mp member
  obtain ⟨j, bound, rfl⟩ := lists.mem_keys_iff.mp member
  exact absurd ((lists.key_lt_iff bound inside).mp below) (Nat.not_lt_zero j)

/-- The next smaller key stands at the place before. -/
theorem Lists.before?_succ (lists : Lists entries map) {i : Nat} (inside : i + 1 < entries.length) :
    map.before? entries[i + 1].1 = some entries[i].1 := by
  have earlier : i < entries.length := by omega
  refine greatest_eq_some (Finset.mem_filter.mpr ⟨lists.mem_keys_iff.mpr ⟨i, earlier, rfl⟩,
    (lists.key_lt_iff earlier inside).mpr (Nat.lt_succ_self i)⟩) fun other member => ?_
  obtain ⟨member, below⟩ := Finset.mem_filter.mp member
  obtain ⟨j, bound, rfl⟩ := lists.mem_keys_iff.mp member
  exact (lists.key_le_iff bound earlier).mpr (Nat.le_of_lt_succ ((lists.key_lt_iff bound inside).mp below))

/-- Some entries of the list disappear. -/
theorem Lists.deleteIf (lists : Lists entries map) (gone : K → Bool) :
    Lists (entries.filter fun entry => !gone entry.1) (map.deleteIf gone) where
  sorted := lists.sorted.filter _
  lookup key value := by
    rw [List.mem_filter, ← lists.lookup]
    cases known : gone key with
    | false => simp [FiniteMap.deleteIf, known]
    | true => simp [FiniteMap.deleteIf, known]

/-- An entry takes its place between the smaller and the greater keys. -/
theorem Lists.put (lists : Lists entries map) (key : K) (value : V) :
    Lists (entries.filter (fun entry => entry.1 < key) ++ (key, value) :: entries.filter fun entry => key < entry.1)
      (map.put key value) where
  sorted := by
    rw [List.pairwise_append, List.pairwise_cons]
    refine ⟨lists.sorted.filter _, ⟨?_, lists.sorted.filter _⟩, ?_⟩
    · intro entry member
      simpa using (List.mem_filter.mp member).2
    · intro entry member other memberOther
      have below : entry.1 < key := by simpa using (List.mem_filter.mp member).2
      rcases List.mem_cons.mp memberOther with rfl | above
      · exact below
      · have above : key < other.1 := by simpa using (List.mem_filter.mp above).2
        exact below.trans above
  lookup other stored := by
    rw [List.mem_append, List.mem_cons, List.mem_filter, List.mem_filter, ← lists.lookup]
    by_cases same : other = key
    · subst same
      simp [FiniteMap.put, eq_comm]
    · rcases lt_or_gt_of_ne same with below | above
      · simp [FiniteMap.put, same, below, below.not_gt]
      · simp [FiniteMap.put, same, above, above.not_gt]

end FiniteMap
