import Mathlib.Data.List.Induction
import Mathlib.Data.List.Nodup

/-!
The first value with every key of a list, and the last value with a key.
-/

namespace FirstOccurrences
open scoped List
variable {α κ : Type} [DecidableEq κ] (key : α → κ)

/-- The values whose keys have not occurred before them. -/
def firsts (values : List α) : List α :=
  values.foldl (fun kept value => if key value ∈ kept.map key then kept else kept ++ [value]) []

/-- The last value is a first occurrence if its key is new. -/
theorem firsts_concat (values : List α) (value : α) : firsts key (values ++ [value]) =
    if key value ∈ (firsts key values).map key then firsts key values else firsts key values ++ [value] := by
  rw [firsts, List.foldl_append]
  rfl

theorem firsts_concat_old {values : List α} {value : α} (old : key value ∈ (firsts key values).map key) :
    firsts key (values ++ [value]) = firsts key values := by
  rw [firsts_concat, if_pos old]

theorem firsts_concat_new {values : List α} {value : α} (new : key value ∉ (firsts key values).map key) :
    firsts key (values ++ [value]) = firsts key values ++ [value] := by
  rw [firsts_concat, if_neg new]

/-- Every key of a list has a first value. -/
theorem mem_firsts_key (values : List α) (k : κ) : k ∈ (firsts key values).map key ↔ k ∈ values.map key := by
  induction values using List.reverseRecOn with
  | nil => rfl
  | append_singleton rest value ih =>
      by_cases old : key value ∈ (firsts key rest).map key
      · rw [firsts_concat_old key old, ih, List.map_append, List.mem_append, List.map_singleton, List.mem_singleton]
        refine ⟨Or.inl, fun member => member.elim id ?_⟩
        rintro rfl
        exact ih.mp old
      · rw [firsts_concat_new key old, List.map_append, List.map_append, List.mem_append, List.mem_append, ih]

/-- First occurrences keep their order. -/
theorem firsts_sublist (values : List α) : firsts key values <+ values := by
  induction values using List.reverseRecOn with
  | nil => exact .slnil
  | append_singleton rest value ih =>
      by_cases old : key value ∈ (firsts key rest).map key
      · rw [firsts_concat_old key old]
        exact ih.trans (List.sublist_append_left ..)
      · rw [firsts_concat_new key old]
        exact ih.append (.refl _)

/-- No key occurs twice among the first values. -/
theorem firsts_nodup (values : List α) : ((firsts key values).map key).Nodup := by
  induction values using List.reverseRecOn with
  | nil => exact .nil
  | append_singleton rest value ih =>
      by_cases old : key value ∈ (firsts key rest).map key
      · rw [firsts_concat_old key old]
        exact ih
      · rw [firsts_concat_new key old, List.map_append, List.map_singleton]
        refine List.nodup_append.mpr ⟨ih, List.nodup_singleton _, fun k member other new => ?_⟩
        rw [List.mem_singleton.mp new]
        rintro rfl
        exact old member

/-- A longer list has more first values. -/
theorem firsts_grow (values more : List α) : firsts key values <+: firsts key (values ++ more) := by
  induction more using List.reverseRecOn with
  | nil => simp
  | append_singleton rest value ih =>
      rw [← List.append_assoc]
      by_cases old : key value ∈ (firsts key (values ++ rest)).map key
      · rw [firsts_concat_old key old]
        exact ih
      · rw [firsts_concat_new key old]
        exact ih.trans (List.prefix_append ..)

/-- The last value with a key. -/
def lastWith (values : List α) (k : κ) : Option α := values.reverse.find? fun value => key value = k

/-- The last value is the last one of its key. -/
theorem lastWith_concat (values : List α) (value : α) (k : κ) :
    lastWith key (values ++ [value]) k = if key value = k then some value else lastWith key values k := by
  simp only [lastWith, List.reverse_append, List.reverse_singleton, List.singleton_append, List.find?_cons]
  by_cases same : key value = k
  · simp only [same, decide_true, if_true]
  · simp only [same, decide_false, if_false]

/-- The last value with a key stands after all others. -/
theorem lastWith_eq_some {values : List α} {k : κ} {value : α} (last : lastWith key values k = some value) :
    key value = k ∧ ∃ before after, values = before ++ value :: after ∧ ∀ other ∈ after, key other ≠ k := by
  obtain ⟨same, after, before, split, none_⟩ := List.find?_eq_some_iff_append.mp last
  refine ⟨of_decide_eq_true same, before.reverse, after.reverse, ?_, fun other member equal => ?_⟩
  · rw [← List.reverse_reverse values, split, List.reverse_append, List.reverse_cons, List.append_assoc]
    rfl
  · have different := none_ other (List.mem_reverse.mp member)
    rw [equal] at different
    simp at different

/-- No value has the key. -/
theorem lastWith_eq_none {values : List α} {k : κ} (absent : lastWith key values k = none) :
    ∀ value ∈ values, key value ≠ k := by
  intro value member same
  have different := List.find?_eq_none.mp absent value (List.mem_reverse.mpr member)
  exact different (decide_eq_true same)

end FirstOccurrences
