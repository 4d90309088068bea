import Mathlib.Data.List.Basic
import Mathlib.Data.List.Nodup

/-!
Histories of concurrent operations on a sequential object, and orders in which the object could have
answered the operations one after another.
-/

namespace Linearizability
open scoped List
variable {Op Res : Type}

/-- A sequential object answers every operation and goes on to its next state. -/
structure Object (Op Res : Type) where
  State : Type
  initial : State
  apply : State → Op → Res × State

/-- The state after a list of operations. -/
def Object.run (object : Object Op Res) (ops : List Op) : object.State :=
  ops.foldl (fun state op => (object.apply state op).2) object.initial

@[simp] theorem Object.run_concat (object : Object Op Res) (ops : List Op) (op : Op) :
    object.run (ops ++ [op]) = (object.apply (object.run ops) op).2 := by
  simp only [run, List.foldl_append, List.foldl_cons, List.foldl_nil]

/-- The answer to an operation that follows a list of operations. -/
def Object.result (object : Object Op Res) (before : List Op) (op : Op) : Res :=
  (object.apply (object.run before) op).1

/-- When operations were invoked, and when they were completed and with which result. A completion
without a result says nothing about the operation. -/
structure History (Op Res : Type) where
  invoked : List (Op × Nat)
  completed : List (Op × Option Res × Nat)

/-- An order of operations that explains a history. -/
structure Linearization (object : Object Op Res) (history : History Op Res) (order : List Op) : Prop where
  invoked : ∀ op ∈ order, ∃ time, (op, time) ∈ history.invoked
  once : order.Nodup
  results : ∀ op result time, (op, some result, time) ∈ history.completed →
    ∃ before after, order = before ++ op :: after ∧ result = object.result before op
  realTime : ∀ first result ended second started, (first, result, ended) ∈ history.completed →
    (second, started) ∈ history.invoked → ended < started → first ∈ order → second ∈ order →
    [first, second] <+ order

/-- A time after all invocations and before all completions of an operation. -/
structure History.Spans (history : History Op Res) (op : Op) (time : Nat) : Prop where
  after : ∀ started, (op, started) ∈ history.invoked → started < time
  before : ∀ result ended, (op, result, ended) ∈ history.completed → time < ended

/-- Two different members of a list come one after the other. -/
theorem sublist_or_sublist {order : List Op} {first second : Op} (member : first ∈ order) (other : second ∈ order)
    (different : first ≠ second) : [first, second] <+ order ∨ [second, first] <+ order := by
  obtain ⟨before, after, rfl⟩ := List.append_of_mem member
  rcases List.mem_append.mp other with earlier | later
  · right
    exact (List.singleton_sublist.mpr earlier).append (List.singleton_sublist.mpr List.mem_cons_self)
  · left
    have rest := (List.mem_cons.mp later).resolve_left different.symm
    exact ((List.singleton_sublist.mpr rest).cons_cons first).trans (List.sublist_append_right ..)

/-- Operations that take effect at increasing points in their spans respect real time. -/
theorem realTime_of_points {history : History Op Res} {points : List (Op × Nat)} {order : List Op}
    (increasing : points.Pairwise fun first second => first.2 < second.2)
    (spans : ∀ point ∈ points, history.Spans point.1 point.2) (part : order <+ points.map Prod.fst)
    {first second : Op} {result : Option Res} {ended started : Nat} (completed : (first, result, ended) ∈ history.completed)
    (invoked : (second, started) ∈ history.invoked) (later : ended < started) (member : first ∈ order)
    (other : second ∈ order) : [first, second] <+ order := by
  have forward : (points.map Prod.fst).Pairwise fun op next => op ≠ second ∨ next ≠ first := by
    refine List.pairwise_map.mpr (increasing.imp_of_mem ?_)
    rintro ⟨op, time⟩ ⟨next, nextTime⟩ present presentNext earlier
    by_contra swapped
    push Not at swapped
    obtain ⟨rfl, rfl⟩ := swapped
    have started := (spans _ present).after _ invoked
    have ended := (spans _ presentNext).before _ _ completed
    dsimp only at started ended earlier
    omega
  have different : first ≠ second := by
    rintro rfl
    obtain ⟨⟨op, time⟩, present, rfl⟩ := List.mem_map.mp (part.subset member)
    have started := (spans _ present).after _ invoked
    have ended := (spans _ present).before _ _ completed
    omega
  rcases sublist_or_sublist member other different with right | swapped
  · exact right
  · rcases List.pairwise_iff_forall_sublist.mp forward (swapped.trans part) with wrong | wrong
    · exact absurd rfl wrong
    · exact absurd rfl wrong

end Linearizability
