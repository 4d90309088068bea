import Mathlib.Tactic.Common

/-!
Programs that use a component by calling it. A program is written once and can be run on every component that answers
its calls, so what one component refines of another one carries over to the programs that use it.
-/

/-- A program that makes calls and goes on with the answers. It may abort. -/
inductive CallProgram (C R A : Type) where
  | done (value : A)
  | abort
  | call (request : C) (next : R → CallProgram C R A)

namespace CallProgram
variable {C R A B σ τ : Type}

def bind : CallProgram C R A → (A → CallProgram C R B) → CallProgram C R B
  | .done value, rest => rest value
  | .abort, _ => .abort
  | .call request next, rest => .call request fun answer => (next answer).bind rest

instance : Monad (CallProgram C R) where
  pure := .done
  bind := .bind

/-- The program runs on a component. It ends with a result or aborted, and there is no end where the component does not
answer. -/
def run (answer : σ → C → Option (σ × R)) (state : σ) : CallProgram C R A → Option (σ × Option A)
  | .done value => some (state, some value)
  | .abort => some (state, none)
  | .call request next =>
      match answer state request with
      | none => none
      | some (after, given) => run answer after (next given)

variable {answer : σ → C → Option (σ × R)} {answerT : τ → C → Option (τ × R)} {state after : σ}

@[simp] theorem run_pure (value : A) : run answer state (pure value) = some (state, some value) := rfl

@[simp] theorem run_abort : run answer state (.abort : CallProgram C R A) = some (state, none) := rfl

/-- A program goes on with the answer to its call. -/
theorem run_call {request : C} {given : R} {next : R → CallProgram C R A}
    (answered : answer state request = some (after, given)) :
    run answer state (.call request next) = run answer after (next given) := by
  rw [run, answered]

/-- What follows the first part of a program. -/
def resume (answer : σ → C → Option (σ × R)) (rest : A → CallProgram C R B) : σ × Option A → Option (σ × Option B)
  | (state, none) => some (state, none)
  | (state, some value) => run answer state (rest value)

/-- A program that consists of two parts runs the second one after the first. -/
theorem run_bind_eq (first : CallProgram C R A) (rest : A → CallProgram C R B) :
    run answer state (first >>= rest) = (run answer state first).bind (resume answer rest) := by
  change run answer state (first.bind rest) = _
  induction first generalizing state with
  | done value => rfl
  | abort => rfl
  | call request next ih =>
      rw [bind, run, run]
      cases answer state request with
      | none => rfl
      | some answered => exact ih answered.2

/-- A program whose first part ends with a result goes on from there. -/
theorem run_bind {first : CallProgram C R A} {rest : A → CallProgram C R B} {value : A}
    (ends : run answer state first = some (after, some value)) :
    run answer state (first >>= rest) = run answer after (rest value) := by
  rw [run_bind_eq, ends]
  rfl

/-- A program whose first part aborts has aborted. -/
theorem run_bind_abort {first : CallProgram C R A} {rest : A → CallProgram C R B}
    (ends : run answer state first = some (after, none)) : run answer state (first >>= rest) = some (after, none) := by
  rw [run_bind_eq, ends]
  rfl

/-- A component that answers like another one makes the programs end like on the other one. -/
theorem run_simulates {related : σ → τ → Prop}
    (answers : ∀ state other request otherAfter given, related state other →
      answerT other request = some (otherAfter, given) →
      ∃ after, answer state request = some (after, given) ∧ related after otherAfter)
    {program : CallProgram C R A} {other otherAfter : τ} {result : Option A} (same : related state other)
    (ends : run answerT other program = some (otherAfter, result)) :
    ∃ after, run answer state program = some (after, result) ∧ related after otherAfter := by
  induction program generalizing state other with
  | done value =>
      cases ends
      exact ⟨state, rfl, same⟩
  | abort =>
      cases ends
      exact ⟨state, rfl, same⟩
  | call request next ih =>
      rw [run] at ends
      split at ends
      · cases ends
      · rename_i middle given answered
        obtain ⟨after, answeredS, still⟩ := answers _ _ _ _ _ same answered
        obtain ⟨last, ended, related⟩ := ih given still ends
        exact ⟨last, (run_call answeredS).trans ended, related⟩

end CallProgram
