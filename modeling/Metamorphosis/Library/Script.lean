import Mathlib.Logic.Relation

/-!
Runs of a transition system that are given by a list of actions. A script can be evaluated, and it
yields a run when every action of it is possible and permitted.
-/

namespace Script
variable {σ A : Type} (step : σ → A → Option σ) (allowed : σ → A → Prop) [∀ s action, Decidable (allowed s action)]

/-- One permitted action. -/
def Next (s t : σ) : Prop := ∃ action, allowed s action ∧ step s action = some t

/-- The state after a list of permitted actions. -/
def play (s : σ) : List A → Option σ
  | [] => some s
  | action :: rest =>
      if allowed s action then
        match step s action with
        | none => none
        | some t => play t rest
      else none

variable {step allowed}

omit [∀ s action, Decidable (allowed s action)] in
/-- A run under a condition is one under every weaker condition. -/
theorem run_mono {weaker : σ → A → Prop} (weakened : ∀ s action, allowed s action → weaker s action) {s t : σ}
    (run : Relation.ReflTransGen (Next step allowed) s t) : Relation.ReflTransGen (Next step weaker) s t := by
  induction run with
  | refl => exact .refl
  | tail _ last ih =>
      obtain ⟨action, permitted, stepped⟩ := last
      exact ih.tail ⟨action, weakened _ action permitted, stepped⟩

/-- A script that can be played is a run. -/
theorem play_run {script : List A} {s t : σ} (played : play step allowed s script = some t) :
    Relation.ReflTransGen (Next step allowed) s t := by
  induction script generalizing s with
  | nil =>
      cases played
      exact .refl
  | cons action rest ih =>
      rw [play] at played
      by_cases permitted : allowed s action
      · rw [if_pos permitted] at played
        cases stepped : step s action with
        | none =>
            rw [stepped] at played
            cases played
        | some next =>
            rw [stepped] at played
            exact .head ⟨action, permitted, stepped⟩ (ih played)
      · rw [if_neg permitted] at played
        cases played

variable (step allowed) in
/-- The end of a script that can be played. -/
def endOf (s : σ) (script : List A) (possible : (play step allowed s script).isSome = true) : σ :=
  (play step allowed s script).get possible

/-- The run of a script to its end. -/
theorem endOf_run {s : σ} {script : List A} (possible : (play step allowed s script).isSome = true) :
    Relation.ReflTransGen (Next step allowed) s (endOf step allowed s script possible) :=
  play_run (Option.some_get possible).symm

end Script
