import Mathlib.Tactic.Common

/-!
A value that others wait on, with a condition variable. Whoever finds its condition false blocks until it is notified,
and then it looks again.
-/

/-- A guarded value and who is blocked on it. -/
structure Monitor (F V : Type) where
  value : V
  waiting : List F
deriving DecidableEq

namespace Monitor
variable {F V : Type} {m : Monitor F V} {ready : V → Bool}

/-- A look at the condition. It either holds, or the caller blocks. -/
def await (m : Monitor F V) (ready : V → Bool) (f : F) : Bool × Monitor F V :=
  if ready m.value then (true, m) else (false, { m with waiting := f :: m.waiting })

/-- The value changes and nobody is told. -/
def assign (m : Monitor F V) (value : V) : Monitor F V := { m with value := value }

/-- The value changes and everybody who is blocked may look again. -/
def notifyAll (_ : Monitor F V) (value : V) : Monitor F V := ⟨value, []⟩

/-- No wake-up is lost: whoever is blocked would find its condition false. -/
def Sound (ready : V → Bool) (m : Monitor F V) : Prop := ∀ f ∈ m.waiting, ready m.value = false

/-- Whoever finds the condition true goes on. -/
theorem await_ready (ready : V → Bool) {f : F} (holds : ready m.value = true) : m.await ready f = (true, m) := if_pos holds

/-- Whoever finds it false is blocked. -/
theorem await_blocks (ready : V → Bool) {f : F} (fails : ready m.value = false) :
    m.await ready f = (false, { m with waiting := f :: m.waiting }) := by
  rw [await, if_neg (by simp [fails])]

theorem Sound.new (value : V) : Sound ready (⟨value, []⟩ : Monitor F V) := List.forall_mem_nil _

/-- Whoever is blocked has found the condition false. -/
theorem Sound.block (f : F) (fails : ready m.value = false) :
    Sound ready { m with waiting := f :: m.waiting } := fun _ _ => fails

/-- Nobody has to be told about a value for which the condition does not hold. -/
theorem Sound.assign {value : V} (fails : ready value = false) : Sound ready (m.assign value) := fun _ _ => fails

/-- A call that is not blocked can look again as soon as its condition holds. -/
theorem Sound.free (sound : Sound ready m) (holds : ready m.value = true) (f : F) : f ∉ m.waiting := by
  intro waits
  rw [sound f waits] at holds
  cases holds

end Monitor
