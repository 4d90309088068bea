import Mathlib.Tactic.Common

/-- What a piece of a program leaves behind: its durable writes and, unless it aborted, its result. -/
structure Outcome (D S A : Type) where
  writes : List D
  result : Option (A × S)

/-- A process runs on a state, makes durable writes and may abort. -/
def Process (D S A : Type) : Type := S → Outcome D S A

namespace Process
variable {D S A B : Type}

def pure (value : A) : Process D S A := fun state => ⟨[], some (value, state)⟩

def bind (first : Process D S A) (next : A → Process D S B) : Process D S B := fun state =>
  match first state with
  | ⟨writes, none⟩ => ⟨writes, none⟩
  | ⟨writes, some (value, state)⟩ =>
      let rest := next value state
      ⟨writes ++ rest.writes, rest.result⟩

instance : Monad (Process D S) where
  pure := pure
  bind := bind

/-- The current state. -/
def get : Process D S S := fun state => ⟨[], some (state, state)⟩

/-- A change of the state that is not durable. -/
def modify (change : S → S) : Process D S Unit := fun state => ⟨[], some ((), change state)⟩

/-- A change of the state with one durable write of what `disk` reads from it. -/
def write (disk : S → D) (change : S → S) : Process D S Unit := fun state =>
  ⟨[disk (change state)], some ((), change state)⟩

/-- The process aborts unless the condition holds. -/
def verify (condition : Prop) [Decidable condition] : Process D S Unit := fun state =>
  if condition then ⟨[], some ((), state)⟩ else ⟨[], none⟩

/-- The process aborts when a value is missing. -/
def value (found : Option A) : Process D S A := fun state => ⟨[], found.map fun a => (a, state)⟩

@[simp] theorem pure_run (a : A) (state : S) :
    (Pure.pure a : Process D S A) state = ⟨[], some (a, state)⟩ := rfl

@[simp] theorem get_run (state : S) : (get : Process D S S) state = ⟨[], some (state, state)⟩ := rfl

@[simp] theorem modify_run (change : S → S) (state : S) :
    (modify change : Process D S Unit) state = ⟨[], some ((), change state)⟩ := rfl

@[simp] theorem write_run (disk : S → D) (change : S → S) (state : S) :
    write disk change state = ⟨[disk (change state)], some ((), change state)⟩ := rfl

@[simp] theorem verify_true (condition : Prop) [Decidable condition] (holds : condition) (state : S) :
    (verify condition : Process D S Unit) state = ⟨[], some ((), state)⟩ := if_pos holds

@[simp] theorem verify_false (condition : Prop) [Decidable condition] (fails : ¬ condition) (state : S) :
    (verify condition : Process D S Unit) state = ⟨[], none⟩ := if_neg fails

@[simp] theorem value_some (a : A) (state : S) :
    (value (some a) : Process D S A) state = ⟨[], some (a, state)⟩ := rfl

@[simp] theorem value_none (state : S) : (value none : Process D S A) state = ⟨[], none⟩ := rfl

theorem bind_run (first : Process D S A) (next : A → Process D S B) (state : S) :
    (first >>= next) state = bind first next state := rfl

/-- An aborted first part aborts the whole. -/
theorem bind_abort {first : Process D S A} {next : A → Process D S B} {state : S} {writes : List D}
    (run : first state = ⟨writes, none⟩) : (first >>= next) state = ⟨writes, none⟩ := by
  rw [bind_run, bind, run]

/-- The second part continues where the first part stopped. -/
theorem bind_done {first : Process D S A} {next : A → Process D S B} {state after : S} {a : A}
    {writes : List D} (run : first state = ⟨writes, some (a, after)⟩) :
    (first >>= next) state = ⟨writes ++ (next a after).writes, (next a after).result⟩ := by
  rw [bind_run, bind, run]

/-- A process that ends with a fixed value. -/
theorem bind_value_right (first : Process D S A) (b : B) (state : S) :
    (first >>= fun _ => (Pure.pure b : Process D S B)) state =
      ⟨(first state).writes, (first state).result.map fun result => (b, result.2)⟩ := by
  rcases run : first state with ⟨writes, _ | ⟨a, after⟩⟩
  · rw [bind_abort run]
    rfl
  · rw [bind_done run]
    simp

/-- A process that ends with a change of the state. -/
theorem bind_modify_right (first : Process D S A) (change : S → S) (state : S) :
    (first >>= fun _ => (modify change : Process D S Unit)) state =
      ⟨(first state).writes, (first state).result.map fun result => ((), change result.2)⟩ := by
  rcases run : first state with ⟨writes, _ | ⟨a, after⟩⟩
  · rw [bind_abort run]
    rfl
  · rw [bind_done run]
    simp

/-- A process that looks at its state first. -/
@[simp] theorem bind_get (next : S → Process D S B) (state : S) :
    ((get : Process D S S) >>= next) state = next state state := by
  rw [bind_done (get_run state)]
  simp

/-- A process that changes its state first. -/
@[simp] theorem bind_modify (change : S → S) (next : Unit → Process D S B) (state : S) :
    ((modify change : Process D S Unit) >>= next) state = next () (change state) := by
  rw [bind_done (modify_run change state)]
  simp

/-- A process that writes first. -/
@[simp] theorem bind_write (disk : S → D) (change : S → S) (next : Unit → Process D S B) (state : S) :
    ((write disk change : Process D S Unit) >>= next) state =
      ⟨disk (change state) :: (next () (change state)).writes, (next () (change state)).result⟩ := by
  rw [bind_done (write_run disk change state)]
  rfl

/-- A failed check ends the process. -/
@[simp] theorem bind_verify (condition : Prop) [Decidable condition] (next : Unit → Process D S B)
    (state : S) :
    ((verify condition : Process D S Unit) >>= next) state =
      if condition then next () state else ⟨[], none⟩ := by
  by_cases holds : condition
  · rw [bind_done (verify_true condition holds state), if_pos holds]
    simp
  · rw [bind_abort (verify_false condition holds state), if_neg holds]

/-- A missing value ends the process. -/
@[simp] theorem bind_value (found : Option A) (next : A → Process D S B) (state : S) :
    ((value found : Process D S A) >>= next) state =
      match found with
      | none => ⟨[], none⟩
      | some a => next a state := by
  cases found with
  | none => exact bind_abort (value_none state)
  | some a =>
      rw [bind_done (value_some a state)]
      simp

end Process
