import Mathlib.Logic.Relation

/-!
A call of a remote procedure: the request travels to a handler, the handler runs, and its result travels
back. A call that gets lost on the way ends with a failure.
-/

namespace RemoteCall

inductive Phase (R : Type) where
  | unsent
  | sent
  | handled
  | answered (result : R)
  | closed (result : R)
deriving DecidableEq

/-- How far a call has come. -/
def Phase.rank {R : Type} : Phase R → Nat
  | unsent => 0
  | sent => 1
  | handled => 2
  | answered _ => 3
  | closed _ => 4

variable {R : Type} {failure : R → Prop} {p q : Phase R}

/-- One step of a call. Only a handler gives a result that is not a failure. -/
inductive Next (failure : R → Prop) : Phase R → Phase R → Prop where
  | send : Next failure .unsent .sent
  | handle : Next failure .sent .handled
  | refuse {result : R} (failed : failure result) : Next failure .sent (.answered result)
  | reply (result : R) : Next failure .handled (.answered result)
  | deliver (result : R) : Next failure (.answered result) (.closed result)
  | lose {phase : Phase R} {result : R} (begun : phase ≠ .unsent) (under : ∀ old, phase ≠ .closed old)
      (failed : failure result) : Next failure phase (.closed result)

/-- A call never goes back. -/
theorem Next.forward (next : Next failure p q) : p.rank < q.rank := by
  cases next with
  | lose _ under _ =>
      cases p with
      | closed old => exact absurd rfl (under old)
      | _ => simp [Phase.rank]
  | _ => simp [Phase.rank]

/-- Over any number of steps a call stays where it is or goes forward. -/
theorem forward_of_run (run : Relation.ReflTransGen (Next failure) p q) : p = q ∨ p.rank < q.rank := by
  induction run with
  | refl => exact Or.inl rfl
  | tail _ last ih =>
      rcases ih with rfl | further
      · exact Or.inr last.forward
      · exact Or.inr (Nat.lt_trans further last.forward)

/-- A call that is over stays as it is. -/
theorem closed_of_run {result : R} (run : Relation.ReflTransGen (Next failure) (.closed result) q) :
    q = .closed result := by
  rcases forward_of_run run with same | further
  · exact same.symm
  · cases q <;> simp [Phase.rank] at further

end RemoteCall
