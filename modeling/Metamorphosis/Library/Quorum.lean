import Mathlib.Data.Finset.Card
import Mathlib.Data.Fintype.Card

/-- A quorum system is closed upwards and any two of its quorums meet. -/
structure QuorumSystem (N : Type) where
  IsQuorum : Set N → Prop
  mono : ∀ {P Q : Set N}, P ⊆ Q → IsQuorum P → IsQuorum Q
  meet : ∀ {P Q : Set N}, IsQuorum P → IsQuorum Q → (P ∩ Q).Nonempty

namespace QuorumSystem

/-- A majority of `n` nodes has at least `n / 2 + 1` members. -/
def majority (n : Nat) : QuorumSystem (Fin n) where
  IsQuorum P := ∃ members : Finset (Fin n), (∀ x ∈ members, x ∈ P) ∧ n / 2 + 1 ≤ members.card
  mono := by
    rintro P Q subset ⟨members, inside, large⟩
    exact ⟨members, fun x member => subset (inside x member), large⟩
  meet := by
    rintro P Q ⟨first, firstInside, firstLarge⟩ ⟨second, secondInside, secondLarge⟩
    have crowded : (Finset.univ : Finset (Fin n)).card < first.card + second.card := by
      rw [Finset.card_univ, Fintype.card_fin]
      omega
    obtain ⟨x, shared⟩ := Finset.inter_nonempty_of_card_lt_card_add_card
      (Finset.subset_univ first) (Finset.subset_univ second) crowded
    obtain ⟨inFirst, inSecond⟩ := Finset.mem_inter.mp shared
    exact ⟨x, firstInside x inFirst, secondInside x inSecond⟩

end QuorumSystem
