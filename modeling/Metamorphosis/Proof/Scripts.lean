import Mathlib.Algebra.GroupWithZero.Nat
import Metamorphosis.Construction.Cluster

/-!
Runs that are given by a list of actions. A script can be evaluated, and it yields a run when every
action of it is possible and permitted.
-/

namespace Metamorphosis
variable {n : Nat} {S : Service n}

namespace Cluster

instance (c : Cluster S) : ∀ action, Decidable (c.InOrder action)
  | .handleAppend place => inferInstanceAs (Decidable (∀ call ∈ c.appendRequests[place]?,
      ∀ earlier ∈ c.handled, earlier.SameSession call → earlier.seq < call.seq))
  | .electionTimeout _ | .handleVote _ | .voteAnswered .. | .electionEnd _ | .sessionSend .. | .sessionEnd ..
  | .appendAnswered .. | .mainRound _ | .leaderEnd _ | .execute .. | .resume .. | .crash _ => isTrue trivial

instance (c : Cluster S) (action : Action S) : Decidable (c.Any action) := isTrue trivial

/-- A run stays a run when more steps are permitted. -/
theorem Run.weaken {allowed permitted : Cluster S → Action S → Prop} {c d : Cluster S} (run : Run allowed c d)
    (weaker : ∀ c action, allowed c action → permitted c action) : Run permitted c d := by
  induction run with
  | refl => exact .refl
  | tail _ last ih =>
      obtain ⟨stop, action, condition, stepped⟩ := last
      exact ih.tail ⟨stop, action, weaker _ action condition, stepped⟩

/-- The cluster after a script whose actions are all possible and permitted. -/
def play (allowed : Cluster S → Action S → Prop) [∀ c action, Decidable (allowed c action)] (c : Cluster S) :
    List (Option Nat × Action S) → Option (Cluster S)
  | [] => some c
  | (stop, action) :: rest =>
      if allowed c action then
        match c.step stop action with
        | none => none
        | some d => d.play allowed rest
      else none

/-- A script that can be played is a run. -/
theorem play_run {allowed : Cluster S → Action S → Prop} [∀ c action, Decidable (allowed c action)]
    {script : List (Option Nat × Action S)} {c d : Cluster S} (played : c.play allowed script = some d) :
    Run allowed c d := by
  induction script generalizing c with
  | nil =>
      cases played
      exact .refl
  | cons first rest ih =>
      obtain ⟨stop, action⟩ := first
      rw [play] at played
      split at played
      swap
      · cases played
      rename_i permitted
      cases stepped : c.step stop action with
      | none =>
          rw [stepped] at played
          cases played
      | some after =>
          rw [stepped] at played
          exact .head ⟨stop, action, permitted, stepped⟩ (ih played)

/-- The end of a script that can be played. -/
def endOf (allowed : Cluster S → Action S → Prop) [∀ c action, Decidable (allowed c action)] (c : Cluster S)
    (script : List (Option Nat × Action S)) (possible : (c.play allowed script).isSome = true) : Cluster S :=
  (c.play allowed script).get possible

/-- The cluster after a script is reached by a run. -/
theorem endOf_run {allowed : Cluster S → Action S → Prop} [∀ c action, Decidable (allowed c action)]
    {c : Cluster S} {script : List (Option Nat × Action S)} (possible : (c.play allowed script).isSome = true) :
    Run allowed c (c.endOf allowed script possible) :=
  play_run (Option.some_get possible).symm

/-- Scripts name the three nodes of a cluster by numerals. -/
instance threeNodes : NeZero 3 := ⟨by decide⟩

/-- The first of three nodes becomes leader with the vote of the second one. -/
def firstLeads (S : Service 3) : List (Option Nat × Action S) :=
  [(none, .electionTimeout 0), (none, .handleVote 0), (none, .voteAnswered 0 1 (some 0)),
    (none, .voteAnswered 0 2 none), (none, .electionEnd 0)]

/-- The first node takes a client's request, saves it and sends it to the second node. -/
def firstSends (S : Service 3) (request : S.Request) : List (Option Nat × Action S) :=
  [(none, .execute 0 request), (none, .mainRound 0), (none, .sessionSend 0 1)]

end Cluster

end Metamorphosis
