import Mathlib.Data.List.Basic
import Mathlib.Logic.Function.Basic
import Mathlib.Logic.Relation
import Metamorphosis.Library.Quorum

/-!
A replicated log with one leader for each term. The state below is a history: it keeps
what every node voted, stood for and acknowledged in every term, and the log that every leader built.
-/

namespace ReplicatedLog

/-- One leadership builds one log: the first `start` entries were there at the election. -/
structure Leadership (N K : Type) where
  node : N
  start : Nat
  entries : List K
  counted : N → Nat

/-- The history records the current logs and everything that later terms may depend on. -/
structure History (N K : Type) where
  term : N → Nat
  log : N → List K
  /-- The log with which a node entered its current term. -/
  base : N → List K
  vote : Nat → N → Option N
  /-- The log with which a candidate stood for a term. -/
  stood : Nat → N → List K
  lead : Nat → Option (Leadership N K)
  /-- The length that a node last acknowledged to the leader of a term. -/
  ack : Nat → N → Nat

/-- No node has voted or stored anything. -/
def History.initial (N K : Type) : History N K where
  term _ := 0
  log _ := []
  base _ := []
  vote _ _ := none
  stood _ _ := []
  lead _ := none
  ack _ _ := 0

section Steps
variable {N K : Type} [DecidableEq N] (termOf : K → Nat)

/-- The term of the last entry, with zero for an empty log. -/
def lastTerm (log : List K) : Nat :=
  match log.getLast? with
  | none => 0
  | some entry => termOf entry

/-- A voter accepts a candidate whose log ends at least as late as its own. -/
def UpToDate (candidate voter : List K) : Prop :=
  lastTerm termOf voter < lastTerm termOf candidate ∨
    lastTerm termOf voter = lastTerm termOf candidate ∧ voter.length ≤ candidate.length

namespace History

/-- A node enters a later term without a vote. -/
def advance (a : History N K) (j : N) (t : Nat) : History N K :=
  { a with term := Function.update a.term j t, base := Function.update a.base j (a.log j) }

/-- A node gives its vote for a term. -/
def recordVote (a : History N K) (t : Nat) (j c : N) : History N K :=
  { a with vote := fun T x => if T = t ∧ x = j then some c else a.vote T x }

/-- A candidate enters a later term and votes for itself. -/
def stand (a : History N K) (c : N) (t : Nat) : History N K :=
  { (a.advance c t).recordVote t c c with
    stood := fun T x => if T = t ∧ x = c then a.log c else a.stood T x }

/-- The log of a new leader is the log with which it stood. -/
def leadership (a : History N K) (c : N) : Leadership N K where
  node := c
  start := (a.log c).length
  entries := a.log c
  counted x := if x = c then (a.log c).length else 0

/-- A node acknowledges a length in its own term. -/
def recordAck (a : History N K) (t : Nat) (j : N) (m : Nat) : History N K :=
  { a with ack := fun T x => if T = t ∧ x = j then m else a.ack T x }

/-- A node replaces its log and acknowledges the length `q` of it. -/
def setLog (a : History N K) (j : N) (log : List K) (q : Nat) : History N K :=
  { a.recordAck (a.term j) j q with log := Function.update a.log j log }

/-- A leadership of a term starts or grows. -/
def setLead (a : History N K) (t : Nat) (L : Leadership N K) : History N K :=
  { a with lead := Function.update a.lead t (some L) }

/-- A candidate with a quorum of votes becomes the leader of its term. -/
def elect (a : History N K) (c : N) : History N K :=
  (a.setLead (a.term c) (a.leadership c)).recordAck (a.term c) c (a.log c).length

/-- What a follower must not lose: entries it shared with the leader when it entered the term,
and entries that the leader already counts. -/
structure Keeps (a : History N K) (L : Leadership N K) (j : N) (log : List K) (q : Nat) : Prop where
  shared : ∀ m, m ≤ L.start → (a.base j).take m = L.entries.take m → log.take m = L.entries.take m
  counted : L.counted j ≤ q

end History

/-- A leader counts the first `m` entries as stored by a node. -/
def Leadership.count (L : Leadership N K) (j : N) (m : Nat) : Leadership N K :=
  { L with counted := Function.update L.counted j (max (L.counted j) m) }

/-- A leader adds an entry to its log. -/
def Leadership.append (L : Leadership N K) (entry : K) : Leadership N K :=
  { L with entries := L.entries ++ [entry] }

/-- The steps of the protocol. A strict run also promises that followers keep what is counted. -/
inductive Step (quorum : QuorumSystem N) (strict : Prop) :
    History N K → History N K → Prop where
  | advance (a : History N K) (j : N) (t : Nat) (later : a.term j < t) :
      Step quorum strict a (a.advance j t)
  | stand (a : History N K) (c : N) (t : Nat) (later : a.term c < t) :
      Step quorum strict a (a.stand c t)
  | grant (a : History N K) (j c : N) (fresh : a.vote (a.term j) j = none)
      (standing : a.vote (a.term j) c = some c)
      (upToDate : UpToDate termOf (a.stood (a.term j) c) (a.log j)) :
      Step quorum strict a (a.recordVote (a.term j) j c)
  | elect (a : History N K) (c : N) (votes : quorum.IsQuorum {j | a.vote (a.term c) j = some c})
      (standing : a.vote (a.term c) c = some c)
      (unled : a.lead (a.term c) = none) (same : a.log c = a.stood (a.term c) c) :
      Step quorum strict a (a.elect c)
  | append (a : History N K) (t : Nat) (L : Leadership N K) (entry : K) (led : a.lead t = some L)
      (current : termOf entry = t) :
      Step quorum strict a (a.setLead t (L.append entry))
  | save (a : History N K) (L : Leadership N K) (m : Nat) (led : a.lead (a.term L.node) = some L)
      (grows : (a.log L.node).length ≤ m) (within : m ≤ L.entries.length) :
      Step quorum strict a (a.setLog L.node (L.entries.take m) m)
  | accept (a : History N K) (L : Leadership N K) (j : N) (log : List K) (q : Nat)
      (led : a.lead (a.term j) = some L) (other : L.node ≠ j)
      (source : log <+: L.entries ∨ log <+: a.log j) (within : q ≤ L.entries.length)
      (covered : log.take q = L.entries.take q) (keeps : strict → a.Keeps L j log q) :
      Step quorum strict a (a.setLog j log q)
  | count (a : History N K) (t : Nat) (L : Leadership N K) (j : N) (m : Nat) (led : a.lead t = some L)
      (acknowledged : strict → m ≤ a.ack t j) :
      Step quorum strict a (a.setLead t (L.count j m))

/-- A run takes any number of steps. -/
abbrev Steps (quorum : QuorumSystem N) (strict : Prop) :
    History N K → History N K → Prop :=
  Relation.ReflTransGen (Step termOf quorum strict)

end Steps

end ReplicatedLog
