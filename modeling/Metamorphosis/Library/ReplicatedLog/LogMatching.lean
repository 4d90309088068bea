import Mathlib.Tactic.Basic
import Mathlib.Tactic.Common
import Metamorphosis.Library.ReplicatedLog.History

namespace ReplicatedLog
variable {N K : Type} (termOf : K → Nat)

/-- Every entry of a linked log stands in the log of its own term's leader, after the same entries. -/
def Linked (a : History N K) (log : List K) : Prop :=
  ∀ i entry, log[i]? = some entry → ∃ L, a.lead (termOf entry) = some L ∧ L.start ≤ i ∧
    log.take (i + 1) = L.entries.take (i + 1)

/-- Every leadership survives and only grows. -/
def LeadsGrow (a b : History N K) : Prop :=
  ∀ T L, a.lead T = some L → ∃ M, b.lead T = some M ∧ M.node = L.node ∧ M.start = L.start ∧
    L.entries <+: M.entries

/-- A term without a leader had none before. -/
theorem LeadsGrow.unled {a b : History N K} (grows : LeadsGrow a b) {T : Nat} (still : b.lead T = none) :
    a.lead T = none := by
  cases before : a.lead T with
  | none => rfl
  | some L =>
      obtain ⟨M, after, _⟩ := grows T L before
      cases still.symm.trans after

/-- A longer log keeps every prefix up to a common length. -/
theorem take_of_grows {A : Type} {short long : List A} (grows : short <+: long) {m : Nat}
    (inside : m ≤ short.length) : long.take m = short.take m := by
  obtain ⟨rest, rfl⟩ := grows
  exact List.take_append_of_le_length inside

/-- Two logs that agree up to `m` agree up to any smaller length. -/
theorem take_of_take {A : Type} {first second : List A} {m k : Nat} (le : k ≤ m)
    (same : first.take m = second.take m) : first.take k = second.take k := by
  have shorter := congrArg (List.take k) same
  rwa [List.take_take, List.take_take, Nat.min_eq_left le] at shorter

/-- A log that agrees with a long one up to `m` is at least `m` long. -/
theorem length_of_take {A : Type} {first second : List A} {m : Nat} (inside : m ≤ second.length)
    (same : first.take m = second.take m) : m ≤ first.length := by
  have lengths := congrArg List.length same
  rw [List.length_take, List.length_take] at lengths
  omega

/-- An entry at an index is read off the log up to it. -/
theorem getElem?_of_take {A : Type} {first second : List A} {index : Nat} (positive : 1 ≤ index)
    (same : first.take index = second.take index) : first[index - 1]? = second[index - 1]? := by
  have read := congrArg (fun log : List A => log[index - 1]?) same
  simpa only [List.getElem?_take_of_lt (Nat.sub_lt positive Nat.one_pos)] using read

/-- A beginning of a linked log is linked. -/
theorem Linked.shorter {termOf : K → Nat} {a : History N K} {short long : List K}
    (linked : Linked termOf a long) (grows : short <+: long) : Linked termOf a short := by
  intro i entry at_
  have inside : i + 1 ≤ short.length := (List.getElem?_eq_some_iff.mp at_).1
  have atLong : long[i]? = some entry := by
    obtain ⟨rest, rfl⟩ := grows
    rw [List.getElem?_append_left inside]
    exact at_
  obtain ⟨L, led, started, same⟩ := linked i entry atLong
  exact ⟨L, led, started, (take_of_grows grows inside).symm.trans same⟩

/-- A linked log stays linked when leaders' logs grow. -/
theorem Linked.grow {termOf : K → Nat} {a b : History N K} {log : List K}
    (linked : Linked termOf a log) (grows : LeadsGrow a b) : Linked termOf b log := by
  intro i entry at_
  obtain ⟨L, led, started, same⟩ := linked i entry at_
  obtain ⟨M, ledM, _, startM, growM⟩ := grows _ L led
  have inside : i + 1 ≤ L.entries.length :=
    length_of_take (List.getElem?_eq_some_iff.mp at_).1 same.symm
  exact ⟨M, ledM, startM ▸ started, same.trans (take_of_grows growM inside).symm⟩

/-- Linked logs with the same term at one index are equal up to that index. -/
theorem Linked.matching {termOf : K → Nat} {a : History N K} {first second : List K}
    (linkedFirst : Linked termOf a first) (linkedSecond : Linked termOf a second)
    {i : Nat} {x y : K} (atFirst : first[i]? = some x) (atSecond : second[i]? = some y)
    (sameTerm : termOf x = termOf y) : first.take (i + 1) = second.take (i + 1) := by
  obtain ⟨L, led, _, sameL⟩ := linkedFirst i x atFirst
  obtain ⟨M, ledM, _, sameM⟩ := linkedSecond i y atSecond
  rw [sameTerm, ledM] at led
  obtain rfl := Option.some.inj led
  exact sameL.trans sameM.symm

/-- The invariant of every run: votes, leaderships and logs fit together. -/
structure Wf (quorum : QuorumSystem N) (a : History N K) : Prop where
  voteTerm : ∀ {T j c}, a.vote T j = some c → T ≤ a.term j
  voteStood : ∀ {T j c}, a.vote T j = some c → a.vote T c = some c
  stoodTerm : ∀ {T c}, a.vote T c = some c → ∀ x ∈ a.stood T c, termOf x < T
  stoodLinked : ∀ {T c}, a.vote T c = some c → Linked termOf a (a.stood T c)
  leadQuorum : ∀ {T L}, a.lead T = some L → quorum.IsQuorum {j | a.vote T j = some L.node}
  leadVote : ∀ {T L}, a.lead T = some L → a.vote T L.node = some L.node
  leadStart : ∀ {T L}, a.lead T = some L → L.start ≤ L.entries.length
  leadOld : ∀ {T L}, a.lead T = some L → ∀ x ∈ L.entries.take L.start, termOf x < T
  leadNew : ∀ {T L}, a.lead T = some L → ∀ x ∈ L.entries.drop L.start, termOf x = T
  leadLinked : ∀ {T L}, a.lead T = some L → Linked termOf a L.entries
  leaderLog : ∀ {L}, a.lead (a.term L.node) = some L →
    a.log L.node <+: L.entries ∧ L.start ≤ (a.log L.node).length
  logLinked : ∀ j, Linked termOf a (a.log j)
  logTerm : ∀ {j}, ∀ x ∈ a.log j, termOf x ≤ a.term j
  unledLog : ∀ {j}, a.lead (a.term j) = none → a.log j = a.base j
  ackUnled : ∀ {T j}, a.lead T = none → a.ack T j = 0
  ackLater : ∀ {T j}, a.term j < T → a.ack T j = 0
  ackBound : ∀ {T j L}, a.lead T = some L → a.ack T j ≤ L.entries.length
  ackHeld : ∀ {j L}, a.lead (a.term j) = some L →
    (a.log j).take (a.ack (a.term j) j) = L.entries.take (a.ack (a.term j) j)

/-- There are no votes and no leaders at the start. -/
theorem Wf.initial (quorum : QuorumSystem N) : Wf termOf quorum (History.initial N K) := by
  constructor <;> simp [History.initial, Linked]

variable {termOf} {quorum : QuorumSystem N} {a : History N K}

/-- A leader has reached the term it leads. -/
theorem Wf.term_le_of_lead (wf : Wf termOf quorum a) {T : Nat} {L : Leadership N K}
    (led : a.lead T = some L) : T ≤ a.term L.node :=
  wf.voteTerm (wf.leadVote led)

/-- A node that acknowledged something in a term has reached that term. -/
theorem Wf.term_le_of_ack (wf : Wf termOf quorum a) {T m : Nat} {j : N} (positive : 0 < m)
    (acked : m ≤ a.ack T j) : T ≤ a.term j := by
  by_contra unreached
  have none_ : a.ack T j = 0 := wf.ackLater (by omega)
  omega

/-- No entry is newer than the log's leader. -/
theorem Wf.lead_term_le (wf : Wf termOf quorum a) {T : Nat} {L : Leadership N K}
    (led : a.lead T = some L) {entry : K} (member : entry ∈ L.entries) : termOf entry ≤ T := by
  rw [← List.take_append_drop L.start L.entries, List.mem_append] at member
  rcases member with old | new
  · exact Nat.le_of_lt (wf.leadOld led entry old)
  · exact Nat.le_of_eq (wf.leadNew led entry new)

/-- Setting one leadership grows the leaderships when it extends the one before. -/
theorem setLead_grow {t : Nat} {M : Leadership N K}
    (extends_ : ∀ L, a.lead t = some L → M.node = L.node ∧ M.start = L.start ∧ L.entries <+: M.entries) :
    LeadsGrow a (a.setLead t M) := by
  intro T L led
  by_cases same : T = t
  · subst same
    exact ⟨M, Function.update_self .., extends_ L led⟩
  · exact ⟨L, (Function.update_of_ne same ..).trans led, rfl, rfl, List.prefix_rfl⟩

/-- A set leadership is the new one or an old one of another term. -/
theorem setLead_cases {t T : Nat} {L M : Leadership N K} (led : (a.setLead t M).lead T = some L) :
    (T = t ∧ L = M) ∨ (T ≠ t ∧ a.lead T = some L) := by
  by_cases same : T = t
  · subst same
    simp only [History.setLead, Function.update_self] at led
    exact Or.inl ⟨rfl, (Option.some.inj led).symm⟩
  · simp only [History.setLead, Function.update_of_ne same] at led
    exact Or.inr ⟨same, led⟩

/-- A leader appends entries of its own term. -/
theorem Wf.setLead (wf : Wf termOf quorum a) {t : Nat} {L M : Leadership N K} {extra : List K}
    (led : a.lead t = some L) (node : M.node = L.node) (start : M.start = L.start)
    (entries : M.entries = L.entries ++ extra) (current : ∀ x ∈ extra, termOf x = t) :
    Wf termOf quorum (a.setLead t M) := by
  have longer : L.entries <+: M.entries := entries ▸ List.prefix_append ..
  have grows : LeadsGrow a (a.setLead t M) := by
    apply setLead_grow
    intro P ledP
    obtain rfl := Option.some.inj (ledP.symm.trans led)
    exact ⟨node, start, longer⟩
  have inside := wf.leadStart led
  exact {
    voteTerm := wf.voteTerm
    voteStood := wf.voteStood
    stoodTerm := wf.stoodTerm
    stoodLinked := fun voted => (wf.stoodLinked voted).grow grows
    leadQuorum := by
      intro T P ledP
      rcases setLead_cases ledP with ⟨rfl, rfl⟩ | ⟨_, old⟩
      · rw [node]
        exact wf.leadQuorum led
      · exact wf.leadQuorum old
    leadVote := by
      intro T P ledP
      rcases setLead_cases ledP with ⟨rfl, rfl⟩ | ⟨_, old⟩
      · rw [node]
        exact wf.leadVote led
      · exact wf.leadVote old
    leadStart := by
      intro T P ledP
      rcases setLead_cases ledP with ⟨rfl, rfl⟩ | ⟨_, old⟩
      · rw [start]
        exact inside.trans longer.length_le
      · exact wf.leadStart old
    leadOld := by
      intro T P ledP
      rcases setLead_cases ledP with ⟨rfl, rfl⟩ | ⟨_, old⟩
      · rw [start, take_of_grows longer inside]
        exact wf.leadOld led
      · exact wf.leadOld old
    leadNew := by
      intro T P ledP
      rcases setLead_cases ledP with ⟨rfl, rfl⟩ | ⟨_, old⟩
      · intro x member
        rw [start, entries, List.drop_append_of_le_length inside, List.mem_append] at member
        rcases member with before | new
        · exact wf.leadNew led x before
        · exact current x new
      · exact wf.leadNew old
    leadLinked := by
      intro T P ledP
      rcases setLead_cases ledP with ⟨rfl, rfl⟩ | ⟨_, old⟩
      · intro i x at_
        by_cases before : i < L.entries.length
        · have atOld : L.entries[i]? = some x := by
            rwa [entries, List.getElem?_append_left before] at at_
          obtain ⟨Q, ledQ, started, sameQ⟩ := (wf.leadLinked led).grow grows i x atOld
          exact ⟨Q, ledQ, started, (take_of_grows longer before).trans sameQ⟩
        · have new : termOf x = T := by
            rw [entries, List.getElem?_append_right (by omega)] at at_
            exact current x (List.mem_of_getElem? at_)
          exact ⟨P, by rw [new]; exact ledP, by omega, rfl⟩
      · exact (wf.leadLinked old).grow grows
    leaderLog := by
      intro P ledP
      rcases setLead_cases ledP with ⟨now, rfl⟩ | ⟨_, old⟩
      · have now : a.term P.node = t := now
        rw [node] at now
        have held := wf.leaderLog (now ▸ led)
        change a.log P.node <+: P.entries ∧ P.start ≤ (a.log P.node).length
        rw [node, start]
        exact ⟨held.1.trans longer, held.2⟩
      · exact wf.leaderLog old
    logLinked := fun x => (wf.logLinked x).grow grows
    logTerm := wf.logTerm
    unledLog := fun still => wf.unledLog (grows.unled still)
    ackUnled := fun still => wf.ackUnled (grows.unled still)
    ackLater := wf.ackLater
    ackBound := by
      intro T x P ledP
      rcases setLead_cases ledP with ⟨rfl, rfl⟩ | ⟨_, old⟩
      · exact (wf.ackBound led).trans longer.length_le
      · exact wf.ackBound old
    ackHeld := by
      intro x P ledP
      rcases setLead_cases ledP with ⟨now, rfl⟩ | ⟨_, old⟩
      · have now : a.term x = t := now
        subst now
        exact (wf.ackHeld led).trans (take_of_grows longer (wf.ackBound led)).symm
      · exact wf.ackHeld old }

section Preservation
variable [DecidableEq N]

/-- A node goes to a later term without a vote. -/
theorem Wf.advance (wf : Wf termOf quorum a) (j : N) (t : Nat) (later : a.term j < t) :
    Wf termOf quorum (a.advance j t) where
  voteTerm {T x c} voted := by
    have bound := wf.voteTerm voted
    by_cases same : x = j
    · subst same
      simp only [History.advance, Function.update_self]
      omega
    · simpa only [History.advance, Function.update_of_ne same] using bound
  voteStood := wf.voteStood
  stoodTerm := wf.stoodTerm
  stoodLinked := wf.stoodLinked
  leadQuorum := wf.leadQuorum
  leadVote := wf.leadVote
  leadStart := wf.leadStart
  leadOld := wf.leadOld
  leadNew := wf.leadNew
  leadLinked := wf.leadLinked
  leaderLog {L} led := by
    by_cases same : L.node = j
    · have bound := wf.term_le_of_lead led
      simp only [History.advance, same, Function.update_self] at bound
      omega
    · simp only [History.advance, Function.update_of_ne same] at led
      exact wf.leaderLog led
  logLinked := wf.logLinked
  logTerm {x} entry member := by
    have bound := wf.logTerm entry member
    by_cases same : x = j
    · subst same
      simp only [History.advance, Function.update_self]
      omega
    · simpa only [History.advance, Function.update_of_ne same] using bound
  unledLog {x} unled := by
    by_cases same : x = j
    · subst same
      simp only [History.advance, Function.update_self]
    · simp only [History.advance, Function.update_of_ne same] at unled ⊢
      exact wf.unledLog unled
  ackUnled := wf.ackUnled
  ackLater {T x} before := by
    by_cases same : x = j
    · subst same
      simp only [History.advance, Function.update_self] at before
      exact wf.ackLater (by omega)
    · simp only [History.advance, Function.update_of_ne same] at before
      exact wf.ackLater before
  ackBound := wf.ackBound
  ackHeld {x L} led := by
    by_cases same : x = j
    · subst same
      simp only [History.advance, Function.update_self] at led ⊢
      simp [wf.ackLater later]
    · simp only [History.advance, Function.update_of_ne same] at led ⊢
      exact wf.ackHeld led

/-- A first vote keeps all earlier votes. -/
theorem recordVote_keeps {t : Nat} {j c : N} (fresh : a.vote t j = none) {T : Nat} {x d : N}
    (voted : a.vote T x = some d) : (a.recordVote t j c).vote T x = some d := by
  have different : ¬ (T = t ∧ x = j) := by
    rintro ⟨rfl, rfl⟩
    rw [fresh] at voted
    exact absurd voted (by simp)
  simpa only [History.recordVote, if_neg different] using voted

/-- A recorded vote is an earlier vote or the new one. -/
theorem recordVote_cases {t : Nat} {j c : N} {T : Nat} {x d : N}
    (voted : (a.recordVote t j c).vote T x = some d) :
    (T = t ∧ x = j ∧ d = c) ∨ (¬ (T = t ∧ x = j) ∧ a.vote T x = some d) := by
  by_cases new : T = t ∧ x = j
  · simp only [History.recordVote, if_pos new] at voted
    exact Or.inl ⟨new.1, new.2, (Option.some.inj voted).symm⟩
  · simp only [History.recordVote, if_neg new] at voted
    exact Or.inr ⟨new, voted⟩

/-- A node votes once in its term. -/
theorem Wf.grant (wf : Wf termOf quorum a) (j c : N) (fresh : a.vote (a.term j) j = none)
    (standing : a.vote (a.term j) c = some c) :
    Wf termOf quorum (a.recordVote (a.term j) j c) where
  voteTerm voted := by
    rcases recordVote_cases voted with ⟨rfl, rfl, _⟩ | ⟨_, old⟩
    · exact Nat.le_refl _
    · exact wf.voteTerm old
  voteStood voted := by
    rcases recordVote_cases voted with ⟨rfl, _, rfl⟩ | ⟨_, old⟩
    · exact recordVote_keeps fresh standing
    · exact recordVote_keeps fresh (wf.voteStood old)
  stoodTerm voted := by
    rcases recordVote_cases voted with ⟨rfl, rfl, rfl⟩ | ⟨_, old⟩
    · exact wf.stoodTerm standing
    · exact wf.stoodTerm old
  stoodLinked voted := by
    rcases recordVote_cases voted with ⟨rfl, rfl, rfl⟩ | ⟨_, old⟩
    · exact wf.stoodLinked standing
    · exact wf.stoodLinked old
  leadQuorum led := quorum.mono (fun _ voted => recordVote_keeps fresh voted) (wf.leadQuorum led)
  leadVote led := recordVote_keeps fresh (wf.leadVote led)
  leadStart := wf.leadStart
  leadOld := wf.leadOld
  leadNew := wf.leadNew
  leadLinked := wf.leadLinked
  leaderLog := wf.leaderLog
  logLinked := wf.logLinked
  logTerm := wf.logTerm
  unledLog := wf.unledLog
  ackUnled := wf.ackUnled
  ackLater := wf.ackLater
  ackBound := wf.ackBound
  ackHeld := wf.ackHeld

/-- A candidate goes to a later term and votes for itself. -/
theorem Wf.stand (wf : Wf termOf quorum a) (c : N) (t : Nat) (later : a.term c < t) :
    Wf termOf quorum (a.stand c t) := by
  have entered := wf.advance c t later
  have fresh : (a.advance c t).vote t c = none := by
    by_contra voted
    obtain ⟨d, voted⟩ := Option.ne_none_iff_exists'.mp voted
    have bound := wf.voteTerm voted
    omega
  have oldStood {T : Nat} {x : N} (different : ¬ (T = t ∧ x = c)) :
      (a.stand c t).stood T x = a.stood T x := by
    simp only [History.stand, if_neg different]
  have newStood : (a.stand c t).stood t c = a.log c := by
    simp [History.stand]
  exact {
    voteTerm := by
      intro T x d voted
      rcases recordVote_cases voted with ⟨rfl, rfl, _⟩ | ⟨_, old⟩
      · simp [History.stand, History.recordVote, History.advance]
      · exact entered.voteTerm old
    voteStood := by
      intro T x d voted
      rcases recordVote_cases voted with ⟨rfl, rfl, rfl⟩ | ⟨_, old⟩
      · exact voted
      · exact recordVote_keeps fresh (entered.voteStood old)
    stoodTerm := by
      intro T x voted
      rcases recordVote_cases voted with ⟨rfl, rfl, _⟩ | ⟨different, old⟩
      · intro entry member
        rw [newStood] at member
        exact Nat.lt_of_le_of_lt (wf.logTerm entry member) later
      · rw [oldStood different]
        exact wf.stoodTerm old
    stoodLinked := by
      intro T x voted
      rcases recordVote_cases voted with ⟨rfl, rfl, _⟩ | ⟨different, old⟩
      · rw [newStood]
        exact wf.logLinked x
      · rw [oldStood different]
        exact wf.stoodLinked old
    leadQuorum := fun led =>
      quorum.mono (fun _ voted => recordVote_keeps fresh voted) (entered.leadQuorum led)
    leadVote := fun led => recordVote_keeps fresh (entered.leadVote led)
    leadStart := entered.leadStart
    leadOld := entered.leadOld
    leadNew := entered.leadNew
    leadLinked := entered.leadLinked
    leaderLog := entered.leaderLog
    logLinked := entered.logLinked
    logTerm := entered.logTerm
    unledLog := entered.unledLog
    ackUnled := entered.ackUnled
    ackLater := entered.ackLater
    ackBound := entered.ackBound
    ackHeld := entered.ackHeld }

/-- A candidate with a quorum of votes leads its term. -/
theorem Wf.elect (wf : Wf termOf quorum a) (c : N)
    (votes : quorum.IsQuorum {j | a.vote (a.term c) j = some c})
    (standing : a.vote (a.term c) c = some c) (unled : a.lead (a.term c) = none)
    (same : a.log c = a.stood (a.term c) c) : Wf termOf quorum (a.elect c) := by
  have grows : LeadsGrow a (a.setLead (a.term c) (a.leadership c)) :=
    setLead_grow fun L led => absurd (unled.symm.trans led) (by simp)
  exact {
    voteTerm := wf.voteTerm
    voteStood := wf.voteStood
    stoodTerm := wf.stoodTerm
    stoodLinked := fun voted => (wf.stoodLinked voted).grow grows
    leadQuorum := by
      intro T L led
      rcases setLead_cases led with ⟨rfl, rfl⟩ | ⟨_, old⟩
      · exact votes
      · exact wf.leadQuorum old
    leadVote := by
      intro T L led
      rcases setLead_cases led with ⟨rfl, rfl⟩ | ⟨_, old⟩
      · exact standing
      · exact wf.leadVote old
    leadStart := by
      intro T L led
      rcases setLead_cases led with ⟨rfl, rfl⟩ | ⟨_, old⟩
      · exact Nat.le_refl _
      · exact wf.leadStart old
    leadOld := by
      intro T L led
      rcases setLead_cases led with ⟨rfl, rfl⟩ | ⟨_, old⟩
      · intro entry member
        exact wf.stoodTerm standing entry (same ▸ List.mem_of_mem_take member)
      · exact wf.leadOld old
    leadNew := by
      intro T L led
      rcases setLead_cases led with ⟨rfl, rfl⟩ | ⟨_, old⟩
      · intro entry member
        simp [History.leadership] at member
      · exact wf.leadNew old
    leadLinked := by
      intro T L led
      rcases setLead_cases led with ⟨rfl, rfl⟩ | ⟨_, old⟩
      · exact (wf.logLinked c).grow grows
      · exact (wf.leadLinked old).grow grows
    leaderLog := by
      intro L led
      rcases setLead_cases led with ⟨_, rfl⟩ | ⟨_, old⟩
      · exact ⟨List.prefix_rfl, Nat.le_refl _⟩
      · exact wf.leaderLog old
    logLinked := fun x => (wf.logLinked x).grow grows
    logTerm := wf.logTerm
    unledLog := fun still => wf.unledLog (grows.unled still)
    ackUnled := by
      intro T x still
      by_cases current : T = a.term c
      · subst current
        exact absurd still (by simp [History.elect, History.setLead, History.recordAck])
      · have old : a.lead T = none := (Function.update_of_ne current ..).symm.trans still
        simpa [History.elect, History.setLead, History.recordAck, current] using wf.ackUnled old
    ackLater := by
      intro T x before
      have different : ¬ (T = a.term c ∧ x = c) := by
        rintro ⟨rfl, rfl⟩
        exact Nat.lt_irrefl _ before
      simpa only [History.elect, History.setLead, History.recordAck, if_neg different] using
        wf.ackLater before
    ackBound := by
      intro T x L led
      rcases setLead_cases led with ⟨rfl, rfl⟩ | ⟨different, old⟩
      · by_cases self : x = c
        · simp [History.elect, History.setLead, History.recordAck, History.leadership, self]
        · simp [History.elect, History.setLead, History.recordAck, self, wf.ackUnled unled]
      · simpa [History.elect, History.setLead, History.recordAck, different] using
          wf.ackBound (j := x) old
    ackHeld := by
      intro x L led
      rcases setLead_cases led with ⟨current, rfl⟩ | ⟨different, old⟩
      · have current : a.term x = a.term c := current
        by_cases self : x = c
        · simp [History.elect, History.setLead, History.recordAck, History.leadership, self]
        · simp [History.elect, History.setLead, History.recordAck, self, current, wf.ackUnled unled]
      · have different : a.term x ≠ a.term c := different
        have held := wf.ackHeld old
        simpa [History.elect, History.setLead, History.recordAck, different] using held }

/-- A node may replace its log by any linked log of its term that covers what it acknowledges. -/
theorem Wf.setLog (wf : Wf termOf quorum a) {L : Leadership N K} {j : N} {log : List K} {q : Nat}
    (led : a.lead (a.term j) = some L) (linked : Linked termOf a log)
    (bounded : ∀ x ∈ log, termOf x ≤ a.term j) (within : q ≤ L.entries.length)
    (covered : log.take q = L.entries.take q)
    (own : L.node = j → log <+: L.entries ∧ L.start ≤ log.length) :
    Wf termOf quorum (a.setLog j log q) := by
  have otherLog {x : N} (different : x ≠ j) : (a.setLog j log q).log x = a.log x :=
    Function.update_of_ne different ..
  have newLog : (a.setLog j log q).log j = log := Function.update_self ..
  have otherAck {T : Nat} {x : N} (different : ¬ (T = a.term j ∧ x = j)) :
      (a.setLog j log q).ack T x = a.ack T x := if_neg different
  have newAck : (a.setLog j log q).ack (a.term j) j = q := if_pos ⟨rfl, rfl⟩
  exact {
    voteTerm := wf.voteTerm
    voteStood := wf.voteStood
    stoodTerm := wf.stoodTerm
    stoodLinked := wf.stoodLinked
    leadQuorum := wf.leadQuorum
    leadVote := wf.leadVote
    leadStart := wf.leadStart
    leadOld := wf.leadOld
    leadNew := wf.leadNew
    leadLinked := wf.leadLinked
    leaderLog := by
      intro P ledP
      by_cases self : P.node = j
      · rw [self, newLog]
        have now : a.lead (a.term j) = some P := self ▸ ledP
        obtain rfl := Option.some.inj (led.symm.trans now)
        exact own self
      · rw [otherLog self]
        exact wf.leaderLog ledP
    logLinked := by
      intro x
      by_cases self : x = j
      · rw [self, newLog]
        exact linked
      · rw [otherLog self]
        exact wf.logLinked x
    logTerm := by
      intro x
      by_cases self : x = j
      · rw [self, newLog]
        exact bounded
      · rw [otherLog self]
        exact wf.logTerm
    unledLog := by
      intro x still
      have still : a.lead (a.term x) = none := still
      have self : x ≠ j := by
        rintro rfl
        exact absurd (still.symm.trans led) (by simp)
      rw [otherLog self]
      exact wf.unledLog still
    ackUnled := by
      intro T x still
      have still : a.lead T = none := still
      rw [otherAck]
      · exact wf.ackUnled still
      · rintro ⟨rfl, _⟩
        exact absurd (still.symm.trans led) (by simp)
    ackLater := by
      intro T x before
      have before : a.term x < T := before
      rw [otherAck]
      · exact wf.ackLater before
      · rintro ⟨rfl, rfl⟩
        exact Nat.lt_irrefl _ before
    ackBound := by
      intro T x P ledP
      by_cases new : T = a.term j ∧ x = j
      · obtain ⟨rfl, rfl⟩ := new
        obtain rfl := Option.some.inj (led.symm.trans ledP)
        rw [newAck]
        exact within
      · rw [otherAck new]
        exact wf.ackBound ledP
    ackHeld := by
      intro x P ledP
      have ledP : a.lead (a.term x) = some P := ledP
      change ((a.setLog j log q).log x).take ((a.setLog j log q).ack (a.term x) x) =
        P.entries.take ((a.setLog j log q).ack (a.term x) x)
      by_cases self : x = j
      · subst self
        obtain rfl := Option.some.inj (led.symm.trans ledP)
        rw [newLog, newAck]
        exact covered
      · rw [otherLog self, otherAck (fun new => self new.2)]
        exact wf.ackHeld ledP }

/-- Every step keeps votes, leaderships and logs consistent. -/
theorem Wf.step (wf : Wf termOf quorum a) {strict : Prop} {b : History N K}
    (taken : Step termOf quorum strict a b) : Wf termOf quorum b := by
  cases taken with
  | advance j t later => exact wf.advance j t later
  | stand c t later => exact wf.stand c t later
  | grant j c fresh standing _ => exact wf.grant j c fresh standing
  | elect c votes standing unled same => exact wf.elect c votes standing unled same
  | append t L entry led current =>
      exact wf.setLead led rfl rfl rfl (fun x member => by
        rw [List.mem_singleton.mp member]
        exact current)
  | save L m led grows within =>
      have own := wf.leaderLog led
      exact wf.setLog led ((wf.leadLinked led).shorter (List.take_prefix ..))
        (fun x member => wf.lead_term_le led (List.mem_of_mem_take member)) within
        (by rw [List.take_take, Nat.min_self])
        (fun _ => ⟨List.take_prefix .., by rw [List.length_take]; omega⟩)
  | accept L j log q led other source within covered _ =>
      refine wf.setLog led ?_ ?_ within covered (fun self => absurd self other)
      · rcases source with leader | own
        · exact (wf.leadLinked led).shorter leader
        · exact (wf.logLinked j).shorter own
      · intro x member
        rcases source with leader | own
        · exact wf.lead_term_le led (leader.subset member)
        · exact wf.logTerm x (own.subset member)
  | count t L j m led _ =>
      exact wf.setLead led rfl rfl (List.append_nil _).symm (fun x member => absurd member (by simp))

/-- Every run keeps votes, leaderships and logs consistent. -/
theorem Wf.steps (wf : Wf termOf quorum a) {strict : Prop} {b : History N K}
    (run : Steps termOf quorum strict a b) : Wf termOf quorum b := by
  induction run with
  | refl => exact wf
  | tail _ last ih => exact ih.step last

end Preservation

/-- One term has one leader. -/
theorem Wf.leader_unique (wf : Wf termOf quorum a) {T : Nat} {c : N} {L : Leadership N K}
    (votes : quorum.IsQuorum {j | a.vote T j = some c}) (led : a.lead T = some L) : L.node = c := by
  obtain ⟨x, votedC, votedL⟩ := quorum.meet votes (wf.leadQuorum led)
  exact Option.some.inj (votedL.symm.trans votedC)

end ReplicatedLog
