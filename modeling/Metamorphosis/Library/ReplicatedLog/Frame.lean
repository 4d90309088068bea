import Metamorphosis.Library.ReplicatedLog.Completeness

namespace ReplicatedLog
variable {N K : Type}

/-- What every step keeps: votes, the logs that candidates stood with, leaderships and terms. -/
structure Grows (a b : History N K) : Prop where
  term : ∀ j, a.term j ≤ b.term j
  vote : ∀ {T j c}, a.vote T j = some c → b.vote T j = some c
  stood : ∀ {T c}, a.vote T c = some c → b.stood T c = a.stood T c
  lead : ∀ {T L}, a.lead T = some L → ∃ M, b.lead T = some M ∧ M.node = L.node ∧ M.start = L.start ∧
    L.entries <+: M.entries ∧ ∀ j, L.counted j ≤ M.counted j

/-- A step leaves a node, its votes and its leaderships alone. -/
structure Untouched (x : N) (a b : History N K) : Prop where
  term : b.term x = a.term x
  log : b.log x = a.log x
  vote : ∀ T, b.vote T x = a.vote T x
  stood : ∀ T, b.stood T x = a.stood T x
  lead : ∀ {T L}, L.node = x → (b.lead T = some L ↔ a.lead T = some L)

/-- A step of one node leaves the other nodes alone. -/
def Frame (i : N) (a b : History N K) : Prop := ∀ x, x ≠ i → Untouched x a b

/-- A quiet step lets no follower rewrite its log. -/
structure Quiet (a b : History N K) : Prop where
  base : ∀ {j}, b.term j = a.term j → b.base j = a.base j
  log : ∀ j, a.log j <+: b.log j
  followerLog : ∀ {j L}, b.lead (b.term j) = some L → L.node ≠ j → b.log j = a.log j
  followerAck : ∀ {T j L}, b.lead T = some L → L.node ≠ j → b.ack T j = a.ack T j

/-- No leader counts more of a follower than before. -/
def SameCounts (a b : History N K) : Prop :=
  ∀ {T L M}, a.lead T = some L → b.lead T = some M → ∀ j, j ≠ L.node → M.counted j = L.counted j

/-- Every leadership has built the same log as before. -/
def SameEntries (a b : History N K) : Prop :=
  ∀ {T M}, b.lead T = some M → ∃ L, a.lead T = some L ∧ M.node = L.node ∧ M.start = L.start ∧
    M.entries = L.entries

theorem Grows.refl (a : History N K) : Grows a a :=
  ⟨fun _ => Nat.le_refl _, id, fun _ => rfl,
    fun {_ L} led => ⟨L, led, rfl, rfl, List.prefix_rfl, fun _ => Nat.le_refl _⟩⟩

/-- What grows twice has grown. -/
theorem Grows.trans {a b c : History N K} (first : Grows a b) (second : Grows b c) : Grows a c where
  term j := (first.term j).trans (second.term j)
  vote voted := second.vote (first.vote voted)
  stood voted := (second.stood (first.vote voted)).trans (first.stood voted)
  lead led := by
    obtain ⟨M, ledM, nodeM, startM, longerM, countsM⟩ := first.lead led
    obtain ⟨P, ledP, nodeP, startP, longerP, countsP⟩ := second.lead ledM
    exact ⟨P, ledP, nodeP.trans nodeM, startP.trans startM, longerM.trans longerP,
      fun j => (countsM j).trans (countsP j)⟩

theorem Untouched.refl (x : N) (a : History N K) : Untouched x a a :=
  ⟨rfl, rfl, fun _ => rfl, fun _ => rfl, fun _ => Iff.rfl⟩

/-- A node that is left alone twice is left alone. -/
theorem Untouched.trans {x : N} {a b c : History N K} (first : Untouched x a b) (second : Untouched x b c) :
    Untouched x a c where
  term := second.term.trans first.term
  log := second.log.trans first.log
  vote T := (second.vote T).trans (first.vote T)
  stood T := (second.stood T).trans (first.stood T)
  lead own := (second.lead own).trans (first.lead own)

theorem Frame.refl (i : N) (a : History N K) : Frame i a a := fun x _ => .refl x a

/-- Two steps of one node. -/
theorem Frame.trans {i : N} {a b c : History N K} (first : Frame i a b) (second : Frame i b c) : Frame i a c :=
  fun x other => (first x other).trans (second x other)

theorem Quiet.refl (a : History N K) : Quiet a a :=
  ⟨fun _ => rfl, fun _ => List.prefix_rfl, fun _ _ => rfl, fun _ _ => rfl⟩

theorem SameCounts.refl (a : History N K) : SameCounts a a := by
  intro T L M led ledM j _
  cases led.symm.trans ledM
  rfl

theorem SameEntries.refl (a : History N K) : SameEntries a a :=
  fun {_ M} led => ⟨M, led, rfl, rfl, rfl⟩

variable {a b : History N K}

/-- A change of a leadership concerns its leader only. -/
theorem Frame.setLead {t : Nat} {L M : Leadership N K} (led : a.lead t = some L ∨ a.lead t = none ∧ L = M)
    (node : M.node = L.node) : Frame L.node a (a.setLead t M) := by
  intro x other
  refine ⟨rfl, rfl, fun _ => rfl, fun _ => rfl, ?_⟩
  intro T P own
  constructor
  · intro after
    rcases setLead_cases after with ⟨_, rfl⟩ | ⟨_, old⟩
    · exact absurd (own.symm.trans node) other
    · exact old
  · intro before
    have different : T ≠ t := by
      rintro rfl
      rcases led with led | ⟨unled, _⟩
      · cases led.symm.trans before
        exact other own.symm
      · cases unled.symm.trans before
    exact (Function.update_of_ne different ..).trans before

/-- A change of a leadership is quiet. -/
theorem Quiet.setLead (a : History N K) (t : Nat) (L : Leadership N K) : Quiet a (a.setLead t L) :=
  ⟨fun _ => rfl, fun _ => List.prefix_rfl, fun _ _ => rfl, fun _ _ => rfl⟩

/-- A leader may count or append after a quiet step. -/
theorem Quiet.setLead_after {t : Nat} {L M : Leadership N K} (quiet : Quiet a b) (led : b.lead t = some L)
    (node : M.node = L.node) : Quiet a (b.setLead t M) := by
  have before {T : Nat} {P : Leadership N K} (ledP : (b.setLead t M).lead T = some P) :
      ∃ Q, b.lead T = some Q ∧ Q.node = P.node := by
    rcases setLead_cases ledP with ⟨rfl, rfl⟩ | ⟨_, old⟩
    · exact ⟨L, led, node.symm⟩
    · exact ⟨P, old, rfl⟩
  refine ⟨quiet.base, quiet.log, fun ledP other => ?_, fun ledP other => ?_⟩
  · obtain ⟨Q, ledQ, same⟩ := before ledP
    exact quiet.followerLog ledQ (same ▸ other)
  · obtain ⟨Q, ledQ, same⟩ := before ledP
    exact quiet.followerAck ledQ (same ▸ other)

/-- A change of a leadership that counts nothing. -/
theorem SameCounts.setLead {t : Nat} {L M : Leadership N K} (led : a.lead t = some L)
    (counts : ∀ j, j ≠ L.node → M.counted j = L.counted j) : SameCounts a (a.setLead t M) := by
  intro T P Q ledP ledQ j other
  rcases setLead_cases ledQ with ⟨rfl, rfl⟩ | ⟨_, old⟩
  · cases led.symm.trans ledP
    exact counts j other
  · cases old.symm.trans ledP
    rfl

section Steps
variable [DecidableEq N] {termOf : K → Nat} {quorum : QuorumSystem N} {strict : Prop}

/-- Terms, votes and leaderships grow in every step. -/
theorem Wf.grows (wf : Wf termOf quorum a) (taken : Step termOf quorum strict a b) : Grows a b := by
  refine ⟨taken.term_le, ?_, ?_, taken.lead_grows⟩
  · intro T j c voted
    cases taken with
    | stand x t later =>
        apply recordVote_keeps _ voted
        cases before : a.vote t x with
        | none => rfl
        | some d => exact absurd (wf.voteTerm before) (by omega)
    | grant x d fresh => exact recordVote_keeps fresh voted
    | _ => exact voted
  · intro T c voted
    cases taken with
    | stand x t later =>
        apply if_neg
        rintro ⟨rfl, rfl⟩
        exact absurd (wf.voteTerm voted) (by omega)
    | _ => rfl

/-- A run keeps what every step keeps. -/
theorem Wf.grows_steps (wf : Wf termOf quorum a) (run : Steps termOf quorum strict a b) : Grows a b := by
  induction run with
  | refl => exact .refl a
  | tail earlier last ih => exact ih.trans ((wf.steps earlier).grows last)

/-- A count changes no entry. -/
theorem SameEntries.count {t : Nat} {L : Leadership N K} (led : a.lead t = some L) (j : N) (m : Nat) :
    SameEntries a (a.setLead t (L.count j m)) := by
  intro T P ledP
  rcases setLead_cases ledP with ⟨rfl, rfl⟩ | ⟨_, old⟩
  · exact ⟨L, led, rfl, rfl, rfl⟩
  · exact ⟨P, old, rfl, rfl, rfl⟩

/-- A new term concerns its node only. -/
theorem Frame.advance (a : History N K) (j : N) (t : Nat) : Frame j a (a.advance j t) := fun _ other =>
  ⟨Function.update_of_ne other .., rfl, fun _ => rfl, fun _ => rfl, fun _ => Iff.rfl⟩

/-- A vote concerns its voter only. -/
theorem Frame.recordVote (a : History N K) (t : Nat) (j c : N) : Frame j a (a.recordVote t j c) := fun _ other =>
  ⟨rfl, rfl, fun _ => if_neg fun new => other new.2, fun _ => rfl, fun _ => Iff.rfl⟩

/-- A candidacy concerns its candidate only. -/
theorem Frame.stand (a : History N K) (c : N) (t : Nat) : Frame c a (a.stand c t) := fun _ other =>
  ⟨Function.update_of_ne other .., rfl, fun _ => if_neg fun new => other new.2,
    fun _ => if_neg fun new => other new.2, fun _ => Iff.rfl⟩

/-- An election concerns the new leader only. -/
theorem Frame.elect (c : N) (unled : a.lead (a.term c) = none) : Frame c a (a.elect c) := by
  have frame : Frame c a (a.setLead (a.term c) (a.leadership c)) :=
    Frame.setLead (L := a.leadership c) (Or.inr ⟨unled, rfl⟩) rfl
  exact fun x other => ⟨rfl, rfl, fun _ => rfl, fun _ => rfl, (frame x other).lead⟩

/-- A new log concerns its node only. -/
theorem Frame.setLog (a : History N K) (j : N) (log : List K) (q : Nat) : Frame j a (a.setLog j log q) :=
  fun _ other => ⟨rfl, Function.update_of_ne other .., fun _ => rfl, fun _ => rfl, fun _ => Iff.rfl⟩

/-- A new term is quiet. -/
theorem Quiet.advance {j : N} {t : Nat} (later : a.term j < t) : Quiet a (a.advance j t) where
  base {x} same := by
    have other : x ≠ j := by
      rintro rfl
      have now : (a.advance x t).term x = t := Function.update_self ..
      omega
    exact Function.update_of_ne other ..
  log _ := List.prefix_rfl
  followerLog _ _ := rfl
  followerAck _ _ := rfl

theorem Quiet.recordVote (a : History N K) (t : Nat) (j c : N) : Quiet a (a.recordVote t j c) :=
  ⟨fun _ => rfl, fun _ => List.prefix_rfl, fun _ _ => rfl, fun _ _ => rfl⟩

/-- A candidacy is quiet. -/
theorem Quiet.stand {c : N} {t : Nat} (later : a.term c < t) : Quiet a (a.stand c t) :=
  ⟨(Quiet.advance later).base, fun _ => List.prefix_rfl, fun _ _ => rfl, fun _ _ => rfl⟩

/-- An election is quiet. -/
theorem Quiet.elect (a : History N K) (c : N) : Quiet a (a.elect c) where
  base _ := rfl
  log _ := List.prefix_rfl
  followerLog _ _ := rfl
  followerAck {T j L} led other := by
    apply if_neg
    rintro ⟨rfl, rfl⟩
    have now : (a.elect j).lead (a.term j) = some (a.leadership j) := Function.update_self ..
    cases led.symm.trans now
    exact other rfl

/-- A leader that saves more of its own log. -/
theorem Quiet.save {L : Leadership N K} {log : List K} {q : Nat} (led : a.lead (a.term L.node) = some L)
    (grows : a.log L.node <+: log) : Quiet a (a.setLog L.node log q) where
  base _ := rfl
  log x := by
    by_cases self : x = L.node
    · subst self
      have now : (a.setLog L.node log q).log L.node = log := Function.update_self ..
      rwa [now]
    · have same : (a.setLog L.node log q).log x = a.log x := Function.update_of_ne self ..
      rw [same]
  followerLog {j M} ledM other := by
    apply Function.update_of_ne
    rintro rfl
    cases led.symm.trans ledM
    exact other rfl
  followerAck {T j M} ledM other := by
    apply if_neg
    rintro ⟨rfl, rfl⟩
    cases led.symm.trans ledM
    exact other rfl

end Steps

end ReplicatedLog
