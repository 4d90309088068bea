import Metamorphosis.Library.ReplicatedLog.LogMatching

namespace ReplicatedLog
variable {N K : Type}

/-- A quorum has acknowledged the first `m` entries of a term's leader, or may still do so. -/
def Choosable (quorum : QuorumSystem N) (a : History N K) (T m : Nat) : Prop :=
  quorum.IsQuorum {j | a.term j ≤ T ∨ m ≤ a.ack T j}

/-- The leader of a term counts a quorum that stores its first `m` entries, the last one its own. -/
def Chosen (quorum : QuorumSystem N) (a : History N K) (T m : Nat) : Prop :=
  ∃ L, a.lead T = some L ∧ L.start < m ∧ m ≤ L.entries.length ∧ quorum.IsQuorum {j | m ≤ L.counted j}

/-- The invariant of strict runs: what can be chosen survives in every later term. -/
structure Safe (quorum : QuorumSystem N) (a : History N K) : Prop where
  counted : ∀ {T L}, a.lead T = some L → ∀ j, L.counted j ≤ a.ack T j
  kept : ∀ {j L}, a.lead (a.term j) = some L → ∀ m, m ≤ L.start →
    (a.base j).take m = L.entries.take m → (a.log j).take m = L.entries.take m
  baseHolds : ∀ {T j L m}, T < a.term j → a.lead T = some L → L.start < m → m ≤ a.ack T j →
    Choosable quorum a T m → (a.base j).take m = L.entries.take m
  voteHolds : ∀ {T U j c L m}, a.vote U j = some c → T < U → a.lead T = some L → L.start < m →
    m ≤ a.ack T j → Choosable quorum a T m → (a.stood U c).take m = L.entries.take m
  leadHolds : ∀ {T U L M m}, a.lead U = some M → T < U → a.lead T = some L → L.start < m →
    m ≤ L.entries.length → Choosable quorum a T m → m ≤ M.start ∧ M.entries.take m = L.entries.take m

variable {termOf : K → Nat} {quorum : QuorumSystem N} {a b : History N K}

/-- Nothing is chosen at the start. -/
theorem Safe.initial (quorum : QuorumSystem N) : Safe quorum (History.initial N K) := by
  constructor <;> simp [History.initial]

/-- What is chosen can still be chosen. -/
theorem Chosen.choosable (safe : Safe quorum a) {T m : Nat} (chosen : Chosen quorum a T m) :
    Choosable quorum a T m := by
  obtain ⟨L, led, _, _, counted⟩ := chosen
  exact quorum.mono (fun j large => Or.inr (le_trans large (safe.counted led j))) counted

/-- Terms only grow, and a node acknowledges only in its current term. -/
theorem Choosable.back {T m : Nat} (terms : ∀ j, a.term j ≤ b.term j)
    (acks : ∀ j, T < a.term j → b.ack T j = a.ack T j) (later : Choosable quorum b T m) :
    Choosable quorum a T m := by
  refine quorum.mono ?_ later
  intro j member
  by_cases past : T < a.term j
  · rcases member with old | large
    · have grown := terms j
      omega
    · exact Or.inr (acks j past ▸ large)
  · exact Or.inl (Nat.le_of_not_lt past)

/-- A node still stores what it acknowledged in any term and what can still be chosen. -/
theorem Safe.logHolds (safe : Safe quorum a) (wf : Wf termOf quorum a) {T m : Nat} {j : N}
    {L : Leadership N K} (reached : T ≤ a.term j) (led : a.lead T = some L) (own : L.start < m)
    (acked : m ≤ a.ack T j) (open_ : Choosable quorum a T m) :
    (a.log j).take m = L.entries.take m := by
  rcases Nat.lt_or_eq_of_le reached with past | now
  · have held := safe.baseHolds past led own acked open_
    cases current : a.lead (a.term j) with
    | none => rw [wf.unledLog current, held]
    | some M =>
        obtain ⟨inside, same⟩ := safe.leadHolds current past led own (acked.trans (wf.ackBound led)) open_
        rw [safe.kept current m inside (held.trans same.symm), same]
  · subst now
    exact take_of_take acked (wf.ackHeld led)

/-- The last entry realises the last term. -/
theorem lastTerm_entry (termOf : K → Nat) {log : List K} (nonempty : 0 < log.length) :
    ∃ entry, log[log.length - 1]? = some entry ∧ termOf entry = lastTerm termOf log := by
  have last : log[log.length - 1]? = some log[log.length - 1] := List.getElem?_eq_getElem (by omega)
  refine ⟨log[log.length - 1], last, ?_⟩
  simp only [lastTerm, List.getLast?_eq_getElem?, last]

/-- The last term of a beginning is the one of its last entry. -/
theorem lastTerm_take (termOf : K → Nat) {log : List K} {m : Nat} {entry : K} (at_ : log[m]? = some entry) :
    lastTerm termOf (log.take (m + 1)) = termOf entry := by
  have inside : m < log.length := (List.getElem?_eq_some_iff.mp at_).1
  have length : (log.take (m + 1)).length - 1 = m := by
    rw [List.length_take, Nat.min_eq_left inside]
    omega
  rw [lastTerm, List.getLast?_eq_getElem?, length, List.getElem?_take_of_succ, at_]

/-- An entry of a linked log is not newer than the last one. -/
theorem Linked.term_le_last {log : List K} (linked : Linked termOf a log) (wf : Wf termOf quorum a)
    {i : Nat} {entry : K} (at_ : log[i]? = some entry) : termOf entry ≤ lastTerm termOf log := by
  have inside : i < log.length := (List.getElem?_eq_some_iff.mp at_).1
  obtain ⟨last, atLast, lastTerm⟩ := lastTerm_entry termOf (show 0 < log.length by omega)
  obtain ⟨L, led, _, same⟩ := linked _ last atLast
  rw [← lastTerm]
  apply wf.lead_term_le led
  have inLog : entry ∈ log.take (log.length - 1 + 1) := by
    rw [Nat.sub_add_cancel (by omega), List.take_length]
    exact List.mem_of_getElem? at_
  exact List.mem_of_mem_take (same ▸ inLog)

/-- An up-to-date log holds what the voter's log holds of a choosable prefix. -/
theorem Safe.upToDate_holds (safe : Safe quorum a) (wf : Wf termOf quorum a) {T m : Nat}
    {candidate voter : List K} {L : Leadership N K} (led : a.lead T = some L) (own : L.start < m)
    (within : m ≤ L.entries.length) (open_ : Choosable quorum a T m)
    (linkedC : Linked termOf a candidate) (linkedV : Linked termOf a voter)
    (held : voter.take m = L.entries.take m) (upToDate : UpToDate termOf candidate voter) :
    candidate.take m = L.entries.take m := by
  have voterLong : m ≤ voter.length := length_of_take within held
  obtain ⟨x, atX⟩ : ∃ x, voter[m - 1]? = some x :=
    ⟨_, List.getElem?_eq_getElem (show m - 1 < voter.length by omega)⟩
  -- The voter's entry at `m` is one of the leader's own, so the voter's log ends in term `T` or later.
  have termX : termOf x = T := by
    have inEntries : L.entries[m - 1]? = some x := by
      have same := congrArg (fun log : List K => log[m - 1]?) held
      simp only [List.getElem?_take, show m - 1 < m by omega, if_true] at same
      rw [← same, atX]
    apply wf.leadNew led x
    refine List.mem_of_getElem? (i := m - 1 - L.start) ?_
    rw [List.getElem?_drop, Nat.add_sub_cancel' (by omega)]
    exact inEntries
  have late : T ≤ lastTerm termOf voter := termX ▸ linkedV.term_le_last wf atX
  have nonempty : 0 < candidate.length := by
    by_contra empty
    have nil : candidate = [] := List.eq_nil_of_length_eq_zero (by omega)
    subst nil
    rcases upToDate with newer | ⟨_, longer⟩
    · simp [lastTerm] at newer
    · rw [List.length_nil] at longer
      omega
  obtain ⟨y, atY, termY⟩ := lastTerm_entry termOf nonempty
  obtain ⟨M, ledM, startedM, sameM⟩ := linkedC _ y atY
  rw [Nat.sub_add_cancel nonempty] at sameM
  rcases Nat.lt_or_ge T (termOf y) with later | notLater
  · obtain ⟨insideM, agree⟩ := safe.leadHolds ledM later led own within open_
    have short : m ≤ candidate.length := by omega
    exact (take_of_take short sameM).trans agree
  · have equal : termOf y = T := by
      rcases upToDate with newer | ⟨same, _⟩ <;> omega
    have longer : voter.length ≤ candidate.length := by
      rcases upToDate with newer | ⟨_, longer⟩
      · omega
      · exact longer
    rw [equal, led] at ledM
    obtain rfl := Option.some.inj ledM
    exact take_of_take (voterLong.trans longer) sameM

/-- A leader appends: the new entry is acknowledged by nobody, so no later leader can miss it. -/
theorem Safe.append (safe : Safe quorum a) (wf : Wf termOf quorum a) (t : Nat) (L : Leadership N K)
    (entry : K) (led : a.lead t = some L) :
    Safe quorum (a.setLead t (L.append entry)) := by
  have longer : L.entries <+: (L.append entry).entries := List.prefix_append ..
  have inside := wf.leadStart led
  exact {
    counted := by
      intro T P ledP x
      rcases setLead_cases ledP with ⟨rfl, rfl⟩ | ⟨_, old⟩
      · exact safe.counted led x
      · exact safe.counted old x
    kept := by
      intro x P ledP m within shared
      rcases setLead_cases ledP with ⟨now, rfl⟩ | ⟨_, old⟩
      · have now : a.term x = t := now
        subst now
        have within : m ≤ L.start := within
        rw [take_of_grows longer (by omega)] at shared ⊢
        exact safe.kept led m within shared
      · exact safe.kept old m within shared
    baseHolds := by
      intro T x P m past ledP own acked open_
      rcases setLead_cases ledP with ⟨rfl, rfl⟩ | ⟨_, old⟩
      · have bound := acked.trans (wf.ackBound led)
        rw [take_of_grows longer bound]
        exact safe.baseHolds past led own acked open_
      · exact safe.baseHolds past old own acked open_
    voteHolds := by
      intro T U x d P m voted past ledP own acked open_
      rcases setLead_cases ledP with ⟨rfl, rfl⟩ | ⟨_, old⟩
      · have bound := acked.trans (wf.ackBound led)
        rw [take_of_grows longer bound]
        exact safe.voteHolds voted past led own acked open_
      · exact safe.voteHolds voted past old own acked open_
    leadHolds := by
      intro T U P M m ledU past ledP own within open_
      have open_ : Choosable quorum a T m := open_
      -- The later leader is some leader of `a`, whose log may have grown by the entry.
      obtain ⟨Q, ledQ, startQ, growQ⟩ : ∃ Q, a.lead U = some Q ∧ M.start = Q.start ∧
          Q.entries <+: M.entries := by
        rcases setLead_cases ledU with ⟨rfl, rfl⟩ | ⟨_, oldU⟩
        · exact ⟨L, led, rfl, longer⟩
        · exact ⟨M, oldU, rfl, List.prefix_rfl⟩
      have insideQ := wf.leadStart ledQ
      have settle {R : Leadership N K} (ledR : a.lead T = some R) (ownR : R.start < m)
          (withinR : m ≤ R.entries.length) : m ≤ M.start ∧ M.entries.take m = R.entries.take m := by
        obtain ⟨small, agree⟩ := safe.leadHolds ledQ past ledR ownR withinR open_
        exact ⟨startQ ▸ small, (take_of_grows growQ (by omega)).trans agree⟩
      rcases setLead_cases ledP with ⟨rfl, rfl⟩ | ⟨_, old⟩
      · obtain ⟨x, voted, member⟩ := quorum.meet (wf.leadQuorum ledQ) open_
        have bound := wf.voteTerm voted
        have member : a.term x ≤ T ∨ m ≤ a.ack T x := member
        have acked : m ≤ a.ack T x := by
          rcases member with behind | acked
          · omega
          · exact acked
        have small := acked.trans (wf.ackBound led)
        rw [take_of_grows longer small]
        exact settle led own small
      · exact settle old own within }

section Preservation
variable [DecidableEq N] {strict : Prop}

/-- Terms never decrease. -/
theorem Step.term_le (taken : Step termOf quorum strict a b) (j : N) : a.term j ≤ b.term j := by
  have entered (x : N) (t : Nat) (later : a.term x < t) : a.term j ≤ Function.update a.term x t j := by
    by_cases same : j = x
    · subst same
      rw [Function.update_self]
      omega
    · rw [Function.update_of_ne same]
  cases taken with
  | advance x t later => exact entered x t later
  | stand x t later => exact entered x t later
  | _ => exact Nat.le_refl _

/-- An acknowledgement of a past term never changes. -/
theorem Step.ack_past (taken : Step termOf quorum strict a b) {T : Nat} {j : N} (past : T < a.term j) :
    b.ack T j = a.ack T j := by
  have unchanged (x : N) (m : Nat) : (a.recordAck (a.term x) x m).ack T j = a.ack T j := by
    apply if_neg
    rintro ⟨rfl, rfl⟩
    exact Nat.lt_irrefl _ past
  cases taken with
  | elect x => exact unchanged x _
  | save L => exact unchanged L.node _
  | accept L x => exact unchanged x _
  | _ => rfl

/-- A leadership keeps its node and its start; its entries and its counts only grow. -/
theorem Step.lead_grows (taken : Step termOf quorum strict a b) {T : Nat} {L : Leadership N K}
    (led : a.lead T = some L) : ∃ M, b.lead T = some M ∧ M.node = L.node ∧ M.start = L.start ∧
      L.entries <+: M.entries ∧ ∀ j, L.counted j ≤ M.counted j := by
  have unchanged (other : b.lead T = a.lead T) : ∃ M, b.lead T = some M ∧ M.node = L.node ∧
      M.start = L.start ∧ L.entries <+: M.entries ∧ ∀ j, L.counted j ≤ M.counted j :=
    ⟨L, other.trans led, rfl, rfl, List.prefix_rfl, fun _ => Nat.le_refl _⟩
  cases taken with
  | elect c _ _ unled =>
      apply unchanged
      apply Function.update_of_ne
      rintro rfl
      exact absurd (unled.symm.trans led) (by simp)
  | append t P entry ledP =>
      by_cases same : T = t
      · subst same
        obtain rfl := Option.some.inj (led.symm.trans ledP)
        exact ⟨_, Function.update_self .., rfl, rfl, List.prefix_append .., fun _ => Nat.le_refl _⟩
      · exact unchanged (Function.update_of_ne same ..)
  | count t P j m ledP =>
      by_cases same : T = t
      · subst same
        obtain rfl := Option.some.inj (led.symm.trans ledP)
        refine ⟨_, Function.update_self .., rfl, rfl, List.prefix_rfl, fun x => ?_⟩
        change L.counted x ≤ Function.update L.counted j (max (L.counted j) m) x
        by_cases self : x = j
        · subst self
          rw [Function.update_self]
          exact Nat.le_max_left ..
        · rw [Function.update_of_ne self]
      · exact unchanged (Function.update_of_ne same ..)
  | _ => exact unchanged rfl

/-- What a leader counted as stored by a quorum stays counted. -/
theorem Chosen.step (taken : Step termOf quorum strict a b) {T m : Nat} (chosen : Chosen quorum a T m) :
    Chosen quorum b T m := by
  obtain ⟨L, led, own, within, counted⟩ := chosen
  obtain ⟨M, ledM, _, start, grows, counts⟩ := taken.lead_grows led
  exact ⟨M, ledM, start ▸ own, within.trans grows.length_le,
    quorum.mono (fun j large => le_trans large (counts j)) counted⟩

/-- What can be chosen after a step could be chosen before it. -/
theorem Step.choosable_back (taken : Step termOf quorum strict a b) {T m : Nat}
    (later : Choosable quorum b T m) : Choosable quorum a T m :=
  later.back taken.term_le fun _ past => taken.ack_past past

/-- A node that advances takes its acknowledgement away from older terms. -/
theorem Safe.advance (safe : Safe quorum a) (wf : Wf termOf quorum a) (j : N) (t : Nat)
    (later : a.term j < t) : Safe quorum (a.advance j t) := by
  have back {T m : Nat} (open_ : Choosable quorum (a.advance j t) T m) : Choosable quorum a T m :=
    Step.choosable_back (.advance a j t later : Step termOf quorum True _ _) open_
  exact {
    counted := safe.counted
    kept := by
      intro x L led m inside shared
      by_cases same : x = j
      · subst same
        simpa only [History.advance, Function.update_self] using shared
      · simp only [History.advance, Function.update_of_ne same] at led shared
        exact safe.kept led m inside shared
    baseHolds := by
      intro T x L m past led own acked open_
      by_cases same : x = j
      · subst same
        simp only [History.advance, Function.update_self]
        exact safe.logHolds wf (wf.term_le_of_ack (by omega) acked) led own acked (back open_)
      · simp only [History.advance, Function.update_of_ne same] at past ⊢
        exact safe.baseHolds past led own acked (back open_)
    voteHolds := fun voted past led own acked open_ =>
      safe.voteHolds voted past led own acked (back open_)
    leadHolds := fun ledU past led own within open_ =>
      safe.leadHolds ledU past led own within (back open_) }

/-- A candidate votes for itself with its own log. -/
theorem Safe.stand (safe : Safe quorum a) (wf : Wf termOf quorum a) (c : N) (t : Nat)
    (later : a.term c < t) : Safe quorum (a.stand c t) := by
  have entered := safe.advance wf c t later
  have back {T m : Nat} (open_ : Choosable quorum (a.stand c t) T m) : Choosable quorum a T m :=
    Step.choosable_back (.stand a c t later : Step termOf quorum True _ _) open_
  have newStood : (a.stand c t).stood t c = a.log c := by
    simp [History.stand]
  exact {
    counted := entered.counted
    kept := entered.kept
    baseHolds := entered.baseHolds
    voteHolds := by
      intro T U x d L m voted past led own acked open_
      rcases recordVote_cases voted with ⟨rfl, rfl, rfl⟩ | ⟨different, old⟩
      · rw [newStood]
        exact safe.logHolds wf (wf.term_le_of_ack (by omega) acked) led own acked (back open_)
      · have stoodBefore : ¬ (U = t ∧ d = c) := by
          rintro ⟨rfl, rfl⟩
          have bound := wf.voteTerm (wf.voteStood old)
          omega
        have oldStood : (a.stand c t).stood U d = a.stood U d := by
          simp only [History.stand, if_neg stoodBefore]
        rw [oldStood]
        exact safe.voteHolds old past led own acked (back open_)
    leadHolds := entered.leadHolds }

/-- A voter grants only logs that are up to date. -/
theorem Safe.grant (safe : Safe quorum a) (wf : Wf termOf quorum a) (j c : N)
    (fresh : a.vote (a.term j) j = none) (standing : a.vote (a.term j) c = some c)
    (upToDate : UpToDate termOf (a.stood (a.term j) c) (a.log j)) :
    Safe quorum (a.recordVote (a.term j) j c) where
  counted := safe.counted
  kept := safe.kept
  baseHolds := safe.baseHolds
  voteHolds := by
    intro T U x d L m voted past led own acked open_
    rcases recordVote_cases voted with ⟨rfl, rfl, rfl⟩ | ⟨_, old⟩
    · exact safe.upToDate_holds wf led own (acked.trans (wf.ackBound led)) open_
        (wf.stoodLinked standing) (wf.logLinked x)
        (safe.logHolds wf (Nat.le_of_lt past) led own acked open_) upToDate
    · exact safe.voteHolds old past led own acked open_
  leadHolds := safe.leadHolds

/-- A new leader has everything that can be chosen in an older term. -/
theorem Safe.elect (safe : Safe quorum a) (wf : Wf termOf quorum a) (c : N)
    (votes : quorum.IsQuorum {j | a.vote (a.term c) j = some c})
    (standing : a.vote (a.term c) c = some c) (unled : a.lead (a.term c) = none)
    (same : a.log c = a.stood (a.term c) c) : Safe quorum (a.elect c) := by
  have back {T m : Nat} (open_ : Choosable quorum (a.elect c) T m) : Choosable quorum a T m :=
    Step.choosable_back (.elect a c votes standing unled same : Step termOf quorum True _ _) open_
  have oldAck {T : Nat} {x : N} (different : T ≠ a.term c) : (a.elect c).ack T x = a.ack T x :=
    if_neg fun new => different new.1
  -- The new leadership has no entry of its own yet, so nothing of it can be chosen.
  have nothingNew {x : N} {m : Nat} (own : (a.leadership c).start < m)
      (acked : m ≤ (a.elect c).ack (a.term c) x) : False := by
    have own : (a.log c).length < m := own
    by_cases self : x = c
    · have ackSelf : (a.elect c).ack (a.term c) x = (a.log c).length := if_pos ⟨rfl, self⟩
      omega
    · have ackOther : (a.elect c).ack (a.term c) x = a.ack (a.term c) x := if_neg fun new => self new.2
      rw [ackOther, wf.ackUnled unled] at acked
      omega
  exact {
    counted := by
      intro T L led x
      rcases setLead_cases led with ⟨rfl, rfl⟩ | ⟨different, old⟩
      · by_cases self : x = c <;>
          simp [History.elect, History.setLead, History.recordAck, History.leadership, self]
      · rw [oldAck different]
        exact safe.counted old x
    kept := by
      intro x L led m inside shared
      rcases setLead_cases led with ⟨now, rfl⟩ | ⟨_, old⟩
      · have now : a.term x = a.term c := now
        have unchanged : a.log x = a.base x := wf.unledLog (now ▸ unled)
        exact (congrArg (List.take m) unchanged).trans shared
      · exact safe.kept old m inside shared
    baseHolds := by
      intro T x L m past led own acked open_
      rcases setLead_cases led with ⟨rfl, rfl⟩ | ⟨different, old⟩
      · exact (nothingNew own acked).elim
      · rw [oldAck different] at acked
        exact safe.baseHolds past old own acked (back open_)
    voteHolds := by
      intro T U x d L m voted past led own acked open_
      rcases setLead_cases led with ⟨rfl, rfl⟩ | ⟨different, old⟩
      · exact (nothingNew own acked).elim
      · rw [oldAck different] at acked
        exact safe.voteHolds voted past old own acked (back open_)
    leadHolds := by
      intro T U L M m ledU past led own within open_
      rcases setLead_cases led with ⟨rfl, rfl⟩ | ⟨different, old⟩
      · have own : (a.log c).length < m := own
        have within : m ≤ (a.log c).length := within
        omega
      rcases setLead_cases ledU with ⟨rfl, rfl⟩ | ⟨_, oldU⟩
      · obtain ⟨x, voted, member⟩ := quorum.meet votes (back open_)
        have bound := wf.voteTerm voted
        have acked : m ≤ a.ack T x := by
          rcases member with behind | acked
          · omega
          · exact acked
        have held := safe.voteHolds voted past old own acked (back open_)
        rw [← same] at held
        exact ⟨length_of_take within held, held⟩
      · exact safe.leadHolds oldU past old own within (back open_) }

/-- A leader counts what was acknowledged. -/
theorem Safe.count (safe : Safe quorum a) (t : Nat) (L : Leadership N K) (j : N) (m : Nat)
    (led : a.lead t = some L) (acknowledged : m ≤ a.ack t j) :
    Safe quorum (a.setLead t (L.count j m)) := by
  -- Counting changes no log, so every leadership of the new state has the entries of an old one.
  have before {T : Nat} {P : Leadership N K}
      (ledP : (a.setLead t (L.count j m)).lead T = some P) :
      ∃ Q, a.lead T = some Q ∧ P.start = Q.start ∧ P.entries = Q.entries := by
    rcases setLead_cases ledP with ⟨rfl, rfl⟩ | ⟨_, old⟩
    · exact ⟨L, led, rfl, rfl⟩
    · exact ⟨P, old, rfl, rfl⟩
  exact {
    counted := by
      intro T P ledP x
      rcases setLead_cases ledP with ⟨rfl, rfl⟩ | ⟨_, old⟩
      · by_cases same : x = j
        · subst same
          simp only [Leadership.count, Function.update_self]
          exact Nat.max_le.mpr ⟨safe.counted led x, acknowledged⟩
        · simp only [Leadership.count, Function.update_of_ne same]
          exact safe.counted led x
      · exact safe.counted old x
    kept := by
      intro x P ledP k within shared
      obtain ⟨Q, ledQ, start, entries⟩ := before ledP
      rw [entries] at shared ⊢
      exact safe.kept ledQ k (start ▸ within) shared
    baseHolds := by
      intro T x P k past ledP own acked open_
      obtain ⟨Q, ledQ, start, entries⟩ := before ledP
      rw [entries]
      exact safe.baseHolds past ledQ (start ▸ own) acked open_
    voteHolds := by
      intro T U x d P k voted past ledP own acked open_
      obtain ⟨Q, ledQ, start, entries⟩ := before ledP
      rw [entries]
      exact safe.voteHolds voted past ledQ (start ▸ own) acked open_
    leadHolds := by
      intro T U P M k ledU past ledP own within open_
      obtain ⟨Q, ledQ, start, entries⟩ := before ledP
      obtain ⟨R, ledR, startR, entriesR⟩ := before ledU
      rw [entries, entriesR, startR]
      exact safe.leadHolds ledR past ledQ (start ▸ own) (entries ▸ within) open_ }

/-- A node that adopts a part of the leader's log loses nothing that can be chosen. -/
theorem Safe.setLog (safe : Safe quorum a) (wf : Wf termOf quorum a) {L : Leadership N K} {j : N} {log : List K} {q : Nat}
    (led : a.lead (a.term j) = some L) (keeps : a.Keeps L j log q)
    (back : ∀ {T m}, Choosable quorum (a.setLog j log q) T m → Choosable quorum a T m) :
    Safe quorum (a.setLog j log q) := by
  have pastAck {T : Nat} {x : N} (past : T < a.term x) : (a.setLog j log q).ack T x = a.ack T x := by
    apply if_neg
    rintro ⟨rfl, rfl⟩
    exact Nat.lt_irrefl _ past
  exact {
    counted := by
      intro T P ledP x
      by_cases new : T = a.term j ∧ x = j
      · obtain ⟨rfl, rfl⟩ := new
        obtain rfl := Option.some.inj (led.symm.trans ledP)
        have newAck : (a.setLog x log q).ack (a.term x) x = q := if_pos ⟨rfl, rfl⟩
        rw [newAck]
        exact keeps.counted
      · have oldAck : (a.setLog j log q).ack T x = a.ack T x := if_neg new
        rw [oldAck]
        exact safe.counted ledP x
    kept := by
      intro x P ledP m within shared
      by_cases self : x = j
      · subst self
        obtain rfl := Option.some.inj (led.symm.trans ledP)
        have newLog : (a.setLog x log q).log x = log := Function.update_self ..
        rw [newLog]
        exact keeps.shared m within shared
      · have oldLog : (a.setLog j log q).log x = a.log x := Function.update_of_ne self ..
        rw [oldLog]
        exact safe.kept ledP m within shared
    baseHolds := by
      intro T x P m past ledP own acked open_
      rw [pastAck past] at acked
      exact safe.baseHolds past ledP own acked (back open_)
    voteHolds := by
      intro T U x d P m voted past ledP own acked open_
      rw [pastAck (past.trans_le (wf.voteTerm voted))] at acked
      exact safe.voteHolds voted past ledP own acked (back open_)
    leadHolds := fun ledU past ledP own within open_ =>
      safe.leadHolds ledU past ledP own within (back open_) }

/-- Every strict step keeps what can be chosen. -/
theorem Safe.step (safe : Safe quorum a) (wf : Wf termOf quorum a) (isStrict : strict)
    (taken : Step termOf quorum strict a b) : Safe quorum b := by
  cases id taken with
  | advance j t later => exact safe.advance wf j t later
  | stand c t later => exact safe.stand wf c t later
  | grant j c fresh standing upToDate => exact safe.grant wf j c fresh standing upToDate
  | elect c votes standing unled same => exact safe.elect wf c votes standing unled same
  | append t L entry led _ => exact safe.append wf t L entry led
  | save L m led grows within =>
      have own := wf.leaderLog led
      refine safe.setLog wf led ⟨?_, ?_⟩ taken.choosable_back
      · intro k inside _
        rw [List.take_take, Nat.min_eq_left (by omega)]
      · have acked := length_of_take (wf.ackBound led) (wf.ackHeld led)
        have counted := safe.counted led L.node
        omega
  | accept L j log q led other source within covered keeps =>
      exact safe.setLog wf led (keeps isStrict) taken.choosable_back
  | count t L j m led acknowledged => exact safe.count t L j m led (acknowledged isStrict)

/-- What was chosen stays chosen. -/
theorem Chosen.steps {T m : Nat} (chosen : Chosen quorum a T m) (run : Steps termOf quorum strict a b) :
    Chosen quorum b T m := by
  induction run with
  | refl => exact chosen
  | tail _ last ih => exact ih.step last

/-- The log of a leader only grows. -/
theorem Steps.lead_grows (run : Steps termOf quorum strict a b) {T : Nat} {L : Leadership N K}
    (led : a.lead T = some L) : ∃ M, b.lead T = some M ∧ M.node = L.node ∧ M.start = L.start ∧
      L.entries <+: M.entries ∧ ∀ j, L.counted j ≤ M.counted j := by
  induction run with
  | refl => exact ⟨L, led, rfl, rfl, List.prefix_rfl, fun _ => Nat.le_refl _⟩
  | tail _ last ih =>
      obtain ⟨M, ledM, node, start, grows, counts⟩ := ih
      obtain ⟨P, ledP, nodeP, startP, growsP, countsP⟩ := last.lead_grows ledM
      exact ⟨P, ledP, nodeP.trans node, startP.trans start, grows.trans growsP,
        fun j => (counts j).trans (countsP j)⟩

/-- So do the logs of all leaders. -/
theorem Steps.leadsGrow (run : Steps termOf quorum strict a b) : LeadsGrow a b := by
  intro T L led
  obtain ⟨M, ledM, node, start, grows, _⟩ := run.lead_grows led
  exact ⟨M, ledM, node, start, grows⟩

/-- Every strict run keeps what can be chosen. -/
theorem Safe.steps (safe : Safe quorum a) (wf : Wf termOf quorum a) (isStrict : strict)
    (run : Steps termOf quorum strict a b) : Safe quorum b := by
  induction run with
  | refl => exact safe
  | tail before last ih => exact ih.step (wf.steps before) isStrict last

end Preservation

/-- Leader completeness: a later leader starts with everything that was chosen before. -/
theorem Chosen.in_later (safe : Safe quorum a) {T U m : Nat} {L M : Leadership N K}
    (chosen : Chosen quorum a T m) (led : a.lead T = some L) (ledU : a.lead U = some M) (later : T < U) :
    m ≤ M.start ∧ M.entries.take m = L.entries.take m := by
  have open_ := chosen.choosable safe
  obtain ⟨P, ledP, own, within, _⟩ := chosen
  obtain rfl := Option.some.inj (ledP.symm.trans led)
  exact safe.leadHolds ledU later led own within open_

/-- Any two chosen prefixes agree. -/
theorem Chosen.agree (safe : Safe quorum a) {T U m k i : Nat} {L M : Leadership N K}
    (chosenT : Chosen quorum a T m) (chosenU : Chosen quorum a U k)
    (led : a.lead T = some L) (ledU : a.lead U = some M) (inT : i ≤ m) (inU : i ≤ k) :
    L.entries.take i = M.entries.take i := by
  rcases Nat.lt_trichotomy T U with before | same | after
  · exact (take_of_take inT (chosenT.in_later safe led ledU before).2).symm
  · subst same
    rw [Option.some.inj (led.symm.trans ledU)]
  · exact take_of_take inU (chosenU.in_later safe ledU led after).2

end ReplicatedLog
