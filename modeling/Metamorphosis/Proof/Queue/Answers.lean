import Metamorphosis.Proof.Queue.Guard

/-!
The sequence ids that a producer is told are durable, provided that every leader that answers has
committed all entries of the producer and no later leader has committed more of them.
-/

namespace Metamorphosis
open ReplicatedLog
variable {md5 : Bytes → Bytes} {n : Nat}

/-- The answers that tell a producer its next sequence id. -/
def reports (producer : Nat) (answers : List (Answered (metamorphosisService md5 n))) :
    List (Answered (metamorphosisService md5 n)) :=
  answers.filter fun answer => answer.request.producerId = producer ∧
    (answer.response.status = .commited ∨ answer.response.status = .invalidSequenceId)

/-- The producer's message with the number `k` is its entry with this number in a log that is committed. -/
def Cluster.MessageCommitted (c : MetamorphosisCluster md5 n) (producer : Nat) (message : UInt64 → Bytes) (k : UInt64) :
    Prop :=
  ∃ commit ∈ c.commits, ∃ index entry, index < commit.2 ∧ (c.leaderLog commit.1)[index]? = some entry ∧
    UInt64.ofNat (entriesOf producer ((c.leaderLog commit.1).take index)) = k ∧ entry.producerId = producer ∧
    entry.md5hash = md5 (message k) ∧ (entry.data = message k ∨ entry.data = [])

/-- All messages before a reported sequence id are committed, and the reported ids never decrease. -/
structure Cluster.ReportsDurable (c : MetamorphosisCluster md5 n) (producer : Nat) (message : UInt64 → Bytes) : Prop where
  committed : ∀ answer ∈ reports producer c.answered, ∀ k, k < answer.response.nextSequenceId →
    c.MessageCommitted producer message k
  increasing : (reports producer c.answered).Pairwise fun first second =>
    first.response.nextSequenceId ≤ second.response.nextSequenceId

/-- The producer sends its message with the number of the sequence id. -/
def Cluster.SendsMessages (producer : Nat) (message : UInt64 → Bytes) (_ : MetamorphosisCluster md5 n) :
    Action (metamorphosisService md5 n) → Prop
  | .execute _ request => request.producerId = producer → request.data = message request.sequenceId
  | _ => True

/-- A node has committed every stored entry of the producer, and no leader of a later term has
committed further ones. -/
def Cluster.Settled (c : MetamorphosisCluster md5 n) (i : Fin n) (producer : Nat) : Prop :=
  (∀ entry ∈ (c.nodes i).values.drop (c.nodes i).commitIndex, entry.producerId ≠ producer) ∧
    ∀ commit ∈ c.commits, (c.nodes i).currentTerm < commit.1 →
      ∀ entry ∈ ((c.leaderLog commit.1).take commit.2).drop (c.nodes i).commitIndex, entry.producerId ≠ producer

/-- A leader is settled when it answers the producer with `InvalidSequenceId` or `Commited`. -/
def Cluster.AnswersSettled (producer : Nat) (c : MetamorphosisCluster md5 n) :
    Action (metamorphosisService md5 n) → Prop
  | .execute i request => request.producerId = producer → (c.nodes i).state = .leader →
      producer ∉ (c.nodes i).ext.pendingProducers →
      request.sequenceId ≠ (c.nodes i).ext.producerNextSequenceId producer → c.Settled i producer
  | .resume i tag => ∀ call ∈ (c.nodes i).calls, call.tag = tag → call.request.producerId = producer →
      call.currentTerm = (c.nodes i).currentTerm → c.Settled i producer
  | _ => True

/-- The steps in which the answers to a producer are durable. -/
structure Cluster.Careful (producer : Nat) (message : UInt64 → Bytes) (c : MetamorphosisCluster md5 n)
    (action : Action (metamorphosisService md5 n)) : Prop where
  inOrder : c.InOrder action
  starts : c.StartsCommitted action
  clear : c.ResumesClear producer action
  sends : c.SendsMessages producer message action
  settled : c.AnswersSettled producer action

instance (producer : Nat) (message : UInt64 → Bytes) (c : MetamorphosisCluster md5 n) :
    ∀ action, Decidable (c.SendsMessages producer message action)
  | .execute _ request => inferInstanceAs (Decidable
      (request.producerId = producer → request.data = message request.sequenceId))
  | .electionTimeout _ | .handleVote _ | .voteAnswered .. | .electionEnd _ | .sessionSend .. | .sessionEnd ..
  | .handleAppend _ | .appendAnswered .. | .mainRound _ | .leaderEnd _ | .resume .. | .crash _ => isTrue trivial

instance (c : MetamorphosisCluster md5 n) (i : Fin n) (producer : Nat) : Decidable (c.Settled i producer) :=
  inferInstanceAs (Decidable (_ ∧ _))

instance (producer : Nat) (c : MetamorphosisCluster md5 n) : ∀ action, Decidable (c.AnswersSettled producer action)
  | .execute i request => inferInstanceAs (Decidable (request.producerId = producer → (c.nodes i).state = .leader →
      producer ∉ (c.nodes i).ext.pendingProducers →
      request.sequenceId ≠ (c.nodes i).ext.producerNextSequenceId producer → c.Settled i producer))
  | .resume i tag => inferInstanceAs (Decidable (∀ call ∈ (c.nodes i).calls, call.tag = tag →
      call.request.producerId = producer → call.currentTerm = (c.nodes i).currentTerm → c.Settled i producer))
  | .electionTimeout _ | .handleVote _ | .voteAnswered .. | .electionEnd _ | .sessionSend .. | .sessionEnd ..
  | .handleAppend _ | .appendAnswered .. | .mainRound _ | .leaderEnd _ | .crash _ => isTrue trivial

instance (producer : Nat) (message : UInt64 → Bytes) (c : MetamorphosisCluster md5 n)
    (action : Action (metamorphosisService md5 n)) : Decidable (c.Careful producer message action) :=
  decidable_of_iff (c.InOrder action ∧ c.StartsCommitted action ∧ c.ResumesClear producer action ∧
      c.SendsMessages producer message action ∧ c.AnswersSettled producer action)
    ⟨fun ⟨inOrder, starts, clear, sends, settled⟩ => ⟨inOrder, starts, clear, sends, settled⟩,
      fun careful => ⟨careful.inOrder, careful.starts, careful.clear, careful.sends, careful.settled⟩⟩

/-- The message of a producer is saved but not replicated. A resend is answered with the next sequence
id, and a new leader without the message takes the answer back. -/
def forgottenScript : List (Option Nat × Action (metamorphosisService id 3)) :=
  Cluster.firstLeads _ ++
    [(none, .execute 0 ⟨[7], 1, 0⟩), (none, .mainRound 0), (none, .execute 0 ⟨[7], 1, 0⟩),
      (none, .electionTimeout 1), (none, .handleVote 3), (none, .voteAnswered 1 2 (some 1)),
      (none, .execute 1 ⟨[8], 1, 1⟩)]

/-- The steps of an ordered run in which the producer sends its messages. -/
def Cluster.OrderedSends (producer : Nat) (message : UInt64 → Bytes) (c : MetamorphosisCluster md5 n)
    (action : Action (metamorphosisService md5 n)) : Prop :=
  c.InOrder action ∧ c.SendsMessages producer message action

instance (producer : Nat) (message : UInt64 → Bytes) (c : MetamorphosisCluster md5 n)
    (action : Action (metamorphosisService md5 n)) : Decidable (c.OrderedSends producer message action) :=
  inferInstanceAs (Decidable (_ ∧ _))

/-- The messages of the producer in the script. -/
def twoMessages (k : UInt64) : Bytes := if k = 0 then [7] else [8]

theorem forgottenScript_possible : ((Cluster.initial (metamorphosisService id 3)).play
    (Cluster.OrderedSends 1 twoMessages) forgottenScript).isSome = true := by
  decide +kernel

/-- The cluster after the script. -/
def forgottenCluster : MetamorphosisCluster id 3 :=
  (Cluster.initial _).endOf (Cluster.OrderedSends 1 twoMessages) forgottenScript forgottenScript_possible

/-- The producer is first told that its message is in the queue and then that it is not. -/
theorem reports_forgotten : Cluster.Run (Cluster.OrderedSends 1 twoMessages) (.initial _) forgottenCluster ∧
    forgottenCluster.commits = [] ∧ (forgottenCluster.answered.map fun answer =>
      (answer.node, answer.response.status, answer.response.nextSequenceId)) =
        [(0, .invalidSequenceId, 1), (1, .invalidSequenceId, 0)] ∧
    ¬ forgottenCluster.ReportsDurable 1 twoMessages := by
  have commits : forgottenCluster.commits = [] := by decide +kernel
  have early : ∃ answer ∈ reports 1 forgottenCluster.answered, 0 < answer.response.nextSequenceId := by decide +kernel
  refine ⟨Cluster.endOf_run forgottenScript_possible, commits, by decide +kernel, fun durable => ?_⟩
  obtain ⟨answer, member, positive⟩ := early
  obtain ⟨commit, committed, _⟩ := durable.committed answer member 0 positive
  rw [commits] at committed
  exact absurd committed List.not_mem_nil

section Invariants
variable {c d : MetamorphosisCluster md5 n} {a b : Hist (metamorphosisService md5 n)} {i : Fin n} {producer : Nat}
variable {message : UInt64 → Bytes} {allowed : MetamorphosisCluster md5 n → Action (metamorphosisService md5 n) → Prop}

/-- A sequence id counts the producer's entries in a committed part of a leader's log. -/
def Counts (producer : Nat) (c : MetamorphosisCluster md5 n) (a : Hist (metamorphosisService md5 n)) (next : UInt64)
    (count : Nat) : Prop :=
  next = UInt64.ofNat count ∧ (count = 0 ∨ ∃ T m k L, (T, m) ∈ c.commits ∧ k ≤ m ∧ a.lead T = some L ∧
    k ≤ L.entries.length ∧ count = entriesOf producer ((L.entries.take k).map Prod.fst))

/-- What a leader counted once is counted in its later log as well. -/
theorem Counts.later {next : UInt64} {count : Nat} (counts : Counts producer c a next count) (extended : c.Extends d)
    (grows : LeadsGrow a b) : Counts producer d b next count := by
  obtain ⟨equal, zero | ⟨T, m, k, L, committed, inside, led, within, number⟩⟩ := counts
  · exact ⟨equal, Or.inl zero⟩
  · obtain ⟨M, ledM, _, _, longer⟩ := grows T L led
    refine ⟨equal, Or.inr ⟨T, m, k, M, extended.commits.subset committed, inside, ledM,
      within.trans longer.length_le, ?_⟩⟩
    rw [take_of_grows longer within]
    exact number

/-- A leader knows what it has committed in its own term. -/
def LeadersKnow (c : MetamorphosisCluster md5 n) : Prop :=
  ∀ i m, (c.nodes i).state = .leader → ((c.nodes i).currentTerm, m) ∈ c.commits → m ≤ (c.nodes i).commitIndex

/-- Every step keeps the leaders aware of what they have committed. -/
theorem LeadersKnow.step (sim : Sim (metamorphosisCopies md5 n) True c a)
    (simD : Sim (metamorphosisCopies md5 n) True d b) (steps : Steps itemTerm (QuorumSystem.majority n) True a b)
    (taken : Cluster.Atomic allowed c d) (knows : LeadersKnow c) : LeadersKnow d := by
  intro x m role member
  obtain ⟨M, ledM, self, _⟩ := simD.allEntries role
  have old (known : ((d.nodes x).currentTerm, m) ∈ c.commits) : m ≤ (d.nodes x).commitIndex := by
    obtain ⟨L, led, _⟩ := (sim.ordered trivial).commits _ m known
    obtain ⟨K, ledK, node, _⟩ := steps.leadsGrow _ L led
    cases ledM.symm.trans ledK
    obtain ⟨before, term⟩ := sim.led_before taken led (node.symm.trans self) role rfl
    rw [← term] at known
    have reached := knows x m before known
    rcases taken.match_cases with
      still | ⟨y, _, _, candidate, nodes⟩ | ⟨y, fibers, call, request, _, _, _, _, _, _, _, _, rfl⟩
    · exact reached.trans (still x role).2.2.1
    · by_cases here : x = y
      · subst here
        cases before.symm.trans candidate
      · rw [nodes, Cluster.setNode_other c _ here]
        exact reached
    · by_cases here : x = y
      · subst here
        rw [Cluster.setNode_self]
        exact reached
      · rw [Cluster.setNode_other c _ here]
        exact reached
  rcases taken.commits_cases with same | ⟨_, y, roleY, commits⟩
  · exact old (same ▸ member)
  · rcases commits _ member with known | new
    · exact old known
    · -- The leader of the term is the one that has just committed.
      obtain ⟨term, index⟩ := Prod.mk.inj new
      obtain ⟨K, ledK, selfK, _⟩ := simD.allEntries roleY
      rw [← term] at ledK
      cases ledM.symm.trans ledK
      rw [index, ← self, selfK]

/-- A count does not see what follows the last entry of the producer. -/
theorem entriesOf_take {entries : List MessageEntry} {length : Nat}
    (rest : ∀ entry ∈ entries.drop length, entry.producerId ≠ producer) :
    entriesOf producer (entries.take length) = entriesOf producer entries := by
  have none : entriesOf producer (entries.drop length) = 0 :=
    List.countP_eq_zero.mpr fun entry member same => rest entry member (of_decide_eq_true same)
  conv_rhs => rw [← List.take_append_drop length entries]
  rw [entriesOf_append, none, Nat.add_zero]

/-- A settled leader has stored exactly the committed entries of the producer. -/
theorem Sim.settled_counts (sim : Sim (metamorphosisCopies md5 n) True c a) (count : (c.nodes i).CountRight producer)
    (settled : c.Settled i producer) :
    Counts producer c a ((c.nodes i).ext.producerNextSequenceId producer) (entriesOf producer (c.nodes i).values) := by
  refine ⟨count, ?_⟩
  rw [← entriesOf_take settled.1]
  rcases (sim.ordered trivial).certified i with zero | ⟨T, m, L, committed, _, inside, led, same⟩
  · left
    rw [zero, List.take_zero]
    rfl
  · obtain ⟨K, ledK, _, within, _⟩ := (sim.ordered trivial).commits T m committed
    cases led.symm.trans ledK
    refine Or.inr ⟨T, m, _, L, committed, inside, led, inside.trans within, ?_⟩
    rw [← same]
    exact ((sim.nodes i).log.values.2.take _).entriesOf producer

/-- A settled leader has stored everything that was ever reported. -/
theorem Sim.settled_above (sim : Sim (metamorphosisCopies md5 n) True c a) (knows : LeadersKnow c)
    (role : (c.nodes i).state = .leader) (settled : c.Settled i producer) {next : UInt64} {count : Nat}
    (counts : Counts producer c a next count) : count ≤ entriesOf producer (c.nodes i).values := by
  obtain ⟨_, zero | ⟨T, m, k, L, committed, inside, led, within, rfl⟩⟩ := counts
  · rw [zero]
    exact Nat.zero_le _
  have mirrors := (sim.nodes i).log.values.2
  rw [mirrors.entriesOf]
  obtain ⟨M, leader⟩ := (sim.nodes i).leader role
  obtain ⟨_, saved, start, _⟩ := (sim.nodes i).leader_log sim.wf leader
  by_cases later : (c.nodes i).currentTerm < T
  · -- The later leader has committed the producer's entries in the part that both share.
    have further := settled.2 (T, m) committed later
    have shared := sim.commit_shared led later.le
    have mirrorsT := sim.leaderLog led
    calc entriesOf producer ((L.entries.take k).map Prod.fst)
        ≤ entriesOf producer ((L.entries.take m).map Prod.fst) :=
          ((List.take_prefix_take_left inside).map Prod.fst).sublist.countP_le
      _ = entriesOf producer ((c.leaderLog T).take m) := ((mirrorsT.take m).entriesOf producer).symm
      _ = entriesOf producer (((c.leaderLog T).take m).take (c.nodes i).commitIndex) := (entriesOf_take further).symm
      _ ≤ entriesOf producer ((c.leaderLog T).take (c.nodes i).commitIndex) := by
          rw [List.take_take]
          exact (List.take_prefix_take_left (Nat.min_le_left ..)).sublist.countP_le
      _ = entriesOf producer (((a.log i).take (c.nodes i).commitIndex).map Prod.fst) := by
          rw [(mirrorsT.take _).entriesOf, shared]
      _ ≤ entriesOf producer ((a.log i).map Prod.fst) := ((List.take_prefix ..).map Prod.fst).sublist.countP_le
  -- The leader's log begins with the counted part.
  have begins : L.entries.take k <+: a.log i := by
    rcases Nat.lt_or_eq_of_le (Nat.le_of_not_lt later) with earlier | same
    · have chosen := (sim.ordered trivial).commits T m committed
      obtain ⟨early, shared⟩ := chosen.in_later (sim.safe trivial) led leader.led earlier
      rw [← take_of_take inside shared, take_of_grows saved (by omega)]
      exact List.take_prefix ..
    · subst same
      cases led.symm.trans leader.led
      have reached := (knows i m role committed).trans (sim.nodes i).commit
      rw [take_of_grows saved (by omega)]
      exact List.take_prefix ..
  exact (begins.map Prod.fst).sublist.countP_le

/-- An answer is a report or it is none. -/
theorem reports_concat (producer : Nat) (answers : List (Answered (metamorphosisService md5 n)))
    (answer : Answered (metamorphosisService md5 n)) :
    reports producer (answers ++ [answer]) = reports producer answers ∨ answer.request.producerId = producer ∧
      (answer.response.status = .commited ∨ answer.response.status = .invalidSequenceId) ∧
      reports producer (answers ++ [answer]) = reports producer answers ++ [answer] := by
  simp only [reports, List.filter_append, List.filter_cons, List.filter_nil]
  split
  · rename_i counts
    obtain ⟨own, status⟩ := of_decide_eq_true counts
    exact Or.inr ⟨own, status, rfl⟩
  · exact Or.inl (List.append_nil _)

/-- A new report comes from a settled leader and tells its counter. -/
theorem Cluster.Atomic.reports_cases (taken : Cluster.Atomic allowed c d)
    (settled : ∀ c action, allowed c action → c.AnswersSettled producer action) :
    reports producer d.answered = reports producer c.answered ∨ ∃ i answer, (c.nodes i).state = .leader ∧
      c.Settled i producer ∧ answer.response.nextSequenceId = (c.nodes i).ext.producerNextSequenceId producer ∧
      reports producer d.answered = reports producer c.answered ++ [answer] := by
  rcases taken.answered_cases with same | ⟨i, request, response, permitted, given, rfl⟩ | ⟨i, call, _, _, _, rfl⟩ |
    ⟨i, call, waits, _, same, permitted, role, rfl⟩
  · exact Or.inl (by rw [same])
  · rcases reports_concat producer c.answered ⟨i, c.clock, request, response, c.clock⟩ with
      unchanged | ⟨own, status, longer⟩
    · exact Or.inl unchanged
    · rcases given with ⟨_, rfl⟩ | ⟨role, atOnce⟩
      · rcases status with wrong | wrong <;> cases wrong
      · rcases Producers.newEntry_inl atOnce with rfl | ⟨free, other, rfl⟩
        · rcases status with wrong | wrong <;> cases wrong
        · change request.producerId = producer at own
          subst own
          exact Or.inr ⟨i, _, role, settled c _ permitted rfl role free other, rfl, longer⟩
  · rcases reports_concat producer c.answered ⟨i, call.tag, call.request, _, c.clock⟩ with
      unchanged | ⟨_, status, _⟩
    · exact Or.inl unchanged
    · rcases status with wrong | wrong <;> cases wrong
  · rcases reports_concat producer c.answered ⟨i, call.tag, call.request, _, c.clock⟩ with
      unchanged | ⟨own, _, longer⟩
    · exact Or.inl unchanged
    · change call.request.producerId = producer at own
      subst own
      exact Or.inr ⟨i, _, role, settled c _ permitted call waits rfl rfl same, rfl, longer⟩

/-- Every entry of the producer is the message with the number of the producer's earlier entries. -/
def Numbered (producer : Nat) (message : UInt64 → Bytes) (c : MetamorphosisCluster md5 n)
    (a : Hist (metamorphosisService md5 n)) : Prop :=
  ∀ record ∈ c.created, record.entry.producerId = producer → ∃ L, a.lead record.term = some L ∧
    record.index ≤ L.entries.length ∧
    record.entry.data = message (UInt64.ofNat (entriesOf producer ((L.entries.take (record.index - 1)).map Prod.fst)))

/-- Every new entry of the producer gets the next number. -/
theorem Numbered.step (sim : Sim (metamorphosisCopies md5 n) True c a)
    (simD : Sim (metamorphosisCopies md5 n) True d b) (steps : Steps itemTerm (QuorumSystem.majority n) True a b)
    (taken : Cluster.Atomic allowed c d) (guarded : ∀ x, (c.nodes x).Guarded producer)
    (sends : ∀ c action, allowed c action → c.SendsMessages producer message action)
    (numbered : Numbered producer message c a) : Numbered producer message d b := by
  intro record member own
  have old (known : record ∈ c.created) : ∃ L, b.lead record.term = some L ∧ record.index ≤ L.entries.length ∧
      record.entry.data =
        message (UInt64.ofNat (entriesOf producer ((L.entries.take (record.index - 1)).map Prod.fst))) := by
    obtain ⟨L, led, inside, data⟩ := numbered record known own
    obtain ⟨M, ledM, _, _, longer⟩ := steps.leadsGrow _ L led
    refine ⟨M, ledM, inside.trans longer.length_le, ?_⟩
    rw [take_of_grows longer (by omega)]
    exact data
  rcases taken.created_cases with same | ⟨i, request, entry, ext, permitted, _, role, made, rfl⟩
  · exact old (same ▸ member)
  · rcases List.mem_append.mp member with known | new
    · exact old known
    · cases List.mem_singleton.mp new
      obtain ⟨_, _, rfl, _⟩ := Producers.newEntry_inr made
      change request.producerId = producer at own
      subst own
      -- The new entry follows everything that the leader has, and the guard has counted all of it.
      have expected := (guarded i).accepts ⟨role, _, _, made⟩
      obtain ⟨L, led, _, mirrors⟩ := sim.allEntries role
      obtain ⟨M, ledM, _, _, longer⟩ := steps.leadsGrow _ L led
      obtain ⟨K, ledK, _, _, found⟩ := simD.records.createdAt _ member
      cases ledM.symm.trans ledK
      have place : (c.nodes i).nextIndex i = L.entries.length + 1 := by
        obtain ⟨K, leader⟩ := (sim.nodes i).leader role
        cases led.symm.trans leader.led
        exact leader.next
      refine ⟨M, ledM, ?_, ?_⟩
      · have inside := (List.getElem?_eq_some_iff.mp found).1
        change (c.nodes i).nextIndex i - 1 < M.entries.length at inside
        change (c.nodes i).nextIndex i ≤ M.entries.length
        omega
      · change request.data = message (UInt64.ofNat (entriesOf request.producerId
          ((M.entries.take ((c.nodes i).nextIndex i - 1)).map Prod.fst)))
        rw [place, Nat.add_sub_cancel, take_of_grows longer (Nat.le_refl _), List.take_length, ← mirrors.entriesOf,
          expected]
        exact sends c _ permitted rfl

/-- Every report counts committed entries, and later reports count more. -/
structure ReportsOk (producer : Nat) (c : MetamorphosisCluster md5 n) (a : Hist (metamorphosisService md5 n)) : Prop where
  counted : ∀ answer ∈ reports producer c.answered, ∃ count, Counts producer c a answer.response.nextSequenceId count
  increasing : (reports producer c.answered).Pairwise fun first second => ∃ k l,
    Counts producer c a first.response.nextSequenceId k ∧ Counts producer c a second.response.nextSequenceId l ∧ k ≤ l

/-- Reports stay right while nothing is answered. -/
theorem ReportsOk.later (ok : ReportsOk producer c a) (extended : c.Extends d) (grows : LeadsGrow a b)
    (same : reports producer d.answered = reports producer c.answered) : ReportsOk producer d b where
  counted answer member := by
    obtain ⟨count, counts⟩ := ok.counted answer (same ▸ member)
    exact ⟨count, counts.later extended grows⟩
  increasing := by
    rw [same]
    refine ok.increasing.imp ?_
    rintro first second ⟨k, l, counts, countsSecond, le⟩
    exact ⟨k, l, counts.later extended grows, countsSecond.later extended grows, le⟩

/-- An answer of a settled leader reports committed messages, and not fewer than before. -/
theorem ReportsOk.step (sim : Sim (metamorphosisCopies md5 n) True c a)
    (steps : Steps itemTerm (QuorumSystem.majority n) True a b) (taken : Cluster.Atomic allowed c d)
    (settled : ∀ c action, allowed c action → c.AnswersSettled producer action)
    (guarded : ∀ x, (c.nodes x).Guarded producer) (knows : LeadersKnow c) (ok : ReportsOk producer c a) :
    ReportsOk producer d b := by
  have extended := taken.extends
  have grows := steps.leadsGrow
  rcases taken.reports_cases settled with same | ⟨i, answer, role, quiet, next, longer⟩
  · exact ok.later extended grows same
  · have counts := sim.settled_counts (guarded i).count quiet
    rw [← next] at counts
    constructor
    · intro other member
      rw [longer] at member
      rcases List.mem_append.mp member with old | new
      · obtain ⟨count, before⟩ := ok.counted other old
        exact ⟨count, before.later extended grows⟩
      · rw [List.mem_singleton.mp new]
        exact ⟨_, counts.later extended grows⟩
    · rw [longer]
      refine List.pairwise_append.mpr ⟨?_, List.pairwise_singleton .., fun other old last new => ?_⟩
      · refine ok.increasing.imp ?_
        rintro first second ⟨k, l, before, beforeSecond, le⟩
        exact ⟨k, l, before.later extended grows, beforeSecond.later extended grows, le⟩
      · rw [List.mem_singleton.mp new]
        obtain ⟨count, before⟩ := ok.counted other old
        exact ⟨count, _, before.later extended grows, counts.later extended grows,
          sim.settled_above knows role quiet before⟩

/-- Everything that careful steps keep. -/
structure CarefulOk (producer : Nat) (message : UInt64 → Bytes) (c : MetamorphosisCluster md5 n)
    (a : Hist (metamorphosisService md5 n)) : Prop where
  stamps : c.Stamps
  oldFirst : OldFirst c a
  guarded : ∀ x, (c.nodes x).Guarded producer
  numbered : Numbered producer message c a
  knows : LeadersKnow c
  reports : ReportsOk producer c a

/-- Nothing was reported yet. -/
theorem CarefulOk.initial (producer : Nat) (message : UInt64 → Bytes) :
    CarefulOk producer message (Cluster.initial (metamorphosisService md5 n)) (History.initial (Fin n) (Item _)) where
  stamps := .initial _
  oldFirst _ _ led := by cases led
  guarded _ := ⟨construct_countRight _ _, fun _ _ member => absurd member List.not_mem_nil⟩
  numbered _ member := absurd member List.not_mem_nil
  knows _ _ role := by cases role
  reports := ⟨fun _ member => absurd member List.not_mem_nil, .nil⟩

/-- Every careful step keeps the invariant. -/
theorem CarefulOk.step (sim : Sim (metamorphosisCopies md5 n) True c a)
    (simD : Sim (metamorphosisCopies md5 n) True d b) (steps : Steps itemTerm (QuorumSystem.majority n) True a b)
    (taken : Cluster.Atomic (Cluster.Careful producer message) c d) (ok : CarefulOk producer message c a) :
    CarefulOk producer message d b where
  stamps := ok.stamps.step taken
  oldFirst := ok.oldFirst.step sim steps taken
  guarded x := by
    rcases taken.turn with same | ⟨i, after, nodes, turn⟩
    · rw [same]
      exact ok.guarded x
    · rw [nodes]
      by_cases self : x = i
      · subst self
        rw [Cluster.setNode_self]
        exact (ok.guarded x).turn sim turn (fun _ _ _ careful => careful.starts) fun _ _ careful => careful.clear
      · rw [Cluster.setNode_other c after self]
        exact ok.guarded x
  numbered := ok.numbered.step sim simD steps taken ok.guarded fun _ _ careful => careful.sends
  knows := ok.knows.step sim simD steps taken
  reports := ok.reports.step sim steps taken (fun _ _ careful => careful.settled) ok.guarded ok.knows

end Invariants

/-- A producer's entries can be found by their numbers. -/
theorem exists_entry {producer k : Nat} {entries : List MessageEntry} (small : k < entriesOf producer entries) :
    ∃ index entry, entries[index]? = some entry ∧ entry.producerId = producer ∧
      entriesOf producer (entries.take index) = k := by
  induction entries generalizing k with
  | nil => exact absurd small (Nat.not_lt_zero k)
  | cons first rest ih =>
      rw [entriesOf_cons] at small
      by_cases own : first.producerId = producer
      · cases k with
        | zero => exact ⟨0, first, rfl, own, rfl⟩
        | succ k =>
            rw [if_pos own] at small
            obtain ⟨index, entry, found, producedBy, number⟩ := ih (show k < entriesOf producer rest by omega)
            refine ⟨index + 1, entry, found, producedBy, ?_⟩
            rw [List.take_succ_cons, entriesOf_cons, if_pos own, number]
            omega
      · rw [if_neg own, Nat.zero_add] at small
        obtain ⟨index, entry, found, producedBy, number⟩ := ih small
        refine ⟨index + 1, entry, found, producedBy, ?_⟩
        rw [List.take_succ_cons, entriesOf_cons, if_neg own, number, Nat.zero_add]

section Durable
variable {c : MetamorphosisCluster md5 n} {a : Hist (metamorphosisService md5 n)} {producer : Nat}
variable {message : UInt64 → Bytes}

/-- A counted number of entries fits into a sequence id as long as there are not too many entries. -/
theorem Counts.toNat (sim : Sim (metamorphosisCopies md5 n) True c a) (ok : CarefulOk producer message c a)
    (few : c.created.length < 2 ^ 64) {next : UInt64} {count : Nat} (counts : Counts producer c a next count) :
    next.toNat = count := by
  obtain ⟨rfl, bound⟩ := counts
  refine UInt64.toNat_ofNat_of_lt' (lt_of_le_of_lt ?_ few)
  rcases bound with rfl | ⟨T, m, k, L, _, _, led, within, rfl⟩
  · exact Nat.zero_le _
  · refine List.countP_le_length.trans ?_
    rw [List.length_map, List.length_take]
    exact (Nat.min_le_right ..).trans (sim.length_le ok.stamps ok.oldFirst led)

/-- An entry of the producer in a leader's log is the message with its number. -/
theorem CarefulOk.entry (sim : Sim (metamorphosisCopies md5 n) True c a) (ok : CarefulOk producer message c a)
    {T index : Nat} {L : Leadership (Fin n) (Item (metamorphosisService md5 n))}
    {item : Item (metamorphosisService md5 n)} (led : a.lead T = some L) (found : L.entries[index]? = some item)
    (own : item.1.producerId = producer) :
    item.1.data = message (UInt64.ofNat (entriesOf producer ((L.entries.take index).map Prod.fst))) ∧
      item.1.md5hash = md5 item.1.data := by
  obtain ⟨record, member, rfl, place, K, ledK, same⟩ := sim.made_at ok.stamps ok.oldFirst led found
  obtain ⟨M, ledM, _, data⟩ := ok.numbered record member own
  cases ledK.symm.trans ledM
  rw [place, Nat.add_sub_cancel, take_of_take (Nat.le_succ index) same] at data
  obtain ⟨ext, request, after, made⟩ := ok.stamps.made record member
  obtain ⟨_, _, entry, _⟩ := Producers.newEntry_inr made
  refine ⟨data, ?_⟩
  rw [entry]

/-- A message below a reported number is committed. -/
theorem CarefulOk.committed (sim : Sim (metamorphosisCopies md5 n) True c a) (ok : CarefulOk producer message c a)
    (few : c.created.length < 2 ^ 64) {next k : UInt64} {count : Nat} (counts : Counts producer c a next count)
    (below : k < next) : c.MessageCommitted producer message k := by
  have number := counts.toNat sim ok few
  have small : k.toNat < count := number ▸ UInt64.lt_iff_toNat_lt.mp below
  obtain ⟨_, zero | ⟨T, m, j, L, committed, inside, led, within, rfl⟩⟩ := counts
  · omega
  obtain ⟨index, entry, found, own, earlier⟩ := exists_entry small
  rw [List.getElem?_map] at found
  obtain ⟨item, foundItem, rfl⟩ := Option.map_eq_some_iff.mp found
  have early : index < j := by
    have bound := (List.getElem?_eq_some_iff.mp foundItem).1
    rw [List.length_take] at bound
    omega
  rw [List.getElem?_take_of_lt early] at foundItem
  rw [← List.map_take, List.take_take, Nat.min_eq_left early.le] at earlier
  obtain ⟨data, hash⟩ := ok.entry sim led foundItem own
  rw [earlier, UInt64.ofNat_toNat] at data
  have mirrors := sim.leaderLog led
  have insideLog : index < (c.leaderLog T).length := by
    rw [mirrors.length]
    omega
  obtain ⟨other, foundOther, copied⟩ := mirrors.getElem? (List.getElem?_eq_getElem insideLog)
  cases foundItem.symm.trans foundOther
  refine ⟨(T, m), committed, index, _, early.trans_le inside, List.getElem?_eq_getElem insideLog, ?_,
    copied.producerId.trans own, ?_, ?_⟩
  · rw [(mirrors.take index).entriesOf, earlier, UInt64.ofNat_toNat]
  · rw [copied.md5hash, hash, data]
  · rw [← data]
    exact copied.data

end Durable

/-- In every run of careful steps with fewer than `2 ^ 64` entries, what a producer is told is durable. -/
theorem reports_durable (md5 : Bytes → Bytes) (n : Nat) (producer : Nat) (message : UInt64 → Bytes)
    {c : MetamorphosisCluster md5 n} (run : Cluster.Run (Cluster.Careful producer message) (.initial _) c)
    (few : c.created.length < 2 ^ 64) : c.ReportsDurable producer message := by
  obtain ⟨a, _, sim, ok⟩ := Sim.invariant (CarefulOk producer message)
    (fun sim simD steps taken held => held.step sim simD steps taken) (fun _ _ _ careful => careful.inOrder)
    (Sim.initial (metamorphosisCopies md5 n) True) (.initial producer message) (run.atomics (Cluster.fresh_initial _)).1
  refine ⟨fun answer member k below => ?_, ok.reports.increasing.imp ?_⟩
  · obtain ⟨count, counts⟩ := ok.reports.counted answer member
    exact ok.committed sim few counts below
  · rintro first second ⟨k, l, counts, countsSecond, le⟩
    rw [UInt64.le_iff_toNat_le, counts.toNat sim ok few, countsSecond.toNat sim ok few]
    exact le

theorem appendedScript_careful : ((Cluster.initial (metamorphosisService id 3)).play
    (Cluster.Careful 1 twoMessages) appendedScript).isSome = true := by
  decide +kernel

/-- The cluster of the script that appends one message. -/
def carefulCluster : MetamorphosisCluster id 3 :=
  (Cluster.initial _).endOf (Cluster.Careful 1 twoMessages) appendedScript appendedScript_careful

theorem carefulCluster_reports : carefulCluster.created.length < 2 ^ 64 ∧
    ∃ answer ∈ reports 1 carefulCluster.answered, 0 < answer.response.nextSequenceId := by
  decide +kernel

/-- The first message was reported, so it is committed. -/
theorem reports_durable_appended : carefulCluster.MessageCommitted 1 twoMessages 0 := by
  obtain ⟨few, answer, member, positive⟩ := carefulCluster_reports
  exact (reports_durable id 3 1 twoMessages (Cluster.endOf_run appendedScript_careful) few).committed answer member 0
    positive

end Metamorphosis
