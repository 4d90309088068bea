import Metamorphosis.Construction.QueueService

/-!
The ids of the queue across restarts. A restart rebuilds the next id from the last stored message, so
the ids go on as long as there is one.
-/

namespace Metamorphosis

namespace QueueRun

/-- The id that a call returned. -/
def returnedId : QueueCall × QueueReply → Option UInt64
  | (.append _, .append (.ok id)) => some id
  | _ => none

/-- The ids that were returned, in this order. -/
def ids (history : List (QueueCall × QueueReply)) : List UInt64 := history.filterMap returnedId

/-- A message was appended under an id and no later call trimmed it. -/
def Holds (history : List (QueueCall × QueueReply)) (id : UInt64) (data : Data) : Prop :=
  ∃ before after, history = before ++ (.append data, .append (.ok id)) :: after ∧
    ∀ limit reply, (.trim limit, reply) ∈ after → ¬ id < limit

/-- A queue may restart while it holds a message or before its first message, and it has fewer
messages than there are ids. -/
def Resumes (run : QueueRun) : QueueCall → Prop
  | .append _ => (ids run.history).length < 2 ^ 64
  | .restart => run.service.kvStorage.keys.Nonempty ∨ ids run.history = []
  | _ => True

instance (run : QueueRun) : ∀ call, Decidable (run.Resumes call)
  | .append _ => inferInstanceAs (Decidable ((ids run.history).length < 2 ^ 64))
  | .restart => inferInstanceAs (Decidable (run.service.kvStorage.keys.Nonempty ∨ ids run.history = []))
  | .read _ | .trim _ => isTrue trivial

/-- The last call adds a message, or it may trim one. -/
theorem holds_concat {history : List (QueueCall × QueueReply)} {last : QueueCall × QueueReply} {id : UInt64} {data : Data} :
    Holds (history ++ [last]) id data ↔ last = (.append data, .append (.ok id)) ∨
      Holds history id data ∧ ∀ limit reply, last = (.trim limit, reply) → ¬ id < limit := by
  constructor
  · rintro ⟨before, after, same, untrimmed⟩
    rcases List.eq_nil_or_concat after with rfl | ⟨earlier, final, rfl⟩
    · exact Or.inl (List.append_inj_right' same rfl |> List.singleton_inj.mp)
    · rw [List.concat_eq_append, ← List.cons_append, ← List.append_assoc] at same
      obtain ⟨split, tail⟩ := List.append_inj' same rfl
      cases List.singleton_inj.mp tail
      refine Or.inr ⟨⟨before, earlier, split, fun limit reply member => ?_⟩, fun limit reply trimmed => ?_⟩
      · exact untrimmed limit reply (by simp [member])
      · exact untrimmed limit reply (by simp [trimmed])
  · rintro (rfl | ⟨⟨before, after, rfl, untrimmed⟩, kept⟩)
    · exact ⟨history, [], rfl, nofun⟩
    · refine ⟨before, after ++ [last], by simp, fun limit reply member => ?_⟩
      rcases List.mem_append.mp member with earlier | final
      · exact untrimmed limit reply earlier
      · exact kept limit reply (List.mem_singleton.mp final).symm

/-- A call that neither appends nor trims changes nothing. -/
theorem holds_concat_other {history : List (QueueCall × QueueReply)} {call : QueueCall} {reply : QueueReply} {id : UInt64}
    {data : Data} (noAppend : ∀ data, call ≠ .append data) (noTrim : ∀ limit, call ≠ .trim limit) :
    Holds (history ++ [(call, reply)]) id data ↔ Holds history id data := by
  rw [holds_concat]
  constructor
  · rintro (same | ⟨held, _⟩)
    · exact absurd (Prod.mk.inj same).1 (noAppend data)
    · exact held
  · exact fun held => Or.inr ⟨held, fun limit _ same => absurd (Prod.mk.inj same).1 (noTrim limit)⟩

/-- The ids so far are `0, …, count - 1`, and the stored ones are the last of them. -/
structure Ordered (run : QueueRun) (count : Nat) : Prop where
  bound : count ≤ 2 ^ 64
  ids : ids run.history = (List.range count).map UInt64.ofNat
  endIndex : run.service.endIndex = UInt64.ofNat count
  stored : ∀ id data, run.service.kvStorage.lookup id = some data ↔ Holds run.history id data
  below : ∀ id ∈ run.service.kvStorage.keys, id.toNat < count
  upper : ∀ id ∈ run.service.kvStorage.keys, ∀ other, id ≤ other → other.toNat < count →
    other ∈ run.service.kvStorage.keys

/-- Nothing was appended yet. -/
theorem Ordered.initial : Ordered .initial 0 where
  bound := Nat.zero_le _
  ids := rfl
  endIndex := rfl
  stored id data := by
    refine ⟨nofun, ?_⟩
    rintro ⟨before, after, same, _⟩
    simp [QueueRun.initial] at same
  below _ member := nomatch member
  upper _ member := nomatch member

variable {run : QueueRun} {count : Nat}

theorem toNat_ofNat {number : Nat} (small : number < 2 ^ 64) : (UInt64.ofNat number).toNat = number :=
  UInt64.toNat_ofNat_of_lt' small

/-- An id is given once, and in order. -/
theorem Ordered.append (ordered : Ordered run count) (small : count < 2 ^ 64) (data : Data) :
    Ordered (run.step (.append data)) (count + 1) := by
  have index : run.service.endIndex.toNat = count := by rw [ordered.endIndex, toNat_ofNat small]
  have fresh : run.service.endIndex ∉ run.service.kvStorage.keys := fun member => by
    have less := ordered.below _ member
    omega
  refine ⟨small, ?_, ?_, fun id stored => ?_, fun id member => ?_, fun id member other least inside => ?_⟩
  · change QueueRun.ids (run.history ++ [(_, .append (.ok run.service.endIndex))]) = _
    rw [QueueRun.ids, List.filterMap_append, List.range_succ, List.map_append, ← ordered.ids, ordered.endIndex]
    rfl
  · change run.service.endIndex + 1 = _
    rw [ordered.endIndex, UInt64.ofNat_add]
    rfl
  · change (run.service.kvStorage.put run.service.endIndex data).lookup id = some stored ↔
      Holds (run.history ++ [(.append data, .append (.ok run.service.endIndex))]) id stored
    rw [holds_concat, ← ordered.stored]
    by_cases same : id = run.service.endIndex
    · subst same
      have absent : run.service.kvStorage.lookup run.service.endIndex = none := by
        rw [run.service.kvStorage.mem_keys, Option.not_isSome_iff_eq_none] at fresh
        exact fresh
      simp [FiniteMap.put, absent]
    · have other : (QueueCall.append data, QueueReply.append (.ok run.service.endIndex)) ≠
          (.append stored, .append (.ok id)) := by
        intro pair
        cases pair
        exact same rfl
      simp [FiniteMap.put, same, other]
  · rcases Finset.mem_insert.mp member with rfl | old
    · omega
    · exact (ordered.below id old).trans (Nat.lt_succ_self count)
  · refine Finset.mem_insert.mpr ?_
    rw [UInt64.le_iff_toNat_le] at least
    by_cases last : other.toNat = count
    · exact Or.inl (UInt64.toNat_inj.mp (last.trans index.symm))
    · rcases Finset.mem_insert.mp member with rfl | old
      · omega
      · exact Or.inr (ordered.upper id old other (UInt64.le_iff_toNat_le.mpr least) (by omega))

/-- A trim removes messages and gives no id. -/
theorem Ordered.trim (ordered : Ordered run count) (limit : UInt64) : Ordered (run.step (.trim limit)) count := by
  have kept (id : UInt64) : id ∈ (run.service.kvStorage.deleteRange 0 limit).keys ↔
      id ∈ run.service.kvStorage.keys ∧ ¬ id < limit := by
    simp [FiniteMap.deleteRange, FiniteMap.deleteIf]
  refine ⟨ordered.bound, ?_, ordered.endIndex, fun id stored => ?_, fun id member => ?_,
    fun id member other least inside => ?_⟩
  · change QueueRun.ids (run.history ++ [_]) = _
    rw [QueueRun.ids, List.filterMap_append, ← ordered.ids]
    exact List.append_nil _
  · change (run.service.kvStorage.deleteRange 0 limit).lookup id = some stored ↔
      Holds (run.history ++ [(.trim limit, .trim (.ok ()))]) id stored
    rw [holds_concat, ← ordered.stored]
    by_cases trimmed : id < limit
    · simp [FiniteMap.deleteRange, FiniteMap.deleteIf, trimmed]
    · simp [FiniteMap.deleteRange, FiniteMap.deleteIf, trimmed, not_lt.mp trimmed]
  · exact ordered.below id ((kept id).mp member).1
  · obtain ⟨member, above⟩ := (kept id).mp member
    exact (kept other).mpr ⟨ordered.upper id member other least inside,
      not_lt.mpr ((not_lt.mp above).trans least)⟩

/-- The last stored id is the last one that was returned. -/
theorem Ordered.last (ordered : Ordered run count) (holds : run.service.kvStorage.keys.Nonempty) :
    ∃ previous, count = previous + 1 ∧ run.service.kvStorage.last? = some (UInt64.ofNat previous) := by
  obtain ⟨id, member⟩ := holds
  have bound := ordered.bound
  have below := ordered.below id member
  refine ⟨count - 1, by omega, ?_⟩
  have last : (UInt64.ofNat (count - 1)).toNat = count - 1 := toNat_ofNat (by omega)
  refine FiniteMap.greatest_eq_some (ordered.upper id member _ ?_ (by omega)) fun other stored => ?_
  · rw [UInt64.le_iff_toNat_le]
    omega
  · have smaller := ordered.below other stored
    rw [UInt64.le_iff_toNat_le]
    omega

/-- A service that finds a message, or has never given an id, resumes where it was. -/
theorem Ordered.restart (ordered : Ordered run count)
    (resumes : run.service.kvStorage.keys.Nonempty ∨ QueueRun.ids run.history = []) :
    Ordered (run.step .restart) count := by
  refine ⟨ordered.bound, ?_, ?_, fun id stored => ?_, ordered.below, ordered.upper⟩
  · change QueueRun.ids (run.history ++ [_]) = _
    rw [QueueRun.ids, List.filterMap_append, ← ordered.ids]
    exact List.append_nil _
  · change (QueueService.start run.service.kvStorage).endIndex = _
    rw [QueueService.start]
    by_cases holds : run.service.kvStorage.keys.Nonempty
    · obtain ⟨previous, rfl, last⟩ := ordered.last holds
      rw [last, UInt64.ofNat_add]
      rfl
    · have nothing := resumes.resolve_left holds
      rw [ordered.ids, List.map_eq_nil_iff, List.range_eq_nil] at nothing
      have empty : run.service.kvStorage.last? = none := dif_neg holds
      rw [empty, nothing]
      rfl
  · exact (ordered.stored id stored).trans (holds_concat_other (by nofun) (by nofun)).symm

/-- A read changes nothing. -/
theorem Ordered.read (ordered : Ordered run count) (id : UInt64) : Ordered (run.step (.read id)) count := by
  refine ⟨ordered.bound, ?_, ordered.endIndex, fun id stored => ?_, ordered.below, ordered.upper⟩
  · change QueueRun.ids (run.history ++ [_]) = _
    rw [QueueRun.ids, List.filterMap_append, ← ordered.ids]
    exact List.append_nil _
  · exact (ordered.stored id stored).trans (holds_concat_other (by nofun) (by nofun)).symm

/-- Ids are given in order in every run. -/
theorem Reached.ordered (reached : Reached Resumes run) : ∃ count, Ordered run count := by
  induction reached with
  | initial => exact ⟨0, .initial⟩
  | @step run call _ permitted ih =>
      obtain ⟨count, ordered⟩ := ih
      cases call with
      | append data =>
          have small : (QueueRun.ids run.history).length < 2 ^ 64 := permitted
          rw [ordered.ids, List.length_map, List.length_range] at small
          exact ⟨count + 1, ordered.append small data⟩
      | read id => exact ⟨count, ordered.read id⟩
      | trim limit => exact ⟨count, ordered.trim limit⟩
      | restart => exact ⟨count, ordered.restart permitted⟩

end QueueRun

/-- Where no restart finds an empty database after a message was appended, the ids go up, and `Read`
returns the messages that were appended and not trimmed. -/
theorem queue_restarts {run : QueueRun} (reached : QueueRun.Reached QueueRun.Resumes run) :
    (QueueRun.ids run.history).Pairwise (· < ·) ∧
    ∀ id, (∀ data, run.service.read (.ok ()) id = .ok ⟨data, .ok⟩ ↔ QueueRun.Holds run.history id data) ∧
      ((∀ data, ¬ QueueRun.Holds run.history id data) → run.service.read (.ok ()) id = .ok ⟨[], .noData⟩) := by
  obtain ⟨count, ordered⟩ := reached.ordered
  refine ⟨?_, fun id => ?_⟩
  · rw [ordered.ids, List.pairwise_map]
    refine List.pairwise_lt_range.imp_of_mem fun {i j} _ inside less => ?_
    have bound := ordered.bound
    have last := List.mem_range.mp inside
    rw [UInt64.lt_iff_toNat_lt, QueueRun.toNat_ofNat (by omega), QueueRun.toNat_ofNat (by omega)]
    exact less
  · have stored := ordered.stored id
    cases known : run.service.kvStorage.lookup id with
    | none =>
        have reply : run.service.read (.ok ()) id = .ok ⟨[], .noData⟩ := by simp [QueueService.read, known]
        refine ⟨fun data => ?_, fun _ => reply⟩
        rw [← stored data, known, reply]
        simp
    | some found =>
        have reply : run.service.read (.ok ()) id = .ok ⟨found, .ok⟩ := by simp [QueueService.read, known]
        refine ⟨fun data => ?_, fun absent => absurd ((stored found).mp known) (absent found)⟩
        rw [← stored data, known, reply]
        simp

/-- A message, a trim of the older ones, a restart and one more message. -/
def resumedRun : QueueRun :=
  (((QueueRun.initial.step (.append [1])).step (.append [2])).step (.trim 1)).step .restart |>.step (.append [3])

theorem resumedRun_reached : QueueRun.Reached QueueRun.Resumes resumedRun :=
  ((((QueueRun.Reached.initial.step _ (by decide)).step _ (by decide)).step _ (by decide)).step _ (by decide)).step _
    (by decide)

/-- A service is restarted between two appends and goes on with the next id. -/
theorem queue_restarts_resumed : QueueRun.ids resumedRun.history = [0, 1, 2] ∧
    (QueueRun.ids resumedRun.history).Pairwise (· < ·) ∧
    (resumedRun.service.read (.ok ()) 1 = .ok ⟨[2], .ok⟩ ↔ QueueRun.Holds resumedRun.history 1 [2]) := by
  obtain ⟨increasing, reads⟩ := queue_restarts resumedRun_reached
  exact ⟨by decide, increasing, (reads 1).1 [2]⟩

/-- Everything is trimmed before the restart, and the first id is used again. -/
theorem queue_reuses_id :
    QueueRun.ids ((((QueueRun.initial.step (.append [1])).step (.trim 1)).step .restart).step (.append [2])).history =
      [0, 0] ∧
    ¬ (QueueRun.ids ((((QueueRun.initial.step (.append [1])).step (.trim 1)).step .restart).step
      (.append [2])).history).Pairwise (· < ·) := by
  decide

end Metamorphosis
