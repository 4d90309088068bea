import Mathlib.Data.List.Sort
import Mathlib.Data.List.Permutation
import Mathlib.Data.Prod.Lex
import Mathlib.Tactic.Common
import Metamorphosis.Construction.History

/-!
The history checker as an oracle. It never compares the sizes of two logs, so it accepts histories in which two
requests share a position. The exact condition under which its answer is right excludes these.
-/

namespace Metamorphosis

/-- One sequence of commands and a position in it for every request. The result of a request ends at its position
with its command. -/
structure Placement (history : List RequestInfo) where
  commands : List UInt64
  place : Fin history.length → Nat
  inside : ∀ i, place i < commands.length
  result : ∀ i, (history.get i).result = commands.take (place i + 1)
  command : ∀ i, (history.get i).result.getLast? = some (history.get i).command

/-- Every request has a position of its own, and a request that completed before another one was invoked comes
first. -/
def Linearizable (history : List RequestInfo) : Prop :=
  ∃ placement : Placement history, Function.Injective placement.place ∧
    ∀ i j, i ≠ j → (history.get i).completionTime < (history.get j).invocationTime →
      placement.place i < placement.place j

/-- As above, but requests may share a position. -/
def SharedPlaces (history : List RequestInfo) : Prop :=
  ∃ placement : Placement history,
    ∀ i j, i ≠ j → (history.get i).completionTime < (history.get j).invocationTime →
      placement.place i ≤ placement.place j

/-- The request was not completed before it was invoked. -/
def RequestInfo.Forward (data : RequestInfo) : Prop := data.invocationTime ≤ data.completionTime

instance (data : RequestInfo) : Decidable data.Forward := inferInstanceAs (Decidable (_ ≤ _))

/-- No two requests got logs of the same size. -/
def DistinctSizes (history : List RequestInfo) : Prop :=
  history.Pairwise fun data other => data.result.length ≠ other.result.length

instance DistinctSizes.decidable (history : List RequestInfo) : Decidable (DistinctSizes history) :=
  inferInstanceAs (Decidable (history.Pairwise _))

/-- The positions are the sizes of the results, so the order of the requests in the list does not matter. -/
structure Consistent (history : List RequestInfo) (commands : List UInt64) : Prop where
  appended : ∀ data ∈ history, data.result.getLast? = some data.command
  initial : ∀ data ∈ history, data.result <+: commands
  timely : ∀ data ∈ history, ∀ other ∈ history, data.completionTime < other.invocationTime →
    data.result.length ≤ other.result.length

section Specification
variable {history : List RequestInfo}

/-- A log that ends with a command is not empty. -/
theorem result_pos {data : RequestInfo} (appended : data.result.getLast? = some data.command) :
    0 < data.result.length := by
  cases shape : data.result with
  | nil =>
      rw [shape] at appended
      cases appended
  | cons first rest => simp

/-- Requests at different places have logs of different sizes. -/
theorem distinctSizes_iff :
    DistinctSizes history ↔ ∀ i j, (history.get i).result.length = (history.get j).result.length → i = j := by
  rw [DistinctSizes, List.pairwise_iff_get]
  constructor
  · intro distinct i j same
    rcases lt_trichotomy i j with before | equal | behind
    · exact absurd same (distinct i j before)
    · exact equal
    · exact absurd same.symm (distinct j i behind)
  · intro injective i j before same
    exact absurd (injective i j same) (ne_of_lt before)

/-- The position of a request is the size of its log. -/
theorem Placement.size (placement : Placement history) (i : Fin history.length) :
    (history.get i).result.length = placement.place i + 1 := by
  have inside := placement.inside i
  rw [placement.result i, List.length_take]
  omega

/-- Positions are different where the sizes are. -/
theorem Placement.injective_iff (placement : Placement history) :
    Function.Injective placement.place ↔ DistinctSizes history := by
  rw [distinctSizes_iff]
  constructor
  · intro injective i j same
    rw [placement.size i, placement.size j] at same
    exact injective (Nat.succ.inj same)
  · intro distinct i j same
    apply distinct i j
    rw [placement.size i, placement.size j, same]

/-- Logs that are all parts of one sequence give their requests positions in it. -/
def Consistent.placement {commands : List UInt64} (consistent : Consistent history commands) : Placement history where
  commands := commands
  place i := (history.get i).result.length - 1
  inside i := by
    have positive := result_pos (consistent.appended _ (List.get_mem history i))
    have bound := (consistent.initial _ (List.get_mem history i)).length_le
    omega
  result i := by
    rw [Nat.sub_add_cancel (result_pos (consistent.appended _ (List.get_mem history i)))]
    exact List.prefix_iff_eq_take.mp (consistent.initial _ (List.get_mem history i))
  command i := consistent.appended _ (List.get_mem history i)

/-- Shared positions in terms of the sizes of the logs. -/
theorem sharedPlaces_iff : SharedPlaces history ↔ ∃ commands, Consistent history commands := by
  constructor
  · rintro ⟨placement, ordered⟩
    refine ⟨placement.commands, ?_, ?_, ?_⟩
    · intro data member
      obtain ⟨i, rfl⟩ := List.get_of_mem member
      exact placement.command i
    · intro data member
      obtain ⟨i, rfl⟩ := List.get_of_mem member
      rw [placement.result i]
      exact List.take_prefix _ _
    · intro data member other member' before
      obtain ⟨i, rfl⟩ := List.get_of_mem member
      obtain ⟨j, rfl⟩ := List.get_of_mem member'
      by_cases same : i = j
      · rw [same]
      · have := ordered i j same before
        rw [placement.size i, placement.size j]
        omega
  · rintro ⟨commands, consistent⟩
    refine ⟨consistent.placement, fun i j _ before => ?_⟩
    have := consistent.timely _ (List.get_mem history i) _ (List.get_mem history j) before
    exact Nat.sub_le_sub_right this 1

/-- A history is linearizable if its requests have positions that no two of them share. -/
theorem linearizable_iff : Linearizable history ↔ DistinctSizes history ∧ SharedPlaces history := by
  constructor
  · rintro ⟨placement, injective, ordered⟩
    exact ⟨placement.injective_iff.mp injective, placement, fun i j other before => (ordered i j other before).le⟩
  · rintro ⟨distinct, placement, ordered⟩
    have injective := placement.injective_iff.mpr distinct
    refine ⟨placement, injective, fun i j other before => ?_⟩
    exact lt_of_le_of_ne (ordered i j other before) fun same => other (injective same)

end Specification

section Checker
variable {history : List RequestInfo}

/-- The first loop. -/
theorem appendsCommands_iff :
    appendsCommands history = true ↔ ∀ data ∈ history, data.result.getLast? = some data.command := by
  simp [appendsCommands]

/-- The third loop, by places. -/
theorem respectsTime_iff :
    respectsTime history = true ↔
      ∀ i j, (history.get i).completionTime < (history.get j).invocationTime → i < j := by
  simp only [respectsTime, List.all_eq_true]
  constructor
  · intro all i j before
    have pair := all _ (List.mk_mem_zipIdx_iff_getElem?.mpr (List.getElem?_eq_getElem i.isLt)) _
      (List.mk_mem_zipIdx_iff_getElem?.mpr (List.getElem?_eq_getElem j.isLt))
    rw [List.get_eq_getElem, List.get_eq_getElem] at before
    simpa [before] using pair
  · rintro ordered ⟨command, commandIndex⟩ member ⟨other, index⟩ member'
    obtain ⟨bound, rfl⟩ := List.getElem?_eq_some_iff.mp (List.mk_mem_zipIdx_iff_getElem?.mp member)
    obtain ⟨bound', rfl⟩ := List.getElem?_eq_some_iff.mp (List.mk_mem_zipIdx_iff_getElem?.mp member')
    have before := ordered ⟨commandIndex, bound⟩ ⟨index, bound'⟩
    by_cases early : (history[commandIndex]).completionTime < (history[index]).invocationTime
    · have less : commandIndex < index := before early
      simp [less]
    · simp [early]

/-- Comparing entry by entry decides whether one log is the start of another one. -/
theorem prefix_iff_all (log whole : List UInt64) :
    ((List.range log.length).all fun index => log[index]? = whole[index]?) = true ↔ log <+: whole := by
  rw [List.prefix_iff_getElem?, List.all_eq_true]
  constructor
  · intro all index bound
    have same := all index (List.mem_range.mpr bound)
    rw [List.getElem?_eq_getElem bound, decide_eq_true_eq] at same
    exact same.symm
  · intro all index member
    have bound := List.mem_range.mp member
    rw [List.getElem?_eq_getElem bound, all index bound]
    simp

/-- The second loop compares with the last log only. -/
theorem commonPrefixes_iff {back : RequestInfo} (last : history.getLast? = some back) :
    commonPrefixes history = true ↔ ∀ data ∈ history, data.result <+: back.result := by
  have split : history = history.dropLast ++ [back] := (List.dropLast_append_getLast? back last).symm
  simp only [commonPrefixes, last]
  rw [List.all_eq_true]
  simp only [prefix_iff_all]
  constructor
  · intro all data member
    rw [split, List.mem_append, List.mem_singleton] at member
    rcases member with front | rfl
    · exact all data front
    · exact List.prefix_rfl
  · intro all data member
    exact all data (List.dropLast_subset history member)

/-- A history is accepted if no loop finds anything wrong. -/
theorem checkLinearizability_ok (order : Arrangement history) :
    checkLinearizability order = .ok () ↔ appendsCommands order.sorted = true ∧ commonPrefixes order.sorted = true ∧
      respectsTime order.sorted = true := by
  unfold checkLinearizability
  split
  · simp_all
  · split
    · simp_all
    · split
      · simp_all
      · simp_all

/-- The log of the last request is one of the longest. -/
theorem Arrangement.le_back (order : Arrangement history) {back : RequestInfo}
    (last : order.sorted.getLast? = some back) {data : RequestInfo} (member : data ∈ order.sorted) :
    data.result.length ≤ back.result.length := by
  have ordered := order.ordered
  rw [← List.dropLast_append_getLast? back last] at ordered member
  rcases List.mem_append.mp member with front | equal
  · exact (List.pairwise_append.mp ordered).2.2 data front back List.mem_cons_self
  · rw [List.mem_singleton.mp equal]

/-- The requests stand in the order of their sizes, and no two of them have the same size. -/
theorem Arrangement.lt_iff (order : Arrangement history) (distinct : DistinctSizes order.sorted)
    (i j : Fin order.sorted.length) :
    i < j ↔ (order.sorted.get i).result.length < (order.sorted.get j).result.length := by
  have upward := List.pairwise_iff_get.mp order.ordered
  have injective := distinctSizes_iff.mp distinct
  constructor
  · intro before
    have differ : (order.sorted.get i).result.length ≠ (order.sorted.get j).result.length :=
      fun same => absurd (injective i j same) (ne_of_lt before)
    have := upward i j before
    omega
  · intro shorter
    by_contra behind
    rcases lt_or_eq_of_le (not_lt.mp behind) with after | rfl
    · have := upward j i after
      omega
    · omega

/-- The sizes do not depend on the arrangement. -/
theorem DistinctSizes.perm {other : List RequestInfo} (distinct : DistinctSizes history)
    (perm : other.Perm history) : DistinctSizes other :=
  (perm.pairwise_iff fun differ => differ.symm).mpr distinct

/-- A consistent history stays so when its requests are arranged in another way. -/
theorem Consistent.perm {other : List RequestInfo} {commands : List UInt64} (consistent : Consistent history commands)
    (perm : other.Perm history) : Consistent other commands where
  appended data member := consistent.appended data (perm.subset member)
  initial data member := consistent.initial data (perm.subset member)
  timely data member later member' := consistent.timely data (perm.subset member) later (perm.subset member')

/-- What the first two loops establish: every log is a part of one sequence and ends with its own command. -/
theorem loops_iff (order : Arrangement history) :
    appendsCommands order.sorted = true ∧ commonPrefixes order.sorted = true ↔
      ∃ commands, ∀ data ∈ order.sorted, data.result.getLast? = some data.command ∧ data.result <+: commands := by
  rw [appendsCommands_iff]
  cases last : order.sorted.getLast? with
  | none =>
      have empty := List.getLast?_eq_none_iff.mp last
      simp [commonPrefixes, empty]
  | some back =>
      rw [commonPrefixes_iff last]
      constructor
      · rintro ⟨appended, initial⟩
        exact ⟨back.result, fun data member => ⟨appended data member, initial data member⟩⟩
      · rintro ⟨commands, logs⟩
        refine ⟨fun data member => (logs data member).1, fun data member => ?_⟩
        have longest := (logs back (List.mem_of_getLast? last)).2
        exact List.prefix_of_prefix_length_le (logs data member).2 longest (order.le_back last member)

/-- A request that stands behind another one has a log of at least its size. -/
theorem Arrangement.length_le (order : Arrangement history) {i j : Fin order.sorted.length} (before : i < j) :
    (order.sorted.get i).result.length ≤ (order.sorted.get j).result.length :=
  List.pairwise_iff_get.mp order.ordered i j before

/-- What the checker accepts has shared positions, and no request of it completed before it was invoked. -/
theorem accepted_shared {order : Arrangement history} (accepted : checkLinearizability order = .ok ()) :
    (∀ data ∈ history, data.Forward) ∧ SharedPlaces history := by
  obtain ⟨appended, common, timely⟩ := (checkLinearizability_ok order).mp accepted
  obtain ⟨commands, logs⟩ := (loops_iff order).mp ⟨appended, common⟩
  rw [respectsTime_iff] at timely
  constructor
  · intro data member
    obtain ⟨i, rfl⟩ := List.get_of_mem (order.perm.symm.subset member)
    apply Int64.not_lt.mp
    intro backward
    exact absurd (timely i i backward) (lt_irrefl i)
  · apply sharedPlaces_iff.mpr
    refine ⟨commands, Consistent.perm ⟨?_, ?_, ?_⟩ order.perm.symm⟩
    · exact fun data member => (logs data member).1
    · exact fun data member => (logs data member).2
    · intro data member other member' before
      obtain ⟨i, rfl⟩ := List.get_of_mem member
      obtain ⟨j, rfl⟩ := List.get_of_mem member'
      exact order.length_le (timely i j before)

/-- An arrangement is accepted if its third loop finds nothing wrong. -/
theorem shared_accepted {order : Arrangement history} (shared : SharedPlaces history)
    (timely : respectsTime order.sorted = true) : checkLinearizability order = .ok () := by
  obtain ⟨commands, consistent⟩ := sharedPlaces_iff.mp shared
  have sorted := consistent.perm order.perm
  obtain ⟨appended, common⟩ := (loops_iff order).mpr
    ⟨commands, fun data member => ⟨sorted.appended data member, sorted.initial data member⟩⟩
  exact (checkLinearizability_ok order).mpr ⟨appended, common, timely⟩

/-- Without two logs of one size there is only one arrangement, and the third loop is right about it. -/
theorem distinct_accepted (order : Arrangement history) (distinct : DistinctSizes history)
    (forward : ∀ data ∈ history, data.Forward) (shared : SharedPlaces history) :
    checkLinearizability order = .ok () := by
  apply shared_accepted shared
  rw [respectsTime_iff]
  intro i j before
  obtain ⟨commands, consistent⟩ := sharedPlaces_iff.mp shared
  have sorted := consistent.perm order.perm
  have shorter := sorted.timely _ (List.get_mem _ i) _ (List.get_mem _ j) before
  apply (order.lt_iff (distinct.perm order.perm) i j).mpr
  apply lt_of_le_of_ne shorter
  intro same
  have equal := distinctSizes_iff.mp (distinct.perm order.perm) i j same
  subst equal
  exact Int64.not_lt.mpr (forward _ (order.perm.subset (List.get_mem _ i))) before

/-- The order by size and then by the time of the invocation. -/
def RequestInfo.Precedes (data other : RequestInfo) : Prop :=
  toLex (data.result.length, data.invocationTime.toInt) ≤ toLex (other.result.length, other.invocationTime.toInt)

instance : DecidableRel RequestInfo.Precedes := fun _ _ => inferInstanceAs (Decidable (_ ≤ _))

instance : Std.Total RequestInfo.Precedes := ⟨fun _ _ => le_total _ _⟩

instance : IsTrans RequestInfo RequestInfo.Precedes := ⟨fun _ _ _ => le_trans⟩

/-- Requests of the same size are arranged by the times of their invocations. -/
def Arrangement.byInvocation (history : List RequestInfo) : Arrangement history where
  sorted := history.insertionSort RequestInfo.Precedes
  perm := List.perm_insertionSort _ _
  ordered := by
    apply (List.pairwise_insertionSort RequestInfo.Precedes history).imp
    intro data other precedes
    rcases Prod.Lex.toLex_le_toLex.mp precedes with shorter | ⟨same, _⟩
    · exact shorter.le
    · exact same.le

/-- If requests may share positions, there is an arrangement that the checker accepts. -/
theorem byInvocation_accepted (forward : ∀ data ∈ history, data.Forward) (shared : SharedPlaces history) :
    checkLinearizability (Arrangement.byInvocation history) = .ok () := by
  apply shared_accepted shared
  rw [respectsTime_iff]
  intro i j before
  have forwardAt (k : Fin (Arrangement.byInvocation history).sorted.length) :=
    forward _ ((Arrangement.byInvocation history).perm.subset (List.get_mem _ k))
  obtain ⟨commands, consistent⟩ := sharedPlaces_iff.mp shared
  have shorter := (consistent.perm (Arrangement.byInvocation history).perm).timely _ (List.get_mem _ i) _
    (List.get_mem _ j) before
  by_contra behind
  rcases lt_or_eq_of_le (not_lt.mp behind) with after | rfl
  · -- The two logs have the same size, so the second request was invoked first.
    have precedes := List.pairwise_iff_get.mp (List.pairwise_insertionSort RequestInfo.Precedes history) j i after
    rcases Prod.Lex.toLex_le_toLex.mp precedes with longer | ⟨_, earlier⟩
    · exact absurd longer (Nat.not_lt.mpr shorter)
    · have own := Int64.le_iff_toInt_le.mp (forwardAt i)
      have late := Int64.lt_iff_toInt_lt.mp before
      exact absurd (own.trans_lt late) (Int.not_lt.mpr earlier)
  · exact Int64.not_lt.mpr (forwardAt j) before

/-- The checker is right about a history, however it arranges requests of the same size, exactly if no two requests
share a position in an otherwise linear history, and no request of a linearizable history completed before it was
invoked. -/
theorem linearizability_oracle (history : List RequestInfo) :
    (∀ order : Arrangement history, checkLinearizability order = .ok () ↔ Linearizable history) ↔
      ((∀ data ∈ history, data.Forward) → SharedPlaces history → DistinctSizes history) ∧
      (Linearizable history → ∀ data ∈ history, data.Forward) := by
  constructor
  · intro right
    constructor
    · intro forward shared
      have linear := (right _).mp (byInvocation_accepted forward shared)
      exact (linearizable_iff.mp linear).1
    · intro linear
      exact (accepted_shared ((right (.byInvocation history)).mpr linear)).1
  · rintro ⟨distinct, forward⟩ order
    constructor
    · intro accepted
      obtain ⟨ownTimes, shared⟩ := accepted_shared accepted
      exact linearizable_iff.mpr ⟨distinct ownTimes shared, shared⟩
    · intro linear
      obtain ⟨sizes, shared⟩ := linearizable_iff.mp linear
      exact distinct_accepted order sizes (forward linear) shared

/-- Three requests, two of them at the same time. -/
def sampleHistory : List RequestInfo := [⟨5, 9, 2, [7, 7, 2]⟩, ⟨0, 3, 7, [7]⟩, ⟨1, 4, 7, [7, 7]⟩]

/-- No two logs have the same size, so that every arrangement is judged right. -/
theorem linearizability_oracle_sample :
    DistinctSizes sampleHistory ∧ Linearizable sampleHistory := by
  have right := (linearizability_oracle sampleHistory).mpr ⟨fun _ _ => by decide, fun _ => by decide⟩
  exact ⟨by decide, (right (.byInvocation _)).mp (by decide +kernel)⟩

/-- Two requests at the same time that both got the log of the first of them. -/
def doubledHistory : List RequestInfo := [⟨0, 9, 7, [7]⟩, ⟨1, 8, 7, [7]⟩]

/-- The checker accepts two requests for one position. -/
theorem doubled_accepted :
    (∀ order : Arrangement doubledHistory, checkLinearizability order = .ok ()) ∧ ¬Linearizable doubledHistory := by
  constructor
  · intro order
    have every : ∀ sorted ∈ doubledHistory.permutations', appendsCommands sorted = true ∧
        commonPrefixes sorted = true ∧ respectsTime sorted = true := by decide +kernel
    exact (checkLinearizability_ok order).mpr (every _ (List.mem_permutations'.mpr order.perm))
  · intro linear
    have distinct := (linearizable_iff.mp linear).1
    revert distinct
    decide

end Checker

end Metamorphosis
