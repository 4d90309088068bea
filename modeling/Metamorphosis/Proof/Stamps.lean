import Metamorphosis.Proof.Changes
import Metamorphosis.Proof.Simulation.Runs

/-!
Entries are stamped with the time of their creation. The stamps tell client calls apart, and they
grow along the log of every leader.
-/

namespace Metamorphosis
open ReplicatedLog
variable {n : Nat} {S : Service n} {P : Copies S} {strict : Prop} {c d : Cluster S} {a b : Hist S}
variable {allowed : Cluster S → Action S → Prop}

/-- Entries are made for clients' requests one after another, and a call is named by the time of its entry. -/
structure Cluster.Stamps (c : Cluster S) : Prop where
  made : ∀ record ∈ c.created, ∃ ext request after, S.newEntry ext record.term request = .inr (record.entry, after)
  tag : ∀ record ∈ c.created, record.tag = record.time
  sorted : c.created.Pairwise fun first second => first.time < second.time

theorem Cluster.Stamps.initial (S : Service n) : (Cluster.initial S).Stamps :=
  ⟨fun _ member => absurd member List.not_mem_nil, fun _ member => absurd member List.not_mem_nil, .nil⟩

/-- A new entry is stamped with the present time, which is later than all other stamps. -/
theorem Cluster.Stamps.step (stamps : c.Stamps) (taken : Cluster.Atomic allowed c d) : d.Stamps := by
  rcases taken.created_cases with same | ⟨i, request, entry, ext, _, fresh, _, made, rfl⟩
  · exact ⟨same ▸ stamps.made, same ▸ stamps.tag, same ▸ stamps.sorted⟩
  · constructor
    · intro record member
      rcases List.mem_append.mp member with old | new
      · exact stamps.made record old
      · rw [List.mem_singleton.mp new]
        exact ⟨_, request, ext, made⟩
    · intro record member
      rcases List.mem_append.mp member with old | new
      · exact stamps.tag record old
      · rw [List.mem_singleton.mp new]
    · refine List.pairwise_append.mpr ⟨stamps.sorted, List.pairwise_singleton .., fun record member other new => ?_⟩
      rw [List.mem_singleton.mp new]
      exact fresh record member

/-- Two records with one time are one record. -/
theorem Cluster.Stamps.unique (stamps : c.Stamps) {first second : Created S} (member : first ∈ c.created)
    (other : second ∈ c.created) (same : first.time = second.time) : first = second := by
  have distinct : (c.created.map Created.time).Nodup :=
    (List.pairwise_map.mpr stamps.sorted).imp fun earlier => Nat.ne_of_lt earlier
  exact List.inj_on_of_nodup_map distinct member other same

/-- Every entry of a leader's log was made for a client by a leader whose log agrees so far. -/
theorem Sim.made (sim : Sim P strict c a) {T index : Nat} {L : Leadership (Fin n) (Item S)} {item : Item S}
    (led : a.lead T = some L) (found : L.entries[index]? = some item) :
    ∃ record ∈ c.created, (record.entry, record.time) = item ∧ ∃ K, a.lead record.term = some K ∧
      K.entries.take (index + 1) = L.entries.take (index + 1) := by
  obtain ⟨K, ledK, started, same⟩ := sim.wf.leadLinked led index item found
  have foundK : K.entries[index]? = some item := by
    have shared := getElem?_of_take (Nat.succ_pos index) same
    rw [← found]
    exact shared.symm
  have own : item ∈ K.entries.drop K.start := by
    refine List.mem_iff_getElem?.mpr ⟨index - K.start, ?_⟩
    rw [List.getElem?_drop, Nat.add_sub_cancel' started]
    exact foundK
  rw [sim.records.created _ K ledK] at own
  obtain ⟨record, member, equal⟩ := List.mem_map.mp own
  obtain ⟨created, term⟩ := List.mem_filter.mp member
  exact ⟨record, created, equal, K, of_decide_eq_true term ▸ ledK, same.symm⟩

/-- What a leader was elected with is older than what it made itself. -/
def OldFirst (c : Cluster S) (a : Hist S) : Prop :=
  ∀ T L, a.lead T = some L → ∀ item ∈ L.entries.take L.start, ∀ record ∈ c.created, record.term = T →
    item.2 < record.time

/-- Every step keeps what a leader was elected with older than its own entries. -/
theorem OldFirst.step (sim : Sim P strict c a) (steps : Steps itemTerm (QuorumSystem.majority n) strict a b)
    (taken : Cluster.Atomic allowed c d) (held : OldFirst c a) : OldFirst d b := by
  intro T M ledM item old record member term
  -- A term with a record had its leader before, since a new leader makes no entry in the same change.
  have before : ∃ L, a.lead T = some L := by
    rcases taken.created_cases with same | ⟨i, request, entry, ext, _, _, role, _, rfl⟩
    · obtain ⟨L, led, _⟩ := sim.records.createdAt record (same ▸ member)
      exact ⟨L, term ▸ led⟩
    · rcases List.mem_append.mp member with known | new
      · obtain ⟨L, led, _⟩ := sim.records.createdAt record known
        exact ⟨L, term ▸ led⟩
      · obtain ⟨L, leader⟩ := (sim.nodes i).leader role
        rw [List.mem_singleton.mp new] at term
        exact ⟨L, term ▸ leader.led⟩
  obtain ⟨L, led⟩ := before
  obtain ⟨K, ledK, _, start, grows⟩ := steps.leadsGrow T L led
  cases ledM.symm.trans ledK
  rw [start, take_of_grows grows (sim.wf.leadStart led)] at old
  rcases taken.created_cases with same | ⟨i, request, entry, ext, _, fresh, _, _, rfl⟩
  · exact held T L led item old record (same ▸ member) term
  · rcases List.mem_append.mp member with known | new
    · exact held T L led item old record known term
    · obtain ⟨index, _, found⟩ := List.mem_take_iff_getElem.mp old
      obtain ⟨made, created, rfl, _⟩ := sim.made led (List.getElem?_eq_some_iff.mpr ⟨_, found⟩)
      rw [List.mem_singleton.mp new]
      exact fresh made created

/-- Stamps grow along the log of every leader. -/
theorem Sim.sorted (sim : Sim P strict c a) (stamps : c.Stamps) (held : OldFirst c a) {T : Nat}
    {L : Leadership (Fin n) (Item S)} (led : a.lead T = some L) :
    L.entries.Pairwise fun first second => first.2 < second.2 := by
  -- The older part is a part of the log of an earlier leader.
  induction T using Nat.strong_induction_on generalizing L with
  | _ T ih =>
      rw [← List.take_append_drop L.start L.entries]
      refine List.pairwise_append.mpr ⟨?_, ?_, ?_⟩
      · rcases Nat.eq_zero_or_pos L.start with zero | positive
        · rw [zero, List.take_zero]
          exact .nil
        · have inside : L.start - 1 < L.entries.length := by
            have := sim.wf.leadStart led
            omega
          have found : L.entries[L.start - 1]? = some L.entries[L.start - 1] := List.getElem?_eq_getElem inside
          obtain ⟨K, ledK, _, same⟩ := sim.wf.leadLinked led _ _ found
          rw [Nat.sub_add_cancel positive] at same
          have older : itemTerm L.entries[L.start - 1] < T := by
            refine sim.wf.leadOld led _ (List.mem_take_iff_getElem.mpr ⟨L.start - 1, by omega, rfl⟩)
          rw [same]
          exact (ih _ older ledK).sublist (List.take_sublist ..)
      · rw [sim.records.created T L led]
        exact List.pairwise_map.mpr (stamps.sorted.sublist List.filter_sublist)
      · intro first old second new
        rw [sim.records.created T L led] at new
        obtain ⟨record, member, rfl⟩ := List.mem_map.mp new
        obtain ⟨created, term⟩ := List.mem_filter.mp member
        exact held T L led first old record created (of_decide_eq_true term)

/-- A log without repeated stamps has an entry at one place only. -/
theorem stamp_place {items : List (Item S)} (sorted : items.Pairwise fun first second => first.2 < second.2)
    {first second : Nat} {item : Item S} (found : items[first]? = some item) (other : items[second]? = some item) :
    first = second := by
  have distinct : items.Nodup := sorted.imp fun earlier equal => by
    rw [equal] at earlier
    exact Nat.lt_irrefl _ earlier
  obtain ⟨inside, at_⟩ := List.getElem?_eq_some_iff.mp found
  obtain ⟨insideOther, atOther⟩ := List.getElem?_eq_some_iff.mp other
  exact distinct.getElem_inj_iff.mp (at_.trans atOther.symm)

/-- The record of an entry names the place of the entry. -/
theorem Sim.made_at (sim : Sim P strict c a) (stamps : c.Stamps) (held : OldFirst c a) {T index : Nat}
    {L : Leadership (Fin n) (Item S)} {item : Item S} (led : a.lead T = some L) (found : L.entries[index]? = some item) :
    ∃ record ∈ c.created, (record.entry, record.time) = item ∧ record.index = index + 1 ∧
      ∃ K, a.lead record.term = some K ∧ K.entries.take (index + 1) = L.entries.take (index + 1) := by
  obtain ⟨record, member, rfl, K, ledK, same⟩ := sim.made led found
  refine ⟨record, member, rfl, ?_, K, ledK, same⟩
  obtain ⟨M, ledM, _, start, place⟩ := sim.records.createdAt record member
  cases ledK.symm.trans ledM
  have foundK : K.entries[index]? = some (record.entry, record.time) := by
    have shared := getElem?_of_take (Nat.succ_pos index) same
    exact shared.trans found
  have equal := stamp_place (sim.sorted stamps held ledK) place foundK
  omega

/-- A leader's log is not longer than the list of all entries. -/
theorem Sim.length_le (sim : Sim P strict c a) (stamps : c.Stamps) (held : OldFirst c a) {T : Nat}
    {L : Leadership (Fin n) (Item S)} (led : a.lead T = some L) : L.entries.length ≤ c.created.length := by
  have distinct : (L.entries.map Prod.snd).Nodup :=
    (List.pairwise_map.mpr (sim.sorted stamps held led)).imp fun earlier => Nat.ne_of_lt earlier
  have known : L.entries.map Prod.snd ⊆ c.created.map Created.time := by
    intro time member
    obtain ⟨item, present, rfl⟩ := List.mem_map.mp member
    obtain ⟨index, found⟩ := List.mem_iff_getElem?.mp present
    obtain ⟨record, created, rfl, _⟩ := sim.made led found
    exact List.mem_map.mpr ⟨record, created, rfl⟩
  have shorter := (List.subperm_of_subset distinct known).length_le
  rwa [List.length_map, List.length_map] at shorter

end Metamorphosis
