import Mathlib.Data.List.Induction
import Mathlib.Data.List.Perm.Subperm
import Mathlib.Tactic.Common
import Metamorphosis.Construction.Cancellation

/-!
What the callbacks of a `StopState` are for: a registry of callbacks, each of which runs once when the source is
stopped, or at once if it has been stopped before. The linked list keeps the callbacks that are still to run.
-/

namespace Metamorphosis
open LinkedList

/-- The callbacks that are alive with their addresses and numbers, the latest one first. -/
structure Registry where
  live : List (Nat × Nat)
  cancelled : Bool
  count : Nat
  runs : List Nat

namespace Registry

def new : Registry := ⟨[], false, 0, []⟩

/-- The live callbacks that have not run. -/
def waiting (registry : Registry) : List (Nat × Nat) := registry.live.filter fun callback => callback.2 ∉ registry.runs

def event (registry : Registry) : StopEvent → Registry
  | .construct address =>
      { registry with
        live := (address, registry.count) :: registry.live
        count := registry.count + 1
        runs := if registry.cancelled then registry.runs ++ [registry.count] else registry.runs }
  | .destroy address => { registry with live := registry.live.filter fun callback => callback.1 ≠ address }
  | .stop => { registry with cancelled := true, runs := registry.runs ++ registry.waiting.map Prod.snd }

def events (registry : Registry) (events : List StopEvent) : Registry := events.foldl event registry

/-- An object is built where none is, and a live one is destroyed. -/
def Permits (registry : Registry) : StopEvent → Prop
  | .construct address => address ∉ registry.live.map Prod.fst
  | .destroy address => address ∈ registry.live.map Prod.fst
  | .stop => True

instance Permits.decidable (registry : Registry) (event : StopEvent) : Decidable (registry.Permits event) :=
  match event with
  | .construct address => inferInstanceAs (Decidable (address ∉ registry.live.map Prod.fst))
  | .destroy address => inferInstanceAs (Decidable (address ∈ registry.live.map Prod.fst))
  | .stop => inferInstanceAs (Decidable True)

/-- Every event is possible when it happens. -/
def PermitsAll (registry : Registry) : List StopEvent → Prop
  | [] => True
  | first :: rest => registry.Permits first ∧ (registry.event first).PermitsAll rest

instance PermitsAll.decidable (registry : Registry) (events : List StopEvent) : Decidable (registry.PermitsAll events) :=
  match events with
  | [] => inferInstanceAs (Decidable True)
  | first :: rest =>
      have := PermitsAll.decidable (registry.event first) rest
      inferInstanceAs (Decidable (registry.Permits first ∧ (registry.event first).PermitsAll rest))

/-- Addresses are used once at a time, numbers once and for all, and every callback runs at most once. -/
structure Sound (registry : Registry) : Prop where
  addresses : (registry.live.map Prod.fst).Nodup
  latest : registry.live.Pairwise fun callback other => other.2 < callback.2
  numbered : ∀ callback ∈ registry.live, callback.2 < registry.count
  known : ∀ number ∈ registry.runs, number < registry.count
  once : registry.runs.Nodup
  stopped : registry.cancelled = true → registry.waiting = []

variable {registry : Registry}

/-- No callback is there yet. -/
theorem new_sound : new.Sound := by
  constructor <;> simp [new, waiting]

theorem mem_waiting {callback : Nat × Nat} :
    callback ∈ registry.waiting ↔ callback ∈ registry.live ∧ callback.2 ∉ registry.runs := by
  simp [waiting]

/-- No two live callbacks have the same number. -/
theorem Sound.live_numbers (sound : registry.Sound) : (registry.live.map Prod.snd).Nodup := by
  apply List.pairwise_map.mpr
  exact sound.latest.imp fun less same => absurd same (Nat.ne_of_gt less)

/-- The callbacks that are still to run have different numbers. -/
theorem Sound.waiting_numbers (sound : registry.Sound) : (registry.waiting.map Prod.snd).Nodup :=
  sound.live_numbers.sublist (List.filter_sublist.map Prod.snd)

/-- The callbacks that are still to run are at different addresses. -/
theorem Sound.waiting_addresses (sound : registry.Sound) : (registry.waiting.map Prod.fst).Nodup :=
  sound.addresses.sublist (List.filter_sublist.map Prod.fst)

/-- There are no more callbacks than have been constructed. -/
theorem Sound.waiting_length (sound : registry.Sound) : registry.waiting.length ≤ registry.count := by
  have small : registry.waiting.map Prod.snd ⊆ List.range registry.count := by
    intro number member
    obtain ⟨callback, waits, rfl⟩ := List.mem_map.mp member
    exact List.mem_range.mpr (sound.numbered callback (mem_waiting.mp waits).1)
  have shorter := (List.subperm_of_subset sound.waiting_numbers small).length_le
  rwa [List.length_map, List.length_range] at shorter

/-- Before a stop, a new callback is put in front of the waiting ones. -/
theorem construct_waiting (sound : registry.Sound) (running : registry.cancelled = false) (address : Nat) :
    (registry.event (.construct address)).waiting = (address, registry.count) :: registry.waiting := by
  have fresh : registry.count ∉ registry.runs := fun ran => absurd (sound.known _ ran) (Nat.lt_irrefl _)
  simp [event, waiting, running, fresh]

/-- A destroyed callback does not wait any longer. -/
theorem destroy_waiting (registry : Registry) (address : Nat) :
    (registry.event (.destroy address)).waiting.map Prod.fst =
      (registry.waiting.map Prod.fst).filter fun other => other ≠ address := by
  rw [List.filter_map]
  apply congrArg (List.map Prod.fst)
  exact List.filter_comm ..

/-- A new callback gets a number that was never used. -/
theorem Sound.construct (sound : registry.Sound) {address : Nat} (free : registry.Permits (.construct address)) :
    (registry.event (.construct address)).Sound where
  addresses := List.nodup_cons.mpr ⟨free, sound.addresses⟩
  latest := List.pairwise_cons.mpr ⟨sound.numbered, sound.latest⟩
  numbered := by
    intro callback member
    rcases List.mem_cons.mp member with rfl | old
    · exact Nat.lt_succ_self _
    · exact Nat.lt_succ_of_lt (sound.numbered callback old)
  known := by
    intro number ran
    change number ∈ (if registry.cancelled then registry.runs ++ [registry.count] else registry.runs) at ran
    change number < registry.count + 1
    split at ran
    · rcases List.mem_append.mp ran with old | new
      · exact Nat.lt_succ_of_lt (sound.known number old)
      · rw [List.mem_singleton.mp new]
        exact Nat.lt_succ_self _
    · exact Nat.lt_succ_of_lt (sound.known number ran)
  once := by
    change (if registry.cancelled then registry.runs ++ [registry.count] else registry.runs).Nodup
    split
    · apply List.nodup_append'.mpr
      refine ⟨sound.once, List.nodup_singleton _, ?_⟩
      intro number old new
      rw [List.mem_singleton.mp new] at old
      exact absurd (sound.known _ old) (Nat.lt_irrefl _)
    · exact sound.once
  stopped := by
    intro cancelled
    have none_waits := sound.stopped cancelled
    have stopped : registry.cancelled = true := cancelled
    apply List.eq_nil_iff_forall_not_mem.mpr
    intro callback member
    obtain ⟨live, fresh⟩ := mem_waiting.mp member
    simp only [Registry.event, stopped, if_true, List.mem_append, List.mem_singleton, not_or] at fresh
    rcases List.mem_cons.mp live with rfl | old
    · exact fresh.2 rfl
    · have waits : callback ∈ registry.waiting := mem_waiting.mpr ⟨old, fresh.1⟩
      rw [none_waits] at waits
      cases waits

/-- Fewer callbacks are alive, and none runs. -/
theorem Sound.destroy (sound : registry.Sound) (address : Nat) : (registry.event (.destroy address)).Sound where
  addresses := sound.addresses.sublist (List.filter_sublist.map Prod.fst)
  latest := sound.latest.filter _
  numbered callback member := sound.numbered callback (List.mem_of_mem_filter member)
  known := sound.known
  once := sound.once
  stopped cancelled := by
    have none_waits := sound.stopped cancelled
    apply List.eq_nil_iff_forall_not_mem.mpr
    intro callback member
    obtain ⟨live, fresh⟩ := mem_waiting.mp member
    have waits : callback ∈ registry.waiting := mem_waiting.mpr ⟨List.mem_of_mem_filter live, fresh⟩
    rw [none_waits] at waits
    cases waits

/-- After a stop no callback is left to run. -/
theorem stop_waiting (registry : Registry) : (registry.event .stop).waiting = [] := by
  apply List.eq_nil_iff_forall_not_mem.mpr
  intro callback member
  obtain ⟨live, fresh⟩ := mem_waiting.mp member
  simp only [Registry.event, List.mem_append, not_or] at fresh
  exact fresh.2 (List.mem_map.mpr ⟨callback, mem_waiting.mpr ⟨live, fresh.1⟩, rfl⟩)

/-- A stop runs callbacks that have not run before. -/
theorem Sound.stop (sound : registry.Sound) : (registry.event .stop).Sound where
  addresses := sound.addresses
  latest := sound.latest
  numbered := sound.numbered
  known := by
    intro number ran
    rcases List.mem_append.mp ran with old | new
    · exact sound.known number old
    · obtain ⟨callback, waits, rfl⟩ := List.mem_map.mp new
      exact sound.numbered callback (mem_waiting.mp waits).1
  once := by
    apply List.nodup_append'.mpr
    refine ⟨sound.once, sound.waiting_numbers, ?_⟩
    intro number old new
    obtain ⟨callback, waits, rfl⟩ := List.mem_map.mp new
    exact (mem_waiting.mp waits).2 old
  stopped _ := stop_waiting registry

/-- Every permitted event keeps the registry sound. -/
theorem Sound.event (sound : registry.Sound) {event : StopEvent} (permitted : registry.Permits event) :
    (registry.event event).Sound := by
  cases event with
  | construct address => exact sound.construct permitted
  | destroy address => exact sound.destroy address
  | stop => exact sound.stop

/-- The registry stays sound as long as every event is permitted. -/
theorem Sound.events (sound : registry.Sound) {events : List StopEvent} (permitted : registry.PermitsAll events) :
    (registry.events events).Sound := by
  induction events generalizing registry with
  | nil => exact sound
  | cons first rest ih => exact ih (sound.event permitted.1) permitted.2

theorem events_append (registry : Registry) (before after : List StopEvent) :
    registry.events (before ++ after) = (registry.events before).events after := List.foldl_append

/-- Events are permitted one after another. -/
theorem permitsAll_append {before after : List StopEvent} :
    registry.PermitsAll (before ++ after) ↔ registry.PermitsAll before ∧ (registry.events before).PermitsAll after := by
  induction before generalizing registry with
  | nil => exact (iff_of_eq (true_and _)).symm
  | cons first rest ih =>
      rw [List.cons_append, PermitsAll, PermitsAll, ih, and_assoc]
      rfl

/-- A callback that has been constructed and is not alive any more. -/
def Gone (registry : Registry) (number : Nat) : Prop :=
  number < registry.count ∧ number ∉ registry.live.map Prod.snd

/-- A callback that is gone stays gone and does not run. -/
theorem Gone.event {number : Nat} (gone : registry.Gone number) (event : StopEvent) :
    (registry.event event).Gone number ∧ (number ∈ (registry.event event).runs → number ∈ registry.runs) := by
  obtain ⟨constructed, dead⟩ := gone
  cases event with
  | construct address =>
      refine ⟨⟨Nat.lt_succ_of_lt constructed, ?_⟩, ?_⟩
      · rw [Registry.event, List.map_cons, List.mem_cons, not_or]
        exact ⟨Nat.ne_of_lt constructed, dead⟩
      · intro ran
        simp only [Registry.event] at ran
        split at ran
        · rcases List.mem_append.mp ran with old | new
          · exact old
          · exact absurd (List.mem_singleton.mp new) (Nat.ne_of_lt constructed)
        · exact ran
  | destroy address =>
      refine ⟨⟨constructed, ?_⟩, id⟩
      intro live
      exact dead ((List.filter_sublist.map Prod.snd).subset live)
  | stop =>
      refine ⟨⟨constructed, dead⟩, ?_⟩
      intro ran
      rcases List.mem_append.mp ran with old | new
      · exact old
      · exact absurd ((List.filter_sublist.map Prod.snd).subset new) dead

/-- A callback does not run after its destruction. -/
theorem Gone.events {number : Nat} (gone : registry.Gone number) (events : List StopEvent) :
    number ∈ (registry.events events).runs → number ∈ registry.runs := by
  induction events generalizing registry with
  | nil => exact id
  | cons first rest ih =>
      intro ran
      obtain ⟨gone, kept⟩ := gone.event first
      exact kept (ih gone ran)

/-- A destroyed callback is gone. -/
theorem Sound.destroy_gone (sound : registry.Sound) {address number : Nat} (live : (address, number) ∈ registry.live) :
    (registry.event (.destroy address)).Gone number := by
  refine ⟨sound.numbered _ live, ?_⟩
  intro still
  obtain ⟨callback, member, numbered⟩ := List.mem_map.mp still
  obtain ⟨other_live, different⟩ := List.mem_filter.mp member
  have same := List.inj_on_of_nodup_map sound.live_numbers other_live live numbered
  exact of_decide_eq_true different (congrArg Prod.fst same)

/-- The source is cancelled once it was stopped. -/
theorem cancelled_iff (events : List StopEvent) : (new.events events).cancelled = true ↔ .stop ∈ events := by
  induction events using List.reverseRecOn with
  | nil => simp [Registry.events, new]
  | append_singleton before last ih =>
      rw [events_append, List.mem_append, ← ih]
      cases last <;> simp [Registry.events, Registry.event]

/-- The callbacks that a run owes: those that are alive when the source is stopped, and those that are constructed
after that. -/
def Due (events : List StopEvent) (number : Nat) : Prop :=
  (∃ before, before ++ [.stop] <+: events ∧ number ∈ (new.events before).live.map Prod.snd) ∨
    ∃ before address, before ++ [.construct address] <+: events ∧ .stop ∈ before ∧ number = (new.events before).count

/-- The beginnings of a longer list of events are those of the shorter one and the new list itself. -/
theorem snoc_within {before events : List StopEvent} {event last : StopEvent} :
    before ++ [event] <+: events ++ [last] ↔ before ++ [event] <+: events ∨ before = events ∧ event = last := by
  rw [List.prefix_concat_iff, or_comm, ← List.concat_eq_append, ← List.concat_eq_append, List.concat_inj]

/-- The last event makes the live callbacks due if it is a stop, and a new callback if it comes after one. -/
theorem due_snoc (events : List StopEvent) (last : StopEvent) (number : Nat) :
    Due (events ++ [last]) number ↔ Due events number ∨
      (last = .stop ∧ number ∈ (new.events events).live.map Prod.snd) ∨
      ∃ address, last = .construct address ∧ .stop ∈ events ∧ number = (new.events events).count := by
  constructor
  · rintro (⟨before, within, live⟩ | ⟨before, address, within, stopped, numbered⟩)
    · rcases snoc_within.mp within with within | ⟨rfl, rfl⟩
      · exact .inl (.inl ⟨before, within, live⟩)
      · exact .inr (.inl ⟨rfl, live⟩)
    · rcases snoc_within.mp within with within | ⟨rfl, rfl⟩
      · exact .inl (.inr ⟨before, address, within, stopped, numbered⟩)
      · exact .inr (.inr ⟨address, rfl, stopped, numbered⟩)
  · rintro ((⟨before, within, live⟩ | ⟨before, address, within, rest⟩) | ⟨rfl, live⟩ | ⟨address, rfl, rest⟩)
    · exact .inl ⟨before, snoc_within.mpr (.inl within), live⟩
    · exact .inr ⟨before, address, snoc_within.mpr (.inl within), rest⟩
    · exact .inl ⟨events, snoc_within.mpr (.inr ⟨rfl, rfl⟩), live⟩
    · exact .inr ⟨events, address, snoc_within.mpr (.inr ⟨rfl, rfl⟩), rest⟩

/-- The numbers that a stop adds are those of the live callbacks that have not run. -/
theorem stop_runs (registry : Registry) (number : Nat) :
    number ∈ (registry.event .stop).runs ↔ number ∈ registry.runs ∨ number ∈ registry.live.map Prod.snd := by
  simp only [Registry.event, List.mem_append, List.mem_map, mem_waiting]
  constructor
  · rintro (old | ⟨callback, ⟨live, _⟩, numbered⟩)
    · exact .inl old
    · exact .inr ⟨callback, live, numbered⟩
  · rintro (old | ⟨callback, live, rfl⟩)
    · exact .inl old
    · by_cases ran : callback.2 ∈ registry.runs
      · exact .inl ran
      · exact .inr ⟨callback, ⟨live, ran⟩, rfl⟩

/-- Exactly the callbacks that are due have run. -/
theorem runs_iff (events : List StopEvent) (number : Nat) : number ∈ (new.events events).runs ↔ Due events number := by
  induction events using List.reverseRecOn with
  | nil => simp [Registry.events, new, Due]
  | append_singleton before last ih =>
      rw [due_snoc, ← ih, events_append]
      cases last with
      | construct address =>
          have stopped := cancelled_iff before
          simp only [Registry.events, List.foldl_cons, List.foldl_nil, Registry.event] at stopped ⊢
          split <;> simp_all
      | destroy address => simp [Registry.events, Registry.event]
      | stop => simpa [Registry.events] using stop_runs (new.events before) number

end Registry

namespace StopState
variable {state : StopState} {addresses : List Nat}

/-- What a callback that is taken out of the list leaves. -/
structure Unlinks (state : StopState) (this : Nat) (addresses : List Nat) (next : StopState) : Prop where
  linked : Linked next.nodes next.callbacks (addresses.filter fun address => address ≠ this)
  values : ∀ address, (next.nodes address).map Cell.value = (state.nodes address).map Cell.value
  loose : ∀ node, next.nodes this = some node → node.next = none ∧ node.prev = none
  others : ∀ address, address ≠ this → address ∉ addresses → next.nodes address = state.nodes address
  kept : next.cancelled = state.cancelled ∧ next.constructed = state.constructed ∧ next.runs = state.runs

/-- A value that occurs once is taken out of its place. -/
theorem filter_ne {this : Nat} {front back : List Nat} (nodup : (front ++ this :: back).Nodup) :
    (front ++ this :: back).filter (fun address => address ≠ this) = front ++ back := by
  have absent : this ∉ front ++ back := (List.nodup_middle.mp nodup).notMem
  have kept : ∀ address ∈ front ++ back, decide (address ≠ this) = true := by
    intro address member
    exact decide_eq_true fun same => absent (same ▸ member)
  rw [List.filter_append, List.filter_cons_of_neg (by simp), ← List.filter_append, List.filter_eq_self.mpr kept]

/-- `Unlink` does not follow a pointer that dangles, wherever the callback is. -/
theorem unlink_spec {this : Nat} {node : Cell Nat} (linked : Linked state.nodes state.callbacks addresses)
    (nodup : addresses.Nodup) (found : state.nodes this = some node)
    (loose : this ∉ addresses → node.next = none ∧ node.prev = none) :
    ∃ next, state.unlink this = some next ∧ state.Unlinks this addresses next := by
  by_cases member : this ∈ addresses
  · obtain ⟨front, back, rfl⟩ := List.append_of_mem member
    obtain ⟨node, forth, both, found, wrote, here, wrote', here', rewired, linked⟩ := linked.remove nodup
    have absent : this ∉ front ++ back := (List.nodup_middle.mp nodup).notMem
    have cleared : Rewired [this] both (Function.update both this (some { node with next := none, prev := none })) :=
      .update here' rfl List.mem_cons_self
    let cut := Function.update both this (some { node with next := none, prev := none })
    refine ⟨{ state with
      nodes := cut
      callbacks := if state.callbacks = some this then node.next else state.callbacks }, ?_, ?_, ?_, ?_, ?_,
      rfl, rfl, rfl⟩
    · simp only [unlink, found, wrote, here, wrote', here', Option.bind_eq_bind, Option.bind_some, cut]
    · rw [filter_ne nodup]
      exact linked _
    · exact (rewired.trans cleared).values
    · intro removed found
      cases (Function.update_self ..).symm.trans found
      exact ⟨rfl, rfl⟩
    · intro address different outside
      apply (rewired.trans cleared).outside
      simp only [List.mem_append, List.mem_cons] at outside ⊢
      tauto
  · obtain ⟨none_next, none_prev⟩ := loose member
    have elsewhere : state.callbacks ≠ some this := by
      intro same
      rw [same] at linked
      obtain ⟨last, segment⟩ := linked
      cases addresses with
      | nil => cases segment.1
      | cons head rest =>
          cases segment.1
          exact member List.mem_cons_self
    have same : Function.update state.nodes this (some { node with next := none, prev := none }) = state.nodes := by
      rw [Function.update_eq_self_iff, found]
      cases node
      cases none_next
      cases none_prev
      rfl
    refine ⟨state, ?_, ?_, fun _ => rfl, ?_, fun _ _ _ => rfl, rfl, rfl, rfl⟩
    · simp only [unlink, found, none_next, none_prev, writeNext, writePrev, elsewhere, if_false,
        Option.bind_eq_bind, Option.bind_some, same]
    · rw [List.filter_eq_self.mpr]
      · exact linked
      · intro address inside
        exact decide_eq_true fun same => member (same ▸ inside)
    · intro other found'
      rw [found] at found'
      cases found'
      exact ⟨none_next, none_prev⟩

/-- Some callbacks run, one after the other, and are out of the list then. -/
structure Executes (state : StopState) (callbacks : List (Nat × Nat)) (next : StopState) : Prop where
  values : ∀ address, (next.nodes address).map Cell.value = (state.nodes address).map Cell.value
  loose : ∀ callback ∈ callbacks, ∀ node, next.nodes callback.1 = some node → node.next = none ∧ node.prev = none
  others : ∀ address, address ∉ callbacks.map Prod.fst → next.nodes address = state.nodes address
  kept : next.cancelled = state.cancelled ∧ next.constructed = state.constructed
  runs : next.runs = state.runs ++ callbacks.map Prod.snd

/-- A callback runs once, and then it is not in the list. -/
theorem execute_spec {this number : Nat} (linked : Linked state.nodes state.callbacks addresses)
    (nodup : addresses.Nodup) (numbered : (state.nodes this).map Cell.value = some number)
    (loose : this ∉ addresses → ∀ node, state.nodes this = some node → node.next = none ∧ node.prev = none) :
    ∃ next, state.execute this = some next ∧
      Unlinks { state with runs := state.runs ++ [number] } this addresses next := by
  obtain ⟨node, found, rfl⟩ := Option.map_eq_some_iff.mp numbered
  let ran : StopState := { state with runs := state.runs ++ [node.value] }
  have spec : ∃ next, ran.unlink this = some next ∧ ran.Unlinks this addresses next :=
    unlink_spec linked nodup found fun absent => loose absent node found
  simpa only [execute, found, Option.bind_eq_bind, Option.bind_some] using spec

/-- The loop of `Stop` runs the callbacks of the list in their order and leaves the list empty. -/
theorem executeAll_spec {callbacks : List (Nat × Nat)} {fuel : Nat} (enough : callbacks.length < fuel)
    (linked : Linked state.nodes state.callbacks (callbacks.map Prod.fst)) (nodup : (callbacks.map Prod.fst).Nodup)
    (numbers : ∀ callback ∈ callbacks, (state.nodes callback.1).map Cell.value = some callback.2) :
    ∃ next, executeAll fuel state = some next ∧ next.callbacks = none ∧ state.Executes callbacks next := by
  obtain ⟨fuel, rfl⟩ : ∃ less, fuel = less + 1 := ⟨fuel - 1, by omega⟩
  induction callbacks generalizing state fuel with
  | nil =>
      obtain ⟨last, ended, _⟩ := linked
      refine ⟨state, by simp only [executeAll, ended], ended, fun _ => rfl, ?_, fun _ _ => rfl, ⟨rfl, rfl⟩, ?_⟩
      · exact List.forall_mem_nil _
      · rw [List.map_nil, List.append_nil]
  | cons callback rest ih =>
      obtain ⟨this, number⟩ := callback
      obtain ⟨absent, nodup'⟩ := List.nodup_cons.mp nodup
      have entered : state.callbacks = some this := by
        obtain ⟨last, entered, _⟩ := linked
        exact entered
      obtain ⟨first, executed, unlinked⟩ := execute_spec linked nodup (numbers _ List.mem_cons_self)
        fun outside => absurd List.mem_cons_self outside
      have linked' : Linked first.nodes first.callbacks (rest.map Prod.fst) := by
        have left := unlinked.linked
        rwa [List.map_cons, ← List.nil_append (this :: _), filter_ne nodup] at left
      obtain ⟨fuel, rfl⟩ : ∃ less, fuel = less + 1 := ⟨fuel - 1, by simp only [List.length_cons] at enough; omega⟩
      obtain ⟨next, ran, ended, executes⟩ := ih linked' nodup'
        (fun callback member => (unlinked.values _).trans (numbers callback (List.mem_cons_of_mem _ member)))
        fuel (by simp only [List.length_cons] at enough; omega)
      refine ⟨next, ?_, ended, ?_, ?_, ?_, ?_, ?_⟩
      · rw [executeAll, entered]
        simpa only [executed, Option.bind_eq_bind, Option.bind_some] using ran
      · intro address
        exact (executes.values address).trans (unlinked.values address)
      · intro callback member
        rcases List.mem_cons.mp member with rfl | later
        · intro node found
          rw [executes.others this absent] at found
          exact unlinked.loose node found
        · exact executes.loose callback later
      · intro address outside
        rw [List.map_cons, List.mem_cons, not_or] at outside
        rw [executes.others address outside.2]
        apply unlinked.others address outside.1
        rw [List.map_cons, List.mem_cons, not_or]
        exact outside
      · exact ⟨executes.kept.1.trans unlinked.kept.1, executes.kept.2.trans unlinked.kept.2.1⟩
      · rw [executes.runs, unlinked.kept.2.2, List.map_cons, List.append_assoc, List.singleton_append]

/-- The state keeps the callbacks of a registry. Those that have run are in no list. -/
structure Represents (state : StopState) (registry : Registry) : Prop where
  nodes : ∀ address number, (state.nodes address).map Cell.value = some number ↔ (address, number) ∈ registry.live
  linked : Linked state.nodes state.callbacks (registry.waiting.map Prod.fst)
  loose : ∀ address, address ∉ registry.waiting.map Prod.fst → ∀ node, state.nodes address = some node →
    node.next = none ∧ node.prev = none
  cancelled : state.cancelled = registry.cancelled
  constructed : state.constructed = registry.count
  runs : state.runs = registry.runs

namespace Represents
variable {registry : Registry}

/-- Both start without callbacks. -/
theorem start : new.Represents Registry.new where
  nodes address number := by simp [new, Registry.new]
  linked := ⟨none, rfl, rfl⟩
  loose address _ node found := by cases found
  cancelled := rfl
  constructed := rfl
  runs := rfl

/-- Where no live callback is, there is no node. -/
theorem free {address : Nat} (represents : state.Represents registry) (permitted : registry.Permits (.construct address)) :
    state.nodes address = none := by
  cases found : state.nodes address with
  | none => rfl
  | some node =>
      have live := (represents.nodes address node.value).mp (by rw [found]; rfl)
      exact absurd (List.mem_map_of_mem live) permitted

/-- A new callback is alive beside the others. -/
theorem built {address : Nat} (represents : state.Represents registry)
    (permitted : registry.Permits (.construct address)) (other number : Nat) :
    (Function.update state.nodes address (some ⟨none, none, state.constructed⟩) other).map Cell.value = some number ↔
      (other, number) ∈ (address, registry.count) :: registry.live := by
  rw [List.mem_cons, ← represents.nodes, ← represents.constructed, Prod.mk.injEq]
  by_cases same : other = address
  · rw [same, Function.update_self, represents.free permitted]
    simp [eq_comm]
  · rw [Function.update_of_ne same]
    simp [same]

/-- After a stop the constructor runs its callback at once. -/
theorem construct_stopped {address : Nat} (represents : state.Represents registry) (sound : registry.Sound)
    (permitted : registry.Permits (.construct address)) (stopped : registry.cancelled = true) :
    ∃ next, state.construct address = some next ∧ next.Represents (registry.event (.construct address)) := by
  have none_waits := (sound.construct permitted).stopped stopped
  have linked := represents.linked
  have loose := represents.loose
  rw [sound.stopped stopped] at linked loose
  let built : StopState := { state with
    nodes := Function.update state.nodes address (some ⟨none, none, state.constructed⟩)
    constructed := state.constructed + 1 }
  have fresh : ∀ node, built.nodes address = some node → node.next = none ∧ node.prev = none := by
    intro node found
    cases (Function.update_self ..).symm.trans found
    exact ⟨rfl, rfl⟩
  have numbered : (built.nodes address).map Cell.value = some state.constructed := by
    have here : built.nodes address = some ⟨none, none, state.constructed⟩ := Function.update_self ..
    rw [here]
    rfl
  obtain ⟨next, executed, unlinked⟩ : ∃ next, built.execute address = some next ∧
      Unlinks { built with runs := built.runs ++ [state.constructed] } address [] next :=
    execute_spec linked List.nodup_nil numbered fun _ => fresh
  refine ⟨next, ?_, ?_, ?_, ?_, ?_, ?_, ?_⟩
  · rw [StopState.construct, if_pos (represents.cancelled.trans stopped)]
    exact executed
  · intro other number
    rw [unlinked.values other]
    exact represents.built permitted other number
  · rw [none_waits]
    exact unlinked.linked
  · intro other _ node found
    by_cases same : other = address
    · subst same
      exact unlinked.loose node found
    · rw [unlinked.others other same (List.not_mem_nil)] at found
      exact loose other List.not_mem_nil node ((Function.update_of_ne same ..).symm.trans found)
  · exact unlinked.kept.1.trans represents.cancelled
  · exact unlinked.kept.2.1.trans (congrArg (· + 1) represents.constructed)
  · rw [unlinked.kept.2.2, Registry.event, stopped, if_pos rfl, ← represents.runs, ← represents.constructed]

/-- Before a stop the constructor links its callback in front of the others. -/
theorem construct_running {address : Nat} (represents : state.Represents registry) (sound : registry.Sound)
    (permitted : registry.Permits (.construct address)) (running : registry.cancelled = false) :
    ∃ next, state.construct address = some next ∧ next.Represents (registry.event (.construct address)) := by
  have absent : address ∉ registry.waiting.map Prod.fst := by
    intro waits
    exact permitted ((List.filter_sublist.map Prod.fst).subset waits)
  have waits := Registry.construct_waiting sound running address
  let nodes : Heap Nat := Function.update state.nodes address (some ⟨none, none, state.constructed⟩)
  have here : nodes address = some ⟨none, none, state.constructed⟩ := Function.update_self ..
  have linked : Linked nodes state.callbacks (registry.waiting.map Prod.fst) := by
    obtain ⟨last, segment⟩ := represents.linked
    exact ⟨last, segment.update absent _⟩
  obtain ⟨written, constructed, rewired, linked⟩ : ∃ written, state.construct address = some { state with
        nodes := written, constructed := state.constructed + 1, callbacks := some address } ∧
      Rewired (registry.waiting.map Prod.fst ++ [address]) nodes written ∧
      Linked written (some address) (address :: registry.waiting.map Prod.fst) := by
    have open_state : ¬ state.cancelled = true := by rw [represents.cancelled, running]; exact Bool.false_ne_true
    rw [StopState.construct, if_neg open_state]
    cases entered : state.callbacks with
    | none =>
        rw [entered] at linked
        rw [linked_none linked]
        exact ⟨nodes, rfl, .refl nodes, linked_single here ⟨rfl, rfl⟩⟩
    | some head =>
        rw [entered] at linked
        obtain ⟨back, both, wrote, wrote', rewired, linked⟩ := linked.push sound.waiting_addresses absent here rfl
        refine ⟨both, ?_, rewired, linked⟩
        change (do let nodes ← writePrev nodes (some head) (some address); _) = _
        rw [wrote, Option.bind_eq_bind, Option.bind_some, wrote']
        rfl
  refine ⟨_, constructed, ?_, ?_, ?_, represents.cancelled, congrArg (· + 1) represents.constructed, ?_⟩
  · intro other number
    rw [rewired.values other]
    exact represents.built permitted other number
  · rw [waits]
    exact linked
  · intro other outside node found
    rw [waits, List.map_cons, List.mem_cons, not_or] at outside
    have unchanged : written other = nodes other := by
      apply rewired.outside
      rw [List.mem_append, List.mem_singleton, not_or]
      exact ⟨outside.2, outside.1⟩
    have found' : state.nodes other = some node :=
      (Function.update_of_ne outside.1 ..).symm.trans (unchanged.symm.trans found)
    exact represents.loose other outside.2 node found'
  · rw [Registry.event, running, if_neg Bool.false_ne_true]
    exact represents.runs

/-- The constructor does what the registry says. -/
theorem construct {address : Nat} (represents : state.Represents registry) (sound : registry.Sound)
    (permitted : registry.Permits (.construct address)) :
    ∃ next, state.construct address = some next ∧ next.Represents (registry.event (.construct address)) := by
  cases stopped : registry.cancelled with
  | true => exact represents.construct_stopped sound permitted stopped
  | false => exact represents.construct_running sound permitted stopped

/-- The destructor takes its callback out of the list, if it is still there. -/
theorem destroy {address : Nat} (represents : state.Represents registry) (sound : registry.Sound)
    (permitted : registry.Permits (.destroy address)) :
    ∃ next, state.destroy address = some next ∧ next.Represents (registry.event (.destroy address)) := by
  obtain ⟨⟨address, number⟩, live, rfl⟩ := List.mem_map.mp permitted
  obtain ⟨node, found, _⟩ := Option.map_eq_some_iff.mp ((represents.nodes _ _).mpr live)
  obtain ⟨unlinked, ran, unlinks⟩ := unlink_spec represents.linked sound.waiting_addresses found
    fun absent => represents.loose _ absent node found
  refine ⟨{ unlinked with nodes := Function.update unlinked.nodes address none }, ?_, ?_, ?_, ?_, ?_, ?_, ?_⟩
  · simp only [StopState.destroy, ran, Option.bind_eq_bind, Option.bind_some]
  · intro other value
    simp only [Registry.event, List.mem_filter, decide_eq_true_eq, ← represents.nodes, ← unlinks.values other]
    by_cases same : other = address
    · simp [same]
    · simp [same]
  · rw [Registry.destroy_waiting]
    obtain ⟨last, segment⟩ := unlinks.linked
    exact ⟨last, segment.update (by simp) none⟩
  · intro other absent node found
    rw [Registry.destroy_waiting] at absent
    by_cases same : other = address
    · cases (Function.update_self address ..).symm.trans (same ▸ found)
    · have outside : other ∉ registry.waiting.map Prod.fst := by
        intro waits
        exact absent (List.mem_filter.mpr ⟨waits, decide_eq_true same⟩)
      have found' := (Function.update_of_ne same ..).symm.trans found
      rw [unlinks.others other same outside] at found'
      exact represents.loose other outside node found'
  · exact unlinks.kept.1.trans represents.cancelled
  · exact unlinks.kept.2.1.trans represents.constructed
  · exact unlinks.kept.2.2.trans represents.runs

/-- `Stop` runs everything that waits, in the order of the list. -/
theorem stop (represents : state.Represents registry) (sound : registry.Sound) :
    ∃ next, state.stop = some next ∧ next.Represents (registry.event .stop) := by
  let stopped : StopState := { state with cancelled := true }
  obtain ⟨next, ran, ended, executes⟩ : ∃ next, executeAll (state.constructed + 1) stopped = some next ∧
      next.callbacks = none ∧ stopped.Executes registry.waiting next := by
    apply executeAll_spec
    · rw [represents.constructed]
      exact Nat.lt_succ_of_le sound.waiting_length
    · exact represents.linked
    · exact sound.waiting_addresses
    · intro callback member
      exact (represents.nodes _ _).mpr (Registry.mem_waiting.mp member).1
  refine ⟨next, ran, ?_, ?_, ?_, ?_, ?_, ?_⟩
  · intro address number
    rw [executes.values address]
    exact represents.nodes address number
  · rw [Registry.stop_waiting, ended]
    exact ⟨none, rfl, rfl⟩
  · intro address _ node found
    by_cases waits : address ∈ registry.waiting.map Prod.fst
    · obtain ⟨callback, member, rfl⟩ := List.mem_map.mp waits
      exact executes.loose callback member node found
    · rw [executes.others address waits] at found
      exact represents.loose address waits node found
  · exact executes.kept.1
  · exact executes.kept.2.trans represents.constructed
  · rw [executes.runs, Registry.event, ← represents.runs]

/-- One event of the list is one event of the registry. -/
theorem event (represents : state.Represents registry) (sound : registry.Sound) {event : StopEvent}
    (permitted : registry.Permits event) :
    ∃ next, state.event event = some next ∧ next.Represents (registry.event event) := by
  cases event with
  | construct address => exact represents.construct sound permitted
  | destroy address => exact represents.destroy sound permitted
  | stop => exact represents.stop sound

/-- In a whole run no pointer dangles and every loop ends. -/
theorem events {events : List StopEvent} (represents : state.Represents registry) (sound : registry.Sound)
    (permitted : registry.PermitsAll events) :
    ∃ next, state.events events = some next ∧ next.Represents (registry.events events) := by
  induction events generalizing state registry with
  | nil => exact ⟨state, rfl, represents⟩
  | cons first rest ih =>
      obtain ⟨next, ran, represents⟩ := represents.event sound permitted.1
      obtain ⟨last, ran', represents⟩ := ih represents (sound.event permitted.1) permitted.2
      refine ⟨last, ?_, represents⟩
      simpa only [StopState.events, ran, Option.bind_eq_bind, Option.bind_some] using ran'

end Represents

end StopState

/-- The list is that of the live callbacks that have not run, and each callback that is due runs once, while it is
alive. -/
theorem stop_callbacks {events : List StopEvent} (permitted : Registry.new.PermitsAll events) :
    ∃ state, StopState.new.events events = some state ∧
      Linked state.nodes state.callbacks ((Registry.new.events events).waiting.map Prod.fst) ∧
      (Registry.new.events events).waiting.Pairwise (fun callback other => other.2 < callback.2) ∧
      (∀ address number, (state.nodes address).map Cell.value = some number ↔
        (address, number) ∈ (Registry.new.events events).live) ∧
      state.runs = (Registry.new.events events).runs ∧
      state.runs.Nodup ∧
      (∀ number, number ∈ state.runs ↔ Registry.Due events number) ∧
      (∀ before address number, before ++ [.destroy address] <+: events →
        (address, number) ∈ (Registry.new.events before).live → number ∈ state.runs →
          number ∈ (Registry.new.events before).runs) ∧
      ∀ before, events = before ++ [.stop] → state.callbacks = none := by
  obtain ⟨state, ran, represents⟩ := StopState.Represents.start.events Registry.new_sound permitted
  have sound := Registry.new_sound.events permitted
  refine ⟨state, ran, represents.linked, sound.latest.filter _, represents.nodes, represents.runs, ?_, ?_, ?_, ?_⟩
  · rw [represents.runs]
    exact sound.once
  · intro number
    rw [represents.runs]
    exact Registry.runs_iff events number
  · rintro before address number ⟨after, rfl⟩ live ran
    rw [represents.runs, List.append_assoc, Registry.events_append] at ran
    rw [List.append_assoc] at permitted
    have sound := Registry.new_sound.events (Registry.permitsAll_append.mp permitted).1
    exact (sound.destroy_gone live).events after ran
  · rintro before rfl
    have linked := represents.linked
    have none_waits : (Registry.new.events (before ++ [.stop])).waiting = [] := by
      rw [Registry.events_append]
      exact Registry.stop_waiting _
    rw [none_waits] at linked
    obtain ⟨_, ended, _⟩ := linked
    exact ended

/-- Two callbacks run at the stop, the later one first, and one that comes after the stop runs at once. -/
theorem stop_callbacks_sample : ∃ state,
    StopState.new.events [.construct 5, .construct 7, .construct 9, .destroy 7, .stop, .construct 7, .destroy 9, .stop] =
      some state ∧ state.runs = [2, 0, 3] ∧ state.callbacks = none := by
  have permitted : Registry.new.PermitsAll
      [.construct 5, .construct 7, .construct 9, .destroy 7, .stop, .construct 7, .destroy 9, .stop] := by decide
  obtain ⟨state, ran, _, _, _, runs, _, _, _, ended⟩ := stop_callbacks permitted
  exact ⟨state, ran, runs.trans (by decide),
    ended [.construct 5, .construct 7, .construct 9, .destroy 7, .stop, .construct 7, .destroy 9] rfl⟩

end Metamorphosis
