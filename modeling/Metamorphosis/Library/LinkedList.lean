import Mathlib.Data.List.Nodup
import Mathlib.Logic.Function.Basic

/-!
Intrusive doubly linked lists in a heap. A segment is a part of a list: it is entered through a pointer, and its
nodes point forth and back to each other.
-/

namespace LinkedList

/-- A node of a list with its two pointers. -/
structure Cell (α : Type) where
  next : Option Nat
  prev : Option Nat
  value : α

/-- The nodes at their addresses. -/
abbrev Heap (α : Type) := Nat → Option (Cell α)

section Writes
variable {α : Type}

/-- `pointer->next = next`, unless the pointer is null. There is no result if it dangles. -/
def writeNext (heap : Heap α) (pointer next : Option Nat) : Option (Heap α) :=
  match pointer with
  | none => some heap
  | some address => (heap address).map fun node => Function.update heap address (some { node with next := next })

/-- `pointer->prev = prev`, unless the pointer is null. -/
def writePrev (heap : Heap α) (pointer prev : Option Nat) : Option (Heap α) :=
  match pointer with
  | none => some heap
  | some address => (heap address).map fun node => Function.update heap address (some { node with prev := prev })

end Writes

/-- The pointer `first` leads through the nodes at some addresses to `behind`. The first node points back to
`before`, and `last` is the last node or what stands before an empty segment. -/
def Segment {α : Type} (heap : Heap α) : (first before : Option Nat) → List Nat → (behind last : Option Nat) → Prop
  | first, before, [], behind, last => first = behind ∧ before = last
  | first, before, address :: rest, behind, last =>
      first = some address ∧ ∃ node, heap address = some node ∧ node.prev = before ∧
        Segment heap node.next (some address) rest behind last

/-- A whole list: nothing stands before or behind it. -/
def Linked {α : Type} (heap : Heap α) (first : Option Nat) (addresses : List Nat) : Prop :=
  ∃ last, Segment heap first none addresses none last

variable {α : Type} {heap other : Heap α} {first before behind last : Option Nat} {addresses : List Nat}

/-- A segment can be cut at any place. -/
theorem segment_append {front back : List Nat} :
    Segment heap first before (front ++ back) behind last ↔
      ∃ middle tail, Segment heap first before front middle tail ∧ Segment heap middle tail back behind last := by
  induction front generalizing first before with
  | nil =>
      constructor
      · intro segment
        exact ⟨first, before, ⟨rfl, rfl⟩, segment⟩
      · rintro ⟨_, _, ⟨rfl, rfl⟩, segment⟩
        exact segment
  | cons address rest ih =>
      constructor
      · rintro ⟨entered, node, found, points, segment⟩
        obtain ⟨middle, tail, front, back⟩ := ih.mp segment
        exact ⟨middle, tail, ⟨entered, node, found, points, front⟩, back⟩
      · rintro ⟨middle, tail, ⟨entered, node, found, points, front⟩, back⟩
        exact ⟨entered, node, found, points, ih.mpr ⟨middle, tail, front, back⟩⟩

/-- Only the nodes of a segment matter. -/
theorem Segment.congr (segment : Segment heap first before addresses behind last)
    (same : ∀ address ∈ addresses, other address = heap address) :
    Segment other first before addresses behind last := by
  induction addresses generalizing first before with
  | nil => exact segment
  | cons address rest ih =>
      obtain ⟨entered, node, found, back, segment⟩ := segment
      have here : other address = some node := (same address List.mem_cons_self).trans found
      exact ⟨entered, node, here, back, ih segment fun a member => same a (List.mem_cons_of_mem _ member)⟩

/-- A change outside of a segment leaves it alone. -/
theorem Segment.update (segment : Segment heap first before addresses behind last) {address : Nat}
    (outside : address ∉ addresses) (node : Option (Cell α)) :
    Segment (Function.update heap address node) first before addresses behind last := by
  apply segment.congr
  intro a member
  apply Function.update_of_ne
  rintro rfl
  exact outside member

/-- Some writes to the pointers of the nodes at some addresses. -/
structure Rewired (addresses : List Nat) (heap other : Heap α) : Prop where
  values : ∀ address, (other address).map Cell.value = (heap address).map Cell.value
  outside : ∀ address, address ∉ addresses → other address = heap address

namespace Rewired
variable {third : Heap α}

theorem refl (heap : Heap α) : Rewired addresses heap heap := ⟨fun _ => rfl, fun _ _ => rfl⟩

/-- Two changes of links one after another. -/
theorem trans {more : List Nat} (one : Rewired addresses heap other) (two : Rewired more other third) :
    Rewired (addresses ++ more) heap third where
  values address := (two.values address).trans (one.values address)
  outside address absent := by
    rw [List.mem_append, not_or] at absent
    exact (two.outside address absent.2).trans (one.outside address absent.1)

/-- One node gets other links. -/
theorem update {address : Nat} {node changed : Cell α} (found : heap address = some node)
    (value : changed.value = node.value) (member : address ∈ addresses) :
    Rewired addresses heap (Function.update heap address (some changed)) where
  values a := by
    by_cases same : a = address
    · subst same
      rw [Function.update_self, found, Option.map_some, Option.map_some, value]
    · rw [Function.update_of_ne same]
  outside a absent := by
    apply Function.update_of_ne
    rintro rfl
    exact absent member

end Rewired

/-- The last node of a segment is pointed to another place. -/
theorem Segment.writeNext (segment : Segment heap first none addresses behind last) (nodup : addresses.Nodup)
    (next : Option Nat) :
    ∃ written, LinkedList.writeNext heap last next = some written ∧
      Segment written (if addresses = [] then next else first) none addresses next last ∧
      Rewired addresses heap written := by
  rcases List.eq_nil_or_concat' addresses with rfl | ⟨front, address, rfl⟩
  · obtain ⟨_, rfl⟩ := segment
    exact ⟨heap, rfl, ⟨rfl, rfl⟩, .refl heap⟩
  · obtain ⟨middle, tail, start, entered, node, found, points, _, rfl⟩ := segment_append.mp segment
    have absent : address ∉ front := by
      intro member
      exact List.disjoint_of_nodup_append nodup member List.mem_cons_self
    refine ⟨Function.update heap address (some { node with next := next }), ?_, ?_, ?_⟩
    · simp only [LinkedList.writeNext, found, Option.map_some]
    · rw [if_neg (by simp)]
      apply segment_append.mpr
      refine ⟨middle, tail, start.update absent _, entered, { node with next := next }, ?_, points, rfl, rfl⟩
      exact Function.update_self ..
    · exact .update found rfl (by simp)

/-- The first node of a segment is pointed back to another place. -/
theorem Segment.writePrev (segment : Segment heap first before addresses behind last) (ends : behind = none)
    (nodup : addresses.Nodup) (prev : Option Nat) :
    ∃ written, LinkedList.writePrev heap first prev = some written ∧
      Segment written first prev addresses behind (if addresses = [] then prev else last) ∧
      Rewired addresses heap written := by
  cases addresses with
  | nil =>
      obtain ⟨rfl, rfl⟩ := segment
      rw [ends]
      exact ⟨heap, rfl, ⟨rfl, rfl⟩, .refl heap⟩
  | cons address rest =>
      obtain ⟨rfl, node, found, _, segment⟩ := segment
      have absent : address ∉ rest := (List.nodup_cons.mp nodup).1
      refine ⟨Function.update heap address (some { node with prev := prev }), ?_, ?_, ?_⟩
      · simp only [LinkedList.writePrev, found, Option.map_some]
      · rw [if_neg (by simp)]
        exact ⟨rfl, _, Function.update_self .., rfl, segment.update absent _⟩
      · exact .update found rfl List.mem_cons_self

/-- The first node has nothing in front of it. -/
theorem Linked.first_iff {address : Nat} {front back : List Nat} (linked : Linked heap first (front ++ address :: back))
    (nodup : (front ++ address :: back).Nodup) : first = some address ↔ front = [] := by
  obtain ⟨last, segment⟩ := linked
  cases front with
  | nil => exact iff_of_true segment.1 rfl
  | cons head rest =>
      obtain ⟨rfl, _⟩ := segment
      apply iff_of_false
      · intro same
        cases same
        exact (List.nodup_cons.mp nodup).1 (by simp)
      · simp

/-- A node is taken out of a list: its neighbours are pointed to each other. -/
theorem Linked.remove {address : Nat} {front back : List Nat} (linked : Linked heap first (front ++ address :: back))
    (nodup : (front ++ address :: back).Nodup) :
    ∃ node forth both, heap address = some node ∧ writeNext heap node.prev node.next = some forth ∧
      forth address = some node ∧ writePrev forth node.next node.prev = some both ∧ both address = some node ∧
      Rewired (front ++ back) heap both ∧
      ∀ removed, Linked (Function.update both address removed)
        (if first = some address then node.next else first) (front ++ back) := by
  have at_first := linked.first_iff nodup
  obtain ⟨last, segment⟩ := linked
  obtain ⟨middle, tail, start, rfl, node, found, rfl, rest⟩ := segment_append.mp segment
  obtain ⟨front_nodup, address_nodup, apart⟩ := List.nodup_append'.mp nodup
  obtain ⟨absent_back, back_nodup⟩ := List.nodup_cons.mp address_nodup
  have absent_front : address ∉ front := fun member => apart member List.mem_cons_self
  obtain ⟨forth, wrote, start, rewired⟩ := start.writeNext front_nodup node.next
  have rest_forth : Segment forth node.next (some address) back none last := by
    apply rest.congr
    intro a member
    exact rewired.outside a fun inside => apart inside (List.mem_cons_of_mem _ member)
  obtain ⟨both, wrote', rest, rewired'⟩ := rest_forth.writePrev rfl back_nodup node.prev
  have start_both : Segment both (if front = [] then node.next else first) none front node.next node.prev := by
    apply start.congr
    intro a member
    exact rewired'.outside a fun inside => apart member (List.mem_cons_of_mem _ inside)
  refine ⟨node, forth, both, found, wrote, (rewired.outside address absent_front).trans found, wrote',
    ((rewired'.outside address absent_back).trans (rewired.outside address absent_front)).trans found,
    rewired.trans rewired', fun removed => ⟨if back = [] then node.prev else last, ?_⟩⟩
  simp only [at_first]
  exact segment_append.mpr ⟨_, _, start_both.update absent_front _, rest.update absent_back _⟩

/-- Without a first node the list is empty. -/
theorem linked_none (linked : Linked heap none addresses) : addresses = [] := by
  obtain ⟨last, segment⟩ := linked
  cases addresses with
  | nil => rfl
  | cons address rest => cases segment.1

/-- A node without neighbours is a list of its own. -/
theorem linked_single {address : Nat} {node : Cell α} (found : heap address = some node)
    (fresh : node.next = none ∧ node.prev = none) : Linked heap (some address) [address] :=
  ⟨some address, rfl, node, found, fresh.2, fresh.1, rfl⟩

/-- A node is put before a list. -/
theorem Linked.push {address head : Nat} {node : Cell α} (linked : Linked heap (some head) addresses)
    (nodup : addresses.Nodup) (absent : address ∉ addresses) (found : heap address = some node)
    (fresh : node.prev = none) :
    ∃ back both, LinkedList.writePrev heap (some head) (some address) = some back ∧
      LinkedList.writeNext back (some address) (some head) = some both ∧
      Rewired (addresses ++ [address]) heap both ∧ Linked both (some address) (address :: addresses) := by
  obtain ⟨last, segment⟩ := linked
  obtain ⟨back, wrote, segment, rewired⟩ := segment.writePrev rfl nodup (some address)
  have here : back address = some node := (rewired.outside address absent).trans found
  refine ⟨back, Function.update back address (some { node with next := some head }), wrote, ?_, ?_, ?_⟩
  · simp only [LinkedList.writeNext, here, Option.map_some]
  · exact rewired.trans (.update here rfl List.mem_cons_self)
  · exact ⟨_, rfl, _, Function.update_self .., fresh, segment.update absent _⟩

end LinkedList
