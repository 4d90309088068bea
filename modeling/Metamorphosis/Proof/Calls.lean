import Metamorphosis.Proof.Contiguous
import Metamorphosis.Proof.Decisions
import Metamorphosis.Proof.Stamps

/-!
What the extra state of a node knows about the committed log, and what a waiting client call is
given when its entry becomes committed.
-/

namespace Metamorphosis
open ReplicatedLog
variable {n : Nat} {S : Service n}

/-- The part of a service's extra state that is a function of the committed entries. -/
structure Replay (S : Service n) where
  State : Type
  read : S.Ext → State
  initial : State
  next : State → S.Entry → State
  /-- What an index hands to the call that waits for it. -/
  output : Nat → State → S.Entry → S.Payload
  construct : ∀ log, read (S.construct log) = initial
  commit : ∀ {ext index entry committed}, S.commit ext index (some entry) = some committed →
    read committed.2 = next (read ext) entry
  payload : ∀ {ext index entry committed}, S.commit ext index (some entry) = some committed →
    committed.1 = output index (read ext) entry
  becomeLeader : ∀ ext, read (S.becomeLeader ext) = read ext
  startLeader : ∀ ext, read (S.startLeader ext) = read ext
  newEntry : ∀ {ext term request entry after}, S.newEntry ext term request = .inr (entry, after) →
    read after = read ext
  rewrite : ∀ ext removed written, read (S.rewrite ext removed written) = read ext
  saved : ∀ ext entries, read (S.saved ext entries) = read ext
  callFailed : ∀ ext self j, read (S.callFailed ext self j) = read ext
  callAnswered : ∀ ext self j, read (S.callAnswered ext self j) = read ext
  release : ∀ ext request, read (S.release ext request) = read ext
  committed : ∀ ext request payload, read (S.committed ext request payload).2 = read ext

/-- The state after a list of committed entries. -/
def Replay.run (R : Replay S) (entries : List S.Entry) : R.State := entries.foldl R.next R.initial

/-- The replay goes entry by entry. -/
theorem Replay.run_append (R : Replay S) (entries : List S.Entry) (entry : S.Entry) :
    R.run (entries ++ [entry]) = R.next (R.run entries) entry := by
  simp only [run, List.foldl_append, List.foldl_cons, List.foldl_nil]

variable (R : Replay S)

/-- What the entry at an index hands to its call. -/
def Replay.Hands (values : List S.Entry) (index : Nat) (payload : S.Payload) : Prop :=
  1 ≤ index ∧ ∃ entry, values[index - 1]? = some entry ∧
    payload = R.output index (R.run (values.take (index - 1))) entry

/-- A call that is still the same, or was given what its index hands out. -/
def Call.Given (values : List S.Entry) (pending : Nat → Option Nat) (bound : Nat) (before after : Call S) : Prop :=
  after = before ∨ ∃ index payload, index ≤ bound ∧ pending index = some before.tag ∧ R.Hands values index payload ∧
    after = { before with payload := some payload, signaled := true }

variable {R}

/-- What an entry hands over does not depend on the entries after it. -/
theorem Replay.Hands.longer {short long : List S.Entry} {index : Nat} {payload : S.Payload}
    (hands : R.Hands short index payload) (grows : short <+: long) : R.Hands long index payload := by
  obtain ⟨positive, entry, found, given⟩ := hands
  have inside := (List.getElem?_eq_some_iff.mp found).1
  refine ⟨positive, entry, ?_, by rw [take_of_grows grows inside.le]; exact given⟩
  obtain ⟨rest, rfl⟩ := grows
  rw [List.getElem?_append_left inside]
  exact found

/-- A later index may be handed to a call that was given something before. -/
theorem Call.Given.trans {values : List S.Entry} {pending : Nat → Option Nat} {bound next : Nat}
    {first second third : Call S} (earlier : Given R values pending bound first second) (le : bound ≤ next)
    (later : Given R values pending next second third) : Given R values pending next first third := by
  rcases later with rfl | ⟨index, payload, inside, waits, hands, rfl⟩
  · rcases earlier with rfl | ⟨index, payload, inside, rest⟩
    · exact Or.inl rfl
    · exact Or.inr ⟨index, payload, inside.trans le, rest⟩
  · right
    rcases earlier with rfl | ⟨_, _, _, _, _, rfl⟩
    · exact ⟨index, payload, inside, waits, hands, rfl⟩
    · exact ⟨index, payload, inside, waits, hands, rfl⟩

/-- The loop over the new committed indices replays their entries and serves the calls that wait for them. -/
theorem commitLoop_replay {wakes : Bool} {values : List S.Entry} {pending : Nat → Option Nat} {start count : Nat}
    {ext : S.Ext} {calls : List (Call S)} {result : S.Ext × List (Call S)}
    (loop : commitLoop wakes (OrderedMap.ofList values) pending (List.range' (start + 1) count) ext calls = some result)
    (replayed : R.read ext = R.run (values.take start)) (stored : start + count ≤ values.length) :
    R.read result.1 = R.run (values.take (start + count)) ∧ (wakes = false → result.2 = calls) ∧
      ∀ after ∈ result.2, ∃ before ∈ calls, Call.Given R values pending (start + count) before after := by
  induction count generalizing start ext calls with
  | zero =>
      cases loop
      exact ⟨replayed, fun _ => rfl, fun after member => ⟨after, member, Or.inl rfl⟩⟩
  | succ count ih =>
      rw [List.range'_succ, commitLoop, OrderedMap.ofList_get?] at loop
      obtain ⟨entry, found⟩ : ∃ entry, values[start]? = some entry := ⟨_, List.getElem?_eq_getElem (by omega)⟩
      rw [found] at loop
      cases commits : S.commit ext (start + 1) (some entry) with
      | none =>
          rw [commits] at loop
          cases loop
      | some committed =>
          rw [commits] at loop
          have longer : values.take (start + 1) = values.take start ++ [entry] := by
            rw [List.take_add_one, found]
            rfl
          have advanced : R.read committed.2 = R.run (values.take (start + 1)) := by
            rw [R.commit commits, replayed, longer, R.run_append]
          obtain ⟨read, silent, given⟩ := ih loop advanced (by omega)
          have bound : start + 1 + count = start + (count + 1) := by omega
          rw [bound] at read given
          refine ⟨read, fun quiet => ?_, fun after member => ?_⟩
          · rw [silent quiet, quiet]
            rfl
          · obtain ⟨middle, among, later⟩ := given after member
            cases wakes with
            | false => exact ⟨middle, among, later⟩
            | true =>
                obtain ⟨before, waiting, rfl⟩ := List.mem_map.mp among
                refine ⟨before, waiting, ?_⟩
                split at later
                · rename_i waits
                  have handed : R.Hands values (start + 1) committed.1 := by
                    refine ⟨by omega, entry, found, ?_⟩
                    rw [R.payload commits, replayed]
                    rfl
                  exact Call.Given.trans (Or.inr ⟨start + 1, _, by omega, waits, handed, rfl⟩) (Nat.le_refl _) later
                · exact later

section Invariant
variable (R)

/-- A call waits for the entry that was made for it. As long as its node is in the call's term the
node leads, and the call is woken only with what its index hands out. -/
structure CallOk (c : Cluster S) (i : Fin n) (node : Node S) (call : Call S) : Prop where
  created : ∃ record ∈ c.created, record.node = i ∧ record.tag = call.tag ∧ record.term = call.currentTerm ∧
    record.index = call.newLogIndex ∧ ∃ ext after, S.newEntry ext call.currentTerm call.request = .inr (record.entry, after)
  term : call.currentTerm ≤ node.currentTerm
  leads : call.currentTerm = node.currentTerm → node.state = .leader
  signaled : call.signaled = true → call.currentTerm = node.currentTerm → call.payload ≠ none
  payload : ∀ payload, call.payload = some payload → call.currentTerm = node.currentTerm →
    call.newLogIndex ≤ node.commitIndex ∧ R.Hands node.values call.newLogIndex payload

/-- The calls of a node, the table of waiting calls and the replayed state. -/
structure CallsOk (c : Cluster S) (i : Fin n) (node : Node S) : Prop where
  calls : ∀ call ∈ node.calls, CallOk R c i node call
  pending : ∀ index tag, node.pendingRequests index = some tag →
    ∃ record ∈ c.created, record.node = i ∧ record.tag = tag ∧ record.index = index
  replayed : R.read node.ext = R.run (node.values.take node.commitIndex)

/-- A change of a node that calls do not notice. -/
structure Node.Unnoticed (before after : Node S) : Prop where
  values : before.values <+: after.values
  commitIndex : after.commitIndex = before.commitIndex
  ext : R.read after.ext = R.read before.ext
  calls : after.calls = before.calls
  pending : after.pendingRequests = before.pendingRequests
  term : before.currentTerm ≤ after.currentTerm
  leads : after.currentTerm = before.currentTerm → before.state = .leader → after.state = .leader

variable {R} {P : Copies S} {strict : Prop} {c d : Cluster S} {a : Hist S} {i : Fin n}
variable {allowed : Cluster S → Action S → Prop}

/-- More entries may have been made. -/
theorem CallsOk.later {node : Node S} (ok : CallsOk R c i node) (created : c.created <+: d.created) :
    CallsOk R d i node where
  calls call waits := by
    have before := ok.calls call waits
    obtain ⟨record, member, rest⟩ := before.created
    exact ⟨⟨record, created.subset member, rest⟩, before.term, before.leads, before.signaled, before.payload⟩
  pending index tag waits := by
    obtain ⟨record, member, rest⟩ := ok.pending index tag waits
    exact ⟨record, created.subset member, rest⟩
  replayed := ok.replayed

/-- A waiting call notices only the commits and the role of its node. -/
theorem CallOk.unnoticed {before after : Node S} {call : Call S} (ok : CallOk R c i before call)
    (same : Node.Unnoticed R before after) : CallOk R c i after call where
  created := ok.created
  term := ok.term.trans same.term
  leads current := by
    have equal : after.currentTerm = before.currentTerm := by
      have bound := ok.term
      have grown := same.term
      omega
    exact same.leads equal (ok.leads (current.trans equal))
  signaled woken current := by
    have bound := ok.term
    have grown := same.term
    exact ok.signaled woken (by omega)
  payload payload given current := by
    have bound := ok.term
    have grown := same.term
    obtain ⟨inside, hands⟩ := ok.payload payload given (by omega)
    exact ⟨inside.trans_eq same.commitIndex.symm, hands.longer same.values⟩

/-- So do all calls of a node. -/
theorem CallsOk.unnoticed {before after : Node S} (ok : CallsOk R c i before) (same : Node.Unnoticed R before after)
    (inside : before.commitIndex ≤ before.values.length) : CallsOk R c i after where
  calls call member := by
    rw [same.calls] at member
    exact (ok.calls call member).unnoticed same
  pending := by
    rw [same.pending]
    exact ok.pending
  replayed := by rw [same.ext, ok.replayed, same.commitIndex, take_of_grows same.values inside]

/-- A new process has no calls. -/
theorem CallsOk.construct (c : Cluster S) (i : Fin n) (disk : Disk S) : CallsOk R c i (construct disk) where
  calls _ member := absurd member List.not_mem_nil
  pending _ _ waits := by cases waits
  replayed := R.construct disk.raftLog

/-- The calls of a node that does not lead are calls of earlier terms. -/
theorem CallsOk.earlier {node : Node S} (ok : CallsOk R c i node) (role : node.state ≠ .leader) {call : Call S}
    (waits : call ∈ node.calls) : call.currentTerm < node.currentTerm :=
  lt_of_le_of_ne ((ok.calls call waits).term) fun same => role ((ok.calls call waits).leads same)

/-- Calls of earlier terms may be signaled, and they do not look at the log. -/
theorem CallsOk.past {before after : Node S} (ok : CallsOk R c i before)
    (calls : ∀ call ∈ after.calls, call.currentTerm < after.currentTerm ∧ ∃ old ∈ before.calls,
      call = old ∨ call = old.signal)
    (pending : after.pendingRequests = before.pendingRequests)
    (replayed : R.read after.ext = R.run (after.values.take after.commitIndex)) : CallsOk R c i after where
  calls call member := by
    obtain ⟨earlier, old, known, same⟩ := calls call member
    have created := (ok.calls old known).created
    refine ⟨?_, earlier.le, fun current => absurd current earlier.ne, fun _ current => absurd current earlier.ne,
      fun _ _ current => absurd current earlier.ne⟩
    rcases same with rfl | rfl
    · exact created
    · exact created
  pending := by
    rw [pending]
    exact ok.pending
  replayed := replayed

/-- A node that yields signals its calls only if it leads. -/
theorem Node.yield_calls {node : Node S} {call : Call S} (waits : call ∈ node.yield.calls) :
    ∃ old ∈ node.calls, call = old ∨ call = old.signal := by
  rw [yield] at waits
  split at waits
  · obtain ⟨old, member, rfl⟩ := List.mem_map.mp waits
    exact ⟨old, member, Or.inr rfl⟩
  · exact ⟨call, waits, Or.inl rfl⟩

/-- The calls of a node that gives up its term are woken, and find no payload. -/
theorem CallsOk.follow {node : Node S} {term : Nat} (ok : CallsOk R c i node) (later : node.currentTerm < term) :
    CallsOk R c i (node.follow term) := by
  refine ok.past (fun call waits => ?_) node.yield_pendingRequests ?_
  · obtain ⟨old, member, same⟩ := Node.yield_calls waits
    have bound := (ok.calls old member).term
    refine ⟨?_, old, member, same⟩
    rcases same with rfl | rfl
    · exact bound.trans_lt later
    · exact bound.trans_lt later
  · change R.read node.yield.ext = R.run ((node.yield.raftLog.entries.map Prod.snd).take node.yield.commitIndex)
    rw [node.yield_ext, node.yield_raftLog, node.yield_commitIndex]
    exact ok.replayed

/-- A leader never follows another leader of its own term. -/
theorem CallsOk.enter {node : Node S} {term : Nat} (ok : CallsOk R c i node)
    (other : term ≤ node.currentTerm → node.state ≠ .leader) : CallsOk R c i (node.enter term) := by
  rw [Node.enter]
  split
  · rename_i later
    exact ok.follow later
  · rename_i same
    have role := other (Nat.le_of_not_lt same)
    have equal : node.yield = { node with state := .follower } := by rw [Node.yield, if_neg role]
    refine ok.past (fun call waits => ?_) node.yield_pendingRequests ?_
    · rw [equal] at waits
      rw [node.yield_currentTerm]
      exact ⟨ok.earlier role waits, call, waits, Or.inl rfl⟩
    · rw [equal]
      exact ok.replayed

/-- A follower replays what it commits. -/
theorem CallsOk.rewrite {node : Node S} {request : AppendEntriesRequest n S.Entry} {result : S.Ext × List (Call S)}
    (ok : CallsOk R c i node) (role : node.state ≠ .leader) (stored : node.raftLog = OrderedMap.ofList node.values)
    (inside : node.keptIndex request ≤ node.values.length)
    (loop : commitLoop false (node.rewritten request).raftLog (node.rewritten request).pendingRequests
      ((node.rewritten request).newlyCommitted ((node.rewritten request).followedCommit request))
      (node.rewritten request).ext (node.rewritten request).calls = some result) :
    CallsOk R c i ((node.rewritten request).committedTo ((node.rewritten request).followedCommit request) result) := by
  have log := node.rewritten_log request stored inside
  have values : (node.rewritten request).values =
      node.values.take (node.keptIndex request) ++ node.writtenEntries request := by
    rw [Node.values, log, OrderedMap.ofList_values]
  have kept : (node.rewritten request).values.take node.commitIndex = node.values.take node.commitIndex := by
    have below : node.commitIndex ≤ node.keptIndex request := Nat.le_max_right ..
    rw [values, List.take_append_of_le_length (by rw [List.length_take]; omega), List.take_take, Nat.min_eq_left below]
  have replayed : R.read (node.rewritten request).ext = R.run ((node.rewritten request).values.take node.commitIndex) := by
    rw [kept, ← ok.replayed]
    exact R.rewrite ..
  have bound : (node.rewritten request).commitIndex ≤ (node.rewritten request).followedCommit request :=
    Nat.le_max_left ..
  have longer : node.commitIndex ≤ (node.rewritten request).values.length := by
    have below : node.commitIndex ≤ node.keptIndex request := Nat.le_max_right ..
    rw [values, List.length_append, List.length_take]
    omega
  rw [← values] at log
  have followed := Node.followedCommit_stored log longer request
  rw [log] at loop
  obtain ⟨read, silent, _⟩ := commitLoop_replay loop replayed (by rw [Nat.add_sub_cancel' bound]; exact followed)
  refine ok.past (fun call waits => ?_) rfl ?_
  · have member : call ∈ node.calls := by
      have among : call ∈ result.2 := waits
      rw [silent rfl] at among
      exact among
    exact ⟨ok.earlier role member, call, member, Or.inl rfl⟩
  · rw [Nat.add_sub_cancel' bound] at read
    exact read

/-- A leader replays what it commits and serves the calls that wait for it. -/
theorem CallsOk.commit {node after : Node S} (ok : CallsOk R c i node) (stamps : c.Stamps)
    (stored : node.raftLog = OrderedMap.ofList node.values) (inside : node.commitIndex ≤ node.values.length)
    (updated : node.updatedCommit = some after) : CallsOk R c i after := by
  obtain ⟨result, loop, rfl⟩ := Option.map_eq_some_iff.mp updated
  have bound := node.commitIndex_le node.getSavedLogSize
  have found := node.findCommitIndex_stored stored inside
  rw [stored] at loop
  obtain ⟨read, _, given⟩ := commitLoop_replay loop ok.replayed (by rw [Nat.add_sub_cancel' bound]; exact found)
  rw [Nat.add_sub_cancel' bound] at read given
  refine ⟨fun call waits => ?_, ok.pending, read⟩
  obtain ⟨before, member, rfl | ⟨index, payload, inside, waiting, hands, rfl⟩⟩ := given call waits
  · have old := ok.calls call member
    refine ⟨old.created, old.term, old.leads, old.signaled, fun payload got current => ?_⟩
    obtain ⟨within, hands⟩ := old.payload payload got current
    exact ⟨within.trans bound, hands⟩
  · have old := ok.calls before member
    refine ⟨old.created, old.term, old.leads, fun _ _ => nofun, ?_⟩
    rintro _ ⟨⟩ _
    -- The table names the call of the entry that was made at this index.
    have place : before.newLogIndex = index := by
      obtain ⟨record, created, _, tag, at_⟩ := ok.pending index before.tag waiting
      obtain ⟨own, createdOwn, _, tagOwn, _, atOwn, _⟩ := old.created
      have times : own.time = record.time := by
        rw [← stamps.tag own createdOwn, ← stamps.tag record created, tag, tagOwn]
      rw [← atOwn, stamps.unique createdOwn created times, at_]
    exact ⟨place ▸ inside, place ▸ hands⟩

/-- A new call waits for its new entry. -/
theorem CallsOk.append {node : Node S} {request : S.Request} {entry : S.Entry} {ext : S.Ext} (ok : CallsOk R c i node)
    (role : node.state = .leader) (made : S.newEntry node.ext node.currentTerm request = .inr (entry, ext)) :
    CallsOk R (c.noteCreated i node.currentTerm (node.nextIndex i) entry) i
      (node.appended i c.clock request entry ext) := by
  have before : CallsOk R (c.noteCreated i node.currentTerm (node.nextIndex i) entry) i node :=
    ok.later (List.prefix_append ..)
  have record : (⟨i, c.clock, node.currentTerm, node.nextIndex i, entry, c.clock⟩ : Created S) ∈
      (c.noteCreated i node.currentTerm (node.nextIndex i) entry).created :=
    List.mem_append_right _ (List.mem_singleton_self _)
  refine ⟨fun call waits => ?_, fun index tag waits => ?_, (R.newEntry made).trans ok.replayed⟩
  · rcases List.mem_append.mp waits with old | new
    · have other := before.calls call old
      exact ⟨other.created, other.term, other.leads, other.signaled, other.payload⟩
    · rw [List.mem_singleton.mp new]
      exact ⟨⟨_, record, rfl, rfl, rfl, rfl, _, _, made⟩, Nat.le_refl _, fun _ => role, nofun, nofun⟩
  · simp only [Node.appended, Function.update_apply] at waits
    split at waits
    · rename_i here
      cases waits
      exact ⟨_, record, rfl, rfl, here.symm⟩
    · exact before.pending index tag waits

/-- A call leaves its node. -/
theorem CallsOk.leave {node : Node S} {call : Call S} {ext : S.Ext} (ok : CallsOk R c i node)
    (same : R.read ext = R.read node.ext) : CallsOk R c i ((node.dropCall call).withExt ext) := by
  refine ⟨fun other waits => ?_, fun index tag waits => ?_, same.trans ok.replayed⟩
  · have before := ok.calls other (List.mem_of_mem_filter waits)
    exact ⟨before.created, before.term, before.leads, before.signaled, before.payload⟩
  · simp only [Node.withExt, Node.dropCall, Function.update_apply] at waits
    split at waits
    · cases waits
    · exact ok.pending index tag waits

/-- Every indivisible change keeps the calls of every node in order. -/
theorem CallsOk.step (sim : Sim P strict c a) (stamps : c.Stamps) (taken : Cluster.Atomic allowed c d)
    (ok : ∀ x, CallsOk R c x (c.nodes x)) : ∀ x, CallsOk R d x (d.nodes x) := by
  have created := taken.extends.created
  have stored (x : Fin n) : (c.nodes x).raftLog = OrderedMap.ofList (c.nodes x).values ∧
      (c.nodes x).commitIndex ≤ (c.nodes x).values.length := by
    obtain ⟨log, mirrors⟩ := (sim.nodes x).log.values
    exact ⟨log, by rw [mirrors.length]; exact (sim.nodes x).commit⟩
  have still (x : Fin n) : CallsOk R d x (c.nodes x) := (ok x).later created
  have node {i : Fin n} {node : Node S} (nodes : d.nodes = (c.setNode i node).nodes) (here : CallsOk R d i node) :
      ∀ x, CallsOk R d x (d.nodes x) := by
    intro x
    rw [nodes]
    by_cases self : x = i
    · subst self
      rw [Cluster.setNode_self]
      exact here
    · rw [Cluster.setNode_other c node self]
      exact still x
  -- Most changes of one node leave everything alone that its calls can see.
  have quiet {i : Fin n} {after : Node S} (nodes : d.nodes = (c.setNode i after).nodes)
      (log : after.raftLog = (c.nodes i).raftLog) (commitIndex : after.commitIndex = (c.nodes i).commitIndex)
      (ext : R.read after.ext = R.read (c.nodes i).ext) (calls : after.calls = (c.nodes i).calls)
      (pending : after.pendingRequests = (c.nodes i).pendingRequests)
      (term : (c.nodes i).currentTerm ≤ after.currentTerm)
      (leads : after.currentTerm = (c.nodes i).currentTerm → (c.nodes i).state = .leader → after.state = .leader) :
      ∀ x, CallsOk R d x (d.nodes x) :=
    node nodes ((still i).unnoticed
      ⟨by rw [Node.values, Node.values, log], commitIndex, ext, calls, pending, term, leads⟩ (stored i).2)
  have entered {call : AppendCall S} (sent : call ∈ c.appendRequests)
      (current : (c.nodes call.callee).currentTerm ≤ call.request.term) :
      CallsOk R d call.callee ((c.nodes call.callee).enter call.request.term) := by
    refine (still call.callee).enter fun reached role => ?_
    obtain ⟨L, leader⟩ := (sim.nodes call.callee).leader role
    obtain ⟨K, led, of⟩ := sim.messages.requests call sent
    rw [← Nat.le_antisymm current reached] at led
    cases leader.led.symm.trans led
    exact of.other leader.self.symm
  cases taken with
  | restart i => exact node rfl (.construct ..)
  | standCrash i => exact node rfl (.construct ..)
  | drop call _ => exact node rfl (.construct ..)
  | acceptCrash call place _ _ _ _ _ => exact node rfl (.construct ..)
  | follow i term later => exact node rfl ((still i).follow later)
  | stand i _ => exact quiet rfl rfl rfl rfl rfl rfl (Nat.le_succ _) fun same => absurd same (Nat.succ_ne_self _)
  | elect i election _ _ _ => exact quiet rfl rfl rfl (R.becomeLeader _) rfl rfl (Nat.le_refl _) fun _ _ => rfl
  | startLeader i role _ => exact quiet rfl rfl rfl (R.startLeader _) rfl rfl (Nat.le_refl _) fun _ leads => leads
  | callFailed i j fibers seq request _ _ _ =>
      exact quiet rfl rfl rfl (R.callFailed ..) rfl rfl (Nat.le_refl _) fun _ leads => leads
  | callAnswered i j fibers seq request _ _ _ =>
      exact quiet rfl rfl rfl (R.callAnswered ..) rfl rfl (Nat.le_refl _) fun _ leads => leads
  | acknowledge i fibers call request response _ _ _ _ _ _ _ _ place _ =>
      exact quiet rfl rfl rfl (R.callAnswered ..) rfl rfl (Nat.le_refl _) fun _ leads => leads
  | stepBack i fibers call request response _ _ _ _ _ _ _ _ _ =>
      exact quiet rfl rfl rfl (R.callAnswered ..) rfl rfl (Nat.le_refl _) fun _ leads => leads
  | reject call place sent _ current _ => exact node rfl (entered (List.mem_of_getElem? sent) current)
  | accept call place sent _ current matched consistent result loop =>
      have here := entered (List.mem_of_getElem? sent) current
      obtain ⟨log, inside⟩ := sim.entered_log ⟨current, matched, consistent⟩
      exact node rfl (here.rewrite (by rw [Node.enter_state]; rintro ⟨⟩) log inside loop)
  | commit i after role updated =>
      refine node ?_ (((ok i).commit stamps (stored i).1 (stored i).2 updated).later created)
      rw [Cluster.noteCommit_eq]
  | save i fibers leading _ role =>
      have values : ((c.nodes i).save i fibers).values = (c.nodes i).values ++ (c.nodes i).pendingLog := by
        rw [Node.values, sim.saved_log leading role, OrderedMap.ofList_values]
      refine node rfl ((still i).unnoticed ⟨?_, rfl, R.saved .., rfl, rfl, Nat.le_refl _, fun _ leads => leads⟩ (stored i).2)
      rw [values]
      exact List.prefix_append ..
  | append i request entry ext _ _ role made => exact node rfl (((ok i).append role made).later List.prefix_rfl)
  | release i call _ _ _ _ => exact node rfl ((still i).leave (R.release ..))
  | committed i call _ _ _ _ _ => exact node rfl ((still i).leave (R.committed ..))
  | replyVote call result _ _ => exact still
  | refuse call _ _ => exact still
  | answer i request response _ _ => exact still
  | tick => exact still
  | _ => exact quiet rfl rfl rfl rfl rfl rfl (Nat.le_refl _) fun _ leads => leads

end Invariant

section Answers
variable (P : Copies S) (R : Replay S)

/-- The entry that was made for a call is committed, and it hands the payload to the call. -/
def Granted (c : Cluster S) (a : Hist S) (node : Fin n) (tag : Nat) (request : S.Request) (payload : S.Payload) : Prop :=
  ∃ record ∈ c.created, record.node = node ∧ record.tag = tag ∧
    (∃ ext after, S.newEntry ext record.term request = .inr (record.entry, after)) ∧
    Decided c a record.index (record.entry, record.time) ∧
    ∃ T m L copies, (T, m) ∈ c.commits ∧ record.index ≤ m ∧ a.lead T = some L ∧
      Mirrors P copies (L.entries.take record.index) ∧ R.Hands copies record.index payload

/-- A client is told that the node is no leader, gets an answer at once, or gets what its committed
entry hands out. -/
def AnswersOk (c : Cluster S) (a : Hist S) : Prop :=
  ∀ answer ∈ c.answered, answer.response = S.notALeader ∨
    (∃ ext term, S.newEntry ext term answer.request = .inl answer.response) ∨
    ∃ ext payload, (S.committed ext answer.request (some payload)).1 = answer.response ∧
      Granted P R c a answer.node answer.tag answer.request payload

variable {P R} {c d : Cluster S} {a b : Hist S} {i : Fin n} {allowed : Cluster S → Action S → Prop}

/-- What was granted once stays granted. -/
theorem Granted.later {tag : Nat} {request : S.Request} {payload : S.Payload}
    (granted : Granted P R c a i tag request payload) (extended : c.Extends d) (grows : LeadsGrow a b) :
    Granted P R d b i tag request payload := by
  obtain ⟨record, member, node, named, made, decided, T, m, L, copies, committed, inside, led, mirrors, hands⟩ := granted
  obtain ⟨M, ledM, _, _, longer⟩ := grows T L led
  refine ⟨record, extended.created.subset member, node, named, made, decided.later extended grows, T, m, M, copies,
    extended.commits.subset committed, inside, ledM, ?_, hands⟩
  obtain ⟨positive, entry, found, _⟩ := hands
  have within : record.index ≤ L.entries.length := by
    have below := (List.getElem?_eq_some_iff.mp found).1
    rw [mirrors.length, List.length_take] at below
    omega
  rw [take_of_grows longer within]
  exact mirrors

/-- A call that is woken in its own term gets what its committed entry hands out. -/
theorem CallsOk.granted (sim : Sim P True c a) (ok : CallsOk R c i (c.nodes i)) {call : Call S}
    (waits : call ∈ (c.nodes i).calls) (signaled : call.signaled = true)
    (same : call.currentTerm = (c.nodes i).currentTerm) :
    ∃ payload, call.payload = some payload ∧ Granted P R c a i call.tag call.request payload := by
  have callOk := ok.calls call waits
  obtain ⟨payload, given⟩ := Option.ne_none_iff_exists'.mp (callOk.signaled signaled same)
  obtain ⟨inside, hands⟩ := callOk.payload payload given same
  obtain ⟨record, member, node, tag, term, index, ext, after, made⟩ := callOk.created
  have positive := hands.1
  obtain ⟨item, decided, found⟩ := sim.decided positive inside
  -- The leader's own log holds the entry that it made at this index.
  have own : item = (record.entry, record.time) := by
    obtain ⟨K, ledK, _, _, made⟩ := sim.records.createdAt record member
    obtain ⟨L, leader⟩ := (sim.nodes i).leader (callOk.leads same)
    obtain ⟨_, saved, _⟩ := (sim.nodes i).leader_log sim.wf leader
    rw [term, same] at ledK
    cases leader.led.symm.trans ledK
    rw [index] at made
    obtain ⟨rest, longer⟩ := saved
    rw [← longer, List.getElem?_append_left (List.getElem?_eq_some_iff.mp found).1, found] at made
    exact Option.some.inj made
  rw [own] at decided
  refine ⟨payload, given, record, member, node, tag, ⟨ext, after, term ▸ made⟩, index ▸ decided, ?_⟩
  rcases (sim.ordered trivial).certified i with zero | ⟨T, m, L, committed, _, within, led, shared⟩
  · omega
  · obtain ⟨_, mirrors⟩ := (sim.nodes i).log.values
    refine ⟨T, m, L, (c.nodes i).values.take record.index, committed, by omega, led, ?_, ?_⟩
    · rw [← take_of_take (by omega) shared]
      exact mirrors.take record.index
    · obtain ⟨_, entry, foundEntry, output⟩ := hands
      rw [← index] at foundEntry output positive
      refine ⟨positive, entry, ?_, ?_⟩
      · rw [List.getElem?_take_of_lt (by omega)]
        exact foundEntry
      · rw [List.take_take, Nat.min_eq_left (by omega)]
        exact output

/-- An answer that says "committed" is one of a call that its entry woke. -/
theorem AnswersOk.step (sim : Sim P True c a) (steps : Steps itemTerm (QuorumSystem.majority n) True a b)
    (taken : Cluster.Atomic allowed c d) (ok : ∀ x, CallsOk R c x (c.nodes x)) (answers : AnswersOk P R c a) :
    AnswersOk P R d b := by
  have extended := taken.extends
  have grows := steps.leadsGrow
  have old {answer : Answered S} (member : answer ∈ c.answered) : answer.response = S.notALeader ∨
      (∃ ext term, S.newEntry ext term answer.request = .inl answer.response) ∨
      ∃ ext payload, (S.committed ext answer.request (some payload)).1 = answer.response ∧
        Granted P R d b answer.node answer.tag answer.request payload := by
    rcases answers answer member with refused | atOnce | ⟨ext, payload, response, granted⟩
    · exact Or.inl refused
    · exact Or.inr (Or.inl atOnce)
    · exact Or.inr (Or.inr ⟨ext, payload, response, granted.later extended grows⟩)
  intro answer member
  rcases taken.answered_cases with same | ⟨i, request, response, _, given, rfl⟩ | ⟨i, call, _, _, _, rfl⟩ |
    ⟨i, call, waits, signaled, same, _, _, rfl⟩
  · exact old (same ▸ member)
  · rcases List.mem_append.mp member with known | new
    · exact old known
    · rw [List.mem_singleton.mp new]
      rcases given with ⟨_, refused⟩ | ⟨_, atOnce⟩
      · exact Or.inl refused
      · exact Or.inr (Or.inl ⟨_, _, atOnce⟩)
  · rcases List.mem_append.mp member with known | new
    · exact old known
    · rw [List.mem_singleton.mp new]
      exact Or.inl rfl
  · rcases List.mem_append.mp member with known | new
    · exact old known
    · rw [List.mem_singleton.mp new]
      obtain ⟨payload, given, granted⟩ := (ok i).granted sim waits signaled same
      exact Or.inr (Or.inr ⟨(c.nodes i).ext, payload, by rw [given], granted.later extended grows⟩)

variable (P R) in
/-- What holds of client calls along every run with ordered delivery. -/
structure ClientsOk (c : Cluster S) (a : Hist S) : Prop where
  stamps : c.Stamps
  oldFirst : OldFirst c a
  calls : ∀ x, CallsOk R c x (c.nodes x)
  answers : AnswersOk P R c a

/-- No client has called yet. -/
theorem ClientsOk.initial (P : Copies S) (R : Replay S) :
    ClientsOk P R (Cluster.initial S) (History.initial (Fin n) (Item S)) where
  stamps := .initial S
  oldFirst _ _ led := by cases led
  calls x := .construct ..
  answers _ member := absurd member List.not_mem_nil

/-- Every step keeps what calls and answers are told in line with the log of the leaders. -/
theorem ClientsOk.step (sim : Sim P True c a) (steps : Steps itemTerm (QuorumSystem.majority n) True a b)
    (taken : Cluster.Atomic allowed c d) (clients : ClientsOk P R c a) : ClientsOk P R d b where
  stamps := clients.stamps.step taken
  oldFirst := clients.oldFirst.step sim steps taken
  calls := CallsOk.step sim clients.stamps taken clients.calls
  answers := clients.answers.step sim steps taken clients.calls

/-- Every cluster that is reached with ordered delivery has a history with its client calls. -/
theorem Cluster.Atomics.clients (P : Copies S) (R : Replay S) (taken : Cluster.Atomics allowed (.initial S) c)
    (inOrder : ∀ c action, allowed c action → Cluster.InOrder c action) :
    ∃ a, Sim P True c a ∧ ClientsOk P R c a := by
  obtain ⟨a, _, sim, clients⟩ := Sim.invariant (ClientsOk P R)
    (fun sim _ steps taken clients => clients.step sim steps taken) (fun _ => inOrder) (Sim.initial P True)
    (ClientsOk.initial P R) taken
  exact ⟨a, sim, clients⟩

end Answers

end Metamorphosis
