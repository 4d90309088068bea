import Metamorphosis.Construction.RaftClient
import Metamorphosis.Proof.Changes

/-!
A client's requests are entered into logs only between the call and the return of their `Apply`, and
the calls of one client follow each other.
-/

namespace Metamorphosis

section Steps
variable {n : Nat} {S : Service n} {c d : Cluster S} {stop : Option Nat}

/-- A step keeps the records and takes time. -/
theorem Cluster.step_later {action : Action S} (fresh : c.Fresh) (stepped : c.step stop action = some d) :
    c.Extends d ∧ c.clock < d.clock ∧ d.Fresh := by
  obtain ⟨after, acted, rfl⟩ := Option.map_eq_some_iff.mp stepped
  have taken : Cluster.Atomics Cluster.Any c after := Cluster.act_atomics trivial fresh acted
  have extended := taken.extends
  refine ⟨⟨extended.requests, extended.replies, extended.elected, extended.created, extended.commits,
    extended.answered, Nat.le_succ_of_le extended.clock⟩, Nat.lt_succ_of_le extended.clock, fun record member => ?_⟩
  exact Nat.lt_succ_of_le (taken.stamped (fun record member => (fresh record member).le) record member)

/-- Only a client's call makes an entry. -/
theorem Cluster.step_created {action : Action S} (fresh : c.Fresh) (stepped : c.step stop action = some d)
    (other : ∀ i request, action ≠ .execute i request) : d.created = c.created := by
  obtain ⟨after, acted, rfl⟩ := Option.map_eq_some_iff.mp stepped
  have taken : Cluster.Atomics (fun _ taken => taken = action) c after := Cluster.act_atomics rfl fresh acted
  change after.created = c.created
  clear stepped acted
  induction taken with
  | refl => rfl
  | tail _ last ih =>
      rcases last.created_cases with same | ⟨i, request, _, _, permitted, _⟩
      · exact same.trans ih
      · exact absurd permitted.symm (other i request)

/-- A client's call makes at most one entry, and it is named by the time of the step. -/
theorem Cluster.execute_created {i : Fin n} {request : S.Request} (stepped : c.step stop (.execute i request) = some d) :
    d.created = c.created ∨ ∃ record, d.created = c.created ++ [record] ∧ record.tag = c.clock ∧
      record.time = c.clock ∧ ∃ ext after, S.newEntry ext record.term request = .inr (record.entry, after) := by
  obtain ⟨after, acted, rfl⟩ := Option.map_eq_some_iff.mp stepped
  cases acted
  rcases Cluster.perform_cases c i stop (execute i c.clock request) (fun response => Cluster.noteExecute i request response)
    with ⟨disk, _, same⟩ | ⟨value, node, finished, same⟩
  · left
    rw [same]
    rfl
  · rw [same]
    rcases execute_cases (c.nodes i) i c.clock request with ⟨_, run⟩ | ⟨_, _, _, run⟩ | ⟨entry, ext, _, made, run⟩
    · rw [run] at finished
      cases finished
      exact Or.inl rfl
    · rw [run] at finished
      cases finished
      exact Or.inl rfl
    · rw [run] at finished
      cases finished
      refine Or.inr ⟨⟨i, c.clock, (c.nodes i).currentTerm, (c.nodes i).nextIndex i, entry, c.clock⟩, ?_, rfl, rfl,
        _, ext, made⟩
      simp only [Cluster.noteExecute, Cluster.setNode_self, Node.appended, List.getLast?_append,
        List.getLast?_singleton, Option.some_or, Function.update_self, Nat.add_sub_cancel]
      rfl

end Steps

namespace System
variable {M : StateMachine} {n : Nat} {s t : System M n} {id : Nat}

/-- What a client's step does to its call: nothing, a change that keeps the request and the rpc it waits
for, a new attempt, a return, or the call of `Apply`. -/
inductive Moved (s : System M n) (id : Nat) : System M n → Prop where
  | same : Moved s id s
  | adjust (client : RaftClient M.Cmd) (call next : ApplyCall M.Cmd) (running : (s.clients id).call = some call)
      (issued : client.issued = (s.clients id).issued) (goesOn : client.call = some next)
      (request : next.request = call.request) (fiber : ∀ seq timedOut, next.fiber = .startAttempt seq timedOut →
        ∃ before, call.fiber = .startAttempt seq before) : Moved s id (s.setClient id client)
  | attempt (t : System M n) (call next : ApplyCall M.Cmd) (running : (s.clients id).call = some call)
      (request : next.request = call.request) (started : s.startAttempt id next = some t) : Moved s id t
  | ended (call next : ApplyCall M.Cmd) (result : Except RaftClientError M.Res)
      (running : (s.clients id).call = some call) (request : next.request = call.request)
      (answered : ∀ value, result = .ok value → ∃ seq timedOut answer, call.fiber = .startAttempt seq timedOut ∧
        answer ∈ s.cluster.answered ∧ s.Answers id seq answer ∧ answer.response.status = .commited ∧
        answer.response.result = value) : Moved s id (s.applyEnd id next result)
  | apply (t : System M n) (call : ApplyCall M.Cmd) (idle : (s.clients id).call = none)
      (own : call.request.clientId = id)
      (fresh : call.request.requestId ≠ 0 ∧ ∀ record ∈ s.issued, record.request.clientId = id →
        record.request.requestId ≠ call.request.requestId)
      (started : (s.noteIssued call.request).startAttempt id call = some t) : Moved s id t

/-- What a step of a client can do. -/
theorem actClient_moved {action : ClientAction M.Cmd} (orderly : s.Orderly (.client id action))
    (acted : s.actClient id action = some t) : Moved s id t := by
  cases action with
  | apply requestId command retryCount =>
      simp only [actClient] at acted
      split at acted
      · cases acted
      · rename_i idle
        exact .apply t ⟨⟨requestId, id, command⟩, retryCount, .running, 0, .startAttempt 0 false⟩ idle rfl orderly acted
  | rpcTimeout =>
      obtain ⟨call, running, acted⟩ := Option.bind_eq_some_iff.mp acted
      split at acted
      · rename_i seq timedOut fiber
        cases acted
        refine .adjust _ call _ running rfl rfl rfl fun other later same => ?_
        cases same
        exact ⟨timedOut, fiber⟩
      · cases acted
  | executeFailed error =>
      obtain ⟨call, running, acted⟩ := Option.bind_eq_some_iff.mp acted
      split at acted
      · cases acted
        exact .adjust _ call _ running rfl rfl rfl fun _ _ same => nomatch same
      · cases acted
  | executeAnswered place =>
      obtain ⟨call, running, acted⟩ := Option.bind_eq_some_iff.mp acted
      obtain ⟨answer, found, acted⟩ := Option.bind_eq_some_iff.mp acted
      split at acted
      · rename_i seq timedOut fiber
        split at acted
        · rename_i answers
          split at acted
          · cases acted
            exact .adjust _ call _ running rfl rfl rfl fun _ _ same => nomatch same
          · rename_i status
            cases acted
            refine .ended call call _ running rfl fun value same => ?_
            cases same
            exact ⟨seq, timedOut, answer, fiber, List.mem_of_getElem? found, answers, status, rfl⟩
        · cases acted
      · cases acted
  | backoffEnd =>
      obtain ⟨call, running, acted⟩ := Option.bind_eq_some_iff.mp acted
      split at acted
      · cases acted
      · dsimp only at acted
        split at acted
        · exact .attempt t call { call with attemptId := call.attemptId + 1 } running rfl acted
        · cases acted
          exact .ended call _ _ running rfl fun _ same => nomatch same
  | cancel =>
      obtain ⟨call, running, acted⟩ := Option.bind_eq_some_iff.mp acted
      split at acted
      · cases acted
        exact .adjust _ call _ running rfl rfl rfl fun _ timedOut same => ⟨timedOut, same⟩
      · cases acted
        exact .same
  | globalTimeout =>
      obtain ⟨call, running, acted⟩ := Option.bind_eq_some_iff.mp acted
      split at acted
      · cases acted
        exact .adjust _ call _ running rfl rfl rfl fun _ timedOut same => ⟨timedOut, same⟩
      · cases acted
        exact .same

/-- An orderly step of the system is a step of a node that is no client's call, the handling of a call
that its client waits for, or a step of a client. -/
inductive Stepped (s : System M n) : System M n → Prop where
  | node (stop : Option Nat) (action : Action (raftService M n)) (d : RaftCluster M n)
      (inOrder : s.cluster.InOrder action) (other : ∀ i request, action ≠ .execute i request)
      (taken : s.cluster.step stop action = some d) : Stepped s { s with cluster := d }
  | handle (stop : Option Nat) (sent : ExecuteCall M.Cmd n) (d : RaftCluster M n) (member : sent ∈ s.executeCalls)
      (waits : (s.clients sent.client).calling = some sent.seq)
      (taken : s.cluster.step stop (.execute sent.callee sent.request) = some d) :
      Stepped s { s with cluster := d, handledCalls := s.handledCalls ++ [(sent, s.cluster.clock)] }
  | client (id : Nat) (t : System M n) (moved : Moved s id t) : Stepped s t.tick

/-- Every step is one of a client, or of the nodes. -/
theorem Next.stepped (next : s.Next t) : Stepped s t := by
  obtain ⟨action, orderly, stepped⟩ := next
  cases action with
  | node stop action =>
      have other : ∀ i request, action ≠ .execute i request := by
        rintro i request rfl
        cases stepped
      have taken : (s.cluster.step stop action).map (fun cluster => { s with cluster := cluster }) = some t := by
        cases action
        case execute i request => exact absurd rfl (other i request)
        all_goals exact stepped
      obtain ⟨d, moved, rfl⟩ := Option.map_eq_some_iff.mp taken
      exact .node stop action d orderly other moved
  | handleExecute stop place =>
      obtain ⟨sent, found, stepped⟩ := Option.bind_eq_some_iff.mp stepped
      obtain ⟨d, moved, stepped⟩ := Option.bind_eq_some_iff.mp stepped
      cases stepped
      exact .handle stop sent d (List.mem_of_getElem? found) (orderly sent found).1 moved
  | client id action =>
      obtain ⟨u, acted, rfl⟩ := Option.map_eq_some_iff.mp stepped
      exact .client id u (actClient_moved orderly acted)

/-- A new attempt sends its request to the current leader. -/
theorem startAttempt_eq {call : ApplyCall M.Cmd} (started : s.startAttempt id call = some t) :
    ∃ callee, t = { s.setClient id
        { s.clients id with
          issued := (s.clients id).issued + 1
          call := some { call with fiber := .startAttempt (s.clients id).issued false } } with
      executeCalls := s.executeCalls ++ [⟨id, (s.clients id).issued, callee, call.request⟩] } := by
  simp only [startAttempt] at started
  split at started
  · cases started
    exact ⟨_, rfl⟩
  · cases started

/-- The rpcs and the calls of one client. -/
structure ClientOk (s : System M n) (id : Nat) : Prop where
  numbered : ∀ sent ∈ s.executeCalls, sent.client = id → sent.seq < (s.clients id).issued
  waiting : ∀ call seq timedOut, (s.clients id).call = some call → call.fiber = .startAttempt seq timedOut →
    ∀ sent ∈ s.executeCalls, sent.client = id → sent.seq = seq → sent.request = call.request
  running : ∀ call, (s.clients id).call = some call → call.request.clientId = id ∧
    (∃ record ∈ s.issued, record.request = call.request) ∧ ∀ ret ∈ s.returned, ret.request ≠ call.request
  ended : ∀ record ∈ s.issued, record.request.clientId = id →
    (∃ call, (s.clients id).call = some call ∧ call.request = record.request) ∨
      ∃ ret ∈ s.returned, ret.request = record.request

/-- Only other clients have sent or returned something. -/
structure Unconcerned (s t : System M n) (id : Nat) : Prop where
  calls : ∀ sent ∈ t.executeCalls, sent.client = id → sent ∈ s.executeCalls
  issued : ∀ record ∈ t.issued, record.request.clientId = id → record ∈ s.issued
  issuedGrow : s.issued <+: t.issued
  returned : ∀ ret ∈ t.returned, ret.request.clientId = id → ret ∈ s.returned
  returnedGrow : s.returned <+: t.returned

/-- A step that issues and returns nothing concerns nobody. -/
theorem Unconcerned.quiet (issued : t.issued = s.issued) (returned : t.returned = s.returned)
    (calls : ∀ sent ∈ t.executeCalls, sent.client = id → sent ∈ s.executeCalls) : Unconcerned s t id where
  calls := calls
  issued _ member _ := issued ▸ member
  issuedGrow := issued ▸ List.prefix_rfl
  returned _ member _ := returned ▸ member
  returnedGrow := returned ▸ List.prefix_rfl

/-- A client whose call keeps its request. -/
theorem ClientOk.adjust (ok : ClientOk s id) (unconcerned : Unconcerned s t id)
    (issued : (t.clients id).issued = (s.clients id).issued)
    (kept : ∀ call, (t.clients id).call = some call → ∃ before, (s.clients id).call = some before ∧
      call.request = before.request ∧ ∀ seq timedOut, call.fiber = .startAttempt seq timedOut →
        ∃ earlier, before.fiber = .startAttempt seq earlier)
    (goesOn : ∀ call, (s.clients id).call = some call → ∃ next, (t.clients id).call = some next ∧
      next.request = call.request) : ClientOk t id where
  numbered sent member own := by
    rw [issued]
    exact ok.numbered sent (unconcerned.calls sent member own) own
  waiting call seq timedOut waits fiber sent member own same := by
    obtain ⟨before, running, request, earlier⟩ := kept call waits
    obtain ⟨flag, fiberBefore⟩ := earlier seq timedOut fiber
    rw [request]
    exact ok.waiting before seq flag running fiberBefore sent (unconcerned.calls sent member own) own same
  running call waits := by
    obtain ⟨before, running, request, _⟩ := kept call waits
    obtain ⟨own, ⟨record, member, same⟩, open_⟩ := ok.running before running
    rw [request]
    refine ⟨own, ⟨record, unconcerned.issuedGrow.subset member, same⟩, fun ret present equal => ?_⟩
    exact open_ ret (unconcerned.returned ret present (by rw [equal]; exact own)) equal
  ended record member own := by
    rcases ok.ended record (unconcerned.issued record member own) own with ⟨call, running, same⟩ | ⟨ret, present, same⟩
    · obtain ⟨next, later, request⟩ := goesOn call running
      exact Or.inl ⟨next, later, request.trans same⟩
    · exact Or.inr ⟨ret, unconcerned.returnedGrow.subset present, same⟩

/-- A client that is not concerned stays as it should. -/
theorem ClientOk.other (ok : ClientOk s id) (unconcerned : Unconcerned s t id)
    (client : t.clients id = s.clients id) : ClientOk t id := by
  refine ok.adjust unconcerned (by rw [client]) (fun call waits => ?_)
    fun call waits => ⟨call, by rw [client]; exact waits, rfl⟩
  rw [client] at waits
  exact ⟨call, waits, rfl, fun _ timedOut fiber => ⟨timedOut, fiber⟩⟩

/-- A client that sends an attempt knows the call it belongs to. -/
theorem ClientOk.startAttempt {call : ApplyCall M.Cmd} (numbered : ∀ sent ∈ s.executeCalls, sent.client = id →
      sent.seq < (s.clients id).issued)
    (own : call.request.clientId = id) (issued : ∃ record ∈ s.issued, record.request = call.request)
    (open_ : ∀ ret ∈ s.returned, ret.request ≠ call.request)
    (ended : ∀ record ∈ s.issued, record.request.clientId = id → call.request = record.request ∨
      ∃ ret ∈ s.returned, ret.request = record.request)
    (started : s.startAttempt id call = some t) : ClientOk t id := by
  obtain ⟨callee, rfl⟩ := startAttempt_eq started
  have client : (s.setClient id
      { s.clients id with
        issued := (s.clients id).issued + 1
        call := some { call with fiber := .startAttempt (s.clients id).issued false } }).clients id =
      { s.clients id with
        issued := (s.clients id).issued + 1
        call := some { call with fiber := .startAttempt (s.clients id).issued false } } := Function.update_self ..
  constructor
  · intro sent member same
    dsimp only at member ⊢
    rw [client]
    rcases List.mem_append.mp member with old | new
    · exact Nat.lt_succ_of_lt (numbered sent old same)
    · rw [List.mem_singleton.mp new]
      exact Nat.lt_succ_self _
  · intro next seq timedOut waits fiber sent member same number
    dsimp only at member waits
    rw [client] at waits
    cases waits
    cases fiber
    rcases List.mem_append.mp member with old | new
    · have below := numbered sent old same
      omega
    · rw [List.mem_singleton.mp new]
  · intro next waits
    dsimp only at waits
    rw [client] at waits
    cases waits
    exact ⟨own, issued, open_⟩
  · intro record member same
    rcases ended record member same with equal | returned
    · refine Or.inl ⟨{ call with fiber := .startAttempt (s.clients id).issued false }, ?_, equal⟩
      dsimp only
      rw [client]
    · exact Or.inr returned

/-- A request is in the window of its `Apply` at a time. -/
structure InWindow (s : System M n) (request : Request M.Cmd) (time : Nat) : Prop where
  issued : ∃ record ∈ s.issued, record.request = request ∧ record.time < time
  open_ : ∀ ret ∈ s.returned, ret.request = request → time < ret.time

/-- The calls of one client come one after the other with different ids. -/
def Follows (s : System M n) (first second : Issued M.Cmd) : Prop :=
  first.time < second.time ∧ (first.request.clientId = second.request.clientId →
    first.request.requestId ≠ second.request.requestId ∧
      ∃ ret ∈ s.returned, ret.request = first.request ∧ ret.time < second.time)

/-- Everything that orderly steps keep. -/
structure SystemOk (s : System M n) : Prop where
  fresh : s.cluster.Fresh
  clients : ∀ id, ClientOk s id
  issued : ∀ record ∈ s.issued, record.time < s.cluster.clock ∧ record.request.requestId ≠ 0
  returned : ∀ ret ∈ s.returned, ret.time < s.cluster.clock ∧ ∃ record ∈ s.issued, record.request = ret.request
  sequential : s.issued.Pairwise s.Follows
  created : ∀ record ∈ s.cluster.created, record.tag = record.time ∧ s.InWindow record.entry.request record.time
  handled : ∀ handled ∈ s.handledCalls, handled.1 ∈ s.executeCalls ∧ handled.2 < s.cluster.clock
  tags : ∀ record ∈ s.cluster.created, ∀ handled ∈ s.handledCalls, record.tag = handled.2 →
    record.entry.request = handled.1.request
  answered : ∀ ret ∈ s.returned, ∀ value, ret.result = .ok value → ∃ handled ∈ s.handledCalls,
    handled.1.request = ret.request ∧ ∃ answer ∈ s.cluster.answered, answer.tag = handled.2 ∧
      answer.response.status = .commited ∧ answer.response.result = value

/-- No client has called yet. -/
theorem SystemOk.initial (M : StateMachine) (n : Nat) : SystemOk (System.initial M n) where
  fresh := Cluster.fresh_initial _
  clients id := by constructor <;> simp [System.initial]
  issued _ member := absurd member List.not_mem_nil
  returned _ member := absurd member List.not_mem_nil
  sequential := .nil
  created _ member := absurd member List.not_mem_nil
  handled _ member := absurd member List.not_mem_nil
  tags _ member := absurd member List.not_mem_nil
  answered _ member := absurd member List.not_mem_nil

/-- Steps that call and return nothing. -/
theorem SystemOk.later (ok : SystemOk s) (fresh : t.cluster.Fresh) (clients : ∀ id, ClientOk t id)
    (clock : s.cluster.clock ≤ t.cluster.clock) (issued : t.issued = s.issued) (returned : t.returned = s.returned)
    (calls : s.executeCalls <+: t.executeCalls) (handled : t.handledCalls = s.handledCalls)
    (created : t.cluster.created = s.cluster.created) (answered : s.cluster.answered <+: t.cluster.answered) :
    SystemOk t where
  fresh := fresh
  clients := clients
  issued record member := by
    obtain ⟨time, nonzero⟩ := ok.issued record (issued ▸ member)
    exact ⟨time.trans_le clock, nonzero⟩
  returned ret member := by
    obtain ⟨time, known⟩ := ok.returned ret (returned ▸ member)
    exact ⟨time.trans_le clock, issued ▸ known⟩
  sequential := by
    rw [issued]
    refine ok.sequential.imp fun follows => ?_
    rw [Follows, returned]
    exact follows
  created record member := by
    obtain ⟨tag, called, window⟩ := ok.created record (created ▸ member)
    exact ⟨tag, issued ▸ called, returned ▸ window⟩
  handled call member := by
    obtain ⟨sent, time⟩ := ok.handled call (handled ▸ member)
    exact ⟨calls.subset sent, time.trans_le clock⟩
  tags record member call present := ok.tags record (created ▸ member) call (handled ▸ present)
  answered ret member value result := by
    obtain ⟨call, present, request, answer, given, rest⟩ := ok.answered ret (returned ▸ member) value result
    exact ⟨call, handled ▸ present, request, answer, answered.subset given, rest⟩

/-- The rpc that a client waits for carries its request. -/
theorem SystemOk.calling (ok : SystemOk s) {sent : ExecuteCall M.Cmd n} (member : sent ∈ s.executeCalls)
    (waits : (s.clients sent.client).calling = some sent.seq) :
    (∃ record ∈ s.issued, record.request = sent.request) ∧ ∀ ret ∈ s.returned, ret.request ≠ sent.request := by
  unfold RaftClient.calling at waits
  split at waits
  · rename_i request retryCount state attemptId seq timedOut running
    cases waits
    have same := (ok.clients _).waiting _ _ timedOut running rfl sent member rfl rfl
    rw [same]
    exact ((ok.clients _).running _ running).2
  · cases waits

/-- A node's step. -/
theorem SystemOk.node (ok : SystemOk s) {stop : Option Nat} {action : Action (raftService M n)} {d : RaftCluster M n}
    (stepped : s.cluster.step stop action = some d) (other : ∀ i request, action ≠ .execute i request) :
    SystemOk { s with cluster := d } := by
  obtain ⟨extended, clock, fresh⟩ := Cluster.step_later ok.fresh stepped
  exact ok.later fresh (fun id => (ok.clients id).other (.quiet rfl rfl fun _ member _ => member) rfl) clock.le rfl rfl
    List.prefix_rfl rfl (Cluster.step_created ok.fresh stepped other) extended.answered

/-- A node handles a call while its client waits for it. -/
theorem SystemOk.handleExecute (ok : SystemOk s) {stop : Option Nat} {sent : ExecuteCall M.Cmd n} {d : RaftCluster M n}
    (member : sent ∈ s.executeCalls) (waits : (s.clients sent.client).calling = some sent.seq)
    (stepped : s.cluster.step stop (.execute sent.callee sent.request) = some d) :
    SystemOk { s with cluster := d, handledCalls := s.handledCalls ++ [(sent, s.cluster.clock)] } := by
  obtain ⟨extended, clock, fresh⟩ := Cluster.step_later ok.fresh stepped
  obtain ⟨issued, open_⟩ := ok.calling member waits
  -- A new entry is made for the handled call at this moment.
  have new {record : Created (raftService M n)} (present : record ∈ d.created) : record ∈ s.cluster.created ∨
      record.tag = s.cluster.clock ∧ record.time = s.cluster.clock ∧ record.entry.request = sent.request := by
    rcases Cluster.execute_created stepped with same | ⟨made, longer, tag, time, _, _, entry⟩
    · exact Or.inl (same ▸ present)
    · rw [longer] at present
      rcases List.mem_append.mp present with old | last
      · exact Or.inl old
      · rw [List.mem_singleton.mp last]
        refine Or.inr ⟨tag, time, ?_⟩
        rw [← (Prod.mk.inj (Sum.inr.inj entry)).1]
  refine ⟨fresh, fun id => (ok.clients id).other (.quiet rfl rfl fun _ member _ => member) rfl, fun record present => ?_,
    fun ret present => ?_, ok.sequential, fun record present => ?_, fun handled present => ?_,
    fun record present handled among tag => ?_, fun ret present value result => ?_⟩
  · obtain ⟨time, nonzero⟩ := ok.issued record present
    exact ⟨time.trans clock, nonzero⟩
  · obtain ⟨time, known⟩ := ok.returned ret present
    exact ⟨time.trans clock, known⟩
  · rcases new present with old | ⟨tag, time, request⟩
    · obtain ⟨tag, called, window⟩ := ok.created record old
      exact ⟨tag, called, window⟩
    · rw [tag, time, request]
      obtain ⟨call, among, same⟩ := issued
      exact ⟨rfl, ⟨call, among, same, (ok.issued call among).1⟩, fun ret among equal => absurd equal (open_ ret among)⟩
  · rcases List.mem_append.mp present with old | last
    · obtain ⟨known, time⟩ := ok.handled handled old
      exact ⟨known, time.trans clock⟩
    · rw [List.mem_singleton.mp last]
      exact ⟨member, clock⟩
  · rcases List.mem_append.mp among with old | last
    · rcases new present with known | ⟨made, _⟩
      · exact ok.tags record known handled old tag
      · have time := (ok.handled handled old).2
        rw [← tag, made] at time
        exact absurd time (Nat.lt_irrefl _)
    · rw [List.mem_singleton.mp last] at tag ⊢
      rcases new present with known | ⟨_, _, request⟩
      · have time := ok.fresh record known
        rw [← (ok.created record known).1, tag] at time
        exact absurd time (Nat.lt_irrefl _)
      · exact request
  · obtain ⟨handled, among, request, answer, given, rest⟩ := ok.answered ret present value result
    exact ⟨handled, List.mem_append_left _ among, request, answer, extended.answered.subset given, rest⟩

/-- `Apply` returns. -/
theorem SystemOk.applyEnd (ok : SystemOk s) {call next : ApplyCall M.Cmd} {result : Except RaftClientError M.Res}
    (running : (s.clients id).call = some call) (request : next.request = call.request)
    (answered : ∀ value, result = .ok value → ∃ seq timedOut answer, call.fiber = .startAttempt seq timedOut ∧
      answer ∈ s.cluster.answered ∧ s.Answers id seq answer ∧ answer.response.status = .commited ∧
      answer.response.result = value) : SystemOk (s.applyEnd id next result).tick := by
  obtain ⟨own, issued, open_⟩ := (ok.clients id).running call running
  have longer : s.returned <+: (s.applyEnd id next result).returned := List.prefix_append ..
  have new {ret : Returned M} (member : ret ∈ (s.applyEnd id next result).returned) : ret ∈ s.returned ∨
      ret = ⟨next.request, applyResult next.state result, s.cluster.clock⟩ :=
    (List.mem_append.mp member).imp (fun old => old) List.mem_singleton.mp
  refine ⟨fun record member => Nat.lt_succ_of_lt (ok.fresh record member), fun other => ?_, fun record member => ?_,
    fun ret member => ?_, ?_, fun record member => ?_, fun handled member => ?_, ok.tags, fun ret member value ended => ?_⟩
  · by_cases here : other = id
    · subst here
      have client : (s.applyEnd other next result).tick.clients other = { s.clients other with call := none } :=
        Function.update_self ..
      refine ⟨fun sent member same => ?_, fun _ _ _ waits => ?_, fun _ waits => ?_, fun record member same => ?_⟩
      · rw [client]
        exact (ok.clients other).numbered sent member same
      · rw [client] at waits
        cases waits
      · rw [client] at waits
        cases waits
      · right
        rcases (ok.clients other).ended record member same with ⟨before, waits, equal⟩ | ⟨ret, present, equal⟩
        · cases running.symm.trans waits
          exact ⟨_, List.mem_append_right _ List.mem_cons_self, request.trans equal⟩
        · exact ⟨ret, longer.subset present, equal⟩
    · refine (ok.clients other).other ⟨fun _ member _ => member, fun _ member _ => member, List.prefix_rfl,
        fun ret member same => ?_, longer⟩ (Function.update_of_ne here ..)
      rcases new member with old | rfl
      · exact old
      · exact absurd ((request ▸ same : call.request.clientId = other).symm.trans own) here
  · obtain ⟨time, nonzero⟩ := ok.issued record member
    exact ⟨Nat.lt_succ_of_lt time, nonzero⟩
  · rcases new member with old | rfl
    · obtain ⟨time, known⟩ := ok.returned ret old
      exact ⟨Nat.lt_succ_of_lt time, known⟩
    · exact ⟨Nat.lt_succ_self _, request ▸ issued⟩
  · refine ok.sequential.imp fun follows => ⟨follows.1, fun same => ?_⟩
    obtain ⟨different, ret, present, rest⟩ := follows.2 same
    exact ⟨different, ret, longer.subset present, rest⟩
  · obtain ⟨tag, called, window⟩ := ok.created record member
    refine ⟨tag, called, fun ret present equal => ?_⟩
    rcases new present with old | rfl
    · exact window ret old equal
    · exact ok.fresh record member
  · obtain ⟨sent, time⟩ := ok.handled handled member
    exact ⟨sent, Nat.lt_succ_of_lt time⟩
  · rcases new member with old | rfl
    · exact ok.answered ret old value ended
    · have given : result = .ok value := by
        unfold applyResult at ended
        split at ended
        · cases ended
        · cases ended
        · exact ended
      obtain ⟨seq, timedOut, answer, fiber, among, ⟨handled, present, client, number, _, tag⟩, status, value⟩ :=
        answered value given
      refine ⟨handled, present, ?_, answer, among, tag.symm, status, value⟩
      exact ((ok.clients id).waiting call seq timedOut running fiber handled.1 (ok.handled handled present).1 client
        number).trans request.symm

/-- `Apply` is called. -/
theorem SystemOk.apply (ok : SystemOk s) {call : ApplyCall M.Cmd} (idle : (s.clients id).call = none)
    (own : call.request.clientId = id) (nonzero : call.request.requestId ≠ 0)
    (unused : ∀ record ∈ s.issued, record.request.clientId = id → record.request.requestId ≠ call.request.requestId)
    (started : (s.noteIssued call.request).startAttempt id call = some t) : SystemOk t.tick := by
  have ended {record : Issued M.Cmd} (member : record ∈ s.issued) (same : record.request.clientId = id) :
      ∃ ret ∈ s.returned, ret.request = record.request := by
    rcases (ok.clients id).ended record member same with ⟨before, waits, _⟩ | ended
    · rw [idle] at waits
      cases waits
    · exact ended
  have open_ : ∀ ret ∈ s.returned, ret.request ≠ call.request := by
    intro ret member same
    obtain ⟨_, record, present, equal⟩ := ok.returned ret member
    rw [same] at equal
    exact unused record present (by rw [equal]; exact own) (by rw [equal])
  have here : ClientOk t id := by
    have before : ∀ record ∈ (s.noteIssued call.request).issued, record.request.clientId = id →
        call.request = record.request ∨ ∃ ret ∈ s.returned, ret.request = record.request := by
      intro record member same
      rcases List.mem_append.mp member with old | new
      · exact Or.inr (ended old same)
      · rw [List.mem_singleton.mp new]
        exact Or.inl rfl
    refine ClientOk.startAttempt (s := s.noteIssued call.request) (ok.clients id).numbered own ?_ open_ before started
    exact ⟨⟨call.request, s.cluster.clock⟩, List.mem_append_right _ List.mem_cons_self, rfl⟩
  obtain ⟨callee, rfl⟩ := startAttempt_eq started
  refine ⟨fun record member => Nat.lt_succ_of_lt (ok.fresh record member), fun other => ?_, fun record member => ?_,
    fun ret member => ?_, ?_, fun record member => ?_, fun handled member => ?_, ok.tags, ok.answered⟩
  · by_cases self : other = id
    · subst self
      exact here.other (.quiet rfl rfl fun _ member _ => member) rfl
    · refine (ok.clients other).other ⟨fun sent member same => ?_, fun record member same => ?_,
        List.prefix_append .., fun _ member _ => member, List.prefix_rfl⟩ (Function.update_of_ne self ..)
      · rcases List.mem_append.mp member with old | new
        · exact old
        · rw [List.mem_singleton.mp new] at same
          exact absurd same.symm self
      · rcases List.mem_append.mp member with old | new
        · exact old
        · rw [List.mem_singleton.mp new] at same
          exact absurd (same.symm.trans own) self
  · rcases List.mem_append.mp member with old | new
    · obtain ⟨time, known⟩ := ok.issued record old
      exact ⟨Nat.lt_succ_of_lt time, known⟩
    · rw [List.mem_singleton.mp new]
      exact ⟨Nat.lt_succ_self _, nonzero⟩
  · obtain ⟨time, record, present, same⟩ := ok.returned ret member
    exact ⟨Nat.lt_succ_of_lt time, record, List.mem_append_left _ present, same⟩
  · refine List.pairwise_append.mpr ⟨ok.sequential, List.pairwise_singleton .., fun first old second new => ?_⟩
    rw [List.mem_singleton.mp new]
    refine ⟨(ok.issued first old).1, fun same => ⟨unused first old (same.trans own), ?_⟩⟩
    obtain ⟨ret, present, request⟩ := ended old (same.trans own)
    exact ⟨ret, present, request, (ok.returned ret present).1⟩
  · obtain ⟨tag, ⟨called, among, rest⟩, window⟩ := ok.created record member
    exact ⟨tag, ⟨called, List.mem_append_left _ among, rest⟩, window⟩
  · obtain ⟨sent, time⟩ := ok.handled handled member
    exact ⟨List.mem_append_left _ sent, Nat.lt_succ_of_lt time⟩

/-- A client's step. -/
theorem SystemOk.moved (ok : SystemOk s) (moved : Moved s id t) : SystemOk t.tick := by
  have fresh : ∀ record ∈ s.cluster.created, record.time < s.cluster.clock + 1 :=
    fun record member => Nat.lt_succ_of_lt (ok.fresh record member)
  cases moved with
  | same =>
      exact ok.later fresh (fun other => (ok.clients other).other (.quiet rfl rfl fun _ member _ => member) rfl)
        (Nat.le_succ _) rfl rfl List.prefix_rfl rfl rfl List.prefix_rfl
  | adjust client call next running issued goesOn request fiber =>
      refine ok.later fresh (fun other => ?_) (Nat.le_succ _) rfl rfl List.prefix_rfl rfl rfl List.prefix_rfl
      by_cases self : other = id
      · subst self
        have changed : (s.setClient other client).tick.clients other = client := Function.update_self ..
        refine (ok.clients other).adjust (.quiet rfl rfl fun _ member _ => member) (by rw [changed]; exact issued)
          (fun later waits => ?_) fun before waits => ?_
        · rw [changed, goesOn] at waits
          cases waits
          exact ⟨call, running, request, fiber⟩
        · cases running.symm.trans waits
          exact ⟨next, by rw [changed]; exact goesOn, request⟩
      · exact (ok.clients other).other (.quiet rfl rfl fun _ member _ => member) (Function.update_of_ne self ..)
  | attempt t call next running request started =>
      obtain ⟨own, issued, open_⟩ := (ok.clients id).running call running
      have here : ClientOk t id := by
        refine ClientOk.startAttempt (ok.clients id).numbered (request ▸ own) (request ▸ issued) (request ▸ open_)
          (fun record member same => ?_) started
        rcases (ok.clients id).ended record member same with ⟨before, waits, equal⟩ | ended
        · cases running.symm.trans waits
          exact Or.inl (request.trans equal)
        · exact Or.inr ended
      obtain ⟨callee, rfl⟩ := startAttempt_eq started
      refine ok.later fresh (fun other => ?_) (Nat.le_succ _) rfl rfl (List.prefix_append ..) rfl rfl List.prefix_rfl
      by_cases self : other = id
      · subst self
        exact here.other (.quiet rfl rfl fun _ member _ => member) rfl
      · refine (ok.clients other).other (.quiet rfl rfl fun sent member same => ?_) (Function.update_of_ne self ..)
        rcases List.mem_append.mp member with old | new
        · exact old
        · rw [List.mem_singleton.mp new] at same
          exact absurd same.symm self
  | ended call next result running request answered => exact ok.applyEnd running request answered
  | apply t call idle own unused started => exact ok.apply idle own unused.1 unused.2 started

/-- Every orderly step keeps the invariant. -/
theorem SystemOk.next (ok : SystemOk s) (next : s.Next t) : SystemOk t := by
  cases next.stepped with
  | node stop action d _ other taken => exact ok.node taken other
  | handle stop sent d member waits taken => exact ok.handleExecute member waits taken
  | client id t moved => exact ok.moved moved

/-- The invariant of clients and nodes holds in every run. -/
theorem Run.systemOk (run : Run (System.initial M n) s) : SystemOk s := by
  induction run with
  | refl => exact .initial M n
  | tail _ last ih => exact ih.next last

end System

end Metamorphosis
