import Metamorphosis.Library.Script
import Metamorphosis.Proof.Clients.Windows

/-!
The attempts of `RaftClient::Apply`. The client goes through the nodes in a circle until one of them answers.
-/

namespace Metamorphosis

/-- The nodes that are reached from `start` by going on to the next one. -/
def roundRobin (n start count : Nat) : List Nat := (List.range count).map fun k => (start + k) % n

/-- One more node in the circle. -/
theorem roundRobin_succ (n start count : Nat) :
    roundRobin n start (count + 1) = roundRobin n start count ++ [(start + count) % n] := by
  simp [roundRobin, List.range_succ]

/-- A whole circle reaches every node. -/
theorem mem_roundRobin {n start count : Nat} (circle : n ≤ count) (node : Fin n) : node.val ∈ roundRobin n start count := by
  have positive : 0 < n := node.pos
  have below := Nat.mod_lt start positive
  have shift := Nat.mod_add_div start n
  refine List.mem_map.mpr ⟨(node.val + (n - start % n)) % n, ?_, ?_⟩
  · exact List.mem_range.mpr ((Nat.mod_lt _ positive).trans_le circle)
  · rw [Nat.add_mod_mod, ← Nat.mod_add_mod]
    have sum : start % n + (node.val + (n - start % n)) = node.val + n := by omega
    rw [sum, Nat.add_mod_right, Nat.mod_eq_of_lt node.isLt]

/-- Some nodes were tried in a circle, and `next` comes after them. -/
def InTurn {n : Nat} (nodes : List (Fin n)) (next : Nat) : Prop :=
  ∃ start, nodes.map Fin.val = roundRobin n start nodes.length ∧ next % n = (start + nodes.length) % n

namespace InTurn
variable {n next : Nat} {nodes : List (Fin n)}

theorem nil (next : Nat) : InTurn ([] : List (Fin n)) next := ⟨next, rfl, rfl⟩

/-- The next node is tried. -/
theorem snoc (turn : InTurn nodes next) (present : next < n) : InTurn (nodes ++ [⟨next, present⟩]) (next + 1) := by
  obtain ⟨start, tried, place⟩ := turn
  rw [Nat.mod_eq_of_lt present] at place
  refine ⟨start, ?_, ?_⟩
  · rw [List.length_append, List.length_singleton, roundRobin_succ, List.map_append, tried, ← place]
    rfl
  · rw [List.length_append, List.length_singleton, ← Nat.add_assoc, ← Nat.mod_add_mod (start + nodes.length), ← place]

/-- Only the place of the next node in the circle matters. -/
theorem congr {other : Nat} (turn : InTurn nodes next) (same : other % n = next % n) : InTurn nodes other := by
  obtain ⟨start, tried, place⟩ := turn
  exact ⟨start, tried, same.trans place⟩

end InTurn

/-- The node after the last one that was tried, where the client stands at `leader`. -/
def ApplyFiber.next (leader : Nat) : ApplyFiber → Nat
  | .startAttempt .. => leader + 1
  | .backoff _ => leader

/-- A call has tried as many nodes as it has counted, one after the other. -/
structure ApplyCall.Tries {Cmd : Type} {n : Nat} (call : ApplyCall Cmd) (leader : Nat) (nodes : List (Fin n)) :
    Prop where
  bound : call.attemptId ≤ call.retryCount
  count : nodes.length = call.attemptId + 1
  turn : InTurn nodes (call.fiber.next leader)

namespace System
variable {M : StateMachine} {n : Nat} {s t : System M n} {id : Nat}

/-- The nodes to which a request was sent. -/
def attempts (s : System M n) (request : Request M.Cmd) : List (Fin n) :=
  (s.executeCalls.filter fun sent => sent.request = request).map ExecuteCall.callee

/-- A client takes a new request id for every call. -/
def FreshRequestIds (s : System M n) : SystemAction M n → Prop
  | .client id (.apply requestId _ _) => ∀ record ∈ s.issued, record.request.clientId = id →
      record.request.requestId ≠ requestId
  | _ => True

instance (s : System M n) : ∀ action, Decidable (s.FreshRequestIds action)
  | .client id (.apply requestId _ _) => inferInstanceAs (Decidable (∀ record ∈ s.issued,
      record.request.clientId = id → record.request.requestId ≠ requestId))
  | .node .. | .handleExecute .. | .client _ .rpcTimeout | .client _ (.executeFailed _) | .client _ (.executeAnswered _)
  | .client _ .backoffEnd | .client _ .cancel | .client _ .globalTimeout => isTrue trivial

/-- The request belongs to a call that the client has made and that has not returned. -/
structure Open (s : System M n) (id : Nat) (request : Request M.Cmd) : Prop where
  own : request.clientId = id
  issued : ∃ record ∈ s.issued, record.request = request
  unreturned : ∀ ret ∈ s.returned, ret.request ≠ request

/-- Only requests of calls are sent and returned, and every call goes through the nodes in turn. -/
structure Trying (s : System M n) : Prop where
  sent : ∀ sent ∈ s.executeCalls, ∃ record ∈ s.issued, record.request = sent.request
  returned : ∀ ret ∈ s.returned, ∃ record ∈ s.issued, record.request = ret.request
  running : ∀ id call, (s.clients id).call = some call → s.Open id call.request
  calls : ∀ id call, (s.clients id).call = some call →
    call.Tries (s.clients id).currentLeader (s.attempts call.request)

/-- Nothing is sent or returned, and a call that goes on has the same node next. -/
theorem Trying.adjust (trying : s.Trying) (same : t.executeCalls = s.executeCalls) (ended : t.returned = s.returned)
    (issued : s.issued <+: t.issued)
    (kept : ∀ id call, (t.clients id).call = some call → ∃ before, (s.clients id).call = some before ∧
      call.request = before.request ∧ call.attemptId = before.attemptId ∧ call.retryCount = before.retryCount ∧
      call.fiber.next (t.clients id).currentLeader % n = before.fiber.next (s.clients id).currentLeader % n) :
    t.Trying where
  sent rpc member := by
    rw [same] at member
    obtain ⟨record, old, request⟩ := trying.sent rpc member
    exact ⟨record, issued.subset old, request⟩
  returned ret member := by
    rw [ended] at member
    obtain ⟨record, old, request⟩ := trying.returned ret member
    exact ⟨record, issued.subset old, request⟩
  running id call running := by
    obtain ⟨before, ran, request, _⟩ := kept id call running
    obtain ⟨own, ⟨record, old, made⟩, unreturned⟩ := trying.running id before ran
    rw [request]
    exact ⟨own, ⟨record, issued.subset old, made⟩, by rw [ended]; exact unreturned⟩
  calls id call running := by
    obtain ⟨before, ran, request, attemptId, retryCount, next⟩ := kept id call running
    have tries := trying.calls id before ran
    have attempts : t.attempts call.request = s.attempts before.request := by rw [System.attempts, same, request]; rfl
    exact ⟨by rw [attemptId, retryCount]; exact tries.bound, by rw [attempts, attemptId]; exact tries.count,
      by rw [attempts]; exact tries.turn.congr next⟩

/-- What a client's call may change without sending anything. -/
theorem Trying.setClient (trying : s.Trying) {client : RaftClient M.Cmd} (kept : ∀ call, client.call = some call →
      ∃ before, (s.clients id).call = some before ∧
        call.request = before.request ∧ call.attemptId = before.attemptId ∧ call.retryCount = before.retryCount ∧
        call.fiber.next client.currentLeader % n = before.fiber.next (s.clients id).currentLeader % n) :
    (s.setClient id client).Trying := by
  refine trying.adjust rfl rfl List.prefix_rfl fun other call running => ?_
  by_cases same : other = id
  · subst same
    simp only [System.setClient, Function.update_self] at running ⊢
    exact kept call running
  · simp only [System.setClient, Function.update_of_ne same] at running ⊢
    exact ⟨call, running, rfl, rfl, rfl, rfl⟩

/-- Time goes on. -/
theorem Trying.tick (trying : s.Trying) : s.tick.Trying :=
  ⟨trying.sent, trying.returned, fun id call waits => ⟨(trying.running id call waits).own,
    (trying.running id call waits).issued, (trying.running id call waits).unreturned⟩, trying.calls⟩

/-- Calls of different clients have different requests. -/
theorem Trying.other (trying : s.Trying) {request : Request M.Cmd} (own : request.clientId = id) {other : Nat}
    {running : ApplyCall M.Cmd} (different : other ≠ id) (waits : (s.clients other).call = some running) :
    running.request ≠ request := by
  rintro rfl
  exact different ((trying.running other running waits).own.symm.trans own)

/-- A failed attempt moves the client on to the next node. -/
theorem Trying.attemptFailed (trying : s.Trying) {call : ApplyCall M.Cmd} {error : RaftClientError} {seq : Nat}
    {timedOut : Bool} (running : (s.clients id).call = some call) (fiber : call.fiber = .startAttempt seq timedOut) :
    (s.attemptFailed id call error).Trying := by
  refine trying.setClient fun next goesOn => ?_
  cases goesOn
  refine ⟨call, running, rfl, rfl, rfl, ?_⟩
  rw [fiber]
  exact Nat.mod_mod _ n

/-- A call returns. -/
theorem Trying.applyEnd (trying : s.Trying) {call : ApplyCall M.Cmd} {result : Except RaftClientError M.Res}
    (runs : s.Open id call.request) : (s.applyEnd id call result).Trying := by
  have ended : (s.setClient id { s.clients id with call := none }).Trying := trying.setClient (by rintro call ⟨⟩)
  refine ⟨ended.sent, ?_, ?_, ended.calls⟩
  · intro ret member
    rcases List.mem_append.mp member with old | new
    · exact trying.returned ret old
    · cases List.mem_singleton.mp new
      exact runs.issued
  · intro other running waits
    have still := ended.running other running waits
    have different : other ≠ id := by
      rintro rfl
      simp [System.applyEnd, System.setClient] at waits
    refine ⟨still.own, still.issued, fun ret member => ?_⟩
    rcases List.mem_append.mp member with old | new
    · exact still.unreturned ret old
    · cases List.mem_singleton.mp new
      intro same
      exact different (still.own.symm.trans ((congrArg Request.clientId same).symm.trans runs.own))

/-- A new attempt tries the next node. -/
theorem Trying.startAttempt (trying : s.Trying) {call : ApplyCall M.Cmd} (started : s.startAttempt id call = some t)
    (runs : s.Open id call.request) (bound : call.attemptId ≤ call.retryCount)
    (count : (s.attempts call.request).length = call.attemptId)
    (turn : InTurn (s.attempts call.request) (s.clients id).currentLeader) : t.Trying := by
  simp only [System.startAttempt] at started
  split at started
  · rename_i present
    cases started
    refine ⟨fun rpc member => ?_, trying.returned, fun other running waits => ?_, fun other running waits => ?_⟩
    · rcases List.mem_append.mp member with old | new
      · exact trying.sent rpc old
      · cases List.mem_singleton.mp new
        exact runs.issued
    · by_cases same : other = id
      · subst same
        simp only [System.setClient, Function.update_self, Option.some.injEq] at waits
        subst waits
        exact ⟨runs.own, runs.issued, runs.unreturned⟩
      · simp only [System.setClient, Function.update_of_ne same] at waits
        have still := trying.running other running waits
        exact ⟨still.own, still.issued, still.unreturned⟩
    · by_cases same : other = id
      · subst same
        simp only [System.setClient, Function.update_self, Option.some.injEq] at waits ⊢
        subst waits
        have attempts : System.attempts (M := M) { s with executeCalls := s.executeCalls ++
            [⟨other, (s.clients other).issued, ⟨(s.clients other).currentLeader, present⟩, call.request⟩] } call.request =
            s.attempts call.request ++ [⟨(s.clients other).currentLeader, present⟩] := by
          simp [System.attempts]
        refine ⟨bound, ?_, ?_⟩
        · exact (congrArg List.length attempts).trans (by simp [count])
        · exact attempts ▸ turn.snoc present
      · simp only [System.setClient, Function.update_of_ne same] at waits ⊢
        have tries := trying.calls other running waits
        have attempts : System.attempts (M := M) { s with executeCalls := s.executeCalls ++
            [⟨id, (s.clients id).issued, ⟨(s.clients id).currentLeader, present⟩, call.request⟩] } running.request =
            s.attempts running.request := by
          simp [System.attempts, (trying.other runs.own same waits).symm]
        exact ⟨tries.bound, (congrArg List.length attempts).trans tries.count, attempts ▸ tries.turn⟩
  · cases started

/-- The first attempt of a new call. -/
theorem Trying.newCall (trying : s.Trying) {request : Request M.Cmd} (own : request.clientId = id)
    (fresh : ∀ record ∈ s.issued, record.request ≠ request) {retryCount : Nat} {state : RequestState} {fiber : ApplyFiber}
    (started : (s.noteIssued request).startAttempt id ⟨request, retryCount, state, 0, fiber⟩ = some t) : t.Trying := by
  have noted : (s.noteIssued request).Trying :=
    trying.adjust rfl rfl (List.prefix_append ..) fun _ call running => ⟨call, running, rfl, rfl, rfl, rfl⟩
  have new {other : Request M.Cmd} (old : ∃ record ∈ s.issued, record.request = other) : other ≠ request := by
    obtain ⟨record, issued, rfl⟩ := old
    exact fresh record issued
  have unsent : (s.noteIssued request).attempts request = [] := by
    rw [System.attempts, List.map_eq_nil_iff, List.filter_eq_nil_iff]
    intro sent member same
    exact new (trying.sent sent member) (of_decide_eq_true same)
  have runs : (s.noteIssued request).Open id request :=
    ⟨own, ⟨_, List.mem_append_right _ (List.mem_singleton_self _), rfl⟩, fun ret member => new (trying.returned ret member)⟩
  refine noted.startAttempt started runs (Nat.zero_le _) ?_ ?_
  · rw [unsent]
    rfl
  · rw [unsent]
    exact .nil _

/-- The step of a client keeps every call in turn. -/
theorem Trying.actClient (trying : s.Trying) {action : ClientAction M.Cmd}
    (fresh : s.FreshRequestIds (.client id action)) (acted : s.actClient id action = some t) : t.Trying := by
  cases action with
  | apply requestId command retryCount =>
      simp only [System.actClient] at acted
      split at acted
      · cases acted
      · refine trying.newCall rfl (fun record issued same => ?_) acted
        exact fresh record issued (by rw [same]) (by rw [same])
  | rpcTimeout =>
      obtain ⟨call, running, acted⟩ := Option.bind_eq_some_iff.mp acted
      split at acted
      · rename_i seq timedOut fiber
        cases acted
        refine trying.setClient fun next goesOn => ?_
        cases goesOn
        exact ⟨call, running, rfl, rfl, rfl, by rw [fiber]; rfl⟩
      · cases acted
  | executeFailed error =>
      obtain ⟨call, running, acted⟩ := Option.bind_eq_some_iff.mp acted
      split at acted
      · rename_i seq timedOut fiber
        cases acted
        exact trying.attemptFailed running fiber
      · cases acted
  | executeAnswered place =>
      obtain ⟨call, running, acted⟩ := Option.bind_eq_some_iff.mp acted
      obtain ⟨answer, found, acted⟩ := Option.bind_eq_some_iff.mp acted
      split at acted
      · rename_i seq timedOut fiber
        split at acted
        · split at acted
          · cases acted
            exact trying.attemptFailed running fiber
          · cases acted
            exact trying.applyEnd (trying.running id call running)
        · cases acted
      · cases acted
  | backoffEnd =>
      obtain ⟨call, running, acted⟩ := Option.bind_eq_some_iff.mp acted
      have runs := trying.running id call running
      have tries := trying.calls id call running
      split at acted
      · cases acted
      · rename_i error fiber
        dsimp only at acted
        split at acted
        · rename_i again
          have turn := tries.turn
          rw [fiber] at turn
          exact trying.startAttempt acted runs again.1 tries.count turn
        · cases acted
          exact trying.applyEnd runs
  | cancel | globalTimeout =>
      obtain ⟨call, running, acted⟩ := Option.bind_eq_some_iff.mp acted
      split at acted
      · cases acted
        refine trying.setClient fun next goesOn => ?_
        cases goesOn
        exact ⟨call, running, rfl, rfl, rfl, rfl⟩
      · cases acted
        exact trying

/-- Every step keeps all calls in turn; a step of a node concerns none of them. -/
theorem Trying.next (trying : s.Trying) (next : Script.Next System.step FreshRequestIds s t) : t.Trying := by
  obtain ⟨action, fresh, stepped⟩ := next
  have apart : ∀ {cluster handled}, Trying { s with cluster := cluster, handledCalls := handled } :=
    ⟨trying.sent, trying.returned, fun id call waits => ⟨(trying.running id call waits).own,
      (trying.running id call waits).issued, (trying.running id call waits).unreturned⟩, trying.calls⟩
  cases action with
  | node stop action =>
      have taken : (s.cluster.step stop action).map (fun cluster => { s with cluster := cluster }) = some t := by
        cases action
        case execute i request => cases stepped
        all_goals exact stepped
      obtain ⟨d, _, rfl⟩ := Option.map_eq_some_iff.mp taken
      exact apart
  | handleExecute stop place =>
      obtain ⟨sent, _, stepped⟩ := Option.bind_eq_some_iff.mp stepped
      obtain ⟨d, _, stepped⟩ := Option.bind_eq_some_iff.mp stepped
      cases stepped
      exact apart
  | client id action =>
      obtain ⟨u, acted, rfl⟩ := Option.map_eq_some_iff.mp stepped
      exact (trying.actClient fresh acted).tick

/-- The calls of a system at every point of a run. -/
theorem trying_of_run (run : Relation.ReflTransGen (Script.Next System.step FreshRequestIds) (System.initial M n) s) :
    s.Trying := by
  induction run with
  | refl =>
      exact ⟨fun _ member => absurd member List.not_mem_nil, fun _ member => absurd member List.not_mem_nil,
        by rintro id call ⟨⟩, by rintro id call ⟨⟩⟩
  | tail _ last ih => exact ih.next last

/-- `Apply` returns the error of an attempt only when it may not try again. -/
theorem returns_error (trying : s.Trying) {call : ApplyCall M.Cmd} {action : ClientAction M.Cmd} {ret : Returned M}
    (running : (s.clients id).call = some call) (unstopped : call.state = .running)
    (returns : s.step (.client id action) = some t) (returned : ret ∈ t.returned) (own : ret.request = call.request)
    (failed : ret.result.toOption = none) : call.retryCount ≤ call.attemptId := by
  have earlier : ret ∉ s.returned := fun member => (trying.running id call running).unreturned ret member own
  obtain ⟨u, acted, rfl⟩ := Option.map_eq_some_iff.mp returns
  change ret ∈ u.returned at returned
  cases action with
  | apply requestId command retryCount =>
      simp only [System.actClient, running] at acted
      cases acted
  | backoffEnd =>
      simp only [System.actClient, running, Option.bind_eq_bind, Option.bind_some] at acted
      split at acted
      · cases acted
      · split at acted
        · obtain ⟨callee, rfl⟩ := startAttempt_eq acted
          exact absurd returned earlier
        · rename_i refused
          by_contra fewer
          exact refused ⟨Nat.lt_of_not_le fewer, not_not.mpr unstopped⟩
  | executeAnswered place =>
      simp only [System.actClient, running, Option.bind_eq_bind, Option.bind_some] at acted
      obtain ⟨answer, _, acted⟩ := Option.bind_eq_some_iff.mp acted
      split at acted
      · split at acted
        · split at acted
          · cases acted
            exact absurd returned earlier
          · -- An answer with a result is returned as it is.
            cases acted
            rcases List.mem_append.mp returned with old | new
            · exact absurd old earlier
            · cases List.mem_singleton.mp new
              simp only [System.applyResult, unstopped] at failed
              cases failed
        · cases acted
      · cases acted
  | rpcTimeout | executeFailed error =>
      simp only [System.actClient, running, Option.bind_eq_bind, Option.bind_some] at acted
      split at acted
      · cases acted
        exact absurd returned earlier
      · cases acted
  | cancel | globalTimeout =>
      simp only [System.actClient, running, Option.bind_eq_bind, Option.bind_some, if_pos unstopped] at acted
      cases acted
      exact absurd returned earlier

end System

/-- A call of `Apply` sends its request to one node after the other, to `retry_count + 1` nodes at most. It returns the
error of an attempt only after the last one, unless it was stopped, so it has then tried every node if it may try so
often. Rpcs may be lost, delayed, repeated and reordered; clients only have to take a new request id for every call. -/
theorem apply_tries_all (M : StateMachine) (n : Nat) {s : System M n}
    (run : Relation.ReflTransGen (Script.Next System.step System.FreshRequestIds) (.initial M n) s) {id : Nat}
    {call : ApplyCall M.Cmd} (running : (s.clients id).call = some call) :
    (∃ start count, (s.attempts call.request).map Fin.val = roundRobin n start count ∧ count ≤ call.retryCount + 1) ∧
      ∀ action t, s.step (.client id action) = some t → ∀ ret ∈ t.returned, ret.request = call.request →
        ret.result.toOption = none → call.state = .running →
        (s.attempts call.request).length = call.retryCount + 1 ∧
          (n ≤ call.retryCount + 1 → ∀ node, node ∈ s.attempts call.request) := by
  have trying := System.trying_of_run run
  have tries := trying.calls id call running
  obtain ⟨start, tried, _⟩ := tries.turn
  refine ⟨⟨start, _, tried, by rw [tries.count]; exact Nat.succ_le_succ tries.bound⟩, ?_⟩
  intro action t returns ret returned own failed unstopped
  have all := System.returns_error trying running unstopped returns returned own failed
  have count : (s.attempts call.request).length = call.retryCount + 1 := by
    rw [tries.count, Nat.le_antisymm tries.bound all]
  refine ⟨count, fun circle node => ?_⟩
  have reached : node.val ∈ (s.attempts call.request).map Fin.val := by
    rw [tried, count]
    exact mem_roundRobin circle node
  obtain ⟨other, member, same⟩ := List.mem_map.mp reached
  exact Fin.ext same ▸ member

/-- All three nodes refuse the request of a client that tries three times. -/
def refusedScript : List (SystemAction loggingStateMachine 3) :=
  [.client 1 (.apply 5 (7 : Nat) 2), .client 1 (.executeFailed .networkError), .client 1 .backoffEnd,
    .client 1 (.executeFailed .networkError), .client 1 .backoffEnd, .client 1 (.executeFailed .connectionRefused)]

theorem refusedScript_possible :
    (Script.play System.step System.FreshRequestIds (System.initial loggingStateMachine 3) refusedScript).isSome = true := by
  decide +kernel

/-- The system after the script. -/
def refusedSystem : System loggingStateMachine 3 :=
  Script.endOf System.step System.FreshRequestIds (.initial _ 3) refusedScript refusedScript_possible

theorem refusedSystem_run :
    Relation.ReflTransGen (Script.Next System.step System.FreshRequestIds) (.initial _ 3) refusedSystem :=
  Script.endOf_run refusedScript_possible

/-- The end of the last backoff makes the call return an error. -/
theorem refusedSystem_returns : ∃ call ∈ (refusedSystem.clients 1).call, call.state = .running ∧ call.retryCount = 2 ∧
    ∃ t ∈ refusedSystem.step (.client 1 .backoffEnd), ∃ ret ∈ t.returned, ret.request = call.request ∧
      ret.result.toOption = none := by
  decide +kernel

/-- A call with two retries was refused by all three nodes. -/
theorem apply_tries_all_refused : ∃ call ∈ (refusedSystem.clients 1).call, call.retryCount = 2 ∧
    ∀ node, node ∈ refusedSystem.attempts call.request := by
  obtain ⟨call, running, unstopped, retryCount, t, returns, ret, returned, own, failed⟩ := refusedSystem_returns
  have tried := (apply_tries_all loggingStateMachine 3 refusedSystem_run running).2 .backoffEnd t returns ret returned own
    failed unstopped
  exact ⟨call, running, retryCount, tried.2 (by rw [retryCount])⟩

end Metamorphosis
