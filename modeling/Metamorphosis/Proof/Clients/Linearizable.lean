import Mathlib.Data.Finset.Max
import Metamorphosis.Library.Script
import Metamorphosis.Proof.Clients.Windows
import Metamorphosis.Proof.Raft.Applied

/-!
Clients of a `RaftNode` cluster see a linearizable state machine: the order of the requests is that of
their first entries in the committed log.
-/

namespace Metamorphosis
open ReplicatedLog FirstOccurrences Linearizability
variable {M : StateMachine} {n : Nat}

/-- A copy of entries is the entries themselves. -/
theorem Mirrors.values_eq {values : List (LogEntry M.Cmd)} {items : List (Item (raftService M n))}
    (mirrors : Mirrors (raftCopies M n) values items) : values = items.map Prod.fst := by
  induction mirrors with
  | nil => rfl
  | cons same _ ih => exact congrArg₂ List.cons same ih

/-- One log extends everything that is committed. -/
theorem Sim.longest {S : Service n} {P : Copies S} {c : Cluster S} {a : Hist S} (sim : Sim P True c a) :
    ∃ log, (log = [] ∨ ∃ T m L, (T, m) ∈ c.commits ∧ a.lead T = some L ∧ log = L.entries.take m) ∧
      ∀ T m L, (T, m) ∈ c.commits → a.lead T = some L → L.entries.take m <+: log := by
  have ordered := sim.ordered trivial
  rcases c.commits.toFinset.eq_empty_or_nonempty with none_ | some_
  · refine ⟨[], Or.inl rfl, fun T m L committed _ => ?_⟩
    have member := List.mem_toFinset.mpr committed
    rw [none_] at member
    exact absurd member (Finset.notMem_empty _)
  · obtain ⟨⟨T, m⟩, member, greatest⟩ := c.commits.toFinset.exists_max_image Prod.snd some_
    have committed := List.mem_toFinset.mp member
    have chosen := ordered.commits T m committed
    obtain ⟨L, led, _⟩ := id chosen
    refine ⟨L.entries.take m, Or.inr ⟨T, m, L, committed, led, rfl⟩, fun U k K other ledK => ?_⟩
    have le : k ≤ m := greatest (U, k) (List.mem_toFinset.mpr other)
    rw [Chosen.agree (sim.safe trivial) (ordered.commits U k other) chosen ledK led (Nat.le_refl k) le]
    exact List.take_prefix_take_left le

namespace System
variable {s t : System M n} {id : Nat}

/-- The step of a client changes no node. -/
theorem Moved.cluster (moved : Moved s id t) : t.cluster = s.cluster := by
  cases moved with
  | same => rfl
  | adjust => rfl
  | attempt t call next running request started =>
      obtain ⟨_, rfl⟩ := startAttempt_eq started
      rfl
  | ended => rfl
  | apply t call idle own fresh started =>
      obtain ⟨_, rfl⟩ := startAttempt_eq started
      rfl

/-- A run of the system is a run of its cluster in which time may pass. -/
theorem Run.atomics (run : Run (System.initial M n) s) : Cluster.Atomics Cluster.InOrder (.initial _) s.cluster := by
  induction run with
  | refl => exact .refl
  | @tail s t run last ih =>
      have ok := Run.systemOk run
      cases last.stepped with
      | node stop action d inOrder _ taken =>
          exact ih.trans (Cluster.Next.atomics ⟨stop, action, inOrder, taken⟩ ok.fresh).1
      | handle stop sent d _ _ taken =>
          have next : Cluster.Next Cluster.InOrder s.cluster d :=
            ⟨stop, .execute sent.callee sent.request, trivial, taken⟩
          exact ih.trans (next.atomics ok.fresh).1
      | client id u moved =>
          have last : Cluster.Atomic Cluster.InOrder s.cluster { s.cluster with clock := s.cluster.clock + 1 } :=
            .tick s.cluster
          rw [← moved.cluster] at last ih
          exact ih.tail last

/-- A request is issued once. -/
theorem SystemOk.issued_unique (ok : SystemOk s) {first second : Issued M.Cmd} (member : first ∈ s.issued)
    (other : second ∈ s.issued) (same : first.request.key = second.request.key) : first = second := by
  have distinct : (s.issued.map fun record => record.request.key).Nodup := by
    refine List.pairwise_map.mpr (ok.sequential.imp fun follows equal => ?_)
    exact (follows.2 (congrArg Prod.fst equal)).1 (congrArg Prod.snd equal)
  exact List.inj_on_of_nodup_map distinct member other same

/-- The key of a request belongs to one request only. -/
theorem SystemOk.same_request (ok : SystemOk s) {first second : Request M.Cmd}
    (issued : ∃ record ∈ s.issued, record.request = first) (other : ∃ record ∈ s.issued, record.request = second)
    (key : first.key = second.key) : first = second := by
  obtain ⟨record, member, rfl⟩ := issued
  obtain ⟨later, present, rfl⟩ := other
  rw [ok.issued_unique member present key]

/-- Only requests of calls have a window. -/
theorem InWindow.known {request : Request M.Cmd} {time : Nat} (window : s.InWindow request time) :
    ∃ record ∈ s.issued, record.request = request := by
  obtain ⟨record, member, same, _⟩ := window.issued
  exact ⟨record, member, same⟩

/-- A client's other request is not entered between two entries of one request. -/
theorem SystemOk.between (ok : SystemOk s) {request other : Request M.Cmd} {first middle last : Nat}
    (client : other.clientId = request.clientId) (started : s.InWindow request first) (inside : s.InWindow other middle)
    (ended : s.InWindow request last) (after : first < middle) (before : middle < last) :
    other.requestId = request.requestId := by
  obtain ⟨own, member, rfl, ownTime⟩ := started.issued
  obtain ⟨their, present, rfl, theirTime⟩ := inside.issued
  by_contra different
  have apart : own ≠ their := by
    rintro rfl
    exact different rfl
  rcases sublist_or_sublist member present apart with earlier | later
  · have follows := List.pairwise_iff_forall_sublist.mp ok.sequential earlier
    obtain ⟨_, ret, returned, same, time⟩ := follows.2 client.symm
    have late := ended.open_ ret returned same
    omega
  · have follows := List.pairwise_iff_forall_sublist.mp ok.sequential later
    obtain ⟨_, ret, returned, same, time⟩ := follows.2 client
    have late := inside.open_ ret returned same
    omega

/-- What the clients have seen. -/
def history (s : System M n) : Linearizability.History (Request M.Cmd) M.Res where
  invoked := s.issued.map fun record => (record.request, record.time)
  completed := s.returned.map fun ret => (ret.request, ret.result.toOption, ret.time)

/-- The requests of a log with the times of their entries. -/
def points (log : List (Item (raftService M n))) : List (Request M.Cmd × Nat) :=
  log.map fun item => (item.1.request, item.2)

/-- The requests of a log. -/
def requests (log : List (Item (raftService M n))) : List (Request M.Cmd) := log.map fun item => item.1.request

/-- The points go through the requests of the log. -/
theorem points_fst (log : List (Item (raftService M n))) : (points log).map Prod.fst = requests log := by
  rw [points, List.map_map]
  rfl

/-- A log whose entries were all made in the windows of their requests, one after the other. -/
structure Windowed (s : System M n) (log : List (Item (raftService M n))) : Prop where
  increasing : log.Pairwise fun first second => first.2 < second.2
  inWindow : ∀ item ∈ log, s.InWindow item.1.request item.2

/-- The log of every leader is windowed. -/
theorem SystemOk.windowed (ok : SystemOk s) {a : Hist (raftService M n)} (sim : Sim (raftCopies M n) True s.cluster a)
    (stamps : s.cluster.Stamps) (oldFirst : OldFirst s.cluster a) {T m : Nat}
    {L : Leadership (Fin n) (Item (raftService M n))} (led : a.lead T = some L) : Windowed s (L.entries.take m) where
  increasing := (sim.sorted stamps oldFirst led).sublist (List.take_sublist ..)
  inWindow item member := by
    obtain ⟨index, found⟩ := List.mem_iff_getElem?.mp (List.mem_of_mem_take member)
    obtain ⟨record, created, rfl, _⟩ := sim.made led found
    exact (ok.created record created).2

/-- An entry stands for its request at a time in the span of the request. -/
theorem SystemOk.spans (ok : SystemOk s) {request : Request M.Cmd} {time : Nat} (window : s.InWindow request time) :
    s.history.Spans request time where
  after started invoked := by
    obtain ⟨record, member, same⟩ := List.mem_map.mp invoked
    cases same
    obtain ⟨own, present, equal, before⟩ := window.issued
    rw [ok.issued_unique member present (by rw [equal])]
    exact before
  before result ended completed := by
    obtain ⟨ret, member, same⟩ := List.mem_map.mp completed
    cases same
    exact window.open_ ret member rfl

/-- A client goes on to its next request when the last one has returned, so no old request comes again. -/
theorem SystemOk.repeatsLast (ok : SystemOk s) {log : List (Item (raftService M n))} (windowed : Windowed s log) :
    RepeatsLast (requests log) := by
  intro before request after split
  obtain ⟨old, rest, rfl, rfl, cut⟩ := List.map_eq_append_iff.mp split
  obtain ⟨item, later, rfl, rfl, _⟩ := List.map_eq_cons_iff.mp cut
  have window := windowed.inWindow item (List.mem_append_right _ List.mem_cons_self)
  unfold Continues
  cases found : lastWith Request.clientId (old.map fun item => item.1.request) item.1.request.clientId with
  | none =>
      obtain ⟨record, member, same, _⟩ := window.issued
      rw [← same]
      exact (ok.issued record member).2
  | some last =>
      intro known
      obtain ⟨client, first, middle, cutOld, others⟩ := lastWith_eq_some _ found
      obtain ⟨earlier, present, key⟩ := List.mem_map.mp known
      rw [cutOld] at present
      rcases List.mem_append.mp present with early | late
      · -- The request was entered before the last one and is entered again after it.
        obtain ⟨items, tail, rfl, rfl, cutTail⟩ := List.map_eq_append_iff.mp cutOld
        obtain ⟨lastItem, more, rfl, rfl, _⟩ := List.map_eq_cons_iff.mp cutTail
        obtain ⟨earlyItem, among, rfl⟩ := List.mem_map.mp early
        have start := windowed.inWindow earlyItem (List.mem_append_left _ (List.mem_append_left _ among))
        have inside := windowed.inWindow lastItem (List.mem_append_left _ (List.mem_append_right _ List.mem_cons_self))
        have increasing := windowed.increasing
        have after : earlyItem.2 < lastItem.2 := (List.pairwise_append.mp (List.pairwise_append.mp increasing).1).2.2
          earlyItem among lastItem List.mem_cons_self
        have before : lastItem.2 < item.2 := (List.pairwise_append.mp increasing).2.2 lastItem
          (List.mem_append_right _ List.mem_cons_self) item List.mem_cons_self
        have same : earlyItem.1.request = item.1.request := ok.same_request start.known window.known key
        rw [same] at start
        exact ok.between client start inside window after before
      · rcases List.mem_cons.mp late with rfl | between
        · exact congrArg Prod.snd key
        · exact absurd (congrArg Prod.fst key) (others earlier between)

/-- The requests that a node has given to its wrapped state machine since its process started. -/
def applied (s : System M n) (x : Fin n) : List (Request M.Cmd) :=
  ((s.cluster.nodes x).values.take (s.cluster.nodes x).commitIndex).map LogEntry.request

/-- A node's committed entries begin the longest committed log. -/
theorem applied_begins {a : Hist (raftService M n)} (sim : Sim (raftCopies M n) True s.cluster a)
    {log : List (Item (raftService M n))} (longest : ∀ T m L, (T, m) ∈ s.cluster.commits → a.lead T = some L →
      L.entries.take m <+: log) (x : Fin n) : s.applied x <+: requests log := by
  have values := (sim.nodes x).log.values.2.values_eq
  rcases (sim.ordered trivial).certified x with zero | ⟨T, m, L, committed, _, within, led, same⟩
  · rw [applied, zero]
    exact List.nil_prefix
  · have begins := (List.take_prefix_take_left within).trans (longest T m L committed led)
    rw [applied, values, ← List.map_take, same, List.map_map]
    exact begins.map fun item => item.1.request

/-- An answered call's entry stands at its index in the longest committed log, and the answer is the response that the
state machine gives after the entries before it. -/
theorem granted_split {a : Hist (raftService M n)} (sim : Sim (raftCopies M n) True s.cluster a)
    {log : List (Item (raftService M n))}
    (longest : ∀ T m L, (T, m) ∈ s.cluster.commits → a.lead T = some L → L.entries.take m <+: log) {i : Fin n}
    {tag : Nat} {request : Request M.Cmd} {payload : M.Res}
    (granted : Granted (raftCopies M n) (raftReplay M n) s.cluster a i tag request payload) :
    ∃ record ∈ s.cluster.created, record.tag = tag ∧ ∃ before after,
      requests log = before ++ record.entry.request :: after ∧
      payload = (((ExactlyOnceStateMachine.initial M).replay before).apply record.entry.request).1 := by
  obtain ⟨record, created, _, named, _, decided, T, m, L, copies, committed, inside, led, mirrors, positive, entry,
    found, output⟩ := granted
  have same : copies = (L.entries.take record.index).map Prod.fst := mirrors.values_eq
  have item : (L.entries.take record.index)[record.index - 1]? = some (record.entry, record.time) := by
    have known : Decided s.cluster a record.index (record.entry, record.time) := decided
    obtain ⟨below, _⟩ := List.getElem?_eq_some_iff.mp found
    have bound : record.index - 1 < (L.entries.take record.index).length := by
      rw [same, List.length_map] at below
      exact below
    have present := List.getElem?_eq_getElem bound
    rw [present, known.unique sim positive ⟨T, m, L, committed, inside, led, ?_⟩]
    rw [← present, List.getElem?_take_of_lt (by omega)]
  have equal : entry = record.entry := by
    rw [same, List.getElem?_map, item] at found
    exact (Option.some.inj found).symm
  have cut : L.entries.take record.index = L.entries.take (record.index - 1) ++ [(record.entry, record.time)] := by
    have one : record.index = record.index - 1 + 1 := by omega
    rw [one, List.take_add_one, Nat.add_sub_cancel]
    rw [List.getElem?_take_of_lt (by omega)] at item
    rw [item]
    rfl
  obtain ⟨rest, longer⟩ := (List.take_prefix_take_left inside).trans (longest T m L committed led)
  refine ⟨record, created, named, requests (L.entries.take (record.index - 1)), requests rest, ?_, ?_⟩
  · rw [← longer, cut, requests, List.map_append, List.map_append, List.append_assoc]
    rfl
  · rw [output, raftReplay_run, equal, same, ← List.map_take, List.take_take, Nat.min_eq_left (by omega), List.map_map]
    rfl

/-- A result of `Apply` is the response that its request got in the longest committed log. -/
theorem SystemOk.result (ok : SystemOk s) {a : Hist (raftService M n)} (sim : Sim (raftCopies M n) True s.cluster a)
    (clients : ClientsOk (raftCopies M n) (raftReplay M n) s.cluster a) {log : List (Item (raftService M n))}
    (longest : ∀ T m L, (T, m) ∈ s.cluster.commits → a.lead T = some L → L.entries.take m <+: log)
    (repeats : RepeatsLast (requests log)) {ret : Returned M} (member : ret ∈ s.returned) {value : M.Res}
    (result : ret.result = .ok value) :
    ExactlyOnceStateMachine.FirstResponse M (requests log) ret.request value := by
  obtain ⟨handled, present, request, answer, given, tag, status, rfl⟩ := ok.answered ret member value result
  rcases clients.answers answer given with refused | ⟨ext, term, atOnce⟩ | ⟨ext, payload, response, granted⟩
  · rw [refused] at status
    cases status
  · cases atOnce
  · have payloadGiven : answer.response.result = payload := by
      rw [← response]
      rfl
    obtain ⟨record, created, named, before, after, split, output⟩ := granted_split sim longest granted
    have own : record.entry.request = ret.request := (ok.tags record created handled present (named.trans tag)).trans request
    rw [own] at split output
    rw [split] at repeats ⊢
    rw [payloadGiven, output]
    exact ExactlyOnceStateMachine.apply_response repeats

/-- The first entries of all requests of the longest committed log are an order that explains the results. -/
theorem SystemOk.linearization (ok : SystemOk s) {log : List (Item (raftService M n))} (windowed : Windowed s log)
    (results : ∀ ret ∈ s.returned, ∀ value, ret.result = .ok value →
      ExactlyOnceStateMachine.FirstResponse M (requests log) ret.request value) :
    Linearization M.object s.history (firsts Request.key (requests log)) := by
  have part := firsts_sublist Request.key (requests log)
  have known {request : Request M.Cmd} (member : request ∈ firsts Request.key (requests log)) :
      ∃ record ∈ s.issued, record.request = request := by
    obtain ⟨item, present, rfl⟩ := List.mem_map.mp (part.subset member)
    exact (windowed.inWindow item present).known
  constructor
  · intro request member
    obtain ⟨record, issued, rfl⟩ := known member
    exact ⟨record.time, List.mem_map.mpr ⟨record, issued, rfl⟩⟩
  · exact (firsts_nodup Request.key (requests log)).of_map
  · intro request value time completed
    obtain ⟨ret, returned, equal⟩ := List.mem_map.mp completed
    obtain ⟨rfl, rest⟩ := Prod.mk.inj equal
    obtain ⟨given, rfl⟩ := Prod.mk.inj rest
    have result : ret.result = .ok value := by
      cases found : ret.result with
      | error _ =>
          rw [found] at given
          cases given
      | ok other =>
          rw [found] at given
          cases given
          rfl
    obtain ⟨before, request, after, split, key, response⟩ := results ret returned value result
    have first : request ∈ firsts Request.key (requests log) := by
      rw [split]
      exact List.mem_append_right _ List.mem_cons_self
    have same : request = ret.request := ok.same_request (known first) (ok.returned ret returned).2 key
    exact ⟨before, after, same ▸ split, same ▸ response⟩
  · intro first result ended second started completed invoked later member other
    have increasing : (points log).Pairwise fun first second => first.2 < second.2 :=
      List.pairwise_map.mpr windowed.increasing
    refine realTime_of_points increasing ?_ ?_ completed invoked later member other
    · intro point among
      obtain ⟨item, present, rfl⟩ := List.mem_map.mp among
      exact ok.spans (windowed.inWindow item present)
    · rw [points_fst]
      exact part

end System

/-- In every orderly run there is one order of issued requests that explains all results and respects real
time, and every node has executed the commands of a first part of this order, each of them once. -/
theorem linearizable (M : StateMachine) (n : Nat) {s : System M n} (run : System.Run (.initial M n) s) :
    ∃ order, Linearization M.object s.history order ∧ ∀ x,
      (s.cluster.nodes x).ext = (ExactlyOnceStateMachine.initial M).replay (s.applied x) ∧
      (ExactlyOnceStateMachine.initial M).passed (s.applied x) <+: order ∧
      (s.cluster.nodes x).ext.stateMachine =
        M.object.run ((ExactlyOnceStateMachine.initial M).passed (s.applied x)) := by
  have ok := run.systemOk
  obtain ⟨a, sim, clients⟩ := run.atomics.clients (raftCopies M n) (raftReplay M n) fun _ _ inOrder => inOrder
  obtain ⟨log, cut, longest⟩ := sim.longest
  have windowed : System.Windowed s log := by
    rcases cut with rfl | ⟨T, m, L, _, led, rfl⟩
    · exact ⟨.nil, fun _ member => absurd member List.not_mem_nil⟩
    · exact ok.windowed sim clients.stamps clients.oldFirst led
  have repeats := ok.repeatsLast windowed
  have linearization := ok.linearization windowed fun ret returned value result =>
    ok.result sim clients longest repeats returned result
  refine ⟨_, linearization, fun x => ?_⟩
  have replayed : (s.cluster.nodes x).ext = (ExactlyOnceStateMachine.initial M).replay (s.applied x) :=
    ((clients.calls x).replayed).trans (raftReplay_run _)
  refine ⟨replayed, ?_, ?_⟩
  · obtain ⟨rest, longer⟩ := System.applied_begins sim longest x
    rw [← longer] at repeats ⊢
    rw [ExactlyOnceStateMachine.passed_eq_firsts repeats.before]
    exact firsts_grow ..
  · rw [replayed]
    exact ExactlyOnceStateMachine.replay_stateMachine _

instance (s : System M n) : ∀ action, Decidable (s.Orderly action)
  | .node _ action => inferInstanceAs (Decidable (s.cluster.InOrder action))
  | .handleExecute _ place => inferInstanceAs (Decidable (∀ call ∈ s.executeCalls[place]?,
      (s.clients call.client).calling = some call.seq ∧
        ∀ handled ∈ s.handledCalls, handled.1.client = call.client → handled.1.seq ≠ call.seq))
  | .client id (.apply requestId _ _) => inferInstanceAs (Decidable (requestId ≠ 0 ∧ ∀ record ∈ s.issued,
      record.request.clientId = id → record.request.requestId ≠ requestId))
  | .client _ .rpcTimeout | .client _ (.executeFailed _) | .client _ (.executeAnswered _) | .client _ .backoffEnd
  | .client _ .cancel | .client _ .globalTimeout => isTrue trivial

/-- The first node leads, and a client's command is committed and answered. -/
def appliedScript : List (SystemAction loggingStateMachine 3) :=
  (Cluster.firstLeads (raftService loggingStateMachine 3)).map (fun step => .node step.1 step.2) ++
    [.client 1 (.apply 5 (7 : Nat) 0), .handleExecute none 0, .node none (.mainRound 0), .node none (.sessionSend 0 1),
      .node none (.handleAppend 0), .node none (.appendAnswered 0 1 (some 0)), .node none (.resume 0 6),
      .client 1 (.executeAnswered 0)]

theorem appliedScript_possible :
    (Script.play System.step System.Orderly (System.initial loggingStateMachine 3) appliedScript).isSome = true := by
  decide +kernel

/-- The system after the script. -/
def appliedSystem : System loggingStateMachine 3 :=
  Script.endOf System.step System.Orderly (.initial _ 3) appliedScript appliedScript_possible

theorem appliedSystem_run : System.Run (.initial _ 3) appliedSystem := Script.endOf_run appliedScript_possible

/-- One call of a client is answered, and the history has a linearization. -/
theorem linearizable_applied : (appliedSystem.returned.map fun ret => (ret.request, ret.result.toOption)) =
      [(⟨5, 1, (7 : Nat)⟩, some [7])] ∧
    ∃ order, Linearization loggingStateMachine.object appliedSystem.history order := by
  obtain ⟨order, linearization, _⟩ := linearizable loggingStateMachine 3 appliedSystem_run
  exact ⟨by decide +kernel, order, linearization⟩

end Metamorphosis
