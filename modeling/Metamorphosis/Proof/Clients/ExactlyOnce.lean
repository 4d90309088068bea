import Mathlib.Data.List.Infix
import Metamorphosis.Construction.RaftNode
import Metamorphosis.Library.FirstOccurrences
import Metamorphosis.Library.Linearizability

/-!
`ExactlyOnceStateMachine` hands every request to the state machine once, as long as no client starts
with the request id zero and a client repeats a request only before it sends another one.
-/

namespace Metamorphosis
open FirstOccurrences Linearizability
variable {M : StateMachine}

/-- The state machine as a sequential object. -/
def StateMachine.object (M : StateMachine) : Object (Request M.Cmd) M.Res where
  State := M.State
  initial := M.initial
  apply state request := M.apply state request.command

/-- The pair by which requests are told apart. -/
def Request.key {Cmd : Type} (request : Request Cmd) : Nat × Nat := (request.clientId, request.requestId)

namespace ExactlyOnceStateMachine

/-- The table has the request as the last one of its client. -/
def Remembers (rsm : ExactlyOnceStateMachine M) (request : Request M.Cmd) : Prop :=
  ((rsm.clientsLastCmdId request.clientId).getD ⟨M.none, 0⟩).requestId = request.requestId

instance (rsm : ExactlyOnceStateMachine M) (request : Request M.Cmd) : Decidable (rsm.Remembers request) :=
  inferInstanceAs (Decidable (_ = _))

/-- The wrapper after a list of requests. -/
def replay (rsm : ExactlyOnceStateMachine M) (requests : List (Request M.Cmd)) : ExactlyOnceStateMachine M :=
  requests.foldl (fun rsm request => (rsm.apply request).2) rsm

/-- The requests whose commands are passed to the wrapped state machine. -/
def passed (rsm : ExactlyOnceStateMachine M) : List (Request M.Cmd) → List (Request M.Cmd)
  | [] => []
  | request :: rest => (if rsm.Remembers request then [] else [request]) ++ passed (rsm.apply request).2 rest

theorem replay_append (rsm : ExactlyOnceStateMachine M) (first second : List (Request M.Cmd)) :
    rsm.replay (first ++ second) = (rsm.replay first).replay second := List.foldl_append

/-- The last request is applied to what the ones before it made. -/
theorem replay_concat (rsm : ExactlyOnceStateMachine M) (requests : List (Request M.Cmd)) (request : Request M.Cmd) :
    rsm.replay (requests ++ [request]) = ((rsm.replay requests).apply request).2 := by
  rw [replay_append]
  rfl

/-- What is passed on to the state machine, part by part. -/
theorem passed_append (rsm : ExactlyOnceStateMachine M) (first second : List (Request M.Cmd)) :
    rsm.passed (first ++ second) = rsm.passed first ++ (rsm.replay first).passed second := by
  induction first generalizing rsm with
  | nil => rfl
  | cons request rest ih =>
      rw [List.cons_append, passed, passed, ih, List.append_assoc]
      rfl

/-- The last request is passed on unless it is remembered. -/
theorem passed_concat (rsm : ExactlyOnceStateMachine M) (requests : List (Request M.Cmd)) (request : Request M.Cmd) :
    rsm.passed (requests ++ [request]) =
      rsm.passed requests ++ if (rsm.replay requests).Remembers request then [] else [request] := by
  rw [passed_append, passed, passed, List.append_nil]

/-- A remembered request gets the remembered response. -/
theorem apply_remembered {rsm : ExactlyOnceStateMachine M} {request : Request M.Cmd} (old : rsm.Remembers request) :
    rsm.apply request = (((rsm.clientsLastCmdId request.clientId).getD ⟨M.none, 0⟩).response,
      ⟨rsm.stateMachine, Function.update rsm.clientsLastCmdId request.clientId
        (some ((rsm.clientsLastCmdId request.clientId).getD ⟨M.none, 0⟩))⟩) := by
  unfold apply
  exact if_pos old

/-- Any other request goes to the state machine. -/
theorem apply_new {rsm : ExactlyOnceStateMachine M} {request : Request M.Cmd} (new : ¬ rsm.Remembers request) :
    rsm.apply request = ((M.apply rsm.stateMachine request.command).1,
      ⟨(M.apply rsm.stateMachine request.command).2, Function.update rsm.clientsLastCmdId request.clientId
        (some ⟨(M.apply rsm.stateMachine request.command).1, request.requestId⟩)⟩) := by
  unfold apply
  exact if_neg new

/-- The state machine has executed exactly what was passed to it. -/
theorem replay_stateMachine (requests : List (Request M.Cmd)) :
    ((initial M).replay requests).stateMachine = M.object.run ((initial M).passed requests) := by
  induction requests using List.reverseRecOn with
  | nil => rfl
  | append_singleton rest request ih =>
      rw [replay_concat, passed_concat]
      by_cases old : ((initial M).replay rest).Remembers request
      · rw [if_pos old, List.append_nil, apply_remembered old]
        exact ih
      · rw [if_neg old, apply_new old, Object.run_concat, ← ih]
        rfl

/-- The table entry of a request's client is the request with its response. -/
theorem apply_record (rsm : ExactlyOnceStateMachine M) (request : Request M.Cmd) :
    (rsm.apply request).2.clientsLastCmdId =
      Function.update rsm.clientsLastCmdId request.clientId (some ⟨(rsm.apply request).1, request.requestId⟩) := by
  by_cases old : rsm.Remembers request
  · rw [apply_remembered old, ← show _ = request.requestId from old]
  · rw [apply_new old]

/-- The table knows the last request id of every client. -/
theorem replay_last (requests : List (Request M.Cmd)) (client : Nat) :
    (((initial M).replay requests).clientsLastCmdId client).map LastClientData.requestId =
      (lastWith Request.clientId requests client).map Request.requestId := by
  induction requests using List.reverseRecOn with
  | nil => rfl
  | append_singleton rest request ih =>
      rw [replay_concat, apply_record, lastWith_concat]
      by_cases same : request.clientId = client
      · rw [if_pos same, same, Function.update_self]
        rfl
      · rw [if_neg same, Function.update_of_ne (Ne.symm same)]
        exact ih

end ExactlyOnceStateMachine

/-- A client's first request has another id than zero, and a request that came before is the last one
of its client. -/
def Continues {Cmd : Type} (before : List (Request Cmd)) (request : Request Cmd) : Prop :=
  match lastWith Request.clientId before request.clientId with
  | none => request.requestId ≠ 0
  | some last => request.key ∈ before.map Request.key → last.requestId = request.requestId

/-- Every request of a list continues the requests before it. -/
def RepeatsLast {Cmd : Type} (requests : List (Request Cmd)) : Prop :=
  ∀ before request after, requests = before ++ request :: after → Continues before request

/-- The condition holds at all earlier times. -/
theorem RepeatsLast.before {Cmd : Type} {before after : List (Request Cmd)} (repeats : RepeatsLast (before ++ after)) :
    RepeatsLast before := by
  rintro first request rest rfl
  exact repeats first request (rest ++ after) (by rw [List.append_assoc, List.cons_append])

namespace ExactlyOnceStateMachine

/-- The state machine remembers the last request of every client, and knows the number 0 from the start. -/
theorem remembers_iff (requests : List (Request M.Cmd)) (request : Request M.Cmd) :
    ((initial M).replay requests).Remembers request ↔
      match lastWith Request.clientId requests request.clientId with
      | none => request.requestId = 0
      | some last => last.requestId = request.requestId := by
  have known := replay_last requests request.clientId
  rw [Remembers]
  cases found : lastWith Request.clientId requests request.clientId with
  | none =>
      rw [found, Option.map_none, Option.map_eq_none_iff] at known
      rw [known]
      exact ⟨Eq.symm, Eq.symm⟩
  | some last =>
      rw [found] at known
      obtain ⟨record, present, same⟩ := Option.map_eq_some_iff.mp known
      rw [present, Option.getD_some, same]

/-- The wrapper treats a request right exactly when it continues the requests before it. -/
theorem remembers_right_iff (before : List (Request M.Cmd)) (request : Request M.Cmd) :
    (((initial M).replay before).Remembers request ↔ request.key ∈ before.map Request.key) ↔
      Continues before request := by
  rw [remembers_iff, Continues]
  cases found : lastWith Request.clientId before request.clientId with
  | none =>
      have absent : request.key ∉ before.map Request.key := by
        intro member
        obtain ⟨other, present, same⟩ := List.mem_map.mp member
        exact lastWith_eq_none _ found other present (congrArg Prod.fst same)
      simp only [absent, iff_false, ne_eq]
  | some last =>
      obtain ⟨client, first, rest, rfl, _⟩ := lastWith_eq_some _ found
      refine ⟨fun right => right.mpr, fun continues => ⟨fun same => ?_, continues⟩⟩
      refine List.mem_map.mpr ⟨last, List.mem_append_right _ List.mem_cons_self, ?_⟩
      exact Prod.ext client same

/-- Along continuing requests exactly the first ones are passed on. -/
theorem passed_eq_firsts {requests : List (Request M.Cmd)} (repeats : RepeatsLast requests) :
    (initial M).passed requests = firsts Request.key requests := by
  induction requests using List.reverseRecOn with
  | nil => rfl
  | append_singleton rest request ih =>
      have continues := repeats rest request [] rfl
      have right := (remembers_right_iff (M := M) rest request).mpr continues
      rw [passed_concat, ih repeats.before]
      by_cases old : ((initial M).replay rest).Remembers request
      · rw [if_pos old, List.append_nil, firsts_concat_old]
        exact (mem_firsts_key ..).mpr (right.mp old)
      · rw [if_neg old, firsts_concat_new]
        exact fun member => old (right.mpr ((mem_firsts_key ..).mp member))

/-- The response that the first request of a pair gets. -/
def FirstResponse (M : StateMachine) (requests : List (Request M.Cmd)) (request : Request M.Cmd) (response : M.Res) :
    Prop :=
  ∃ before first after, firsts Request.key requests = before ++ first :: after ∧ first.key = request.key ∧
    response = M.object.result before first

/-- The first response to a request does not change later. -/
theorem FirstResponse.grow {requests more : List (Request M.Cmd)} {request : Request M.Cmd} {response : M.Res}
    (given : FirstResponse M requests request response) : FirstResponse M (requests ++ more) request response := by
  obtain ⟨before, first, after, split, rest⟩ := given
  obtain ⟨new, longer⟩ := firsts_grow Request.key requests more
  refine ⟨before, first, after ++ new, ?_, rest⟩
  rw [← longer, split, List.append_assoc, List.cons_append]

/-- The table has the right response for the last request of a client. -/
def TableRight (requests : List (Request M.Cmd)) (client : Nat) : Prop :=
  ∀ last record, lastWith Request.clientId requests client = some last →
    ((initial M).replay requests).clientsLastCmdId client = some record → FirstResponse M requests last record.response

/-- A continuing request gets the response of the first request of its pair. -/
theorem TableRight.response {before : List (Request M.Cmd)} {request : Request M.Cmd}
    (right : TableRight before request.clientId) (repeats : RepeatsLast (before ++ [request])) :
    FirstResponse M (before ++ [request]) request (((initial M).replay before).apply request).1 := by
  have continues : Continues before request := repeats before request [] rfl
  by_cases old : ((initial M).replay before).Remembers request
  · rw [apply_remembered old]
    have known := replay_last (M := M) before request.clientId
    have same := (remembers_iff before request).mp old
    rw [Continues] at continues
    cases found : lastWith Request.clientId before request.clientId with
    | none =>
        rw [found] at same continues
        exact absurd same continues
    | some last =>
        rw [found] at same known
        obtain ⟨record, present, _⟩ := Option.map_eq_some_iff.mp known
        have grown : FirstResponse M (before ++ [request]) last record.response := (right last record found present).grow
        obtain ⟨first, other, rest, split, equal, given⟩ := grown
        refine ⟨first, other, rest, split, equal.trans ?_, ?_⟩
        · exact Prod.ext (lastWith_eq_some _ found).1 same
        · rw [present]
          exact given
  · have new : request.key ∉ (firsts Request.key before).map Request.key := fun member =>
      old (((remembers_right_iff before request).mpr continues).mpr ((mem_firsts_key ..).mp member))
    refine ⟨firsts Request.key before, request, [], firsts_concat_new _ new, rfl, ?_⟩
    rw [apply_new old, replay_stateMachine, passed_eq_firsts repeats.before]
    rfl

/-- The table is right for every client. -/
theorem tableRight {requests : List (Request M.Cmd)} (repeats : RepeatsLast requests) (client : Nat) :
    TableRight requests client := by
  induction requests using List.reverseRecOn generalizing client with
  | nil => exact fun last record found => nomatch found
  | append_singleton rest request ih =>
      intro last record found present
      rw [replay_concat, apply_record] at present
      rw [lastWith_concat] at found
      by_cases same : request.clientId = client
      · subst same
        rw [if_pos rfl] at found
        rw [Function.update_self] at present
        cases found
        cases present
        exact (ih repeats.before _).response repeats
      · rw [if_neg same] at found
        rw [Function.update_of_ne (Ne.symm same)] at present
        exact (ih repeats.before client last record found present).grow

/-- Every request of a continuing list gets the response of the first request of its pair. -/
theorem apply_response {before after : List (Request M.Cmd)} {request : Request M.Cmd}
    (repeats : RepeatsLast (before ++ request :: after)) :
    FirstResponse M (before ++ request :: after) request (((initial M).replay before).apply request).1 := by
  have split : before ++ request :: after = (before ++ [request]) ++ after := by
    rw [List.append_assoc, List.singleton_append]
  rw [split] at repeats ⊢
  exact ((tableRight repeats.before.before _).response repeats.before).grow

end ExactlyOnceStateMachine

/-- Exactly for the lists of continuing requests, the commands that reach the state machine are those of
the first request of every pair at every moment; every request then gets that request's response. -/
theorem exactly_once (M : StateMachine) (requests : List (Request M.Cmd)) :
    ((∀ before, before <+: requests → (ExactlyOnceStateMachine.initial M).passed before = firsts Request.key before) ↔
      RepeatsLast requests) ∧
    (RepeatsLast requests →
      ((ExactlyOnceStateMachine.initial M).replay requests).stateMachine = M.object.run (firsts Request.key requests) ∧
      ∀ before request after, requests = before ++ request :: after →
        ExactlyOnceStateMachine.FirstResponse M requests request
          (((ExactlyOnceStateMachine.initial M).replay before).apply request).1) := by
  refine ⟨⟨fun right before request after split => ?_, ?_⟩, fun repeats => ⟨?_, ?_⟩⟩
  · have short := right before ⟨request :: after, split.symm⟩
    have long := right (before ++ [request]) ⟨after, by rw [split, List.append_assoc, List.singleton_append]⟩
    rw [ExactlyOnceStateMachine.passed_concat, short] at long
    refine (ExactlyOnceStateMachine.remembers_right_iff (M := M) before request).mp ?_
    rw [← mem_firsts_key Request.key]
    by_cases old : request.key ∈ (firsts Request.key before).map Request.key
    · rw [firsts_concat_old _ old] at long
      refine ⟨fun _ => old, fun _ => ?_⟩
      by_contra new
      rw [if_neg new] at long
      simp at long
    · rw [firsts_concat_new _ old] at long
      refine ⟨fun remembered => ?_, fun known => absurd known old⟩
      rw [if_pos remembered] at long
      simp at long
  · rintro repeats before ⟨after, rfl⟩
    exact ExactlyOnceStateMachine.passed_eq_firsts repeats.before
  · rw [ExactlyOnceStateMachine.replay_stateMachine, ExactlyOnceStateMachine.passed_eq_firsts repeats]
  · rintro before request after rfl
    exact ExactlyOnceStateMachine.apply_response repeats

/-- A client sends two requests and the first one again. -/
def lateRepeat : List (Request Nat) := [⟨1, 1, 7⟩, ⟨2, 1, 8⟩, ⟨1, 1, 7⟩]

/-- A request that is repeated after the client's next one is executed again, and a client's first
request with the id zero is never executed. -/
theorem exactly_once_broken :
    (ExactlyOnceStateMachine.initial loggingStateMachine).passed lateRepeat = lateRepeat ∧
    firsts Request.key lateRepeat = [⟨1, 1, 7⟩, ⟨2, 1, 8⟩] ∧
    ((ExactlyOnceStateMachine.initial loggingStateMachine).replay lateRepeat).stateMachine = [7, 8, 7] ∧
    (ExactlyOnceStateMachine.initial loggingStateMachine).passed [⟨0, 1, 7⟩] = [] ∧
    firsts Request.key [(⟨0, 1, 7⟩ : Request Nat)] = [⟨0, 1, 7⟩] ∧
    ((ExactlyOnceStateMachine.initial loggingStateMachine).apply ⟨0, 1, 7⟩).1 = [] := by
  decide +kernel

/-- Two clients whose requests are repeated at once. -/
def earlyRepeat : List (Request Nat) := [⟨1, 1, 7⟩, ⟨1, 2, 8⟩, ⟨1, 1, 7⟩, ⟨2, 1, 9⟩]

/-- A request that is repeated at once is applied once. -/
theorem exactly_once_repeated :
    ((ExactlyOnceStateMachine.initial loggingStateMachine).replay earlyRepeat).stateMachine = [7, 8, 9] := by
  have parts : ∀ before ∈ earlyRepeat.inits,
      (ExactlyOnceStateMachine.initial loggingStateMachine).passed before = firsts Request.key before := by
    decide +kernel
  have repeats := (exactly_once loggingStateMachine earlyRepeat).1.mp fun before begins =>
    parts before ((List.mem_inits before earlyRepeat).mpr begins)
  exact ((exactly_once loggingStateMachine earlyRepeat).2 repeats).1

end Metamorphosis
