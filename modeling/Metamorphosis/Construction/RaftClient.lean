import Metamorphosis.Construction.Errors
import Metamorphosis.Construction.RaftNode

namespace Metamorphosis

/-- `RaftClientError`: a `RaftClientErrorType` or the error of an rpc. -/
inductive RaftClientError where
  | globalTimeout
  | rpcTimeout
  | notLeader
  | rpcError (type : RpcErrorType)
deriving DecidableEq

/-- `RequestState`. -/
inductive RequestState where
  | running
  | cancelled
  | globalTimeout
  | finished
deriving DecidableEq

/-- Where `Apply` is suspended: in the rpc of `StartAttempt`, or in the backoff after an attempt. -/
inductive ApplyFiber where
  | startAttempt (seq : Nat) (rpcTimedOut : Bool)
  | backoff (error : RaftClientError)
deriving DecidableEq

/-- A call of `Apply` that has not returned. -/
structure ApplyCall (Cmd : Type) where
  request : Request Cmd
  retryCount : Nat
  state : RequestState
  attemptId : Nat
  fiber : ApplyFiber

/-- `stop_source` is stopped right after the state leaves `Running`. -/
def ApplyCall.stopRequested {Cmd : Type} (call : ApplyCall Cmd) : Prop := call.state ≠ .running

instance {Cmd : Type} (call : ApplyCall Cmd) : Decidable call.stopRequested :=
  inferInstanceAs (Decidable (_ ≠ _))

/-- `RaftClient`; `issued` counts its rpcs. -/
structure RaftClient (Cmd : Type) where
  currentLeader : Nat
  issued : Nat
  call : Option (ApplyCall Cmd)

/-- The rpc that a client waits for. -/
def RaftClient.calling {Cmd : Type} (client : RaftClient Cmd) : Option Nat :=
  match client.call with
  | some ⟨_, _, _, _, .startAttempt seq _⟩ => some seq
  | _ => none

/-- An `Execute` rpc; `seq` numbers the rpcs of one client. -/
structure ExecuteCall (Cmd : Type) (n : Nat) where
  client : Nat
  seq : Nat
  callee : Fin n
  request : Request Cmd

/-- `Apply` was called. -/
structure Issued (Cmd : Type) where
  request : Request Cmd
  time : Nat

/-- `Apply` returned. -/
structure Returned (M : StateMachine) where
  request : Request M.Cmd
  result : Except RaftClientError M.Res
  time : Nat

/-- A cluster and its clients, which are named by their `client_id_`. An rpc stays in its list, so
it can be handled late, never, or more than once; handled rpcs are listed with the node's tag. -/
structure System (M : StateMachine) (n : Nat) where
  cluster : RaftCluster M n
  clients : Nat → RaftClient M.Cmd
  executeCalls : List (ExecuteCall M.Cmd n)
  handledCalls : List (ExecuteCall M.Cmd n × Nat)
  issued : List (Issued M.Cmd)
  returned : List (Returned M)

def System.initial (M : StateMachine) (n : Nat) : System M n where
  cluster := .initial _
  clients _ := ⟨0, 0, none⟩
  executeCalls := []
  handledCalls := []
  issued := []
  returned := []

/-- What a client can do next. An answer is named by its place in the list of the nodes' answers. -/
inductive ClientAction (Cmd : Type) where
  | apply (requestId : Nat) (command : Cmd) (retryCount : Nat)
  | rpcTimeout
  | executeFailed (error : RpcErrorType)
  | executeAnswered (place : Nat)
  | backoffEnd
  | cancel
  | globalTimeout

/-- What can happen next; `stop` breaks a node's step off as in the cluster. -/
inductive SystemAction (M : StateMachine) (n : Nat) where
  | node (stop : Option Nat) (action : Action (raftService M n))
  | handleExecute (stop : Option Nat) (place : Nat)
  | client (id : Nat) (action : ClientAction M.Cmd)

namespace System
variable {M : StateMachine} {n : Nat}

def setClient (s : System M n) (id : Nat) (client : RaftClient M.Cmd) : System M n :=
  { s with clients := Function.update s.clients id client }

/-- The call goes on with its values changed. -/
def setCall (s : System M n) (id : Nat) (call : ApplyCall M.Cmd) : System M n :=
  s.setClient id { s.clients id with call := some call }

def noteIssued (s : System M n) (request : Request M.Cmd) : System M n :=
  { s with issued := s.issued ++ [⟨request, s.cluster.clock⟩] }

/-- `StartAttempt` up to its rpc. There is no node to call in an empty cluster. -/
def startAttempt (s : System M n) (id : Nat) (call : ApplyCall M.Cmd) : Option (System M n) :=
  let client := s.clients id
  if present : client.currentLeader < n then
    some { s.setClient id
        { client with
          issued := client.issued + 1
          call := some { call with fiber := .startAttempt client.issued false } } with
      executeCalls := s.executeCalls ++ [⟨id, client.issued, ⟨client.currentLeader, present⟩, call.request⟩] }
  else none

/-- `Apply` after an attempt with an error: the next node is tried after a pause. -/
def attemptFailed (s : System M n) (id : Nat) (call : ApplyCall M.Cmd) (error : RaftClientError) : System M n :=
  let client := s.clients id
  s.setClient id
    { client with
      currentLeader := (client.currentLeader + 1) % n
      call := some { call with fiber := .backoff error } }

/-- The result of `Apply` after its last attempt. -/
def applyResult (state : RequestState) (result : Except RaftClientError M.Res) : Except RaftClientError M.Res :=
  match state with
  | .cancelled => .error (.rpcError .cancelled)
  | .globalTimeout => .error .globalTimeout
  | _ => result

/-- `Apply` returns. -/
def applyEnd (s : System M n) (id : Nat) (call : ApplyCall M.Cmd) (result : Except RaftClientError M.Res) :
    System M n :=
  { s.setClient id { s.clients id with call := none } with
    returned := s.returned ++ [⟨call.request, applyResult call.state result, s.cluster.clock⟩] }

/-- The client's rpc was handled by the node and got its answer. -/
def Answers (s : System M n) (id seq : Nat) (answer : Answered (raftService M n)) : Prop :=
  ∃ handled ∈ s.handledCalls, handled.1.client = id ∧ handled.1.seq = seq ∧ handled.1.callee = answer.node ∧
    handled.2 = answer.tag

instance (s : System M n) (id seq : Nat) (answer : Answered (raftService M n)) : Decidable (s.Answers id seq answer) :=
  inferInstanceAs (Decidable (∃ handled ∈ s.handledCalls, _))

/-- One step of a client without the clock; `none` where the step is not possible. -/
def actClient (s : System M n) (id : Nat) : ClientAction M.Cmd → Option (System M n)
  | .apply requestId command retryCount =>
      match (s.clients id).call with
      | some _ => none
      | none =>
          let request : Request M.Cmd := ⟨requestId, id, command⟩
          (s.noteIssued request).startAttempt id ⟨request, retryCount, .running, 0, .startAttempt 0 false⟩
  | .rpcTimeout => do
      let call ← (s.clients id).call
      match call.fiber with
      | .startAttempt seq _ => some (s.setCall id { call with fiber := .startAttempt seq true })
      | .backoff _ => none
  | .executeFailed error => do
      let call ← (s.clients id).call
      match call.fiber with
      | .startAttempt _ rpcTimedOut =>
          some (s.attemptFailed id call (if rpcTimedOut then .rpcTimeout else .rpcError error))
      | .backoff _ => none
  | .executeAnswered place => do
      let call ← (s.clients id).call
      let answer ← s.cluster.answered[place]?
      match call.fiber with
      | .startAttempt seq _ =>
          if s.Answers id seq answer then
            match answer.response.status with
            | .notALeader => some (s.attemptFailed id call .notLeader)
            | .commited => some (s.applyEnd id call (.ok answer.response.result))
          else none
      | .backoff _ => none
  | .backoffEnd => do
      let call ← (s.clients id).call
      match call.fiber with
      | .startAttempt .. => none
      | .backoff error =>
          let call := { call with attemptId := call.attemptId + 1 }
          if call.attemptId ≤ call.retryCount ∧ ¬ call.stopRequested then s.startAttempt id call
          else some (s.applyEnd id call (.error error))
  | .cancel => do
      let call ← (s.clients id).call
      if call.state = .running then some (s.setCall id { call with state := .cancelled }) else some s
  | .globalTimeout => do
      let call ← (s.clients id).call
      if call.state = .running then some (s.setCall id { call with state := .globalTimeout }) else some s

/-- Time goes on. -/
def tick (s : System M n) : System M n :=
  { s with cluster := { s.cluster with clock := s.cluster.clock + 1 } }

/-- One step of the system. The nodes are called by clients only. -/
def step (s : System M n) : SystemAction M n → Option (System M n)
  | .node _ (.execute ..) => none
  | .node stop action => (s.cluster.step stop action).map fun cluster => { s with cluster := cluster }
  | .handleExecute stop place => do
      let call ← s.executeCalls[place]?
      let cluster ← s.cluster.step stop (.execute call.callee call.request)
      some { s with cluster := cluster, handledCalls := s.handledCalls ++ [(call, s.cluster.clock)] }
  | .client id action => (s.actClient id action).map tick

/-- The steps that are considered: the `AppendEntries` calls of one session are handled at most once
and in order, an `Execute` call is handled at most once and only while its client waits for it, and
the request ids of a client are not zero and all different. -/
def Orderly (s : System M n) : SystemAction M n → Prop
  | .node _ action => s.cluster.InOrder action
  | .handleExecute _ place => ∀ call ∈ s.executeCalls[place]?, (s.clients call.client).calling = some call.seq ∧
      ∀ handled ∈ s.handledCalls, handled.1.client = call.client → handled.1.seq ≠ call.seq
  | .client id (.apply requestId _ _) => requestId ≠ 0 ∧ ∀ record ∈ s.issued, record.request.clientId = id →
      record.request.requestId ≠ requestId
  | .client .. => True

def Next (s t : System M n) : Prop :=
  ∃ action, s.Orderly action ∧ s.step action = some t

/-- A run of the system. -/
abbrev Run : System M n → System M n → Prop :=
  Relation.ReflTransGen Next

end System

end Metamorphosis
