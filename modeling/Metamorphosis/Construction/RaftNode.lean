import Metamorphosis.Construction.Cluster

namespace Metamorphosis

/-- The user's `IStateMachine`; `Cmd` and `Res` stand for `google::protobuf::Any`. -/
structure StateMachine where
  State : Type
  Cmd : Type
  Res : Type
  sameCmd : DecidableEq Cmd
  /-- The empty `Any`. -/
  none : Res
  initial : State
  apply : State → Cmd → Res × State

instance (M : StateMachine) : DecidableEq M.Cmd := M.sameCmd

/-- `LoggingStateMachine` of the tests. -/
abbrev loggingStateMachine : StateMachine where
  State := List Nat
  Cmd := Nat
  Res := List Nat
  sameCmd := inferInstance
  none := []
  initial := []
  apply log command := (log ++ [command], log ++ [command])

/-- `Request`. -/
structure Request (Cmd : Type) where
  requestId : Nat
  clientId : Nat
  command : Cmd
deriving DecidableEq

/-- `LogEntry`. -/
structure LogEntry (Cmd : Type) where
  term : Nat
  request : Request Cmd
deriving DecidableEq

/-- `Response.Status`. -/
inductive ResponseStatus where
  | notALeader
  | commited
deriving DecidableEq

/-- `Response`. -/
structure Response (Res : Type) where
  status : ResponseStatus
  result : Res

/-- `LastClientData`. -/
structure LastClientData (Res : Type) where
  response : Res
  requestId : Nat

/-- `ExactlyOnceStateMachine` remembers the last request of every client. -/
structure ExactlyOnceStateMachine (M : StateMachine) where
  stateMachine : M.State
  clientsLastCmdId : Nat → Option (LastClientData M.Res)

namespace ExactlyOnceStateMachine
variable {M : StateMachine}

def initial (M : StateMachine) : ExactlyOnceStateMachine M := ⟨M.initial, fun _ => none⟩

/-- `ExactlyOnceStateMachine::Apply`. A client that is not in the table gets the default record. -/
def apply (rsm : ExactlyOnceStateMachine M) (request : Request M.Cmd) :
    M.Res × ExactlyOnceStateMachine M :=
  let lastData := (rsm.clientsLastCmdId request.clientId).getD ⟨M.none, 0⟩
  if lastData.requestId = request.requestId then
    (lastData.response,
      { rsm with clientsLastCmdId := Function.update rsm.clientsLastCmdId request.clientId (some lastData) })
  else
    let (response, state) := M.apply rsm.stateMachine request.command
    (response,
      ⟨state, Function.update rsm.clientsLastCmdId request.clientId (some ⟨response, request.requestId⟩)⟩)

end ExactlyOnceStateMachine

/-- `RaftNode`: every client call makes an entry, a request carries the whole rest of the log,
and a committed entry is applied to the state machine. -/
abbrev raftService (M : StateMachine) (n : Nat) : Service n where
  Entry := LogEntry M.Cmd
  Ext := ExactlyOnceStateMachine M
  Request := Request M.Cmd
  Payload := M.Res
  Response := Response M.Res
  sameEntry := inferInstance
  term := LogEntry.term
  construct _ := ExactlyOnceStateMachine.initial M
  becomeLeader rsm := rsm
  startLeader rsm := rsm
  newEntry rsm currentTerm request := .inr (⟨currentTerm, request⟩, rsm)
  rewrite rsm _ _ := rsm
  saved rsm _ := rsm
  commit rsm _ entry := entry.map fun entry => rsm.apply entry.request
  commit_stored _ _ _ := rfl
  lastLogEntryIndex _ _ _ _ nextIndex := nextIndex - 1
  encode _ _ entry := entry
  callFailed rsm _ _ := rsm
  callAnswered rsm _ _ := rsm
  notALeader := ⟨.notALeader, M.none⟩
  release rsm _ := rsm
  committed rsm _ result := (⟨.commited, result.getD M.none⟩, rsm)

/-- A cluster of `RaftNode`s. -/
abbrev RaftCluster (M : StateMachine) (n : Nat) := Cluster (raftService M n)

end Metamorphosis
