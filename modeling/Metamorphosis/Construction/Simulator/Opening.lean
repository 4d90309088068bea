import Metamorphosis.Construction.Simulator.World

/-!
`Database::Open` with its answers, and what happens to the databases of one host: it is killed and started, and
its fibers open databases.
-/

namespace Metamorphosis.Simulator

/-- The arguments of `Database::Open`. -/
structure OpenCall where
  path : String
  createIfMissing : Bool
  comparator : Comparator

inductive HostEvent where
  | kill
  | start (fiber : Nat)
  | openDatabase (call : OpenCall)

def namesDiffer (stored given : String) : DBError :=
  ⟨.invalidArgument, "comparator names does not match: " ++ stored ++ " != " ++ given⟩

namespace Host

/-- `Database::Open` in an epoch. The epoch is written before the names of the comparators are compared. -/
def openDatabase (host : Host) (call : OpenCall) (epoch : Nat) : Option (Except DBError Unit × Host) :=
  match host.databases call.path with
  | none =>
      if call.createIfMissing then
        let created : HostDatabase := ⟨call.comparator, [], epoch⟩
        some (.ok (), { host with databases := Function.update host.databases call.path (some created) })
      else some (.error ⟨.invalidArgument, "database is missing"⟩, host)
  | some database =>
      if epoch < database.epoch then none
      else if database.epoch = epoch then some (.error ⟨.internal, "database is opened twice"⟩, host)
      else
        let opened : HostDatabase := { database with epoch := epoch }
        let next := { host with databases := Function.update host.databases call.path (some opened) }
        if call.comparator.name ≠ database.comparator.name then
          some (.error (namesDiffer database.comparator.name call.comparator.name), next)
        else some (.ok (), next)

/-- One event with the answers to it. A fiber that `StopFiberIfNecessary` lets pass has the epoch of its host. -/
def event (host : Host) : HostEvent → Option (List (Except DBError Unit) × Host)
  | .kill => some ([], host.killHost)
  | .start fiber =>
      match host.mainFiber with
      | some _ => some ([], host)
      | none => some ([], { host with mainFiber := some fiber })
  | .openDatabase call => (host.openDatabase call host.epoch).map fun result => ([result.1], result.2)

/-- The answers to a sequence of events. -/
def events (host : Host) : List HostEvent → Option (List (Except DBError Unit) × Host)
  | [] => some ([], host)
  | first :: rest => do
      let (answers, next) ← host.event first
      let (others, last) ← next.events rest
      some (answers ++ others, last)

end Host

end Metamorphosis.Simulator
