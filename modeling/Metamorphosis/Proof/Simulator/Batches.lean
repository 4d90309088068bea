import Metamorphosis.Proof.Simulator.Inheritance
import Metamorphosis.Proof.Simulator.Spares

/-!
The commands of a batch are executed one after another, and each of them may stop the fiber. Nobody ever sees a
part of a batch: a fiber can be stopped before the first command only.
-/

namespace Metamorphosis.Simulator

/-- A call of `Database::Write` with the commands that are still to be executed. -/
structure WriteCall where
  fiber : Nat
  owner : Nat
  path : String
  first : Command Data Data
  rest : List (Command Data Data)
  handles : Option Delivery

namespace WriteCall

def commands (call : WriteCall) : List (Command Data Data) := call.first :: call.rest

/-- What the fiber runs while it executes the batch. -/
def code (call : WriteCall) : List (Command Data Data) → Code
  | [] => .user call.handles
  | next :: left => .operation (.execute call.owner call.path next left) call.handles

end WriteCall

/-- The map after some commands. -/
def HostDatabase.write (database : HostDatabase) (commands : List (Command Data Data)) : Option HostDatabase :=
  (writeData (lessKeys database.comparator.compare) database.data commands).map fun data =>
    { database with data := data }

/-- The commands of a batch are carried out one after another. -/
theorem writeData_append (less : Data → Data → Option Bool) (data : DataMap) (done more : List (Command Data Data)) :
    writeData less data (done ++ more) = (writeData less data done).bind fun data => writeData less data more := by
  induction done generalizing data with
  | nil => rfl
  | cons command rest ih =>
      simp only [List.cons_append, writeData]
      cases executeData less data command with
      | none => rfl
      | some next => exact ih next

namespace HostDatabase

/-- A batch can be written in two parts. -/
theorem write_append (database : HostDatabase) (done more : List (Command Data Data)) :
    database.write (done ++ more) = (database.write done).bind fun next => next.write more := by
  simp only [write, writeData_append]
  cases writeData (lessKeys database.comparator.compare) database.data done with
  | none => rfl
  | some data => rfl

end HostDatabase

namespace World

def database (w : World) (owner : Nat) (path : String) : Option HostDatabase :=
  (w.hosts owner).bind fun host => host.databases path

/-- `StopFiberIfNecessary` lets a fiber pass. -/
def Free (w : World) (f : Nat) : Prop :=
  ∃ address host, (w.fibers f).props.currentHost = some address ∧ w.hosts address = some host ∧
    host.paused = false ∧ (w.fibers f).props.hostEpoch = host.epoch

/-- A step that changes no host if the given fiber makes it. -/
def IdleStep (f : Nat) (w d : World) : Prop :=
  (∃ move, w.step move = some d) ∧ (w.control = .runs f → d.hosts = w.hosts)

/-- A step of the given fiber. -/
def OwnStep (f : Nat) (w d : World) : Prop := w.control = .runs f ∧ ∃ move, w.step move = some d

/-- A fiber with an operation can only go on with it. -/
theorem step_operation {w d : World} {f : Nat} {operation : Operation} {handles : Option Delivery} {move : Move}
    (runs : w.control = .runs f) (code : (w.fibers f).code = .operation operation handles)
    (stepped : w.step move = some d) : d = w.stopFiberIfNecessary f operation handles := by
  obtain ⟨choice, went⟩ := step_goes runs (by rw [code]; rintro _ ⟨⟩) stepped
  rw [go, code] at went
  exact (Option.some.inj went).symm

/-- A fiber is free as long as its host is as before. -/
theorem Free.of_hosts {w d : World} {f : Nat} (free : w.Free f) (props : (d.fibers f).props = (w.fibers f).props)
    (hosts : ∀ address host, w.hosts address = some host →
      ∃ later, d.hosts address = some later ∧ later.paused = host.paused ∧ later.epoch = host.epoch) : d.Free f := by
  obtain ⟨address, host, current, found, unpaused, epoch⟩ := free
  obtain ⟨later, there, paused, same⟩ := hosts address host found
  exact ⟨address, later, by rw [props, current], there, by rw [paused, unpaused], by rw [props, epoch, same]⟩

/-- A write to one database leaves what stops the fibers of the hosts. -/
theorem modifyDatabase_hosts (w : World) (owner : Nat) (path : String) (database : HostDatabase) (address : Nat)
    (host : Host) (found : w.hosts address = some host) :
    ∃ later, (w.modifyHost owner fun host =>
        { host with databases := Function.update host.databases path (some database) }).hosts address = some later ∧
      later.paused = host.paused ∧ later.epoch = host.epoch := by
  by_cases same : address = owner
  · subst same
    exact ⟨{ host with databases := Function.update host.databases path (some database) }, by simp [modifyHost, found],
      rfl, rfl⟩
  · exact ⟨host, by simp [modifyHost, same, found], rfl, rfl⟩

/-- A command that was let through is executed, and the fiber goes on. -/
theorem perform_execute (w : World) (call : WriteCall) (next : Command Data Data) (left : List (Command Data Data))
    (address : Nat) (host : Host) (epoch : Nat) {d : World}
    (performed : d = w.perform call.fiber address host epoch call.handles (.execute call.owner call.path next left)) :
    d.failed.isSome = true ∧ d.hosts = w.hosts ∧ d.nextFiber = w.nextFiber ∨
    ∃ database after, w.database call.owner call.path = some database ∧ database.write [next] = some after ∧
      d.database call.owner call.path = some after ∧ d.control = w.control ∧
      (w.Free call.fiber → d.Free call.fiber) ∧ (d.fibers call.fiber).code = call.code left := by
  simp only [perform] at performed
  split at performed
  · rw [performed]
    exact Or.inl ⟨rfl, rfl, rfl⟩
  · rename_i database found
    split at performed
    · rw [performed]
      exact Or.inl ⟨rfl, rfl, rfl⟩
    · rename_i data executed
      let after : HostDatabase := { database with data := data }
      let written : World := w.modifyHost call.owner fun host =>
        { host with databases := Function.update host.databases call.path (some after) }
      have moved : d = written.onRuntime fun r => r.setCode call.fiber (call.code left) := by
        rw [performed]
        cases left with
        | nil => rfl
        | cons next left => rfl
      have wrote : database.write [next] = some after := by
        simp [HostDatabase.write, writeData, executed, after]
      have stored : d.database call.owner call.path = some after := by
        rw [moved]
        obtain ⟨owner, there, here⟩ := Option.bind_eq_some_iff.mp found
        simp [World.database, onRuntime, written, modifyHost, there]
      refine Or.inr ⟨database, after, found, wrote, stored, by rw [moved]; rfl, fun free => ?_, ?_⟩
      · rw [moved]
        apply free.of_hosts
        · simp [onRuntime, Runtime.setCode, Runtime.setFiber, written, modifyHost]
        · exact modifyDatabase_hosts w call.owner call.path after
      · rw [moved]
        exact Runtime.setCode_code

/-- What one command of a batch does: the call of `StopFiberIfNecessary` stops the fiber, or the command is
executed and the fiber goes on. -/
theorem step_execute {w d : World} {call : WriteCall} {next : Command Data Data} {left : List (Command Data Data)}
    {move : Move} (runs : w.control = .runs call.fiber)
    (code : (w.fibers call.fiber).code = call.code (next :: left)) (stepped : w.step move = some d) :
    d.failed.isSome = true ∧ d.hosts = w.hosts ∧ d.nextFiber = w.nextFiber ∨
    (¬w.Free call.fiber ∧ d.hosts = w.hosts ∧ d.nextFiber = w.nextFiber ∧
      ((d.fibers call.fiber).code = call.code (next :: left) ∨ (d.fibers call.fiber).code = .blocked)) ∨
    ∃ database after, w.Free call.fiber ∧ w.database call.owner call.path = some database ∧
      database.write [next] = some after ∧ d.database call.owner call.path = some after ∧
      d.control = .runs call.fiber ∧ d.Free call.fiber ∧ (d.fibers call.fiber).code = call.code left := by
  rw [step_operation runs code stepped]
  generalize effect : w.stopFiberIfNecessary call.fiber _ _ = d
  have stops := w.stopFiberIfNecessary_stops call.fiber (.execute call.owner call.path next left) call.handles
  rw [effect] at stops
  cases stops with
  | nowhere | early => exact Or.inl ⟨rfl, rfl, rfl⟩
  | paused current found paused =>
      refine Or.inr (Or.inl ⟨?_, rfl, rfl, Or.inl ?_⟩)
      · rintro ⟨other, there, same, present, running, _⟩
        cases current.symm.trans same
        cases found.symm.trans present
        cases paused.symm.trans running
      · simp [onRuntime, Runtime.suspend, Runtime.setFiber, WriteCall.code]
  | killed current found killed =>
      refine Or.inr (Or.inl ⟨?_, rfl, rfl, Or.inr ?_⟩)
      · rintro ⟨other, there, same, present, _, epoch⟩
        cases current.symm.trans same
        cases found.symm.trans present
        exact killed epoch
      · simp [onRuntime, Runtime.suspend, Runtime.setFiber]
  | @passes address host current found running epoch =>
      have free : w.Free call.fiber := ⟨address, host, current, found, running, epoch⟩
      rcases perform_execute w call next left address host _ rfl with failed | ⟨database, after, there, wrote,
        stored, control, still, goes⟩
      · exact Or.inl failed
      · exact Or.inr (Or.inr ⟨database, after, free, there, wrote, stored, control.trans runs, still free, goes⟩)

/-- A blocked fiber makes no step. -/
theorem step_blocked {w : World} {f : Nat} (runs : w.control = .runs f) (code : (w.fibers f).code = .blocked)
    (move : Move) : w.step move = none := by
  rw [Option.eq_none_iff_forall_ne_some]
  intro d stepped
  obtain ⟨choice, went⟩ := step_goes runs (by rw [code]; rintro _ ⟨⟩) stepped
  rw [go, code] at went
  cases went

end World

namespace WriteCall
variable (call : WriteCall)

/-- The fiber has executed no command of the batch. -/
structure Pending (w d : World) : Prop where
  idle : Relation.ReflTransGen (World.IdleStep call.fiber) w d
  born : call.fiber < d.nextFiber
  code : d.failed.isSome = true ∨ (d.fibers call.fiber).code = call.code call.commands ∨
    (d.fibers call.fiber).code = .blocked

/-- The fiber has executed the first commands of the batch and is about to execute the next one. Nobody else has
run since it began, and its host is neither paused nor killed. -/
structure Inside (database : HostDatabase) (v d : World) : Prop where
  own : Relation.ReflTransGen (World.OwnStep call.fiber) v d
  runs : d.control = .runs call.fiber
  free : d.Free call.fiber
  progress : ∃ done next left after, call.commands = done ++ next :: left ∧ done ≠ [] ∧
    (d.fibers call.fiber).code = call.code (next :: left) ∧ database.write done = some after ∧
    d.database call.owner call.path = some after

/-- The fiber has executed the whole batch, and nobody else has run meanwhile. -/
structure Written (database : HostDatabase) (v d : World) : Prop where
  own : Relation.ReflTransGen (World.OwnStep call.fiber) v d
  stored : ∃ after, database.write call.commands = some after ∧ d.database call.owner call.path = some after

/-- The simulation failed while the fiber executed the batch. -/
structure Failed (v d : World) : Prop where
  own : Relation.ReflTransGen (World.OwnStep call.fiber) v d
  failed : d.failed.isSome = true

/-- How far a batch has got: the fiber has not begun, or it began in a world `v` and did not stop until it had
executed all commands. -/
def Atomic (w d : World) : Prop :=
  call.Pending w d ∨ ∃ v database, call.Pending w v ∧ v.control = .runs call.fiber ∧
    v.database call.owner call.path = some database ∧
    (call.Inside database v d ∨ call.Failed v d ∨
      ∃ u, call.Written database v u ∧ Relation.ReflTransGen (Script.Next World.step World.Any) u d)

variable {call}

/-- The next step leaves the batch as it is or executes its first command. -/
theorem Pending.step {w d e : World} {move : Move} (pending : call.Pending w d) (stepped : d.step move = some e) :
    call.Atomic w e := by
  by_cases runs : d.control = .runs call.fiber
  · rcases pending.code with failed | waiting | blocked
    · simp [World.step, failed] at stepped
    · rcases World.step_execute runs waiting stepped with ⟨failed, hosts, born⟩ | ⟨_, hosts, born, code⟩ |
        ⟨database, after, _, there, wrote, stored, control, free, code⟩
      · exact Or.inl ⟨pending.idle.tail ⟨⟨move, stepped⟩, fun _ => hosts⟩, born ▸ pending.born, Or.inl failed⟩
      · exact Or.inl ⟨pending.idle.tail ⟨⟨move, stepped⟩, fun _ => hosts⟩, born ▸ pending.born, Or.inr code⟩
      · refine Or.inr ⟨d, database, pending, runs, there, ?_⟩
        have own : Relation.ReflTransGen (World.OwnStep call.fiber) d e := .single ⟨runs, move, stepped⟩
        cases rest : call.rest with
        | nil =>
            refine Or.inr (Or.inr ⟨e, ⟨own, after, ?_, stored⟩, .refl⟩)
            rw [commands, rest]
            exact wrote
        | cons next left =>
            refine Or.inl ⟨own, control, free, [call.first], next, left, after, ?_, by simp, ?_, wrote, stored⟩
            · rw [commands, rest]
              rfl
            · rw [code, rest]
    · cases (World.step_blocked runs blocked move).symm.trans stepped
  · have spared := World.step_spares pending.born runs stepped
    have unfailed : ¬d.failed.isSome = true := by
      intro failed
      simp [World.step, failed] at stepped
    refine Or.inl ⟨pending.idle.tail ⟨⟨move, stepped⟩, fun running => absurd running runs⟩,
      Nat.lt_of_lt_of_le pending.born spared.born, Or.inr ?_⟩
    rw [spared.code]
    exact pending.code.resolve_left unfailed

/-- The fiber cannot be stopped inside the batch. -/
theorem Inside.step {database : HostDatabase} {v d e : World} {move : Move} (inside : call.Inside database v d)
    (stepped : d.step move = some e) :
    call.Inside database v e ∨ call.Failed v e ∨ call.Written database v e := by
  obtain ⟨own, runs, free, done, next, left, before, split, _, code, wrote, stored⟩ := inside
  have further : Relation.ReflTransGen (World.OwnStep call.fiber) v e := own.tail ⟨runs, move, stepped⟩
  rcases World.step_execute runs code stepped with ⟨failed, _⟩ | ⟨stops, _⟩ |
    ⟨found, after, _, there, executed, now, control, still, goes⟩
  · exact Or.inr (Or.inl ⟨further, failed⟩)
  · exact absurd free stops
  · have same : found = before := Option.some.inj (there.symm.trans stored)
    have all : database.write (done ++ [next]) = some after := by
      rw [HostDatabase.write_append, wrote]
      exact same ▸ executed
    cases left with
    | nil =>
        refine Or.inr (Or.inr ⟨further, after, ?_, now⟩)
        rw [split]
        exact all
    | cons following left =>
        refine Or.inl ⟨further, control, still, done ++ [next], following, left, after, ?_, by simp, goes, all, now⟩
        rw [split, List.append_assoc]
        rfl

/-- Every step keeps the batch indivisible. -/
theorem Atomic.step {w d e : World} {move : Move} (atomic : call.Atomic w d) (stepped : d.step move = some e) :
    call.Atomic w e := by
  rcases atomic with pending | ⟨v, database, pending, runs, there, inside | failed | ⟨u, written, run⟩⟩
  · exact pending.step stepped
  · refine Or.inr ⟨v, database, pending, runs, there, ?_⟩
    rcases inside.step stepped with still | failed | written
    · exact Or.inl still
    · exact Or.inr (Or.inl failed)
    · exact Or.inr (Or.inr ⟨e, written, .refl⟩)
  · simp [World.step, failed.failed] at stepped
  · exact Or.inr ⟨v, database, pending, runs, there, Or.inr (Or.inr ⟨u, written, run.tail ⟨move, trivial, stepped⟩⟩)⟩

end WriteCall

/-- A batch is never seen in parts, whatever the other fibers do. -/
theorem batch_atomic (call : WriteCall) {w d : World} (born : call.fiber < w.nextFiber)
    (called : (w.fibers call.fiber).code = call.code call.commands)
    (run : Relation.ReflTransGen (Script.Next World.step World.Any) w d) : call.Atomic w d := by
  induction run with
  | refl => exact Or.inl ⟨.refl, born, Or.inr (Or.inl called)⟩
  | tail _ last ih =>
      obtain ⟨move, _, stepped⟩ := last
      exact ih.step stepped

/-- A batch of the main fiber of the first host. -/
def sampleCall : WriteCall := ⟨2, 0, "log", .put [1] [2], [.put [3] [4]], none⟩

/-- The fiber opens a database and calls `Write` while its host is paused. -/
def batchScript : List Move :=
  twoHostsScript ++
    [.on, .pick 1, .on, .on, .does (.call (.openDatabase "log" true ⟨"bytes", compareKeys stringSerde⟩)), .on,
      .does (.pauseHost 0), .does (.call (.execute 0 "log" (.put [1] [2]) [.put [3] [4]]))]

/-- The fiber is stopped, a fiber of the second host resumes the first one, and the batch is written. -/
def writtenScript : List Move :=
  [.on, .pick 0, .on, .pick 0, .on, .pick 1, .on, .on, .does (.resumeHost 0), .does .finish, .pick 1, .on, .on]

theorem batchScript_possible : (Script.play World.step World.Any World.initial batchScript).isSome = true := by
  decide +kernel

def batchWorld : World := Script.endOf World.step World.Any World.initial batchScript batchScript_possible

theorem writtenScript_possible : (Script.play World.step World.Any batchWorld writtenScript).isSome = true := by
  decide +kernel

def writtenWorld : World := Script.endOf World.step World.Any batchWorld writtenScript writtenScript_possible

theorem batchWorld_code : (batchWorld.fibers 2).code = sampleCall.code sampleCall.commands := rfl

/-- Two commands are in the database after their batch was written. -/
theorem batch_atomic_sample :
    sampleCall.Atomic batchWorld writtenWorld ∧
    (batchWorld.database 0 "log").map HostDatabase.data = some [] ∧
    (writtenWorld.database 0 "log").map HostDatabase.data = some [([1], [2]), ([3], [4])] :=
  ⟨batch_atomic sampleCall (by decide +kernel) batchWorld_code (Script.endOf_run writtenScript_possible),
    by decide +kernel, by decide +kernel⟩

end Metamorphosis.Simulator
