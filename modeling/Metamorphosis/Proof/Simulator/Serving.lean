import Metamorphosis.Proof.Simulator.Isolation
import Metamorphosis.Proof.Simulator.ShutDown

/-!
A server and the host that it runs on. They are modelled apart from each other: the host knows only which server is at
a port, and the server knows only whether it is there. Here both take their steps together, so that what the server
does with its requests is what the callers in the simulated world see.
-/

namespace Metamorphosis.Simulator

/-- A server with the address of its host and its port. -/
structure Place where
  address : Nat
  port : Nat
  server : Nat

/-- What an operation of the host is to the server at a port. -/
def Operation.atPort (request : Delivery → ServerRequest) (port f : Nat) : Operation → Option ServerAction
  | .registerServer _ used => if used = port then some (.registerServer f) else none
  | .unregisterServer used => if used = port then some (.unregisterServer f) else none
  | .processRequest delivery => if delivery.port = port then some (.processRequest f (request delivery)) else none
  | _ => none

/-- The server and the port of a registration. -/
def Operation.registers : Operation → Option (Nat × Nat)
  | .registerServer server port => some (server, port)
  | _ => none

/-- The steps of a server in which its host has no part. -/
def ServerAction.own : ServerAction → Bool
  | register _ | start _ | run _ | shutDown _ | wake _ | handled .. => true
  | registerServer _ | unregisterServer _ | processRequest .. | killHost => false

namespace World

/-- The operation that the running fiber carries out on a host in the next step. -/
def passing (w : World) (address : Nat) : Move → Option (Nat × Operation)
  | .go _ =>
      match w.control, w.hosts address with
      | .runs f, some host =>
          match (w.fibers f).code with
          | .operation operation _ =>
              if (w.fibers f).props.currentHost = some address ∧ host.paused = false ∧
                  (w.fibers f).props.hostEpoch = host.epoch then some (f, operation)
              else none
          | _ => none
      | _, _ => none
  | _ => none

/-- The part of a server in a step of the world. Its host is killed if the epoch changes. -/
def part (w d : World) (place : Place) (request : Delivery → ServerRequest) (move : Move) : Option ServerAction :=
  match w.passing place.address move with
  | some (f, operation) => operation.atPort request place.port f
  | none =>
      if (d.hosts place.address).map Host.epoch = (w.hosts place.address).map Host.epoch then none else some .killHost

variable {w d : World} {place : Place} {request : Delivery → ServerRequest} {move : Move}

/-- A step with an operation on a host is one in which the operation passes. -/
theorem passes_of_passing {address f : Nat} {operation : Operation} (stepped : w.step move = some d)
    (passing : w.passing address move = some (f, operation)) :
    ∃ host handles, w.Passes d f address host operation handles := by
  cases step_stepped stepped with
  | pick => cases passing
  | user => cases passing
  | @go g choice _ runs went =>
      rw [World.passing, runs] at passing
      cases found : w.hosts address with
      | none =>
          rw [found] at passing
          cases passing
      | some host =>
          rw [found] at passing
          dsimp only at passing
          cases code : (w.fibers g).code with
          | operation performed handles =>
              rw [code] at passing
              obtain ⟨⟨current, awake, epoch⟩, same⟩ := Option.ite_none_right_eq_some.mp passing
              cases same
              refine ⟨host, handles, runs, code, current, found, awake, epoch, ?_⟩
              rw [go, code] at went
              cases went
              simp [stopFiberIfNecessary, current, found, awake, epoch]
          | _ =>
              rw [code] at passing
              cases passing

/-- An operation that passes on a host is the one of the step. -/
theorem Passes.passing {f address : Nat} {host : Host} {operation : Operation} {handles : Option Delivery}
    (passes : w.Passes d f address host operation handles) (stepped : w.step move = some d) :
    w.passing address move = some (f, operation) := by
  cases step_stepped stepped with
  | pick picks => cases picks.symm.trans passes.runs
  | user runs code =>
      cases runs.symm.trans passes.runs
      cases code.symm.trans passes.code
  | go runs went =>
      cases runs.symm.trans passes.runs
      simp [World.passing, passes.runs, passes.found, passes.code, passes.current, passes.awake, passes.epoch]

/-- The port of a host has the same server as before. -/
def PortKept (w d : World) (address port : Nat) : Prop :=
  ∀ host, w.hosts address = some host → ∃ later, d.hosts address = some later ∧ later.servers port = host.servers port

/-- An operation leaves every port alone except the one that it is about. -/
theorem perform_port (request : Delivery → ServerRequest) {f target address port : Nat} {host : Host}
    {handles : Option Delivery} {operation : Operation} (current : w.hosts target = some host)
    (apart : target = address → operation.atPort request port f = none) :
    w.PortKept (w.perform f target host host.epoch handles operation) address port := by
  intro before found
  obtain ⟨later, still, operated⟩ := (perform_operated current operation).1.keeps found
  refine ⟨later, still, operated.servers port fun here used => ?_⟩
  have silent := apart here
  cases operation with
  | registerServer | unregisterServer =>
      cases used
      simp [Operation.atPort] at silent
  | _ => cases used

/-- A step in which the server has no part leaves its port alone. -/
theorem part_none (stepped : w.step move = some d) (present : ∃ host, w.hosts place.address = some host)
    (apart : w.part d place request move = none) : w.PortKept d place.address place.port := by
  obtain ⟨old, there⟩ := present
  rw [part] at apart
  cases passing : w.passing place.address move with
  | some performed =>
      rw [passing] at apart
      obtain ⟨host, handles, passes⟩ := passes_of_passing stepped passing
      rw [passes.after]
      exact perform_port request passes.found fun _ => apart
  | none =>
      rw [passing] at apart
      dsimp only at apart
      split at apart
      swap
      · cases apart
      rename_i epochs
      rcases step_effect stepped with tended | ⟨f, address, host, operation, handles, passes⟩ | ⟨f, clears⟩
      · intro host found
        obtain ⟨later, still, survives⟩ := tended.quiet.hosts place.address host found
        rcases survives.servers with ⟨_, same⟩ | ⟨raised, _⟩
        · exact ⟨later, still, by rw [same]⟩
        · rw [found, still, Option.map_some, Option.map_some, Option.some.injEq] at epochs
          omega
      · rw [passes.after]
        refine perform_port request passes.found fun here => ?_
        rw [← here, passes.passing stepped] at passing
        cases passing
      · rw [there, clears.cleared] at epochs
        cases epochs

/-- After a kill the host has no server at the port, or the simulation is over. -/
theorem part_kill (stepped : w.step move = some d) (present : ∃ host, w.hosts place.address = some host)
    (killed : w.part d place request move = some .killHost) :
    (∃ later, d.hosts place.address = some later ∧ later.servers place.port = none) ∨
      d.hosts place.address = none ∧ ∀ next, d.step next = none := by
  obtain ⟨host, found⟩ := present
  rw [part] at killed
  cases passing : w.passing place.address move with
  | some performed =>
      rw [passing] at killed
      dsimp only at killed
      cases operation : performed.2 with
      | registerServer | unregisterServer | processRequest =>
          rw [operation, Operation.atPort] at killed
          split at killed <;> cases killed
      | _ =>
          rw [operation] at killed
          cases killed
  | none =>
      rw [passing] at killed
      dsimp only at killed
      split at killed
      · cases killed
      rename_i epochs
      rw [found, Option.map_some] at epochs
      rcases step_effect stepped with tended | ⟨f, address, host, operation, handles, passes⟩ | ⟨f, clears⟩
      · obtain ⟨later, still, survives⟩ := tended.quiet.hosts place.address host found
        rcases survives.servers with ⟨same, _⟩ | ⟨_, lost⟩
        · rw [still, Option.map_some, same] at epochs
          exact absurd rfl epochs
        · exact Or.inl ⟨later, still, lost place.port⟩
      · obtain ⟨later, still, operated⟩ := (perform_operated passes.found operation).1.keeps found
        rw [passes.after] at epochs
        rw [still, Option.map_some, operated.epoch] at epochs
        exact absurd rfl epochs
      · exact Or.inr ⟨by rw [clears.cleared]; rfl, clears.stuck⟩

end World

/-- A world, and a server at a place of it. -/
structure Served where
  world : World
  server : RpcServer

namespace Served
variable (place : Place) (request : Delivery → ServerRequest)

/-- A step of the server by itself, or a step of the world in which the server may have a part. -/
def step (served : Served) : ServerAction ⊕ Move → Option Served
  | .inl action => if action.own then (served.server.step action).map (Served.mk served.world) else none
  | .inr move => do
      let world ← served.world.step move
      match served.world.part world place request move with
      | none => some ⟨world, served.server⟩
      | some action => (served.server.step action).map (Served.mk world)

/-- Nobody else registers a server at the port. -/
def Alone (served : Served) : ServerAction ⊕ Move → Prop
  | .inl _ => True
  | .inr move =>
      ∀ registered ∈ (served.world.passing place.address move).bind fun performed => performed.2.registers,
        registered.2 = place.port → registered.1 = place.server

instance (served : Served) : ∀ action, Decidable (served.Alone place action)
  | .inl _ => isTrue trivial
  | .inr _ => inferInstanceAs (Decidable (∀ _ ∈ _, _))

/-- A run of the world with the server at its place. -/
abbrev Run : Served → Served → Prop := Relation.ReflTransGen (Script.Next (step place request) (Alone place))

end Served

section Registered
variable {s t : RpcServer} {f : Nat}

theorem RpcServer.awaitShutdown_registered (s : RpcServer) (f : Nat) :
    (s.awaitShutdown f).registered = s.registered := by
  rw [awaitShutdown]
  split <;> rfl

theorem RpcServer.awaitZero_registered (s : RpcServer) (f : Nat) : (s.awaitZero f).registered = s.registered := by
  rw [awaitZero]
  split <;> rfl

/-- A request that waits, is handled or ends leaves the port alone. -/
theorem RpcServer.awaitWorker_registered (s : RpcServer) (f : Nat) (request : ServerRequest) :
    (s.awaitWorker f request).registered = s.registered := by
  rw [awaitWorker]
  split
  · rw [dispatch]
    split <;> rfl
  · rfl

/-- A step of the server by itself does not change its port. -/
theorem RpcServer.own_registered {action : ServerAction} (own : action.own = true) (stepped : s.step action = some t) :
    t.registered = s.registered := by
  cases step_changes stepped with
  | registerServer | unregisterServer | processRequest | refuse | killHost => cases own
  | run f => exact awaitShutdown_registered _ f
  | wakeRun f => exact awaitShutdown_registered s f
  | wakeShutDown f => exact awaitZero_registered s f
  | wakeRequest f request => exact awaitWorker_registered s f request
  | fail | register | start | shutDown | handled => rfl

/-- `RegisterServer` leaves the server at its port, whether its `VERIFY` fails or not. -/
theorem RpcServer.registerServer_registered (stepped : s.step (.registerServer f) = some t) : t.registered = true := by
  obtain ⟨_, acted⟩ := Option.ite_none_right_eq_some.mp stepped
  obtain ⟨_, same⟩ := Option.ite_none_right_eq_some.mp acted
  cases same
  split
  · rename_i registered
    exact registered
  · rfl

/-- `UnregisterServer` leaves no server at the port, whether its `VERIFY` fails or not. -/
theorem RpcServer.unregisterServer_registered (stepped : s.step (.unregisterServer f) = some t) :
    t.registered = false := by
  obtain ⟨_, acted⟩ := Option.ite_none_right_eq_some.mp stepped
  obtain ⟨_, same⟩ := Option.ite_none_right_eq_some.mp acted
  cases same
  split
  · exact awaitZero_registered _ f
  · rename_i free
    exact Bool.eq_false_iff.mpr free

/-- A request leaves the port alone, whether it is let in or refused. -/
theorem RpcServer.processRequest_registered {request : ServerRequest}
    (stepped : s.step (.processRequest f request) = some t) : t.registered = s.registered := by
  cases step_changes stepped with
  | processRequest => exact awaitWorker_registered _ f request
  | fail | refuse => rfl

end Registered

namespace Served
variable {place : Place} {request : Delivery → ServerRequest} {served next : Served} {action : ServerAction ⊕ Move}

/-- The server knows whether it is at its port. When the simulation is over, there are no hosts left. -/
def Agrees (served : Served) (place : Place) : Prop :=
  (∃ host, served.world.hosts place.address = some host ∧
    host.servers place.port = if served.server.registered then some place.server else none) ∨
  served.server.registered = false ∧ served.world.hosts place.address = none ∧
    ∀ move, served.world.step move = none

/-- An operation at the port means the same to the host and to the server. -/
theorem operation_agrees {w d : World} {s t : RpcServer} {f : Nat} {host : Host} {operation : Operation}
    {handles : Option Delivery} {action : ServerAction}
    (passes : w.Passes d f place.address host operation handles)
    (port : host.servers place.port = if s.registered then some place.server else none)
    (alone : ∀ server, operation = .registerServer server place.port → server = place.server)
    (part : operation.atPort request place.port f = some action) (taken : s.step action = some t) :
    ∃ later, d.hosts place.address = some later ∧
      later.servers place.port = if t.registered then some place.server else none := by
  rw [passes.after]
  cases operation with
  | registerServer server used =>
      obtain ⟨rfl, same⟩ := Option.ite_none_right_eq_some.mp part
      cases same
      cases alone server rfl
      rw [RpcServer.registerServer_registered taken, if_pos rfl, World.perform]
      cases registered : host.servers place.port with
      | some other =>
          rw [registered] at port
          split at port
          · cases port
            exact ⟨host, passes.found, registered⟩
          · cases port
      | none =>
          refine ⟨{ host with servers := Function.update host.servers place.port (some place.server) }, ?_,
            Function.update_self ..⟩
          simp [World.modifyHost, World.onRuntime, passes.found]
  | unregisterServer used =>
      obtain ⟨rfl, same⟩ := Option.ite_none_right_eq_some.mp part
      cases same
      rw [RpcServer.unregisterServer_registered taken, if_neg Bool.false_ne_true, World.perform]
      cases registered : host.servers place.port with
      | none => exact ⟨host, passes.found, registered⟩
      | some other =>
          refine ⟨{ host with servers := Function.update host.servers place.port none }, ?_, Function.update_self ..⟩
          simp [World.modifyHost, World.onRuntime, passes.found]
  | processRequest delivery =>
      obtain ⟨there, same⟩ := Option.ite_none_right_eq_some.mp part
      cases same
      rw [RpcServer.processRequest_registered taken]
      refine ⟨host, ?_, port⟩
      rw [World.perform]
      split <;> exact passes.found
  | _ => cases part

/-- Every step keeps the host and the server in agreement. -/
theorem Agrees.step (agrees : served.Agrees place) (alone : served.Alone place action)
    (stepped : served.step place request action = some next) : next.Agrees place := by
  cases action with
  | inl action =>
      obtain ⟨own, acted⟩ := Option.ite_none_right_eq_some.mp stepped
      obtain ⟨t, taken, rfl⟩ := Option.map_eq_some_iff.mp acted
      rw [Agrees, RpcServer.own_registered own taken]
      exact agrees
  | inr move =>
      obtain ⟨d, went, acted⟩ := Option.bind_eq_some_iff.mp stepped
      rcases agrees with ⟨host, found, port⟩ | ⟨_, _, stuck⟩
      swap
      · cases (stuck move).symm.trans went
      cases part : served.world.part d place request move with
      | none =>
          rw [part] at acted
          cases acted
          obtain ⟨later, still, same⟩ := World.part_none went ⟨host, found⟩ part host found
          exact Or.inl ⟨later, still, same.trans port⟩
      | some action =>
          rw [part] at acted
          obtain ⟨t, taken, rfl⟩ := Option.map_eq_some_iff.mp acted
          cases passing : served.world.passing place.address move with
          | some performed =>
              obtain ⟨f, operation⟩ := performed
              obtain ⟨host, handles, passes⟩ := World.passes_of_passing went passing
              cases passes.found.symm.trans found
              rw [World.part, passing] at part
              refine Or.inl (operation_agrees passes port ?_ part taken)
              rintro server rfl
              exact alone (server, place.port) (by rw [passing]; rfl) rfl
          | none =>
              have killed : action = .killHost := by
                rw [World.part, passing] at part
                dsimp only at part
                split at part
                · cases part
                · cases part
                  rfl
              subst killed
              obtain ⟨_, same⟩ := Option.ite_none_right_eq_some.mp taken
              cases same
              exact (World.part_kill went ⟨host, found⟩ part).imp_right fun ends => ⟨rfl, ends⟩

/-- The host and the server agree in every run. -/
theorem Agrees.of_run (agrees : served.Agrees place) (run : Run place request served next) : next.Agrees place := by
  induction run with
  | refl => exact agrees
  | tail _ last ih =>
      obtain ⟨action, alone, stepped⟩ := last
      exact ih.step alone stepped

/-- The server of a run takes steps of its own and no others. -/
theorem reaches_of_run (run : Run place request served next) : RpcServer.Reaches served.server next.server := by
  induction run with
  | refl => exact .refl
  | tail _ last ih =>
      obtain ⟨action, _, stepped⟩ := last
      cases action with
      | inl action =>
          obtain ⟨_, acted⟩ := Option.ite_none_right_eq_some.mp stepped
          obtain ⟨t, taken, rfl⟩ := Option.map_eq_some_iff.mp acted
          exact ih.tail ⟨action, trivial, taken⟩
      | inr move =>
          obtain ⟨d, _, acted⟩ := Option.bind_eq_some_iff.mp stepped
          split at acted
          · cases acted
            exact ih
          · obtain ⟨t, taken, rfl⟩ := Option.map_eq_some_iff.mp acted
            exact ih.tail ⟨_, trivial, taken⟩

/-- The host lets a request in or refuses it, as the server says. -/
theorem Agrees.answers (agrees : served.Agrees place) {y : World} {f : Nat} {host : Host} {delivery : Delivery}
    {handles : Option Delivery} (passes : served.world.Passes y f place.address host (.processRequest delivery) handles)
    (there : delivery.port = place.port) : (y.fibers f).code =
      if served.server.registered then .user (some delivery) else .answer delivery (.error .connectionRefused) := by
  rcases agrees with ⟨other, found, port⟩ | ⟨_, gone, _⟩
  swap
  · cases gone.symm.trans passes.found
  cases passes.found.symm.trans found
  rw [passes.after, World.perform, there, port]
  cases served.server.registered with
  | true => exact Runtime.setCode_code
  | false => exact Runtime.setCode_code

end Served

/-- A server that starts at a free port of a host is at this port exactly while it knows so. Exactly then the host lets
in the requests for the port, and after `ShutDown` or `Run` has returned it refuses all of them. -/
theorem server_at_port (place : Place) (request : Delivery → ServerRequest) {w : World} {served : Served}
    (free : ∃ host, w.hosts place.address = some host ∧ host.servers place.port = none)
    (run : Served.Run place request ⟨w, .new⟩ served) :
    (served.server.registered = true ↔
      ∃ host, served.world.hosts place.address = some host ∧ host.servers place.port = some place.server) ∧
    (.shutDown ∈ served.server.returned ∨ .run ∈ served.server.returned → served.server.registered = false) ∧
    ∀ {y f host delivery handles},
      served.world.Passes y f place.address host (.processRequest delivery) handles → delivery.port = place.port →
      (y.fibers f).code =
        if served.server.registered then .user (some delivery) else .answer delivery (.error .connectionRefused) := by
  have agrees : served.Agrees place := by
    refine Served.Agrees.of_run ?_ run
    obtain ⟨host, found, port⟩ := free
    exact Or.inl ⟨host, found, port⟩
  have reached := Served.reaches_of_run run
  refine ⟨?_, fun ended => (reached.ok.ended (reached.signaled ended)).2, agrees.answers⟩
  rcases agrees with ⟨host, found, port⟩ | ⟨off, gone, _⟩
  · cases registered : served.server.registered with
    | true =>
        rw [registered, if_pos rfl] at port
        exact iff_of_true rfl ⟨host, found, port⟩
    | false =>
        rw [registered, if_neg Bool.false_ne_true] at port
        refine iff_of_false Bool.false_ne_true ?_
        rintro ⟨other, there, taken⟩
        cases found.symm.trans there
        cases port.symm.trans taken
  · rw [off, gone]
    exact iff_of_false Bool.false_ne_true (by rintro ⟨_, ⟨⟩, _⟩)

/-- The server of the second host. -/
def secondPlace : Place := ⟨1, 80, 7⟩

/-- Two hosts, with no server yet. -/
def twoHostsWorld : World :=
  Script.endOf World.step World.Any World.initial twoHostsScript (by decide +kernel)

/-- The server starts. -/
def startMoves : List (ServerAction ⊕ Move) :=
  [.inr (.does (.call (.registerServer 7 80))), .inl (.start 3), .inr .on]

/-- The server shuts down. -/
def shutDownMoves : List (ServerAction ⊕ Move) :=
  [.inl (.shutDown 3), .inr (.does (.call (.unregisterServer 80))), .inr .on]

/-- The first host calls the second one, and the request arrives after the given moves of the second one. -/
def servingScript (moves : List (ServerAction ⊕ Move)) : List (ServerAction ⊕ Move) :=
  [.on, .pick 1, .on, .on, .does (.call (.makeRequest 1 80 none)), .on, .pick 1, .go (smooth 5), .pick 0, .on, .pick 0,
    .on, .pick 1, .on, .on].map .inr ++ moves ++
    [.does .wait, .pick 0, .on, .pick 0, .on, .pick 1, .on].map .inr

/-- The run of the server of the second host. -/
abbrev servingPlay (moves : List (ServerAction ⊕ Move)) : Option Served :=
  Script.play (Served.step secondPlace fun _ => echoRequest) (Served.Alone secondPlace) ⟨twoHostsWorld, .new⟩
    (servingScript moves)

theorem startMoves_possible : (servingPlay startMoves).isSome = true := by
  decide +kernel

theorem shutDownMoves_possible : (servingPlay (startMoves ++ shutDownMoves)).isSome = true := by
  decide +kernel

/-- The request arrives at a server that has started. -/
def startedServer : Served := Script.endOf _ _ _ _ startMoves_possible

/-- The request arrives at a server that has shut down. -/
def stoppedServer : Served := Script.endOf _ _ _ _ shutDownMoves_possible

/-- The port of the second host is free. -/
theorem twoHostsWorld_free :
    ∃ host, twoHostsWorld.hosts secondPlace.address = some host ∧ host.servers secondPlace.port = none :=
  ⟨_, rfl, rfl⟩

/-- The same request reaches the handler of the started server and is refused at the one that has shut down. -/
theorem server_at_port_calls :
    (∃ y, startedServer.world.step .on = some y ∧ (y.fibers 4).code = .user (some ⟨0, 1, 80, none, 0, false⟩)) ∧
    ∃ y, stoppedServer.world.step .on = some y ∧
      (y.fibers 4).code = .answer ⟨0, 1, 80, none, 0, false⟩ (.error .connectionRefused) := by
  constructor
  · have stepped : startedServer.world.step .on = some ((startedServer.world.step .on).get (by decide +kernel)) :=
      (Option.some_get _).symm
    have passing : startedServer.world.passing secondPlace.address .on =
        some (4, .processRequest ⟨0, 1, 80, none, 0, false⟩) := rfl
    obtain ⟨host, handles, passes⟩ := World.passes_of_passing stepped passing
    obtain ⟨_, _, answers⟩ := server_at_port secondPlace _ twoHostsWorld_free (Script.endOf_run startMoves_possible)
    exact ⟨_, stepped, answers passes rfl⟩
  · have stepped : stoppedServer.world.step .on = some ((stoppedServer.world.step .on).get (by decide +kernel)) :=
      (Option.some_get _).symm
    have passing : stoppedServer.world.passing secondPlace.address .on =
        some (4, .processRequest ⟨0, 1, 80, none, 0, false⟩) := rfl
    obtain ⟨host, handles, passes⟩ := World.passes_of_passing stepped passing
    obtain ⟨_, ended, answers⟩ :=
      server_at_port secondPlace _ twoHostsWorld_free (Script.endOf_run shutDownMoves_possible)
    have closed := ended (Or.inl (List.mem_of_getElem? (i := 1) rfl))
    exact ⟨_, stepped, (answers passes rfl).trans (if_neg (Bool.eq_false_iff.mp closed))⟩

end Metamorphosis.Simulator
