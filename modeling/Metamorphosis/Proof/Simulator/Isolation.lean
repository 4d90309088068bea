import Mathlib.Order.Nat
import Metamorphosis.Proof.Simulator.Hosts
import Metamorphosis.Proof.Simulator.Inheritance

/-!
A fiber of a killed host changes nothing any more. Every step that touches a database, a server or an
rpc comes right after `StopFiberIfNecessary` compared the epoch of the fiber with that of its host, and
epochs only grow.
-/

namespace Metamorphosis.Simulator

/-- A host keeps its servers, or it is killed and loses them all. -/
def Host.KeepsServers (before after : Host) : Prop :=
  after.epoch = before.epoch ∧ after.servers = before.servers ∨
    before.epoch < after.epoch ∧ ∀ port, after.servers port = none

namespace Host.KeepsServers

theorem refl (host : Host) : host.KeepsServers host := Or.inl ⟨rfl, rfl⟩

/-- The epoch does not fall. -/
theorem epoch_le {before after : Host} (kept : before.KeepsServers after) : before.epoch ≤ after.epoch := by
  rcases kept with ⟨same, _⟩ | ⟨raised, _⟩
  · exact Nat.le_of_eq same.symm
  · exact Nat.le_of_lt raised

/-- Servers are kept, or lost with an epoch, through two changes. -/
theorem trans {first second third : Host} (before : first.KeepsServers second) (after : second.KeepsServers third) :
    first.KeepsServers third := by
  rcases after with ⟨epoch, servers⟩ | ⟨raised, lost⟩
  · rcases before with ⟨epochBefore, serversBefore⟩ | ⟨raised, lost⟩
    · exact Or.inl ⟨epoch.trans epochBefore, servers.trans serversBefore⟩
    · exact Or.inr ⟨by rw [epoch]; exact raised, by rw [servers]; exact lost⟩
  · exact Or.inr ⟨before.epoch_le.trans_lt raised, lost⟩

end Host.KeepsServers

/-- A host that keeps its databases, and its servers too unless it is killed. -/
structure Host.Survives (before after : Host) : Prop where
  databases : after.databases = before.databases
  servers : before.KeepsServers after

namespace Host.Survives

theorem refl (host : Host) : host.Survives host := ⟨rfl, .refl host⟩

/-- A host survives two changes. -/
theorem trans {first second third : Host} (before : first.Survives second) (after : second.Survives third) :
    first.Survives third where
  databases := after.databases.trans before.databases
  servers := before.servers.trans after.servers

end Host.Survives

/-- A host that is tended keeps its databases, and its servers too unless it is killed. -/
theorem Host.Tended.survives {pauses : Prop} {before after : Host} (tended : before.Tended pauses after) :
    before.Survives after := by
  cases tended with
  | pause | resume | start => exact ⟨rfl, Or.inl ⟨rfl, rfl⟩⟩
  | kill =>
      unfold Host.killHost
      split
      · exact .refl before
      · exact ⟨rfl, Or.inr ⟨Nat.lt_succ_self _, fun _ => rfl⟩⟩

namespace World

/-- Every host is still there, and it has changed only in a certain way. -/
def Keeps (kept : Host → Host → Prop) (c d : World) : Prop :=
  ∀ address host, c.hosts address = some host → ∃ later, d.hosts address = some later ∧ kept host later

/-- No database changed, no server came or went except with a kill, no rpc was issued, and no
`Host::ProcessRequest` returned. -/
structure Quiet (c d : World) : Prop where
  hosts : c.Keeps Host.Survives d
  requests : d.requests = c.requests
  replies : d.replies = c.replies

/-- A relation between hosts that holds for two changes. -/
theorem Keeps.trans {kept : Host → Host → Prop} {c d e : World}
    (transitive : ∀ {first second third}, kept first second → kept second third → kept first third)
    (before : c.Keeps kept d) (after : d.Keeps kept e) : c.Keeps kept e := by
  intro address host found
  obtain ⟨middle, there, first⟩ := before address host found
  obtain ⟨last, still, second⟩ := after address middle there
  exact ⟨last, still, transitive first second⟩

/-- Only operations are not quiet. -/
theorem Tended.quiet {pauses relinks : Prop} {c d : World} (tended : c.Tended pauses relinks d) : c.Quiet d := by
  refine ⟨fun address host found => ?_, tended.requests, tended.replies⟩
  obtain ⟨later, still, run⟩ := tended.hosts.keeps found
  refine ⟨later, still, ?_⟩
  clear found still
  induction run with
  | refl => exact .refl host
  | tail _ last ih => exact ih.trans last.survives

/-- Epochs only grow while the hosts are there. -/
theorem step_epochs {w d : World} {move : Move} (stepped : w.step move = some d) :
    w.Keeps (fun before after => before.epoch ≤ after.epoch) d ∨ ∃ f, w.Clears f d := by
  rcases step_effect stepped with tended | ⟨f, address, host, operation, handles, passes⟩ | clears
  · refine Or.inl fun address host found => ?_
    obtain ⟨later, there, survives⟩ := tended.quiet.hosts address host found
    exact ⟨later, there, survives.servers.epoch_le⟩
  · refine Or.inl fun address host found => ?_
    rw [passes.after]
    obtain ⟨later, there, operated⟩ := (perform_operated passes.found operation).1.keeps found
    exact ⟨later, there, Nat.le_of_eq operated.epoch.symm⟩
  · exact Or.inr clears

/-- In every run epochs do not fall, until the simulation is over. -/
theorem run_epochs {allowed : World → Move → Prop} {c d : World}
    (run : Relation.ReflTransGen (Script.Next step allowed) c d) :
    c.Keeps (fun before after => before.epoch ≤ after.epoch) d ∨ ∀ move, d.step move = none := by
  induction run with
  | refl => exact Or.inl fun _ host found => ⟨host, found, le_rfl⟩
  | tail _ last ih =>
      obtain ⟨move, _, stepped⟩ := last
      rcases ih with kept | stuck
      · rcases step_epochs stepped with grown | ⟨_, clears⟩
        · exact Or.inl (kept.trans le_trans grown)
        · exact Or.inr clears.stuck
      · cases (stuck move).symm.trans stepped

/-- A step kills a host: its epoch is raised from `epoch` to `epoch + 1`. -/
structure Kills (c d : World) (address epoch : Nat) : Prop where
  stepped : Script.Next step Any c d
  alive : ∃ host, c.hosts address = some host ∧ host.epoch = epoch
  raised : ∃ host, d.hosts address = some host ∧ host.epoch = epoch + 1

/-- A call of `KillHost` kills a host whose main fiber is joinable. -/
theorem killHost_kills {c d : World} {address : Nat} {host : Host} {choice : Choice}
    (stepped : c.step (.user (.killHost address) choice) = some d) (found : c.hosts address = some host)
    (joinable : host.mainFiber.isSome) (added : address ∈ c.added) : c.Kills d address host.epoch := by
  refine ⟨⟨_, trivial, stepped⟩, ⟨host, found, rfl⟩, ⟨host.killHost, ?_, ?_⟩⟩
  · cases step_stepped stepped with
    | user _ _ acted =>
        cases act_called acted
        simp [onHost, added, modifyHost, found]
  · obtain ⟨main, joined⟩ := Option.isSome_iff_exists.mp joinable
    simp [Host.killHost, joined]

/-- A fiber of an epoch before a kill changes nothing after it. -/
theorem Kills.isolates {c d x y : World} {address epoch f : Nat} {move : Move} (kill : c.Kills d address epoch)
    (later : Relation.ReflTransGen (Script.Next step Any) d x) (stepped : x.step move = some y)
    (running : x.control = .runs f) (current : (x.fibers f).props.currentHost = some address)
    (old : (x.fibers f).props.hostEpoch ≤ epoch) : x.Quiet y ∨ x.Clears f y := by
  rcases step_effect stepped with tended | ⟨g, other, host, operation, handles, passes⟩ | ⟨g, clears⟩
  · exact Or.inl tended.quiet
  · exfalso
    cases running.symm.trans passes.runs
    cases current.symm.trans passes.current
    obtain ⟨after, killed, raised⟩ := kill.raised
    rcases run_epochs later with kept | stuck
    · obtain ⟨last, there, grown⟩ := kept address after killed
      cases passes.found.symm.trans there
      have same := passes.epoch
      omega
    · cases (stuck move).symm.trans stepped
  · cases running.symm.trans clears.runs
    exact Or.inr clears

/-- After a call of `KillHost`, the fibers of the host's epoch change nothing. -/
theorem killHost_isolates {c d x y : World} {address f : Nat} {host : Host} {choice : Choice} {move : Move}
    (killed : c.step (.user (.killHost address) choice) = some d) (found : c.hosts address = some host)
    (joinable : host.mainFiber.isSome) (added : address ∈ c.added)
    (later : Relation.ReflTransGen (Script.Next step Any) d x) (stepped : x.step move = some y)
    (running : x.control = .runs f) (current : (x.fibers f).props.currentHost = some address)
    (old : (x.fibers f).props.hostEpoch ≤ host.epoch) : x.Quiet y ∨ x.Clears f y :=
  (killHost_kills killed found joinable added).isolates later stepped running current old

end World

/-- After a host was killed, no step of a fiber of an earlier epoch of this host changes a database,
registers or unregisters a server, issues an rpc or returns from `Host::ProcessRequest`, however long the
simulation goes on. When `RunSimulation` returns, it destroys the hosts. -/
theorem kill_isolation {c d x y : World} {address epoch f : Nat} {move : Move} (kill : c.Kills d address epoch)
    (later : Relation.ReflTransGen (Script.Next World.step World.Any) d x) (stepped : x.step move = some y)
    (running : x.control = .runs f) (current : (x.fibers f).props.currentHost = some address)
    (old : (x.fibers f).props.hostEpoch ≤ epoch) : x.Quiet y ∨ x.Clears f y :=
  kill.isolates later stepped running current old

/-- A fiber of the first host opens a database. It wants to write while its host is paused. -/
def pausedScript : List Move :=
  twoHostsScript ++
    [.on, .pick 1, .on, .on, .does (.call (.openDatabase "log" true ⟨"bytes", compareKeys stringSerde⟩)), .on,
      .does (.pauseHost 0), .does (.call (.execute 0 "log" (.put [1] [2]) [])), .on,
      .pick 0, .on, .pick 0, .on, .pick 1, .on, .on]

/-- A fiber of the second host resumes the first one and ends, and the writer runs again. -/
def resumedScript : List Move := [.does (.resumeHost 0), .does .finish, .pick 1]

theorem pausedScript_possible : (Script.play World.step World.Any World.initial pausedScript).isSome = true := by
  decide +kernel

def pausedWorld : World := Script.endOf World.step World.Any World.initial pausedScript pausedScript_possible

def killedWorld : World := (pausedWorld.step (.does (.killHost 0))).get (by decide +kernel)

theorem resumedScript_possible : (Script.play World.step World.Any killedWorld resumedScript).isSome = true := by
  decide +kernel

def resumedWorld : World := Script.endOf World.step World.Any killedWorld resumedScript resumedScript_possible

def blockedWorld : World := (resumedWorld.step .on).get (by decide +kernel)

/-- The writer goes on after the kill, and it writes nothing. -/
theorem kill_isolation_paused : pausedWorld.Kills killedWorld 0 0 ∧ resumedWorld.Quiet blockedWorld := by
  have kill : pausedWorld.Kills killedWorld 0 0 :=
    { stepped := ⟨.does (.killHost 0), trivial, (Option.some_get _).symm⟩
      alive := Option.map_eq_some_iff.mp (show (pausedWorld.hosts 0).map Host.epoch = some 0 by decide +kernel)
      raised := Option.map_eq_some_iff.mp (show (killedWorld.hosts 0).map Host.epoch = some 1 by decide +kernel) }
  have went : resumedWorld.step .on = some blockedWorld := (Option.some_get _).symm
  have writer : resumedWorld.control = .runs 2 := by decide +kernel
  have effect := kill_isolation kill (Script.endOf_run resumedScript_possible) went writer (by decide +kernel)
    (by decide +kernel)
  have ordinary : (resumedWorld.fibers 2).code.role = .ordinary := by decide +kernel
  refine ⟨kill, effect.resolve_right fun clears => ?_⟩
  cases ordinary.symm.trans (congrArg Code.role clears.code)

end Metamorphosis.Simulator
