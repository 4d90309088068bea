import Metamorphosis.Proof.Simulator.Steps

/-!
What one step does to the hosts. The simulator adds, starts, pauses, resumes and kills them; everything else
is an operation of a fiber that passed `StopFiberIfNecessary`. The invariants about pauses, epochs, links and
servers come from here.
-/

namespace Metamorphosis.Simulator

/-- The move pauses a host. -/
def Move.pauses : Move → Bool
  | user (.pauseHost _) _ => true
  | _ => false

/-- The move closes or restores a link. -/
def Move.relinks : Move → Bool
  | user (.closeLink ..) _ | user (.restoreLink ..) _ => true
  | _ => false

/-- The port that an operation registers or unregisters. -/
def Operation.usedPort : Operation → Option Nat
  | registerServer _ port | unregisterServer port => some port
  | _ => none

/-- A change of a host that is no operation of a fiber. -/
inductive Host.Tended (pauses : Prop) (host : Host) : Host → Prop where
  | pause (may : pauses) : Tended pauses host { host with paused := true }
  | resume : Tended pauses host { host with paused := false }
  | kill : Tended pauses host host.killHost
  | start (main : Nat) : Tended pauses host { host with mainFiber := some main }

/-- What becomes of the host at one address: it is kept in a certain way, or it is new. -/
inductive Host.Evolves (kept : Host → Host → Prop) : Option Host → Option Host → Prop where
  | absent : Evolves kept none none
  | changed {before after : Host} (run : kept before after) : Evolves kept (some before) (some after)
  | added (clock : Clock) {after : Host} (run : kept (Host.new clock) after) : Evolves kept none (some after)

namespace Host.Evolves
variable {kept : Host → Host → Prop} {a b c : Option Host}

theorem refl (reflexive : ∀ host, kept host host) (host : Option Host) : Evolves kept host host := by
  cases host with
  | none => exact .absent
  | some host => exact .changed (reflexive host)

/-- Changes of a host can be put together. -/
theorem trans (transitive : ∀ {first second third}, kept first second → kept second third → kept first third)
    (first : Evolves kept a b) (second : Evolves kept b c) : Evolves kept a c := by
  cases first with
  | absent => exact second
  | changed run =>
      cases second with
      | changed later => exact .changed (transitive run later)
  | added clock run =>
      cases second with
      | changed later => exact .added clock (transitive run later)

/-- An invariant of single hosts that every change keeps. -/
theorem keeps {holds : Host → Prop} (created : ∀ clock, holds (Host.new clock))
    (keeps : ∀ before after, kept before after → holds before → holds after) (evolves : Evolves kept a b)
    (before : ∀ host, a = some host → holds host) (host : Host) (found : b = some host) : holds host := by
  cases evolves with
  | absent => cases found
  | changed run =>
      cases found
      exact keeps _ _ run (before _ rfl)
  | added clock run =>
      cases found
      exact keeps _ _ run (created clock)

end Host.Evolves

namespace World

/-- Nobody pauses a host. -/
def NoPause (_ : World) (move : Move) : Prop := ¬move.pauses = true

instance (w : World) (move : Move) : Decidable (w.NoPause move) := inferInstanceAs (Decidable (¬_))

/-- What becomes of the hosts, each in the way of its address. -/
def Evolves (kept : Nat → Host → Host → Prop) (w d : World) : Prop :=
  ∀ address, Host.Evolves (kept address) (w.hosts address) (d.hosts address)

variable {kept : Nat → Host → Host → Prop} {w d e : World}

namespace Evolves

/-- Nothing happens to any host. -/
theorem of_hosts (reflexive : ∀ address host, kept address host host) (same : d.hosts = w.hosts) : w.Evolves kept d := by
  intro address
  rw [same]
  exact .refl (reflexive address) _

/-- A change of one host is a change of the world if it is one of the host. -/
theorem modifyHost (reflexive : ∀ address host, kept address host host) {address : Nat} {change : Host → Host}
    (changed : ∀ host, w.hosts address = some host → kept address host (change host)) :
    w.Evolves kept (w.modifyHost address change) := by
  intro other
  by_cases same : other = address
  · subst same
    simp only [World.modifyHost, Function.update_self]
    cases found : w.hosts other with
    | none => exact .absent
    | some host => exact .changed (changed host found)
  · simp only [World.modifyHost, Function.update_of_ne same]
    exact .refl (reflexive other) _

/-- A host that was there before. -/
theorem keeps (evolves : w.Evolves kept d) {address : Nat} {host : Host} (found : w.hosts address = some host) :
    ∃ later, d.hosts address = some later ∧ kept address host later := by
  have here := evolves address
  rw [found] at here
  generalize d.hosts address = after at here
  cases here with
  | changed run => exact ⟨_, rfl, run⟩

end Evolves

/-- A step that is no operation: it tends the hosts, and only the api's own calls change the links. -/
structure Tended (pauses relinks : Prop) (w d : World) : Prop where
  hosts : w.Evolves (fun _ => Relation.ReflTransGen (Host.Tended pauses)) d
  requests : d.requests = w.requests
  replies : d.replies = w.replies
  links : relinks ∨ d.closedLinks = w.closedLinks

section Tended
variable {pauses relinks : Prop}

namespace Tended

/-- No host is tended. -/
theorem of_hosts (hosts : d.hosts = w.hosts) (requests : d.requests = w.requests) (replies : d.replies = w.replies)
    (links : relinks ∨ d.closedLinks = w.closedLinks) : w.Tended pauses relinks d :=
  ⟨.of_hosts (fun _ _ => .refl) hosts, requests, replies, links⟩

theorem refl (w : World) : w.Tended pauses relinks w := of_hosts rfl rfl rfl (Or.inr rfl)

/-- A step of the fibers alone. -/
theorem onRuntime (w : World) (change : Runtime Code → Runtime Code) : w.Tended pauses relinks (w.onRuntime change) :=
  of_hosts rfl rfl rfl (Or.inr rfl)

/-- Two changes, one after the other. -/
theorem trans (before : w.Tended pauses relinks d) (after : d.Tended pauses relinks e) : w.Tended pauses relinks e where
  hosts := fun address => (before.hosts address).trans .trans (after.hosts address)
  requests := after.requests.trans before.requests
  replies := after.replies.trans before.replies
  links := before.links.elim Or.inl fun same => after.links.imp_right fun later => later.trans same

/-- One host is tended. -/
theorem modifyHost (w : World) (address : Nat) {change : Host → Host}
    (tended : ∀ host : Host, host.Tended pauses (change host)) :
    w.Tended pauses relinks (w.modifyHost address change) :=
  ⟨.modifyHost (fun _ _ => .refl) fun host _ => .single (tended host), rfl, rfl, Or.inr rfl⟩

end Tended

/-- A resumed host is not paused, and has all else. -/
theorem resumeHost_tended (w : World) (address : Nat) : w.Tended pauses relinks (w.resumeHost address) := by
  unfold resumeHost
  exact (Tended.modifyHost w address fun _ => .resume).trans (.onRuntime _ _)

/-- A killed host gets a new epoch. -/
theorem killHost_tended (w : World) (address : Nat) : w.Tended pauses relinks (w.modifyHost address Host.killHost) :=
  .modifyHost w address fun _ => .kill

/-- A start sets only the main fiber. -/
theorem startHost_tended (w : World) (f address : Nat) : w.Tended pauses relinks (w.startHost f address) := by
  unfold startHost
  split
  · exact .refl w
  · split
    · exact .refl w
    · exact (Tended.modifyHost w address fun _ => .start _).trans (.onRuntime _ _)

/-- Killing and resuming all hosts, one after another. -/
theorem killAll_tended (w : World) : w.Tended pauses relinks w.killAll := by
  refine killAll_induction (w.Tended pauses relinks) (.refl w) fun c address tended => ?_
  exact (tended.trans (killHost_tended c address)).trans (resumeHost_tended _ address)

/-- The end of the loop only kills and resumes hosts. -/
theorem endSimulation_tended (w : World) (f : Nat) : w.Tended pauses relinks (w.endSimulation f) :=
  ((Tended.onRuntime w _).trans (killAll_tended _)).trans (.onRuntime _ _)

/-- A sleep changes no host. -/
theorem sleepUntil_tended {f lag : Nat} {host : Host} {localTime : Int} {token : Option Nat} {handles : Option Delivery}
    (sleeps : w.sleepUntil f host localTime token lag handles = some d) : w.Tended pauses relinks d := by
  unfold sleepUntil at sleeps
  split at sleeps
  · cases sleeps
  · cases sleeps
    exact .onRuntime _ _

/-- The end of a call changes no host. -/
theorem respond_tended (w : World) (f : Nat) (delivery : Delivery) (result : RpcResult) :
    w.Tended pauses relinks (w.respond f delivery result) := .of_hosts rfl rfl rfl (Or.inr rfl)

/-- The way of a request changes no host. -/
theorem deliver_tended (w : World) (f : Nat) (delivery : Delivery) (choice : Choice) :
    w.Tended pauses relinks (w.deliver f delivery choice) := by
  unfold deliver
  split
  · exact respond_tended ..
  · split
    · exact respond_tended ..
    · split
      · exact respond_tended ..
      · split
        · exact .refl w
        · exact .onRuntime _ _

/-- The way of a reply changes no host. -/
theorem answer_tended (w : World) (f : Nat) (delivery : Delivery) (result : RpcResult) :
    w.Tended pauses relinks (w.answer f delivery result) := by
  unfold answer
  split
  · exact respond_tended ..
  · split
    · exact respond_tended ..
    · exact respond_tended ..

/-- Without such a host nothing changes but the failure. -/
theorem onHost_tended {address : Nat} {next : World → World} (tended : w.Tended pauses relinks (next w)) :
    w.Tended pauses relinks (w.onHost address next) := by
  unfold onHost
  split
  · exact tended
  · exact .onRuntime _ _

/-- A new host is added. -/
theorem addHost_tended {address : Nat} (free : w.hosts address = none) (clock : Clock) :
    w.Tended pauses relinks { w with hosts := Function.update w.hosts address (some (Host.new clock)) } := by
  refine ⟨fun other => ?_, rfl, rfl, Or.inr rfl⟩
  by_cases same : other = address
  · subst same
    simp only [Function.update_self, free]
    exact .added clock .refl
  · simp only [Function.update_of_ne same]
    exact .refl (fun _ => .refl) _

end Tended

/-- A call of the api tends the hosts, and only `PauseHost` pauses one. The operations of the program still
have to pass `StopFiberIfNecessary`. -/
theorem act_tended {f : Nat} {handles : Option Delivery} {choice : Choice} {action : UserAction}
    (acted : w.act f handles choice action = some d) :
    w.Tended ((Move.user action choice).pauses = true) ((Move.user action choice).relinks = true) d := by
  cases act_called acted with
  | sleepUntil _ _ sleeps => exact sleepUntil_tended sleeps
  | pauseHost address => exact onHost_tended (.modifyHost w address fun _ => .pause rfl)
  | resumeHost address => exact onHost_tended (resumeHost_tended w address)
  | killHost address => exact onHost_tended (killHost_tended w address)
  | startHost address => exact onHost_tended (startHost_tended w f address)
  | @addHost address clock free =>
      exact ((addHost_tended free clock).trans (.onRuntime _ _)).trans (startHost_tended _ f address)
  | closeLink | restoreLink => exact .of_hosts rfl rfl rfl (Or.inl rfl)
  | _ => exact .onRuntime _ _

/-- What an operation of a fiber of `target` leaves of the host at an address: its epoch, its pause, and every
server except the one that is registered or unregistered. -/
structure Operated (target : Nat) (operation : Operation) (address : Nat) (before after : Host) : Prop where
  epoch : after.epoch = before.epoch
  paused : after.paused = before.paused
  servers : ∀ port, (target = address → operation.usedPort ≠ some port) → after.servers port = before.servers port

theorem Operated.refl (target : Nat) (operation : Operation) (address : Nat) (host : Host) :
    Operated target operation address host host := ⟨rfl, rfl, fun _ _ => rfl⟩

/-- A database is opened. -/
theorem openDatabase_operated {host opened : Host} {path : String} {createIfMissing : Bool} {comparator : Comparator}
    {epoch target address : Nat} {operation : Operation}
    (run : openDatabase host path createIfMissing comparator epoch = some opened) :
    Operated target operation address host opened := by
  unfold openDatabase at run
  split at run
  · split at run <;> cases run <;> exact ⟨rfl, rfl, fun _ _ => rfl⟩
  · split at run
    · cases run
    · cases run
      exact ⟨rfl, rfl, fun _ _ => rfl⟩

/-- An operation adds no host, and it leaves the links alone. -/
theorem perform_operated {f target epoch : Nat} {host : Host} {handles : Option Delivery}
    (current : w.hosts target = some host) (operation : Operation) :
    w.Evolves (Operated target operation) (w.perform f target host epoch handles operation) ∧
      (w.perform f target host epoch handles operation).closedLinks = w.closedLinks := by
  have same {d : World} : d.hosts = w.hosts → w.Evolves (Operated target operation) d :=
    .of_hosts (.refl target operation)
  have edited {owner : Nat} {change : Host → Host}
      (changed : ∀ host, w.hosts owner = some host → Operated target operation owner host (change host)) :
      w.Evolves (Operated target operation) (w.modifyHost owner change) :=
    .modifyHost (.refl target operation) changed
  cases operation with
  | openDatabase path createIfMissing comparator =>
      simp only [perform]
      split
      · exact ⟨same rfl, rfl⟩
      · rename_i opened run
        refine ⟨edited fun found there => ?_, rfl⟩
        cases current.symm.trans there
        exact openDatabase_operated run
  | execute owner path command rest =>
      simp only [perform]
      split
      · exact ⟨same rfl, rfl⟩
      · split
        · exact ⟨same rfl, rfl⟩
        · cases rest <;> exact ⟨edited fun _ _ => ⟨rfl, rfl, fun _ _ => rfl⟩, rfl⟩
  | registerServer | unregisterServer =>
      simp only [perform]
      split
      · exact ⟨same rfl, rfl⟩
      · refine ⟨edited fun _ _ => ⟨rfl, rfl, fun port apart => ?_⟩, rfl⟩
        exact Function.update_of_ne (fun here => apart rfl (congrArg some here.symm)) ..
  | processRequest =>
      simp only [perform]
      split <;> exact ⟨same rfl, rfl⟩
  | read | makeRequest | requestMade | requestProcessed | slept => exact ⟨same rfl, rfl⟩

/-- The running fiber carries out an operation on its host: it belongs to the current epoch, and the host is not paused. -/
structure Passes (w d : World) (f address : Nat) (host : Host) (operation : Operation) (handles : Option Delivery) :
    Prop where
  runs : w.control = .runs f
  code : (w.fibers f).code = .operation operation handles
  current : (w.fibers f).props.currentHost = some address
  found : w.hosts address = some host
  awake : host.paused = false
  epoch : (w.fibers f).props.hostEpoch = host.epoch
  after : d = w.perform f address host host.epoch handles operation

/-- The simulator's own code tends the hosts, lets an operation pass, or clears the world. -/
theorem go_effect {pauses relinks : Prop} {f : Nat} {choice : Choice} (runs : w.control = .runs f)
    (went : w.go f choice = some d) :
    w.Tended pauses relinks d ∨ (∃ address host operation handles, w.Passes d f address host operation handles) ∨
      w.Clears f d := by
  cases go_went went with
  | @operation operation handles code =>
      generalize effect : w.stopFiberIfNecessary f operation handles = d
      have stops := w.stopFiberIfNecessary_stops f operation handles
      rw [effect] at stops
      cases stops with
      | nowhere | paused | early | killed => exact Or.inl (.onRuntime _ _)
      | passes current found awake epoch =>
          exact Or.inr (Or.inl ⟨_, _, _, _, runs, code, current, found, awake, epoch, rfl⟩)
  | slept | late | replied | mainNowhere | mainStarts | deliver | answer | popEvent | dispatcher =>
      exact Or.inl (.onRuntime _ _)
  | mainSleeps _ _ _ sleeps => exact Or.inl (sleepUntil_tended sleeps)
  | delivered => exact Or.inl (deliver_tended ..)
  | answered => exact Or.inl (answer_tended ..)
  | addHost => exact Or.inl (.of_hosts rfl rfl rfl (Or.inr rfl))
  | endLoop => exact Or.inl (endSimulation_tended w f)
  | clear code => exact Or.inr (Or.inr ⟨runs, code, rfl⟩)

/-- A step that does not only tend the hosts is made by a fiber of the current epoch of its host, except for
the last one of `RunSimulation`. -/
theorem step_effect {move : Move} (stepped : w.step move = some d) :
    w.Tended (move.pauses = true) (move.relinks = true) d ∨
      (∃ f address host operation handles, w.Passes d f address host operation handles) ∨ ∃ f, w.Clears f d := by
  cases step_stepped stepped with
  | pick => exact Or.inl (.of_hosts rfl rfl rfl (Or.inr rfl))
  | user _ _ acted => exact Or.inl (act_tended acted)
  | @go f _ _ runs went => exact (go_effect runs went).imp_right (Or.imp (Exists.intro f) (Exists.intro f))

end World

end Metamorphosis.Simulator
