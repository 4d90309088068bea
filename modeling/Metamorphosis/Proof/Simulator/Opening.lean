import Mathlib.Tactic.Common
import Metamorphosis.Construction.Simulator.Opening

/-!
A call of `Database::Open` that fails leaves the databases of the host as they were, unless it found a database
of an earlier epoch with another comparator.
-/

namespace Metamorphosis.Simulator

/-- The world applies what `Database::Open` does to the host. -/
theorem World.openDatabase_eq (host : Host) (call : OpenCall) (epoch : Nat) :
    World.openDatabase host call.path call.createIfMissing call.comparator epoch =
      (host.openDatabase call epoch).map Prod.snd := by
  unfold World.openDatabase Host.openDatabase
  cases found : host.databases call.path with
  | none =>
      dsimp only
      split
      · rfl
      · rfl
  | some database =>
      dsimp only
      split
      · rfl
      · split
        · rename_i same
          have kept : Function.update host.databases call.path (some { database with epoch := epoch }) =
              host.databases := by
            rw [← same]
            exact Function.update_eq_self_iff.mpr found.symm
          rw [kept]
          rfl
        · split
          · rfl
          · rfl

namespace Host

/-- No database was opened in an epoch that is still to come. -/
def Settled (host : Host) : Prop := ∀ path database, host.databases path = some database → database.epoch ≤ host.epoch

/-- The call finds a database of an earlier epoch whose comparator has another name. -/
def Mismatched (host : Host) (call : OpenCall) : Prop :=
  ∃ database, host.databases call.path = some database ∧ database.epoch < host.epoch ∧
    call.comparator.name ≠ database.comparator.name

variable {host : Host}

/-- A new host has no databases. -/
theorem new_settled (clock : Clock) : (Host.new clock).Settled := by
  intro path database found
  cases found

/-- A killed host has only closed databases. -/
theorem Settled.killHost (settled : host.Settled) : host.killHost.Settled := by
  intro path database found
  unfold Host.killHost at found ⊢
  split at found
  · exact settled path database found
  · exact Nat.le_succ_of_le (settled path database found)

/-- A database that was just opened has the epoch of its host. -/
theorem Settled.update (settled : host.Settled) (path : String) {database : HostDatabase}
    (opened : database.epoch = host.epoch) :
    ({ host with databases := Function.update host.databases path (some database) } : Host).Settled := by
  intro other found member
  change Function.update host.databases path (some database) other = some found at member
  change found.epoch ≤ host.epoch
  by_cases same : other = path
  · subst same
    rw [Function.update_self] at member
    rw [← Option.some.inj member]
    exact Nat.le_of_eq opened
  · rw [Function.update_of_ne same] at member
    exact settled other found member

/-- The epoch of a database changes when it is opened in a new one. -/
theorem update_ne {path : String} {database : HostDatabase} (found : host.databases path = some database)
    {epoch : Nat} (other : database.epoch ≠ epoch) :
    Function.update host.databases path (some { database with epoch := epoch }) ≠ host.databases := by
  intro same
  have entry := congrFun same path
  rw [Function.update_self, found] at entry
  exact other (congrArg HostDatabase.epoch (Option.some.inj entry)).symm

/-- What one call does: it fails for another comparator only after it has written the epoch. -/
theorem Settled.openDatabase (settled : host.Settled) (call : OpenCall) :
    ∃ answer next, host.openDatabase call host.epoch = some (answer, next) ∧ next.Settled ∧
      ∀ error, answer = .error error →
        host.Mismatched call ∧ next.databases ≠ host.databases ∨ ¬host.Mismatched call ∧ next = host := by
  cases found : host.databases call.path with
  | none =>
      have plain : ¬host.Mismatched call := by
        rintro ⟨database, there, _⟩
        rw [found] at there
        cases there
      by_cases create : call.createIfMissing = true
      · refine ⟨_, _, by rw [Host.openDatabase, found]; exact if_pos create, settled.update _ rfl, ?_⟩
        intro error failed
        cases failed
      · refine ⟨_, _, by rw [Host.openDatabase, found]; exact if_neg create, settled, ?_⟩
        intro error _
        exact Or.inr ⟨plain, rfl⟩
  | some database =>
      have past := settled call.path database found
      by_cases same : database.epoch = host.epoch
      · refine ⟨.error ⟨.internal, "database is opened twice"⟩, host, ?_, settled, ?_⟩
        · rw [Host.openDatabase, found]
          simp only [same, Nat.lt_irrefl, if_false, if_true]
        · intro error _
          refine Or.inr ⟨?_, rfl⟩
          rintro ⟨other, there, earlier, _⟩
          rw [found, Option.some.injEq] at there
          rw [there] at same
          omega
      · let reopened : HostDatabase := { database with epoch := host.epoch }
        have opened := settled.update call.path (show reopened.epoch = host.epoch from rfl)
        by_cases names : call.comparator.name = database.comparator.name
        · refine ⟨.ok (), _, ?_, opened, ?_⟩
          · rw [Host.openDatabase, found]
            simp only [if_neg (Nat.not_lt.mpr past), if_neg same, names, ne_eq, not_true, if_false]
            rfl
          · intro error failed
            cases failed
        · refine ⟨.error (namesDiffer database.comparator.name call.comparator.name), _, ?_, opened, ?_⟩
          · rw [Host.openDatabase, found]
            simp only [if_neg (Nat.not_lt.mpr past), if_neg same, ne_eq, names, not_false_eq_true, if_true]
            rfl
          · intro error _
            exact Or.inl ⟨⟨database, found, by omega, names⟩, update_ne found same⟩

/-- Every event of a host is possible and keeps it settled. -/
theorem Settled.event (settled : host.Settled) (event : HostEvent) :
    ∃ answers next, host.event event = some (answers, next) ∧ next.Settled := by
  cases event with
  | kill => exact ⟨_, _, rfl, settled.killHost⟩
  | start fiber =>
      cases main : host.mainFiber with
      | some running => exact ⟨[], host, by rw [Host.event, main], settled⟩
      | none => exact ⟨[], { host with mainFiber := some fiber }, by rw [Host.event, main], settled⟩
  | openDatabase call =>
      obtain ⟨answer, next, opened, still, _⟩ := settled.openDatabase call
      exact ⟨_, _, by rw [Host.event, opened]; rfl, still⟩

/-- No `VERIFY` fails, whatever happens to the host. -/
theorem Settled.events (settled : host.Settled) (events : List HostEvent) :
    ∃ answers last, host.events events = some (answers, last) ∧ last.Settled := by
  induction events generalizing host with
  | nil => exact ⟨_, _, rfl, settled⟩
  | cons first rest ih =>
      obtain ⟨answers, next, happened, still⟩ := settled.event first
      obtain ⟨others, last, happens, ends⟩ := ih still
      refine ⟨answers ++ others, last, ?_, ends⟩
      rw [Host.events, happened]
      simp only [Option.bind_eq_bind, Option.bind_some, happens]

end Host

/-- A failed call changes the databases only if it found a database of an earlier epoch with another comparator.
Otherwise every later call is answered as if it had not been made. -/
theorem failed_open_unchanged (clock : Clock) (events : List HostEvent) (call : OpenCall) :
    ∃ answers host, (Host.new clock).events events = some (answers, host) ∧
      ∃ answer next, host.openDatabase call host.epoch = some (answer, next) ∧
        ∀ error, answer = .error error →
          (next.databases = host.databases ↔ ¬host.Mismatched call) ∧
          (¬host.Mismatched call → ∀ later, next.events later = host.events later) := by
  obtain ⟨answers, host, happened, settled⟩ := (Host.new_settled clock).events events
  obtain ⟨answer, next, opened, _, cases⟩ := settled.openDatabase call
  refine ⟨answers, host, happened, answer, next, opened, fun error failed => ?_⟩
  rcases cases error failed with ⟨mismatched, changed⟩ | ⟨plain, rfl⟩
  · exact ⟨iff_of_false changed (not_not_intro mismatched), fun plain => absurd mismatched plain⟩
  · exact ⟨iff_of_true rfl plain, fun _ _ => rfl⟩

/-- A comparator of which only the name matters. -/
def namedComparator (name : String) : Comparator := ⟨name, fun _ _ => some 0⟩

/-- A database is created and the host is restarted. -/
def restartEvents : List HostEvent :=
  [.start 2, .openDatabase ⟨"db", true, namedComparator "a"⟩, .kill, .start 3]

/-- A call with the wrong comparator makes the database seem open, so that the right one is refused. -/
theorem failed_open_seen :
    ((Host.new ⟨0, fun _ => 0, 0⟩).events (restartEvents ++ [.openDatabase ⟨"db", false, namedComparator "a"⟩])).map
        Prod.fst = some [.ok (), .ok ()] ∧
    ((Host.new ⟨0, fun _ => 0, 0⟩).events (restartEvents ++ [.openDatabase ⟨"db", false, namedComparator "b"⟩,
        .openDatabase ⟨"db", false, namedComparator "a"⟩])).map Prod.fst =
      some [.ok (), .error ⟨.invalidArgument, "comparator names does not match: a != b"⟩,
        .error ⟨.internal, "database is opened twice"⟩] := by
  decide +kernel

end Metamorphosis.Simulator
