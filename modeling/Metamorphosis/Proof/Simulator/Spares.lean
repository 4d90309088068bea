import Metamorphosis.Proof.Simulator.Scheduling

/-!
A step changes the code of the fiber that runs and of no other one.
-/

namespace Metamorphosis.Simulator

/-- A fiber goes on where it was. -/
structure Runtime.Spares (f : Nat) (r d : Runtime Code) : Prop where
  code : (d.fibers f).code = (r.fibers f).code
  born : r.nextFiber ≤ d.nextFiber

namespace Runtime.Spares
variable {f g : Nat} {r d e : Runtime Code}

theorem refl (r : Runtime Code) : Spares f r r := ⟨rfl, Nat.le_refl _⟩

/-- Two changes in a row spare the fiber if both do. -/
theorem trans (first : Spares f r d) (second : Spares f d e) : Spares f r e :=
  ⟨second.code.trans first.code, Nat.le_trans first.born second.born⟩

/-- Only the scheduler or the queue of events changed. -/
theorem of_fibers (fibers : d.fibers = r.fibers) (next : d.nextFiber = r.nextFiber) : Spares f r d :=
  ⟨by rw [fibers], Nat.le_of_eq next.symm⟩

/-- A change of another fiber. -/
theorem setFiber (other : f ≠ g) (fiber : Fiber Code) : Spares f r (r.setFiber g fiber) :=
  ⟨by rw [setFiber_fibers_other fiber other], Nat.le_refl _⟩

/-- The fibers are those of another state. -/
theorem relabel (spared : Spares f r d) (fibers : e.fibers = d.fibers) (next : e.nextFiber = d.nextFiber) :
    Spares f r e := spared.trans (of_fibers fibers next)

/-- `awakened` changes no code. -/
theorem awakened (r : Runtime Code) (g : Nat) : Spares f r (r.awakened g) := ⟨awakened_code r g f, Nat.le_refl _⟩

/-- A fiber that is woken stays where it is. -/
theorem wake (r : Runtime Code) (g : Nat) (status : Status) : Spares f r (r.wake g status) :=
  ⟨wake_code r f g status, Nat.le_refl _⟩

/-- A fiber is woken after a change of the queue of events. -/
theorem wakeAfter (fibers : d.fibers = r.fibers) (next : d.nextFiber = r.nextFiber) (g : Nat) (status : Status) :
    Spares f r (d.wake g status) := (of_fibers fibers next).trans (wake d g status)

/-- Another fiber is suspended. -/
theorem suspend (other : f ≠ g) (status : Status) (code : Code) : Spares f r (r.suspend g status code) :=
  (setFiber other _).relabel rfl rfl

theorem setCurrentHost (other : f ≠ g) (host epoch : Nat) : Spares f r (r.setCurrentHost g host epoch) :=
  (setFiber other _).relabel rfl rfl

/-- A new fiber has a number of its own. -/
theorem spawn (born : f < r.nextFiber) (g : Nat) (code : Code) : Spares f r (r.spawn g code) :=
  ⟨congrArg Fiber.code (Scheduled.spawn_fibers (Nat.ne_of_lt born)), Nat.le_succ _⟩

theorem birth (born : f < r.nextFiber) (code : Code) : Spares f r (r.birth code) :=
  ⟨congrArg Fiber.code (setFiber_fibers_other _ (Nat.ne_of_lt born)), Nat.le_succ _⟩

/-- A fiber that is created and runs at once has a number of its own, too. -/
theorem dispatch (born : f < r.nextFiber) (g : Nat) (code : Code) : Spares f r (r.dispatch g code) :=
  ((birth born code).trans (awakened _ g)).relabel rfl rfl

/-- Another fiber goes to sleep. -/
theorem sleepUntil (other : f ≠ g) (wakeUpTime : Nat) (token : Option Nat) (next : Code) :
    Spares f r (r.sleepUntil g wakeUpTime token next) := by
  unfold Runtime.sleepUntil
  split
  · exact (setFiber other _).relabel rfl rfl
  · exact (suspend other _ _).relabel rfl rfl

/-- Another fiber waits for the end of its call. -/
theorem awaitReply (other : f ≠ g) (token : Option Nat) (next : Code) : Spares f r (r.awaitReply g token next) := by
  unfold Runtime.awaitReply
  split
  · exact setFiber other _
  · exact (suspend other _ _).relabel rfl rfl

/-- A callback of a stop only wakes its fiber. -/
theorem execute (r : Runtime Code) (g : Nat) : Spares f r (r.execute g) := by
  unfold Runtime.execute
  split
  · split
    · apply wakeAfter
      · rfl
      · rfl
    · exact of_fibers rfl rfl
  · split
    · apply wakeAfter
      · rfl
      · rfl
    · exact of_fibers rfl rfl
  · exact wake r g _
  · exact refl r

/-- All callbacks of a stop only wake their fibers. -/
theorem stop (r : Runtime Code) (source : Nat) : Spares f r (r.stop source) := by
  suffices ∀ (called : List Nat) (d : Runtime Code), Spares f r d → Spares f r (called.foldl Runtime.execute d) from
    this _ _ (of_fibers rfl rfl)
  intro called
  induction called with
  | nil => exact fun _ spared => spared
  | cons g rest ih => exact fun d spared => ih _ (spared.trans (execute d g))

/-- The end of a sleep only wakes the fiber that sleeps. -/
theorem popEvent (r : Runtime Code) (event : Nat × Nat) : Spares f r (r.popEvent event) := by
  unfold Runtime.popEvent
  split
  · exact of_fibers rfl rfl
  · unfold Runtime.signal
    split
    · exact of_fibers rfl rfl
    · split
      · apply wakeAfter
        · rfl
        · rfl
      · exact of_fibers rfl rfl

/-- A fiber that is picked goes on where it was. -/
theorem resume (r : Runtime Code) (g : Nat) : Spares f r (r.resume g) := by
  refine ⟨?_, Nat.le_of_eq (resume_scheduler r g).1.symm⟩
  by_cases same : f = g
  · subst same
    exact (resume_self r f).1
  · rw [resume_fibers_other same]

theorem putBack (r : Runtime Code) (back : Option Nat) : Spares f r (r.putBack back) :=
  ⟨(putBack_fibers r back f).2.2.2, Nat.le_of_eq (putBack_control r back).2.symm⟩

/-- The scheduler changes no code. -/
theorem pick {back : Option Nat} {choice : Nat} (picked : r.pick back choice = some d) : Spares f r d := by
  unfold Runtime.pick at picked
  split at picked
  · cases picked
    exact of_fibers rfl rfl
  · obtain ⟨g, _, rfl⟩ := Option.map_eq_some_iff.mp picked
    have noted : Spares f r (r.pickNext g choice) := of_fibers rfl rfl
    exact (noted.trans (putBack _ back)).trans (resume _ g)

end Runtime.Spares

/-- An act spares every fiber that does not run. -/
theorem Acts.spares {possible : Failure → Prop} {r d : Runtime Code} {f : Nat} (act : Acts possible r d)
    (born : f < r.nextFiber) (other : r.control ≠ .runs f) : Runtime.Spares f r d := by
  have differs {g : Nat} (runs : r.control = .runs g) : f ≠ g := by
    rintro rfl
    exact other runs
  cases act with
  | fail | late | yield => exact .of_fibers rfl rfl
  | code runs | close runs => exact .setFiber (differs runs) _
  | switch runs => exact .setCurrentHost (differs runs) ..
  | suspend runs => exact .suspend (differs runs) ..
  | wake | answer => exact .wake ..
  | spawn => exact .spawn born ..
  | dispatch => exact .dispatch born ..
  | start => exact ((Runtime.Spares.spawn born ..).trans (.setFiber (Nat.ne_of_lt born) _)).relabel rfl rfl
  | request runs => exact (Runtime.Spares.spawn born ..).trans (.awaitReply (differs runs) ..)
  | sleep runs => exact .sleepUntil (differs runs) ..
  | stop => exact .stop ..
  | mark runs => exact (Runtime.Spares.setFiber (differs runs) _).relabel rfl rfl
  | pop runs => exact ((Runtime.Spares.setFiber (differs runs) _).trans (.popEvent ..)).relabel rfl rfl
  | pick _ picked => exact .pick picked

/-- Acts of one fiber spare all others. -/
theorem ActedBy.spares {possible : Failure → Prop} {r d : Runtime Code} {f g : Nat} (acted : ActedBy possible g r d)
    (born : f < r.nextFiber) (other : f ≠ g) : Runtime.Spares f r d := by
  induction acted with
  | refl => exact .refl r
  | tail _ last ih =>
      obtain ⟨runs, act⟩ := last
      refine ih.trans (act.spares (Nat.lt_of_lt_of_le born ih.born) fun same => other ?_)
      exact Control.runs.inj (same.symm.trans runs)

/-- Whatever another fiber does, and whenever the next one is picked, a fiber keeps its code. -/
theorem World.step_spares {w d : World} {f : Nat} (born : f < w.nextFiber) (other : w.control ≠ .runs f) {move : Move}
    (stepped : w.step move = some d) : Runtime.Spares f w.toRuntime d.toRuntime := by
  have differs {g : Nat} (runs : w.control = .runs g) : f ≠ g := by
    rintro rfl
    exact other runs
  have usual : ∀ failure : Failure, failure.ofTime = false → True := fun _ _ => trivial
  cases step_stepped stepped with
  | pick _ picked => exact .pick picked
  | user runs code acted => exact (act_acted usual acted runs code (Or.inl trivial)).spares born (differs runs)
  | go runs went =>
      rcases go_acted usual went runs (Or.inl trivial) with acted | clears
      · exact acted.spares born (differs runs)
      · rw [clears.cleared]
        exact (Runtime.Spares.setFiber (differs runs) _).relabel rfl rfl

end Metamorphosis.Simulator
