import Metamorphosis.Construction.Simulator.Drift

/-!
The conversion of local to global times. It finds the first global time at which the local clock has reached a
given time. A slow clock stands still now and then, so this may lie before the time that it was asked at.
-/

namespace Metamorphosis.Simulator

section Search
variable {predicate : Nat → Bool}

/-- Every round keeps what is known about both ends of the interval. -/
theorem binarySearch_least (monotone : ∀ {a b}, a ≤ b → predicate a = true → predicate b = true)
    {rounds first last : Nat} (below : ∀ value < first, predicate value = false) (holds : predicate last = true)
    (enough : last - first ≤ rounds) :
    predicate (binarySearch predicate rounds first last) = true ∧
      ∀ value < binarySearch predicate rounds first last, predicate value = false := by
  induction rounds generalizing first last with
  | zero =>
      rw [binarySearch]
      exact ⟨monotone (by omega) holds, below⟩
  | succ rounds ih =>
      rw [binarySearch]
      by_cases more : first < last
      · rw [if_pos more]
        dsimp only
        by_cases found : predicate (first + (last - first) / 2) = true
        · rw [if_pos found]
          exact ih below found (by omega)
        · rw [if_neg found]
          apply ih _ holds (by omega)
          intro value before
          by_contra reached
          have holds_there : predicate value = true := by simpa using reached
          exact found (monotone (Nat.le_of_lt_succ before) holds_there)
      · rw [if_neg more]
        exact ⟨monotone (by omega) holds, below⟩

/-- A search whose predicate never fails. -/
theorem search?_eq {partially : Nat → Option Bool} {rounds first last : Nat}
    (defined : ∀ value < last, partially value = some (predicate value)) :
    search? partially rounds first last = some (binarySearch predicate rounds first last) := by
  induction rounds generalizing first last with
  | zero => rfl
  | succ rounds ih =>
      rw [search?, binarySearch]
      by_cases more : first < last
      · rw [if_pos more, if_pos more]
        have middle := defined (first + (last - first) / 2) (by omega)
        simp only [middle, Option.bind_eq_bind, Option.bind_some]
        by_cases found : predicate (first + (last - first) / 2) = true
        · rw [if_pos found, if_pos found]
          exact ih fun value before => defined value (by omega)
        · rw [if_neg found, if_neg found]
          exact ih defined
      · rw [if_neg more, if_neg more]

/-- The values behind the first midpoint do not matter if the predicate holds there. -/
theorem search?_eq_left {partially : Nat → Option Bool} {rounds first last middle : Nat}
    (middle_eq : first + (last - first) / 2 = middle) (more : first < last) (holds : predicate middle = true)
    (defined : ∀ value ≤ middle, partially value = some (predicate value)) (some_rounds : 0 < rounds) :
    search? partially rounds first last = some (binarySearch predicate rounds first last) := by
  obtain ⟨rounds, rfl⟩ := Nat.exists_eq_add_of_lt some_rounds
  rw [search?, binarySearch, if_pos more, if_pos more, middle_eq]
  simp only [defined middle (Nat.le_refl _), holds, Option.bind_eq_bind, Option.bind_some, if_true]
  exact search?_eq fun value before => defined value (Nat.le_of_lt before)

end Search

/-- The clock never shows the same time twice. -/
def Clock.Advances (clock : Clock) : Prop :=
  ∀ {earlier later}, earlier < later → clock.toLocalTime earlier < clock.toLocalTime later

namespace DriftClock
variable (clock : DriftClock)

/-- The fraction has a positive denominator. -/
theorem denominator_pos : 0 < clock.denominator := by
  have slow := clock.slow
  have fast := clock.fast
  omega

/-- The local clock as a function of natural numbers, for a fast and for a slow clock. -/
theorem drifted_cases :
    ∃ part < clock.denominator, (∀ time, clock.drifted time = ((part * time / clock.denominator : Nat) : Int)) ∨
      ∀ time, clock.drifted time = -((part * time / clock.denominator : Nat) : Int) := by
  have slow := clock.slow
  have fast := clock.fast
  refine ⟨clock.numerator.natAbs, by omega, ?_⟩
  rcases Int.natAbs_eq clock.numerator with positive | negative
  · apply Or.inl
    intro time
    rw [drifted, positive, Int.natAbs_natCast, ← Int.natCast_mul, Int.ofNat_tdiv]
  · apply Or.inr
    intro time
    rw [drifted, negative, Int.natAbs_neg, Int.natAbs_natCast, Int.neg_mul, Int.neg_tdiv, ← Int.natCast_mul,
      Int.ofNat_tdiv]

theorem toLocalTime_eq (time : Nat) :
    clock.toClock.toLocalTime time = time + (clock.drifted time + clock.startTime) := rfl

/-- A clock does not go back. -/
theorem toLocalTime_succ (time : Nat) :
    clock.toClock.toLocalTime time ≤ clock.toClock.toLocalTime (time + 1) := by
  obtain ⟨part, small, fast | slow⟩ := clock.drifted_cases
  · have grows : part * time / clock.denominator ≤ part * (time + 1) / clock.denominator :=
      Nat.div_le_div_right (Nat.mul_le_mul_left part (Nat.le_succ time))
    rw [toLocalTime_eq, toLocalTime_eq, fast, fast]
    omega
  · have bounded : part * (time + 1) / clock.denominator ≤ part * time / clock.denominator + 1 := by
      rw [← Nat.add_div_right _ clock.denominator_pos, Nat.mul_succ]
      exact Nat.div_le_div_right (by omega)
    rw [toLocalTime_eq, toLocalTime_eq, slow, slow]
    omega

/-- Later times have later local times, or the same ones. -/
theorem toLocalTime_monotone {earlier later : Nat} (order : earlier ≤ later) :
    clock.toClock.toLocalTime earlier ≤ clock.toClock.toLocalTime later := by
  induction order with
  | refl => exact Int.le_refl _
  | step _ ih => exact Int.le_trans ih (clock.toLocalTime_succ _)

/-- A clock never stands still exactly if it is not slower than the global time. -/
theorem advances_iff : clock.toClock.Advances ↔ 0 ≤ clock.numerator := by
  have positive : (0 : Int) < clock.denominator := Int.natCast_pos.mpr clock.denominator_pos
  constructor
  · intro advances
    -- Over one denominator a slow clock loses its numerator, although it gains a unit with every step.
    have gains : ∀ time : Nat, clock.toClock.toLocalTime 0 + time ≤ clock.toClock.toLocalTime time := by
      intro time
      induction time with
      | zero => simp
      | succ time ih =>
          have next := advances (show time < time + 1 by omega)
          push_cast
          omega
    have whole := gains clock.denominator
    have started : clock.drifted 0 = 0 := by simp [drifted]
    have lost : clock.drifted clock.denominator = clock.numerator := Int.mul_tdiv_cancel _ (by omega)
    rw [toLocalTime_eq, toLocalTime_eq, started, lost] at whole
    push_cast at whole
    omega
  · intro fast earlier later before
    have order : clock.numerator * earlier ≤ clock.numerator * later :=
      Int.mul_le_mul_of_nonneg_left (Int.ofNat_le.mpr (Nat.le_of_lt before)) fast
    have grows : clock.drifted earlier ≤ clock.drifted later := Int.tdiv_le_tdiv positive order
    rw [toLocalTime_eq, toLocalTime_eq]
    omega

/-- The drift is smaller than the time itself. -/
theorem drifted_bounds (time : Nat) : -(time : Int) ≤ clock.drifted time ∧ clock.drifted time ≤ time := by
  obtain ⟨part, small, fast | slow⟩ := clock.drifted_cases
  · have bounded : part * time / clock.denominator ≤ time :=
      Nat.div_le_of_le_mul (Nat.mul_le_mul_right time (Nat.le_of_lt small))
    rw [fast]
    generalize part * time / clock.denominator = share at bounded
    omega
  · have bounded : part * time / clock.denominator ≤ time :=
      Nat.div_le_of_le_mul (Nat.mul_le_mul_right time (Nat.le_of_lt small))
    rw [slow]
    generalize part * time / clock.denominator = share at bounded
    omega

/-- No overflow as long as the local time fits. -/
theorem toLocalTime?_eq {time : Nat} (small : time < 2 ^ 62) (fits : clock.toClock.toLocalTime time < 2 ^ 63) :
    clock.toLocalTime? time = some (clock.toClock.toLocalTime time) := by
  have bounds := clock.drifted_bounds time
  have started := clock.started
  rw [toLocalTime_eq] at fits
  have first : int64 (clock.drifted time) = some (clock.drifted time) := if_pos (by omega)
  have second : int64 (clock.drifted time + clock.startTime) = some (clock.drifted time + clock.startTime) :=
    if_pos (by omega)
  have third : int64 (time + (clock.drifted time + clock.startTime)) =
      some (time + (clock.drifted time + clock.startTime)) := if_pos (by omega)
  simp only [toLocalTime?, first, second, third, Option.bind_eq_bind, Option.bind_some, toLocalTime_eq]

/-- The first time at which a local time is reached. -/
structure FirstReaches (localTime : Int) (globalTime : Nat) : Prop where
  reaches : localTime ≤ clock.toClock.toLocalTime globalTime
  first : ∀ earlier < globalTime, clock.toClock.toLocalTime earlier < localTime

variable {clock} {localTime : Int} {globalTime : Nat}

/-- The search goes back behind a time only if the clock has stood still there. -/
theorem FirstReaches.not_before_iff (found : clock.FirstReaches localTime globalTime) (now : Nat) :
    now ≤ globalTime ↔ now = 0 ∨ clock.toClock.toLocalTime (now - 1) < localTime := by
  constructor
  · intro later
    cases now with
    | zero => exact Or.inl rfl
    | succ before => exact Or.inr (found.first before later)
  · rintro (rfl | behind)
    · exact Nat.zero_le _
    · by_contra early
      have order := clock.toLocalTime_monotone (show globalTime ≤ now - 1 by omega)
      have reaches := found.reaches
      omega

/-- The search finds the first time at which the clock shows the local time. -/
theorem toGlobalTime_first (late : localTime ≤ clock.toClock.toLocalTime (2 ^ 62 - 1)) :
    clock.FirstReaches localTime (clock.toClock.toGlobalTime localTime) := by
  have monotone {a b : Nat} (order : a ≤ b) (reached : decide (localTime ≤ clock.toClock.toLocalTime a) = true) :
      decide (localTime ≤ clock.toClock.toLocalTime b) = true :=
    decide_eq_true (Int.le_trans (of_decide_eq_true reached) (clock.toLocalTime_monotone order))
  have holds : decide (localTime ≤ clock.toClock.toLocalTime maxDuration) = true :=
    monotone (by decide) (decide_eq_true late)
  have below : ∀ value < 0, decide (localTime ≤ clock.toClock.toLocalTime value) = false := by simp
  obtain ⟨reaches, first⟩ := binarySearch_least monotone below holds (Nat.le_refl _)
  refine ⟨of_decide_eq_true reaches, fun earlier before => ?_⟩
  exact Int.not_le.mp (of_decide_eq_false (first earlier before))

/-- The first midpoint is `2 ^ 62 - 1`, and no later one is larger. -/
theorem toGlobalTime?_eq (range : clock.toClock.toLocalTime (2 ^ 62 - 1) < 2 ^ 63)
    (late : localTime ≤ clock.toClock.toLocalTime (2 ^ 62 - 1)) :
    clock.toGlobalTime? localTime = some (clock.toClock.toGlobalTime localTime) := by
  have found := toGlobalTime_first late
  have fits {time : Nat} (small : time ≤ 2 ^ 62 - 1) :
      clock.toLocalTime? time = some (clock.toClock.toLocalTime time) :=
    clock.toLocalTime?_eq (by omega) (Int.lt_of_le_of_lt (clock.toLocalTime_monotone small) range)
  have small : clock.toClock.toGlobalTime localTime ≤ 2 ^ 62 - 1 := by
    by_contra behind
    have := found.first (2 ^ 62 - 1) (by omega)
    omega
  have searched : search? (fun value => (clock.toLocalTime? value).map fun time => decide (localTime ≤ time))
      maxDuration 0 maxDuration = some (clock.toClock.toGlobalTime localTime) := by
    apply search?_eq_left (show 0 + (maxDuration - 0) / 2 = 2 ^ 62 - 1 by decide) (by decide) (decide_eq_true late)
      _ (by decide)
    intro value small
    rw [fits small]
    rfl
  simp only [toGlobalTime?, searched, fits small, Option.bind_eq_bind, Option.bind_some, if_pos found.reaches]

end DriftClock

/-- The conversion finds the first time that is not too early, and this lies before the current time only if the
clock has not moved since the time before. -/
theorem clock_conversion (clock : DriftClock) (range : clock.toClock.toLocalTime (2 ^ 62 - 1) < 2 ^ 63) (now : Nat) :
    (∀ localTime, clock.toClock.toLocalTime now ≤ localTime →
      localTime ≤ clock.toClock.toLocalTime (2 ^ 62 - 1) →
      ∃ globalTime, clock.toGlobalTime? localTime = some globalTime ∧
        localTime ≤ clock.toClock.toLocalTime globalTime ∧
        (∀ earlier < globalTime, clock.toClock.toLocalTime earlier < localTime) ∧
        (now ≤ globalTime ↔ now = 0 ∨ clock.toClock.toLocalTime (now - 1) < localTime)) ∧
    ∀ (w : World) (f : Nat) (host : Host) (duration lag : Nat) (token : Option Nat) (handles : Option Delivery),
      host.clock = clock.toClock → w.currentTime = now → lag ≤ clock.maxSleepLag →
      clock.toClock.toLocalTime now + duration + lag ≤ clock.toClock.toLocalTime (2 ^ 62 - 1) →
      (now = 0 ∨ clock.toClock.toLocalTime (now - 1) < clock.toClock.toLocalTime now + duration + lag) →
      ∃ globalTime, w.sleepUntil f host (clock.toClock.toLocalTime now + duration) token lag handles =
        some (w.onRuntime fun r => r.sleepUntil f globalTime token (.slept globalTime token handles)) := by
  constructor
  · intro localTime _ late
    have found := DriftClock.toGlobalTime_first late
    exact ⟨_, DriftClock.toGlobalTime?_eq range late, found.reaches, found.first, found.not_before_iff now⟩
  · intro w f host duration lag token handles same current possible late moved
    have found := DriftClock.toGlobalTime_first late
    have later := (found.not_before_iff now).mpr moved
    refine ⟨clock.toClock.toGlobalTime (clock.toClock.toLocalTime now + duration + lag), ?_⟩
    have drawn : ¬clock.toClock.maxSleepLag < lag := Nat.not_lt.mpr possible
    rw [World.sleepUntil, same, if_neg drawn]
    simp only [World.onRuntime, current]
    rw [if_neg (Int.not_lt.mpr found.reaches), if_neg (Nat.not_lt.mpr later)]

/-- A clock that is half as fast as the global time. -/
def halfClock : DriftClock := ⟨-1, 2, 0, 0, by decide, by decide, by decide⟩

/-- On a clock at half speed the conversion finds the first of two times. -/
theorem clock_conversion_half :
    ∃ globalTime, halfClock.toGlobalTime? 7 = some globalTime ∧ 7 ≤ halfClock.toClock.toLocalTime globalTime ∧
      (∀ earlier < globalTime, halfClock.toClock.toLocalTime earlier < 7) ∧
      (3 ≤ globalTime ↔ 3 = 0 ∨ halfClock.toClock.toLocalTime (3 - 1) < 7) :=
  (clock_conversion halfClock (by decide) 3).1 7 (by decide) (by decide)

/-- A conversion there and back leads to an earlier time. -/
theorem halfClock_back : halfClock.toClock.toGlobalTime (halfClock.toClock.toLocalTime 2) = 1 := by decide +kernel

/-- After two units of the global time the slow clock shows what it has shown after one, so a sleep of no length
would end in the past. -/
theorem slow_clock_sleep :
    (¬ ∀ (clock : DriftClock) (now : Nat) (localTime : Int), clock.toClock.toLocalTime (2 ^ 62 - 1) < 2 ^ 63 →
      clock.toClock.toLocalTime now ≤ localTime → localTime ≤ clock.toClock.toLocalTime (2 ^ 62 - 1) →
      ∀ globalTime, clock.toGlobalTime? localTime = some globalTime → now ≤ globalTime) ∧
    ∀ (w : World) (f : Nat) (host : Host), host.clock = halfClock.toClock → w.currentTime = 2 →
      w.sleepUntil f host (halfClock.toClock.toLocalTime 2) none 0 none =
        some (w.onRuntime fun r => r.fail .sleepTimestamp) := by
  have late : halfClock.toClock.toLocalTime 2 ≤ halfClock.toClock.toLocalTime (2 ^ 62 - 1) := by decide
  constructor
  · intro always
    have found := DriftClock.toGlobalTime?_eq (by decide : halfClock.toClock.toLocalTime (2 ^ 62 - 1) < 2 ^ 63) late
    have later := always halfClock 2 _ (by decide) (Int.le_refl _) late _ found
    rw [halfClock_back] at later
    omega
  · intro w f host same current
    have reaches := (DriftClock.toGlobalTime_first late).reaches
    rw [halfClock_back] at reaches
    rw [World.sleepUntil, same, if_neg (by decide)]
    simp only [World.onRuntime, current, Int.natCast_zero, Int.add_zero, halfClock_back]
    rw [if_neg (Int.not_lt.mpr reaches), if_pos (by decide)]

end Metamorphosis.Simulator
