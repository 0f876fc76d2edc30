import TKey.Peripherals
import Mathlib.Data.List.Chain
import Mathlib.Data.List.Induction

namespace TKey.Fpga

/-!
# Duration of the timer

The two counters of the timer are one countdown: the number of clock cycles
that the core still runs.  The CPU never accesses a core in two consecutive
cycles.
-/

section Countdown

/-- At most one access in any two consecutive cycles. -/
def Spaced (accesses : List CorePorts) : Prop :=
  accesses.IsChain fun earlier later =>
    earlier.cs = true → later.cs = false

/-- A write of the start bit. -/
def CorePorts.starts (ports : CorePorts) : Bool :=
  ports.writes timerAddrCtrl && ports.writeData.getLsbD 0

/-- A write of the stop bit. -/
def CorePorts.stops (ports : CorePorts) : Bool :=
  ports.writes timerAddrCtrl && ports.writeData.getLsbD 1

/-- A write of the prescaler or of the timer value. -/
def CorePorts.configures (ports : CorePorts) : Bool :=
  ports.writes timerAddrPrescaler || ports.writes timerAddrTimer

/-- Number of clock cycles that the core runs for a prescaler and a timer. -/
def timerDuration (prescaler timer : BitVec 32) : Nat :=
  max prescaler.toNat 1 * max timer.toNat 1

/-- What the timer is: a countdown with two settings that are locked meanwhile. -/
structure Countdown where
  prescaler : BitVec 32
  timer : BitVec 32
  start : Bool
  stop : Bool
  left : Nat

namespace Countdown

/-- A request takes effect in the cycle after it was made. -/
def step (countdown : Countdown) (ports : CorePorts) : Countdown where
  start := ports.starts
  stop := ports.stops
  prescaler :=
    if ports.writes timerAddrPrescaler && countdown.left = 0 then
      ports.writeData
    else
      countdown.prescaler
  timer :=
    if ports.writes timerAddrTimer && countdown.left = 0 then
      ports.writeData
    else
      countdown.timer
  left :=
    if countdown.left = 0 then
      if countdown.start then
        timerDuration countdown.prescaler countdown.timer
      else
        0
    else if countdown.stop then
      0
    else
      countdown.left - 1

end Countdown

end Countdown

section Refinement

/-- Number of clock cycles that the core still runs. -/
def TimerCore.left (core : TimerCore) (prescalerInit : BitVec 32) : Nat :=
  if core.running then
    max core.prescalerReg.toNat 1 +
      (max core.timerReg.toNat 1 - 1) * max prescalerInit.toNat 1
  else
    0

theorem TimerCore.left_eq_zero
    (core : TimerCore)
    (prescalerInit : BitVec 32) :
    core.left prescalerInit = 0 ↔ core.running = false := by
  unfold left
  cases core.running with
  | false =>
      simp
  | true =>
      have positive : 0 < max core.prescalerReg.toNat 1 := by omega
      simp only [↓reduceIte, Bool.true_eq_false, iff_false]
      omega

/-- The upper 31 bits of a counter are zero if it is zero or one. -/
theorem extractLsb'_eq_zero_iff (counter : BitVec 32) :
    counter.extractLsb' 1 31 = 0 ↔ counter.toNat ≤ 1 := by
  rw [← BitVec.toNat_inj, BitVec.extractLsb'_toNat, Nat.shiftRight_eq_div_pow]
  have bound := counter.isLt
  change counter.toNat / 2 ^ 1 % 2 ^ 31 = 0 ↔ counter.toNat ≤ 1
  omega

/-- A counter above one is decremented without a wrap. -/
theorem toNat_sub_one {counter : BitVec 32} (large : ¬ counter.toNat ≤ 1) :
    (counter - 1).toNat = counter.toNat - 1 := by
  have bound := counter.isLt
  rw [BitVec.toNat_sub_of_le]
  · rfl
  · rw [BitVec.le_def]
    change 1 ≤ counter.toNat
    omega

/-- The two counters of the core count down together. -/
theorem TimerCore.left_clock
    (core : TimerCore)
    (prescalerInit timerInit : BitVec 32)
    (start stop : Bool) :
    (core.clock prescalerInit timerInit start stop).left prescalerInit =
      if core.left prescalerInit = 0 then
        if start then timerDuration prescalerInit timerInit else 0
      else if stop then
        0
      else
        core.left prescalerInit - 1 := by
  simp only [TimerCore.left_eq_zero]
  rcases core with ⟨prescaler, timer, running⟩
  cases running with
  | false =>
      cases start with
      | false =>
          rfl
      | true =>
          change max prescalerInit.toNat 1 +
            (max timerInit.toNat 1 - 1) * max prescalerInit.toNat 1 = _
          have whole : max timerInit.toNat 1 = max timerInit.toNat 1 - 1 + 1 := by
            omega
          rw [if_pos rfl, if_pos rfl, timerDuration]
          conv_rhs => rw [whole, Nat.mul_comm, Nat.succ_mul]
          exact Nat.add_comm _ _
  | true =>
      cases stop with
      | true =>
          rfl
      | false =>
          simp only [clock, left, Bool.not_true, Bool.false_eq_true, ↓reduceIte,
            extractLsb'_eq_zero_iff, Bool.true_eq_false]
          by_cases lastTick : prescaler.toNat ≤ 1
          · have tick : max prescaler.toNat 1 = 1 := by omega
            by_cases lastRound : timer.toNat ≤ 1
            · simp [lastTick, lastRound]
            · -- the prescaler is loaded again
              have rounds : max timer.toNat 1 - 1 =
                  max (timer - 1).toNat 1 - 1 + 1 := by
                rw [toNat_sub_one lastRound]
                omega
              simp only [lastTick, lastRound, ↓reduceIte]
              rw [tick, rounds, Nat.succ_mul]
              omega
          · have ticks : max (prescaler - 1).toNat 1 =
                max prescaler.toNat 1 - 1 := by
              rw [toNat_sub_one lastTick]
              omega
            simp only [lastTick, ↓reduceIte]
            rw [ticks]
            omega

namespace Timer

/-- The countdown that a timer stands for. -/
def countdown (timer : Timer) : Countdown where
  prescaler := timer.prescalerReg
  timer := timer.timerReg
  start := timer.startReg
  stop := timer.stopReg
  left := timer.core.left timer.prescalerReg

/--
A clock edge is a step of the countdown, unless the prescaler is written in the
very cycle in which the core starts.
-/
theorem countdown_clock
    (timer : Timer)
    (ports : CorePorts)
    (quiet : timer.startReg = true → ports.cs = false) :
    (timer.clock ports).countdown = timer.countdown.step ports := by
  have locked : (decide (timer.core.left timer.prescalerReg = 0)) =
      !timer.core.running := by
    simp only [TimerCore.left_eq_zero, Bool.decide_eq_false]
  have kept : (timer.clock ports).core.left (timer.clock ports).prescalerReg =
      (timer.clock ports).core.left timer.prescalerReg := by
    change TimerCore.left _ (if ports.writes timerAddrPrescaler &&
      !timer.core.running then ports.writeData else timer.prescalerReg) = _
    by_cases written :
        (ports.writes timerAddrPrescaler && !timer.core.running) = true
    · -- nothing is left before and after the write
      rcases Bool.and_eq_true_iff.mp written with ⟨writes, idle⟩
      have selected : ports.cs = true := by
        simp only [CorePorts.writes, Bool.and_eq_true] at writes
        exact writes.1.1
      have idle' : timer.core.running = false := by
        simpa using idle
      have unstarted : timer.startReg = false := by
        cases start : timer.startReg with
        | false =>
            rfl
        | true =>
            rw [quiet start] at selected
            exact absurd selected (by decide)
      have stays : (timer.clock ports).core.running = false := by
        simp [clock, TimerCore.clock, idle', unstarted]
      rw [(TimerCore.left_eq_zero _ _).mpr stays,
        (TimerCore.left_eq_zero _ _).mpr stays]
    · rw [if_neg written]
  unfold countdown Countdown.step
  rw [kept, locked]
  congr 1
  exact TimerCore.left_clock ..

/-- The state after some cycles. -/
def run (accesses : List CorePorts) : Timer :=
  accesses.foldl clock reset

theorem run_append (past after : List CorePorts) :
    run (past ++ after) = after.foldl clock (run past) := by
  exact List.foldl_append

/-- The request to start is that of the last cycle. -/
theorem startReg_run_concat (past : List CorePorts) (ports : CorePorts) :
    (run (past ++ [ports])).startReg = ports.starts := by
  rw [run_append]
  rfl

/-- The timer is a countdown in every run. -/
theorem countdown_run
    (accesses : List CorePorts)
    (spaced : Spaced accesses) :
    (run accesses).countdown =
      accesses.foldl Countdown.step reset.countdown := by
  induction accesses using List.reverseRecOn with
  | nil =>
      rfl
  | append_singleton past ports inductionHypothesis =>
      rcases List.isChain_append.mp spaced with ⟨before, -, adjacent⟩
      rw [run_append, List.foldl_append, ← inductionHypothesis before]
      apply countdown_clock
      intro started
      rcases List.eq_nil_or_concat past with empty | ⟨earlier, last, same⟩
      · subst empty
        exact absurd started (by decide)
      · subst same
        simp only [List.concat_eq_append] at started adjacent
        rw [startReg_run_concat] at started
        have selected : last.cs = true := by
          simp only [CorePorts.starts, CorePorts.writes, Bool.and_eq_true]
            at started
          exact started.1.1.1
        apply adjacent last _ ports _ selected <;> simp

end Timer

end Refinement

section Duration

namespace Countdown

/-- Without a stop the countdown goes on with locked settings. -/
theorem foldl_step
    (countdown : Countdown)
    (accesses : List CorePorts)
    (unstopped : countdown.stop = false)
    (continues : ∀ ports ∈ accesses, ports.stops = false)
    (enough : accesses.length ≤ countdown.left) :
    let final := accesses.foldl step countdown
    final.left = countdown.left - accesses.length ∧
      final.prescaler = countdown.prescaler ∧
      final.timer = countdown.timer := by
  induction accesses generalizing countdown with
  | nil =>
      exact ⟨rfl, rfl, rfl⟩
  | cons first rest inductionHypothesis =>
      simp only [List.length_cons] at enough
      have counting : countdown.left ≠ 0 := by omega
      have left : (countdown.step first).left = countdown.left - 1 := by
        simp [step, counting, unstopped]
      have prescaler :
          (countdown.step first).prescaler = countdown.prescaler := by
        simp [step, counting]
      have timer : (countdown.step first).timer = countdown.timer := by
        simp [step, counting]
      have rest' := inductionHypothesis (countdown.step first)
        (continues first (by simp))
        (fun ports member => continues ports (by simp [member]))
        (by omega)
      rcases rest' with ⟨finalLeft, finalPrescaler, finalTimer⟩
      refine ⟨?_, finalPrescaler.trans prescaler, finalTimer.trans timer⟩
      rw [List.foldl_cons, finalLeft, left, List.length_cons]
      omega

end Countdown

namespace Timer

/-- What a read of the status tells. -/
def reportsRunning (timer : Timer) : Bool :=
  (timer.readData
    { cs := true, we := false, address := timerAddrStatus, writeData := 0 }
    ).getLsbD 0

theorem reportsRunning_eq (timer : Timer) :
    timer.reportsRunning = timer.core.running := by
  change ((BitVec.ofBool timer.core.running).setWidth 32).getLsbD 0 = _
  cases timer.core.running <;> rfl

/-- Whether the core runs is whether the countdown is not over. -/
theorem reportsRunning_run
    {accesses : List CorePorts}
    {left : Nat}
    (counts : (run accesses).countdown.left = left) :
    (run accesses).reportsRunning = decide (0 < left) := by
  have zero := TimerCore.left_eq_zero (run accesses).core
    (run accesses).prescalerReg
  have same : (run accesses).core.left (run accesses).prescalerReg = left := counts
  rw [same] at zero
  rw [reportsRunning_eq, Bool.eq_iff_iff, decide_eq_true_eq, Nat.pos_iff_ne_zero,
    Ne, zero, Bool.not_eq_false]

/--
After these accesses the core starts, runs for the duration that belongs to the
settings, with the settings locked, and is idle then.
-/
def RunsFor (past : List CorePorts) (prescaler timer : BitVec 32) : Prop :=
  ∀ after : List CorePorts,
    Spaced (past ++ after) →
    (∀ ports ∈ after, ports.stops = false) →
    after ≠ [] →
    after.length ≤ timerDuration prescaler timer + 1 →
    (run (past ++ after)).reportsRunning =
        decide (after.length ≤ timerDuration prescaler timer) ∧
      (run (past ++ after)).prescalerReg = prescaler ∧
      (run (past ++ after)).timerReg = timer

theorem countdown_run_append
    {past after : List CorePorts}
    (spaced : Spaced (past ++ after)) :
    (run (past ++ after)).countdown =
      after.foldl Countdown.step (run past).countdown := by
  rw [countdown_run _ spaced, List.foldl_append,
    countdown_run _ spaced.left_of_append]

/-- A start of the idle core. -/
theorem runsFor_of_start
    {past : List CorePorts}
    {start : CorePorts}
    (starts : start.starts = true)
    (idle : (run (past ++ [start])).reportsRunning = false) :
    RunsFor (past ++ [start]) (run (past ++ [start])).prescalerReg
      (run (past ++ [start])).timerReg := by
  intro after spaced continues nonempty short
  have counts := countdown_run_append spaced
  rcases after with _ | ⟨first, rest⟩
  · exact absurd rfl nonempty
  · rw [reportsRunning_eq] at idle
    have ended : (run (past ++ [start])).countdown.left = 0 := by
      exact (TimerCore.left_eq_zero _ _).mpr idle
    have requested : (run (past ++ [start])).countdown.start = true := by
      exact (startReg_run_concat past start).trans starts
    -- the bus is quiet in the cycle in which the core starts
    have quiet : first.cs = false := by
      rcases List.isChain_append.mp spaced with ⟨-, -, adjacent⟩
      have selected : start.cs = true := by
        simp only [CorePorts.starts, CorePorts.writes, Bool.and_eq_true]
          at starts
        exact starts.1.1.1
      apply adjacent start _ first _ selected <;> simp
    have unwritten (address : BitVec 8) : first.writes address = false := by
      simp [CorePorts.writes, quiet]
    generalize run (past ++ [start]) = timer at *
    have started : (timer.countdown.step first).left =
        timerDuration timer.prescalerReg timer.timerReg := by
      simp only [Countdown.step, ended, requested, ↓reduceIte]
      rfl
    have prescaler :
        (timer.countdown.step first).prescaler = timer.prescalerReg := by
      simp only [Countdown.step, unwritten]
      rfl
    have timer' : (timer.countdown.step first).timer = timer.timerReg := by
      simp only [Countdown.step, unwritten]
      rfl
    rw [List.length_cons] at short
    rcases Countdown.foldl_step (timer.countdown.step first) rest
      (continues first (by simp))
      (fun ports member => continues ports (by simp [member]))
      (by omega) with ⟨finalLeft, finalPrescaler, finalTimer⟩
    rw [List.foldl_cons] at counts
    rw [← counts] at finalLeft finalPrescaler finalTimer
    refine ⟨?_, finalPrescaler.trans prescaler, finalTimer.trans timer'⟩
    rw [reportsRunning_run finalLeft, started, List.length_cons]
    congr 1
    apply propext
    omega

/-- After the first accesses the settings are written only while the core runs. -/
def KeepsSettings (past after : List CorePorts) : Prop :=
  ∀ first ports rest,
    after = first ++ ports :: rest →
    ports.configures = true →
    (run (past ++ first)).reportsRunning = true

/-- A write to a setting has no effect while the core runs. -/
theorem settings_clock
    (timer : Timer)
    (ports : CorePorts)
    (locked : ports.configures = true → timer.reportsRunning = true) :
    (timer.clock ports).prescalerReg = timer.prescalerReg ∧
      (timer.clock ports).timerReg = timer.timerReg := by
  rw [reportsRunning_eq] at locked
  simp only [CorePorts.configures, Bool.or_eq_true] at locked
  constructor
  · cases writes : ports.writes timerAddrPrescaler with
    | false =>
        simp [clock, writes]
    | true =>
        simp [clock, locked (Or.inl writes)]
  · cases writes : ports.writes timerAddrTimer with
    | false =>
        simp [clock, writes]
    | true =>
        simp [clock, locked (Or.inr writes)]

theorem settings_run
    {past after : List CorePorts}
    (kept : KeepsSettings past after) :
    (run (past ++ after)).prescalerReg = (run past).prescalerReg ∧
      (run (past ++ after)).timerReg = (run past).timerReg := by
  induction after using List.reverseRecOn with
  | nil =>
      rw [List.append_nil]
      exact ⟨rfl, rfl⟩
  | append_singleton after ports inductionHypothesis =>
      have earlier : KeepsSettings past after := by
        intro first other rest split
        exact kept first other (rest ++ [ports]) (by simp [split])
      rcases inductionHypothesis earlier with ⟨prescaler, timer⟩
      rw [← List.append_assoc, run_append]
      rcases settings_clock (run (past ++ after)) ports
        (kept after ports [] rfl) with ⟨prescaler', timer'⟩
      exact ⟨prescaler'.trans prescaler, timer'.trans timer⟩

/-- Only an idle core starts when it is told to start and to stop. -/
theorem running_clock_stop
    (core : TimerCore)
    (prescalerInit timerInit : BitVec 32)
    (start : Bool) :
    (core.clock prescalerInit timerInit start true).running =
      (!core.running && start) := by
  rcases core with ⟨prescaler, timer, running⟩
  cases running <;> cases start <;> rfl

/-- A stop takes effect before the next access. -/
theorem stopped_run
    {past : List CorePorts}
    {stop next : CorePorts}
    (spaced : Spaced (past ++ [stop, next]))
    (stops : stop.stops = true)
    (running : (run past).reportsRunning = true) :
    ((run (past ++ [stop])).reportsRunning = false ∨
        (run (past ++ [stop, next])).reportsRunning = false) ∧
      (stop.starts = false →
        (run (past ++ [stop, next])).reportsRunning = false) ∧
      (run (past ++ [stop, next])).prescalerReg = (run past).prescalerReg ∧
      (run (past ++ [stop, next])).timerReg = (run past).timerReg := by
  have selected : stop.cs = true := by
    simp only [CorePorts.stops, CorePorts.writes, Bool.and_eq_true] at stops
    exact stops.1.1.1
  have quiet : next.cs = false := by
    rcases List.isChain_append.mp spaced with ⟨-, pair, -⟩
    simp only [List.isChain_cons_cons] at pair
    exact pair.1 selected
  have ends : (run (past ++ [stop, next])).core =
      (run (past ++ [stop])).core.clock (run (past ++ [stop])).prescalerReg
        (run (past ++ [stop])).timerReg stop.starts stop.stops := by
    rw [List.append_cons, run_append, run_append past]
    rfl
  have kept : KeepsSettings past [stop, next] := by
    intro first ports rest split configures
    rcases first with _ | ⟨firstPorts, first⟩
    · rw [List.append_nil]
      exact running
    · -- the second access is none
      rcases first with _ | ⟨_, _⟩
      · simp only [List.cons_append, List.nil_append, List.cons.injEq] at split
        rw [← split.2.1] at configures
        simp [CorePorts.configures, CorePorts.writes, quiet] at configures
      · simp at split
  simp only [reportsRunning_eq, ends, stops, running_clock_stop]
  refine ⟨?_, ?_, settings_run kept⟩
  · cases (run (past ++ [stop])).core.running with
    | false =>
        exact Or.inl rfl
    | true =>
        exact Or.inr rfl
  · intro unstarted
    rw [unstarted, Bool.and_false]

/-- A write access. -/
def write (address : BitVec 8) (writeData : BitVec 32) : CorePorts where
  cs := true
  we := true
  address := address
  writeData := writeData

/-- A cycle without access. -/
def quiet : CorePorts where
  cs := false
  we := false
  address := 0
  writeData := 0

/-- Setting up the timer after reset, and the write that starts it. -/
def settingUp (prescaler timer : BitVec 32) : List CorePorts :=
  [write timerAddrPrescaler prescaler, quiet, write timerAddrTimer timer, quiet]

/--
A start of the idle core is followed by exactly `max P 1 * max T 1` clock
cycles in which it runs; a stop ends them at once, and the next start uses the
same settings as long as they are not written while the core is idle.
-/
theorem runs_exactly
    {past : List CorePorts}
    {start : CorePorts}
    {prescaler timer : BitVec 32}
    (prescaler_eq : (run (past ++ [start])).prescalerReg = prescaler)
    (timer_eq : (run (past ++ [start])).timerReg = timer)
    (starts : start.starts = true)
    (idle : (run (past ++ [start])).reportsRunning = false) :
    RunsFor (past ++ [start]) prescaler timer ∧
      (∀ after stop next,
        Spaced (past ++ [start] ++ after ++ [stop, next]) →
        stop.stops = true →
        (run (past ++ [start] ++ after)).reportsRunning = true →
        ((run (past ++ [start] ++ after ++ [stop])).reportsRunning = false ∨
            (run (past ++ [start] ++ after ++ [stop, next])).reportsRunning =
              false) ∧
          (stop.starts = false →
            (run (past ++ [start] ++ after ++ [stop, next])).reportsRunning =
              false)) ∧
      ∀ after again,
        KeepsSettings (past ++ [start]) (after ++ [again]) →
        again.starts = true →
        (run (past ++ [start] ++ after ++ [again])).reportsRunning = false →
        RunsFor (past ++ [start] ++ after ++ [again]) prescaler timer := by
  subst prescaler_eq timer_eq
  refine ⟨runsFor_of_start starts idle, ?_, ?_⟩
  · intro after stop next spaced stops running
    rcases stopped_run spaced stops running with ⟨ended, stopped, -⟩
    exact ⟨ended, stopped⟩
  · intro after again kept starts' idle'
    have settings := settings_run kept
    rw [← List.append_assoc] at settings
    rw [← settings.1, ← settings.2]
    exact runsFor_of_start starts' idle'

theorem runs_exactly_two_three :
    RunsFor (settingUp 2 3 ++ [write timerAddrCtrl 1]) 2 3 := by
  exact (runs_exactly rfl rfl (by decide) (by decide)).1

end Timer

end Duration

end TKey.Fpga
