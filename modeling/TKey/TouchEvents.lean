import TKey.Peripherals
import Mathlib.Data.List.Induction

namespace TKey.Fpga.TouchSense

/-!
# Freshness of touch events

`touch_sense.v` sees the touch input through two registers.  An event is a
change of the synchronised input from low to high; it is held until software
clears it by writing to the status.  A write without a captured event has no
effect, also in the cycle in which an event is captured.
-/

section Run

/-- What happens to the core in a cycle. -/
structure Cycle where
  touchEvent : Bool
  ports : CorePorts

/-- `api_clear_event`. -/
def Cycle.clears (cycle : Cycle) : Bool :=
  cycle.ports.writes touchSenseAddrStatus

def step (touchSense : TouchSense) (cycle : Cycle) : TouchSense :=
  touchSense.clock cycle.touchEvent cycle.ports

/-- The state after some cycles. -/
def run (cycles : List Cycle) : TouchSense :=
  cycles.foldl step reset

/-- What a read of the status tells. -/
def reportsEvent (touchSense : TouchSense) : Bool :=
  (touchSense.readData
    { cs := true, we := false, address := touchSenseAddrStatus, writeData := 0 }
    ).getLsbD 0

theorem reportsEvent_eq (touchSense : TouchSense) :
    touchSense.reportsEvent = touchSense.touchEventReg := by
  change ((BitVec.ofBool touchSense.touchEventReg).setWidth 32).getLsbD 0 = _
  cases touchSense.touchEventReg <;> rfl

theorem run_append (past later : List Cycle) :
    run (past ++ later) = later.foldl step (run past) := by
  exact List.foldl_append

end Run

section Steps

variable {touchSense : TouchSense} {cycle : Cycle}

/-- The status bit says in which state the core is. -/
def Consistent (touchSense : TouchSense) : Prop :=
  touchSense.touchEventReg = true ↔ touchSense.touchSenseCtrlReg = .event

/-- What a cycle does to the state of the core. -/
theorem touchSenseCtrlReg_step (touchSense : TouchSense) (cycle : Cycle) :
    (touchSense.step cycle).touchSenseCtrlReg =
      match touchSense.touchSenseCtrlReg with
      | .idle => if touchSense.touchEventSample1Reg then .event else .idle
      | .event => if cycle.clears then .wait else .event
      | .wait => if touchSense.touchEventSample1Reg then .wait else .idle := by
  unfold step clock Cycle.clears
  cases state : touchSense.touchSenseCtrlReg <;>
    cases touchSense.touchEventSample1Reg <;>
    cases cycle.ports.writes touchSenseAddrStatus <;>
    simp

theorem Consistent.step
    (consistent : touchSense.Consistent)
    (cycle : Cycle) :
    (touchSense.step cycle).Consistent := by
  unfold Consistent at *
  unfold TouchSense.step clock
  cases state : touchSense.touchSenseCtrlReg <;>
    cases touchSense.touchEventSample1Reg <;>
    cases cycle.ports.writes touchSenseAddrStatus <;>
    simp_all

theorem consistent_run (cycles : List Cycle) : (run cycles).Consistent := by
  induction cycles using List.reverseRecOn with
  | nil =>
      simp [Consistent, run, reset]
  | append_singleton past cycle inductionHypothesis =>
      rw [run_append]
      exact inductionHypothesis.step cycle

theorem reportsEvent_run (cycles : List Cycle) :
    (run cycles).reportsEvent = true ↔
      (run cycles).touchSenseCtrlReg = .event := by
  rw [reportsEvent_eq]
  exact consistent_run cycles

end Steps

section Fresh

/-- The synchronised input is low in a cycle and high in a later one. -/
def LowThenHigh (past cycles : List Cycle) : Prop :=
  ∃ before low between high after,
    cycles = before ++ low :: between ++ high :: after ∧
    (run (past ++ before)).touchEventSample1Reg = false ∧
    (run (past ++ before ++ low :: between)).touchEventSample1Reg = true

/-- The synchronised input is high in a cycle. -/
def High (past cycles : List Cycle) : Prop :=
  ∃ before high after,
    cycles = before ++ high :: after ∧
    (run (past ++ before)).touchEventSample1Reg = true

theorem LowThenHigh.cons
    {past cycles : List Cycle}
    {cycle : Cycle}
    (fresh : LowThenHigh (past ++ [cycle]) cycles) :
    LowThenHigh past (cycle :: cycles) := by
  rcases fresh with ⟨before, low, between, high, after, split, isLow, isHigh⟩
  refine ⟨cycle :: before, low, between, high, after, ?_, ?_, ?_⟩
  · rw [split]
    rfl
  · rw [List.append_cons]
    exact isLow
  · rw [List.append_assoc, List.cons_append, List.append_cons,
      ← List.append_assoc]
    exact isHigh

theorem High.cons
    {past cycles : List Cycle}
    {cycle : Cycle}
    (high : High (past ++ [cycle]) cycles) :
    High past (cycle :: cycles) := by
  rcases high with ⟨before, high, after, split, isHigh⟩
  refine ⟨cycle :: before, high, after, ?_, ?_⟩
  · rw [split]
    rfl
  · rw [List.append_cons]
    exact isHigh

theorem lowThenHigh_of_low
    {past cycles : List Cycle}
    {low : Cycle}
    (isLow : (run past).touchEventSample1Reg = false)
    (high : High (past ++ [low]) cycles) :
    LowThenHigh past (low :: cycles) := by
  rcases high with ⟨between, high, after, split, isHigh⟩
  refine ⟨[], low, between, high, after, ?_, ?_, ?_⟩
  · rw [split]
    rfl
  · rw [List.append_nil]
    exact isLow
  · rw [List.append_nil, List.append_cons]
    exact isHigh

/-- The idle core captures an event only when the input is high. -/
theorem high_of_event
    {past cycles : List Cycle}
    (idle : (run past).touchSenseCtrlReg = .idle)
    (event : (run (past ++ cycles)).reportsEvent = true) :
    High past cycles := by
  rw [reportsEvent_run] at event
  induction cycles generalizing past with
  | nil =>
      rw [List.append_nil, idle] at event
      cases event
  | cons cycle cycles inductionHypothesis =>
      cases input : (run past).touchEventSample1Reg with
      | true =>
          refine ⟨[], cycle, cycles, rfl, ?_⟩
          rw [List.append_nil]
          exact input
      | false =>
          have stays : (run (past ++ [cycle])).touchSenseCtrlReg = .idle := by
            rw [run_append]
            change ((run past).step cycle).touchSenseCtrlReg = _
            rw [touchSenseCtrlReg_step, idle, input]
            rfl
          rw [List.append_cons] at event
          exact (inductionHypothesis stays event).cons

/-- After a captured event the input has to be low first. -/
theorem lowThenHigh_of_event
    {past cycles : List Cycle}
    (waiting : (run past).touchSenseCtrlReg = .wait)
    (event : (run (past ++ cycles)).reportsEvent = true) :
    LowThenHigh past cycles := by
  induction cycles generalizing past with
  | nil =>
      rw [List.append_nil, reportsEvent_run, waiting] at event
      cases event
  | cons cycle cycles inductionHypothesis =>
      have next := touchSenseCtrlReg_step (run past) cycle
      rw [waiting] at next
      have same : run (past ++ [cycle]) = (run past).step cycle :=
        run_append past [cycle]
      rw [← same] at next
      rw [List.append_cons] at event
      cases input : (run past).touchEventSample1Reg with
      | true =>
          rw [input] at next
          exact (inductionHypothesis next event).cons
      | false =>
          rw [input] at next
          exact lowThenHigh_of_low input (high_of_event next event)

/-- A captured event is held until it is cleared. -/
theorem event_held
    {past cycles : List Cycle}
    (event : (run past).reportsEvent = true)
    (uncleared : ∀ cycle ∈ cycles, cycle.clears = false) :
    (run (past ++ cycles)).reportsEvent = true := by
  induction cycles generalizing past with
  | nil =>
      rw [List.append_nil]
      exact event
  | cons cycle cycles inductionHypothesis =>
      rw [List.append_cons]
      apply inductionHypothesis
      · rw [reportsEvent_run] at event ⊢
        rw [run_append]
        change ((run past).step cycle).touchSenseCtrlReg = _
        rw [touchSenseCtrlReg_step, event, uncleared cycle (by simp)]
        rfl
      · intro other member
        exact uncleared other (List.mem_cons_of_mem _ member)

/--
After a clear the status tells of an event only if the synchronised input has
been low and then high.  For the clear of a captured event both were after the
clear.  Otherwise the input may have been low in the cycle of the clear; if in
that cycle the idle core sees a high input, then the clear has no effect and
the event is captured.  A captured event is held until it is cleared.
-/
theorem events_fresh :
    (∀ earlier clear later,
      clear.clears = true →
      (run (earlier ++ clear :: later)).reportsEvent = true →
      ((run earlier).reportsEvent = true →
          LowThenHigh (earlier ++ [clear]) later) ∧
        ((run (earlier ++ [clear])).reportsEvent = false →
          LowThenHigh earlier (clear :: later)) ∧
        ((run (earlier ++ [clear])).reportsEvent = true →
          (run earlier).touchSenseCtrlReg = .idle ∧
            (run earlier).touchEventSample1Reg = true)) ∧
      ∀ past cycles,
        (run past).reportsEvent = true →
        (∀ cycle ∈ cycles, cycle.clears = false) →
        (run (past ++ cycles)).reportsEvent = true := by
  refine ⟨?_, fun past cycles => event_held⟩
  intro earlier clear later clears event
  have next := touchSenseCtrlReg_step (run earlier) clear
  have same : run (earlier ++ [clear]) = (run earlier).step clear :=
    run_append earlier [clear]
  rw [← same, clears] at next
  have event' := event
  rw [List.append_cons] at event'
  refine ⟨?_, ?_, ?_⟩
  · intro captured
    rw [reportsEvent_run] at captured
    rw [captured] at next
    exact lowThenHigh_of_event next event'
  · intro unset
    cases state : (run earlier).touchSenseCtrlReg with
    | idle =>
        rw [state] at next
        cases input : (run earlier).touchEventSample1Reg with
        | true =>
            rw [input] at next
            rw [(reportsEvent_run _).mpr next] at unset
            cases unset
        | false =>
            rw [input] at next
            exact lowThenHigh_of_low input (high_of_event next event')
    | event =>
        rw [state] at next
        exact (lowThenHigh_of_event next event').cons
    | wait =>
        exact lowThenHigh_of_event state event
  · intro set
    rw [reportsEvent_run, next] at set
    cases state : (run earlier).touchSenseCtrlReg <;>
      cases input : (run earlier).touchEventSample1Reg <;>
      simp_all

/-- A cycle in which the sensor is touched. -/
def touched : Cycle where
  touchEvent := true
  ports := { cs := false, we := false, address := 0, writeData := 0 }

/-- A clear while the sensor is touched. -/
def touchedClear : Cycle where
  touchEvent := true
  ports := { cs := true, we := true, address := touchSenseAddrStatus, writeData := 0 }

/-- A cycle without touch. -/
def untouched : Cycle where
  touchEvent := false
  ports := { cs := false, we := false, address := 0, writeData := 0 }

/-- A second touch after a clear. -/
theorem events_fresh_second_touch :
    LowThenHigh ([touched, touched, touched] ++ [touchedClear])
      [untouched, touched, touched, touched, touched, touched] := by
  exact (events_fresh.1 [touched, touched, touched] touchedClear
    [untouched, touched, touched, touched, touched, touched] (by decide)
    (by decide)).1 (by decide)

/-- A clear in the cycle in which the event is captured. -/
theorem clear_while_captured :
    ¬ ∀ earlier clear later,
      clear.clears = true →
      (run (earlier ++ clear :: later)).reportsEvent = true →
      LowThenHigh earlier (clear :: later) := by
  intro claimed
  have event : (run ([touched, touched] ++ touchedClear :: [])).reportsEvent =
      true := by
    decide
  rcases claimed [touched, touched] touchedClear [] (by decide) event with
    ⟨before, low, between, high, after, split, -, -⟩
  have lengths := congrArg List.length split
  simp only [List.length_append, List.length_cons, List.length_nil] at lengths
  omega

end Fresh

end TKey.Fpga.TouchSense
