import TKey.InterruptedStages

namespace TKey.Ch552

open RingBuffer

/-!
# Bus resets

The interrupt for a bus reset forgets the bytes in the buffer and the mode of
the frame, but not that a frame has been started, what is left of it or what is
staged.  When what is left is what the FPGA still sends of the frame and no byte
of it is to be copied, later frames are served as before.
-/

section Definitions

/-- A bus reset between two stages. -/
def Line.busReset (line : Line) : Line :=
  { line with chip := line.chip.busReset }

/-- The loop at the beginning of a stage. -/
def Line.loop (line : Line) : Loop where
  chip := line.chip
  point := .entry
  late := line.late
  toSend := line.toSend
  arrived := []
  taken := []

def Loop.line (loop : Loop) : Line where
  chip := loop.chip
  late := loop.late
  toSend := loop.toSend

/--
A bus reset, and the rest of the stage that it interrupts.  It comes between two
stages, where a stage with accesses to the ring has not half taken anything, or
where a stage that uploads something has not half armed an endpoint.
-/
inductive Line.Resets (active : UInt8) (line : Line) :
    UartToUsb → Line → Prop where
  | between : Resets active line line.chip.toUartToUsb line.busReset
  | access {loop left : Loop}
      (spared : ¬ (line.chip.Commands ∨ line.chip.Overcommits))
      (within : line.loop.Within active loop)
      (whole : loop.point.Whole)
      (leaves : loop.busReset.Leaves active left) :
      Resets active line loop.chip.toUartToUsb left.line
  | assignment {before after : List Assignment} {chip' : Chip}
      (spared : ¬ (line.chip.Commands ∨ line.chip.Overcommits))
      (notHeader : line.chip.stage ≠ .header)
      (notCopy : line.chip.stage ≠ .copy)
      (split :
        line.chip.toUartToUsb.assignments line.chip.stage = before ++ after)
      (armed :
        ∀ ep,
          ((line.chip.toUartToUsb.assign before).ins ep).uploadBusy =
            ((line.chip.toUartToUsb.assign before).ins ep).acks)
      (usb :
        chip'.toUartToUsb =
          (line.chip.toUartToUsb.assign before).busReset.assign after)
      (stage : chip'.stage = line.chip.stage.next) :
      Resets active line line.chip.toUartToUsb { line with chip := chip' }

/--
The loop gets over a bus reset: it discards as many bytes as are still to come
of the interrupted frame, and the FPGA is not stopped.
-/
structure UartToUsb.Recovers
    (usb : UartToUsb)
    (stage : Stage)
    (toSend remainder : List UInt8)
    (later : List Packet) : Prop where
  toCome : toSend = remainder ++ wire later
  length :
    remainder.length = if usb.frameStarted then usb.frameRemainingBytes else 0
  drains :
    usb.frameStarted = true →
      usb.frameDiscard = true ∨
        usb.holdsNothing = false ∧ usb.frameRemainingBytes = 0
  /-- Only discarding an empty frame starts the FPGA again. -/
  supplied :
    usb.ctsStopped = true →
      stage = .copy ∧ usb.frameDiscard = true ∧
        usb.frameRemainingBytes = 0 ∧ usb.holdsNothing = true

/-- The states of a line that gets over all bus resets. -/
inductive Line.Reachable (active : UInt8) : Line → Prop where
  | start (resetKeep : UInt8) (frames : List Packet)
      (fits : ∀ frame, frame ∈ frames → Fits active frame) :
      Reachable active (Line.start resetKeep frames)
  | step {line : Line} (event : LineEvent)
      (spared :
        ¬ (event = .main ∧
          (line.chip.Commands ∨ line.chip.Overcommits)))
      (reachable : Reachable active line) :
      Reachable active (line.step active event)
  | busReset {line line' : Line} {usb : UartToUsb}
      (resets : line.Resets active usb line')
      (remainder : List UInt8) (later : List Packet)
      (fits : ∀ frame, frame ∈ later → Fits active frame)
      (recovers :
        usb.Recovers line.chip.stage line.toSend remainder later)
      (reachable : Reachable active line) :
      Reachable active line'

end Definitions

section Recovery

variable {active : UInt8} {line line' : Line} {phase : Phase}
variable {stage : Stage} {before later : List Packet}
variable {usb : UartToUsb} {toSend remainder : List UInt8}

/-- The phase after a bus reset. -/
def Phase.interrupted (remainder : List UInt8) : Phase → Phase
  | .between => .between
  | .taking sink _ => .taking sink remainder
  | .staged sink chunk _ => .staged sink chunk remainder

/-- No bytes are to be copied before the next frame. -/
def Phase.Drained : Phase → Prop
  | .between => True
  | .taking sink _ => sink = .discard
  | .staged sink _ rest => sink = .discard ∨ rest = []

/-- The lists of the same length are both empty or both not. -/
theorem eq_nil_iff_of_length_eq
    {first second : List UInt8}
    (same : first.length = second.length) :
    first = [] ↔ second = [] := by
  rw [← List.length_eq_zero_iff, same, List.length_eq_zero_iff]

/-- What is left of the frame is what is still to come of it. -/
theorem UartToUsb.Recovers.rest_length
    (recovers : usb.Recovers stage toSend remainder later)
    (position : usb.At phase) :
    remainder.length = phase.rest.length := by
  have length := recovers.length
  cases phase with
  | between =>
      rw [position.notStarted] at length
      exact length
  | taking sink rest =>
      rw [position.started] at length
      exact length.trans position.remaining
  | staged sink chunk rest =>
      rw [position.started] at length
      exact length.trans position.remaining

/-- A frame whose bytes are to be copied is in the way of later frames. -/
theorem UartToUsb.Recovers.drained
    (recovers : usb.Recovers stage toSend remainder later)
    (position : usb.At phase) :
    (phase.interrupted remainder).Drained := by
  have same := recovers.rest_length position
  cases phase with
  | between => trivial
  | taking sink rest =>
      rcases recovers.drains position.started with discards | ⟨some, _⟩
      · rw [position.discard] at discards
        exact (of_decide_eq_true discards : sink = .discard)
      · rw [(FrameState.holdsNothing_iff _).mpr position.empty] at some
        exact Bool.noConfusion some
  | staged sink chunk rest =>
      rcases recovers.drains position.started with discards | ⟨_, none⟩
      · rw [position.discard] at discards
        exact .inl (of_decide_eq_true discards)
      · rw [position.remaining] at none
        exact .inr (List.length_eq_zero_iff.mp (same.trans none))

/-- Where the machine is after a bus reset. -/
theorem UartToUsb.Recovers.position
    (recovers : usb.Recovers stage toSend remainder later)
    (position : usb.At phase) :
    usb.busReset.At (phase.interrupted remainder) ∧
      (phase.interrupted remainder).rest = remainder := by
  have same := recovers.rest_length position
  have drained := recovers.drained position
  cases phase with
  | between =>
      refine ⟨⟨position.notStarted, position.keeps, position.empty⟩, ?_⟩
      exact (List.length_eq_zero_iff.mp same).symm
  | taking sink rest =>
      obtain rfl : sink = .discard := drained
      exact
        ⟨⟨position.started, position.discard, position.empty,
          position.remaining.trans same.symm, fun is => absurd rfl is,
          nofun, nofun⟩, rfl⟩
  | staged sink chunk rest =>
      refine
        ⟨⟨position.started, position.discard, position.available,
          position.remaining.trans same.symm, ?_, position.held,
          position.short, position.whole, ?_⟩, rfl⟩
      · intro notDiscard
        exact .inr ⟨rfl, drained.resolve_left notDiscard⟩
      · intro isLast
        exact (eq_nil_iff_of_length_eq same).mpr (position.last isLast)

/-- A bus reset that the loop gets over. -/
theorem Line.Tracks.busReset
    (tracks : line.Tracks active phase before)
    (fits : ∀ frame, frame ∈ later → Fits active frame)
    (recovers :
      line.chip.toUartToUsb.Recovers stage line.toSend remainder later)
    (reset : line'.chip.toUartToUsb = line.chip.toUartToUsb.busReset)
    (sender : line'.toSend = line.toSend) :
    line'.Tracks active (phase.interrupted remainder) later := by
  obtain ⟨position, rest⟩ := recovers.position tracks.position
  have same := recovers.rest_length tracks.position
  have empty : line'.chip.uartRxBuf.count = 0 := by
    rw [reset]
    rfl
  refine
    { position := ?_
      unread := ?_
      fits := fits
      armed := ?_
      counted := fun _ => ?_
      running := ?_
      flows := ⟨?_, fun stopped => ?_⟩ }
  · rw [reset]
    exact position
  · rw [Line.unread, reset, sender, rest]
    exact recovers.toCome
  · rw [reset]
    exact fun _ => rfl
  · rw [reset]
    exact Nat.zero_le _
  · rw [reset]
    exact tracks.running
  · rw [Line.gauge, UartToUsb.gauge, empty]
    cases line'.chip.ctsStopped with
    | true =>
        exact
          Nat.le_trans (Nat.le_of_eq (Nat.zero_add _))
            (Nat.le_trans (Nat.sub_le _ _) (by decide))
    | false => exact show 135 ≤ 139 by decide
  · rw [reset] at stopped
    obtain ⟨-, discards, none, nothing⟩ := recovers.supplied stopped
    have old := tracks.position
    rw [empty]
    cases phase with
    | between =>
        have keeps := old.keeps
        rw [discards] at keeps
        exact Bool.noConfusion keeps
    | taking sink rest =>
        rw [old.remaining] at none
        change min maxFrameSize remainder.length ≤ 0
        rw [same]
        exact Nat.le_trans (Nat.min_le_right _ _) (Nat.le_of_eq none)
    | staged sink chunk rest =>
        have available := old.available_self
        rw [(FrameState.holdsNothing_iff _).mp nothing] at available
        exact Bool.noConfusion available

/-- What the FPGA knows is the same when CTS has not been raised. -/
theorem Line.Tracks.of_behind
    {chip' : Chip}
    (tracks : (line.behind chip').Tracks active phase later)
    (cts : chip'.ctsStopped = true → line.chip.ctsStopped = true) :
    Line.Tracks active { line with chip := chip' } phase later := by
  have gauge :
      Line.gauge { line with chip := chip' } = (line.behind chip').gauge := by
    rw [Line.gauge, Line.gauge, UartToUsb.gauge, UartToUsb.gauge]
    cases stopped : chip'.ctsStopped with
    | false => simp only [behind, stopped, Bool.false_eq_true, if_false]
    | true => simp only [behind, stopped, cts stopped, if_true]
  exact
    { tracks with
      flows :=
        ⟨Nat.le_trans (Nat.le_of_eq (congrArg _ gauge)) tracks.flows.level,
          tracks.flows.supplied⟩ }

/-- A stage behind the header keeps a drained phase drained. -/
theorem Line.Tracks.performs_drained
    (tracks : line.Tracks active phase later)
    (drained : phase.Drained)
    (notHeader : line.chip.stage ≠ .header)
    (spared : ¬ (line.chip.Commands ∨ line.chip.Overcommits))
    {chip' : Chip}
    (performs : line.chip.Performs active chip') :
    ∃ phase',
      Line.Tracks active { line with chip := chip' } phase' later ∧
        phase'.Drained := by
  by_cases due : line.chip.toUartToUsb.Due line.chip.stage phase
  · obtain ⟨phase', later', out, moves, keeps, -⟩ :=
      tracks.performs_of_due spared performs due
    have cts := moves.cts
    cases moves.advance with
    | header frame later => exact absurd due.1 notHeader
    | piece sink rest later =>
        refine ⟨_, keeps.tracks.of_behind fun stopped => ?_, .inl drained⟩
        rw [cts] at stopped
        exact Bool.noConfusion stopped
    | handOver sink chunk rest later =>
        refine
          ⟨_, keeps.tracks.of_behind fun stopped => cts.symm.trans stopped,
            ?_⟩
        rw [Phase.afterPiece]
        split
        · trivial
        · rename_i more
          exact drained.resolve_right more
  · have rests :=
      @UartToUsb.perform_rests active _ _ _ tracks.armed tracks.position due
    have keeps := (tracks.performs_of_not_due performs due).1
    refine ⟨phase, keeps.tracks.of_behind fun stopped => ?_, drained⟩
    rw [performs.usb, rests.cts] at stopped
    exact stopped

/-- What is done for frames behind a stage. -/
theorem Line.Tracks.performs
    (tracks : line.Tracks active phase later)
    (spared : ¬ (line.chip.Commands ∨ line.chip.Overcommits))
    {chip' : Chip}
    (performs : line.chip.Performs active chip') :
    ∃ phase' later', (line.behind chip').Tracks active phase' later' := by
  by_cases due : line.chip.toUartToUsb.Due line.chip.stage phase
  · obtain ⟨phase', later', _, _, keeps, _⟩ :=
      tracks.performs_of_due spared performs due
    exact ⟨phase', later', keeps.tracks⟩
  · exact ⟨phase, later, (tracks.performs_of_not_due performs due).1.tracks⟩

/-- A stage that does not touch the ring does not matter for a bus reset. -/
theorem Line.Tracks.recovers_behind
    (tracks : line.Tracks active phase before)
    (recovers :
      line.chip.toUartToUsb.Recovers line.chip.stage toSend remainder later)
    (notHeader : line.chip.stage ≠ .header)
    (notCopy : line.chip.stage ≠ .copy)
    (spared : ¬ (line.chip.Commands ∨ line.chip.Overcommits))
    {chip' : Chip}
    (performs : line.chip.Performs active chip') :
    chip'.toUartToUsb.Recovers line.chip.stage toSend remainder later := by
  by_cases due : line.chip.toUartToUsb.Due line.chip.stage phase
  · obtain ⟨phase', later', out, moves, -, -⟩ :=
      tracks.performs_of_due spared performs due
    have position := tracks.position
    have position' := moves.position
    have cts := moves.cts
    have same := recovers.rest_length position
    have drained := recovers.drained position
    cases moves.advance with
    | header frame later => exact absurd due.1 notHeader
    | piece sink rest later => exact absurd due.1 notCopy
    | handOver sink chunk rest later =>
        refine
          { toCome := recovers.toCome
            length := ?_
            drains := ?_
            supplied := fun stopped =>
              absurd (recovers.supplied (cts.symm.trans stopped)).1 notCopy }
        all_goals
          rw [Phase.afterPiece] at position'
          by_cases last : rest = []
        · rw [if_pos last] at position'
          rw [position'.notStarted, same, Phase.rest, last]
          rfl
        · rw [if_neg last] at position'
          rw [position'.started, position'.remaining, same]
          rfl
        · rw [if_pos last] at position'
          rw [position'.notStarted]
          exact fun is => Bool.noConfusion is
        · rw [if_neg last] at position'
          intro _
          left
          rw [position'.discard]
          refine decide_eq_true (drained.resolve_right fun none => last ?_)
          exact (eq_nil_iff_of_length_eq same).mp none
  · have rests :=
      @UartToUsb.perform_rests active _ _ _ tracks.armed tracks.position due
    rw [← performs.usb] at rests
    have frame := rests.frame
    refine
      { toCome := recovers.toCome
        length := ?_
        drains := ?_
        supplied := fun stopped =>
          absurd (recovers.supplied (rests.cts.symm.trans stopped)).1
            notCopy }
    · rw [frame]
      exact recovers.length
    · rw [frame]
      exact recovers.drains

/-- After a bus reset a stage behind the header begins again. -/
theorem Line.Tracks.beginsAgain
    (tracks : line.Tracks active phase before)
    (fits : ∀ frame, frame ∈ later → Fits active frame)
    (recovers :
      line.chip.toUartToUsb.Recovers stage line.toSend remainder later)
    (again : Stage)
    (notHeader : again ≠ .header)
    (notCommand :
      ¬ (again = .ch552 ∧ line.chip.dataAvailable .ch552 = true ∧
        line.chip.frameBuf 0 = setEndpoints))
    (reset :
      line'.chip.toUartToUsb =
        line.chip.toUartToUsb.busReset.perform active again)
    (next : line'.chip.stage = again.next)
    (sender : line'.toSend = line.toSend) :
    ∃ phase', line'.Tracks active phase' later ∧ phase'.Drained := by
  let struck : Line :=
    { line' with
      chip :=
        { line'.chip with
          toUartToUsb := line.chip.toUartToUsb.busReset
          stage := again } }
  have tracks' : struck.Tracks active (phase.interrupted remainder) later :=
    tracks.busReset fits recovers rfl sender
  have spared : ¬ (struck.chip.Commands ∨ struck.chip.Overcommits) := by
    rintro (command | ⟨-, _, -, length, -, many⟩)
    · exact notCommand command
    · have empty : struck.chip.uartRxBuf.count = 0 := rfl
      rw [empty, Nat.zero_sub] at many
      exact Nat.not_lt_zero _ many
  exact
    tracks'.performs_drained (recovers.drained tracks.position) notHeader
      spared ⟨reset, next⟩

/-- A bus reset that the loop gets over, wherever it comes. -/
theorem Line.Resets.tracks
    (resets : line.Resets active usb line')
    (tracks : line.Tracks active phase before)
    (fits : ∀ frame, frame ∈ later → Fits active frame)
    (recovers :
      usb.Recovers line.chip.stage line.toSend remainder later) :
    ∃ phase', line'.Tracks active phase' later ∧ phase'.Drained := by
  cases resets with
  | between =>
      exact
        ⟨_, tracks.busReset fits recovers rfl rfl,
          recovers.drained tracks.position⟩
  | @access loop left spared within whole leaves =>
      obtain ⟨sender, next, survives⟩ := within.busReset rfl whole leaves
      cases survives with
      | header isHeader counted done =>
          have recovers' :
              line.chip.toUartToUsb.Recovers line.chip.stage line.toSend
                remainder later := by
            rw [counted] at recovers
            exact
              ⟨recovers.toCome, recovers.length, recovers.drains,
                recovers.supplied⟩
          exact
            ⟨_, tracks.busReset fits recovers' done sender,
              recovers'.drained tracks.position⟩
      | copy isCopy begun behind =>
          -- The line whose handling of frames is the one that is interrupted.
          obtain ⟨struck, phase', before', isStruck, sender', tracks'⟩ :
              ∃ (struck : Line) (phase' : Phase) (before' : List Packet),
                loop.chip.toUartToUsb = struck.chip.toUartToUsb ∧
                  struck.toSend = line.toSend ∧
                  struck.Tracks active phase' before' := by
            rcases begun with same | done
            · exact ⟨line, phase, before, same, rfl, tracks⟩
            · let handled : Chip :=
                { line.chip with
                  toUartToUsb := loop.chip.toUartToUsb
                  stage := line.chip.stage.next }
              have performs : line.chip.Performs active handled :=
                ⟨done.trans (by rw [← isCopy]; rfl), rfl⟩
              obtain ⟨phase', before', tracks'⟩ :=
                tracks.performs spared performs
              exact
                ⟨line.behind handled, phase', before', rfl, rfl, tracks'⟩
          rw [isStruck, ← sender'] at recovers
          rw [isStruck] at behind
          have sender'' : left.toSend = struck.toSend :=
            sender.trans sender'.symm
          rcases behind with done | again
          · exact
              ⟨_, tracks'.busReset fits recovers done sender'',
                recovers.drained tracks'.position⟩
          · refine
              tracks'.beginsAgain fits recovers .copy (by decide) ?_ again ?_
                sender''
            · exact fun is => Stage.noConfusion is.1
            · exact next.trans (congrArg Stage.next isCopy)
  | @assignment first after chip' spared notHeader notCopy split armed reset
      next =>
      have position :=
        @UartToUsb.assign_busReset active _ _ tracks.armed notHeader notCopy
          _ _ split armed
      rw [← reset] at position
      rcases position with done | again
      · let behind : Chip :=
          { chip' with
            toUartToUsb :=
              line.chip.toUartToUsb.perform active line.chip.stage }
        have performs : line.chip.Performs active behind := ⟨rfl, next⟩
        obtain ⟨phase', before', tracks'⟩ := tracks.performs spared performs
        have recovers' :=
          tracks.recovers_behind recovers notHeader notCopy spared performs
        exact
          ⟨_, tracks'.busReset fits recovers' done rfl,
            recovers'.drained tracks'.position⟩
      · refine
          tracks.beginsAgain fits recovers _ notHeader ?_ again next rfl
        exact fun command => spared (.inl command)

/-- In reachable states the frames to come are known. -/
theorem Line.Reachable.tracks
    (reachable : line.Reachable active) :
    ∃ phase later, line.Tracks active phase later := by
  induction reachable with
  | start resetKeep frames fits =>
      exact ⟨.between, frames, Line.tracks_start resetKeep fits⟩
  | step event spared _ inductionHypothesis =>
      obtain ⟨_, _, tracks⟩ := inductionHypothesis
      obtain ⟨phase, later, keeps⟩ := tracks.step event spared
      exact ⟨phase, later, keeps.tracks⟩
  | busReset resets remainder later fits recovers _ inductionHypothesis =>
      obtain ⟨_, _, tracks⟩ := inductionHypothesis
      obtain ⟨phase, tracks', -⟩ := resets.tracks tracks fits recovers
      exact ⟨phase, later, tracks'⟩

/-- At most one report is left of a frame. -/
theorem Phase.Drained.reports
    (drained : phase.Drained)
    (ep : Endpoint) :
    (phase.reports ep).length ≤ 1 := by
  have nothing (pieces : List (List UInt8)) :
      (Sink.discard.reports ep pieces).length ≤ 1 := by
    have other : Sink.discard.endpoint ≠ some ep := nofun
    rw [Sink.reports_other other]
    exact Nat.zero_le 1
  cases phase with
  | between => exact Nat.zero_le 1
  | taking sink rest =>
      obtain rfl : sink = .discard := drained
      exact nothing _
  | staged sink chunk rest =>
      rcases drained with rfl | rfl
      · exact nothing _
      · rw [Phase.reports, if_pos rfl, Sink.reports]
        split
        · exact Nat.le_refl 1
        · exact Nat.zero_le 1

/-- A run without commands leads to reachable states. -/
theorem Line.Reachable.run
    (reachable : line.Reachable active)
    {events : List LineEvent}
    (spared : line.Spared active events) :
    (line.run active events).Reachable active := by
  induction events generalizing line with
  | nil => exact reachable
  | cons event events inductionHypothesis =>
      exact
        inductionHypothesis (.step event spared.1 reachable) spared.2

end Recovery

end TKey.Ch552
