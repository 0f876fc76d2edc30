import TKey.FrameUpload
import TKey.Lib.StopSignal

namespace TKey.Ch552

open ByteMemory RingBuffer

/-!
# Frames of the FPGA at the host

The loop together with the UART, on which the FPGA sends frames as long as the
controller does not stop it.  Whatever the order of events, the frames reach
their endpoints and the loop only waits for bytes that have not arrived or for
the host.
-/

section Definitions

/-- The controller with the bytes on the UART from the FPGA. -/
structure Line where
  chip : Chip
  /-- The bytes that have arrived since CTS was raised. -/
  late : Nat
  /-- The bytes that the FPGA is going to send. -/
  toSend : List UInt8

/-- What can happen next. -/
inductive LineEvent where
  /-- The loop goes on with the next stage. -/
  | main
  /-- `Uart1_ISR` receives the next byte. -/
  | receive
  | outToken (ep : Endpoint) (togOk : Bool) (packet : UsbPacket)
  | inToken (ep : Endpoint)
  | setConfiguration (usbConfig : UInt8)
  deriving DecidableEq

namespace Line

variable (active : UInt8)

/--
One event.  The FPGA sends at most two more bytes after CTS has been raised,
until it is lowered.
-/
def step (line : Line) : LineEvent → Line
  | .main =>
      { line with
        chip := line.chip.step active .main
        late := if line.chip.ctsStopped then line.late else 0 }
  | .receive =>
      match line.toSend with
      | [] => line
      | byte :: toSend =>
          if line.chip.ctsStopped = true ∧ 2 ≤ line.late then
            line
          else
            { chip := line.chip.step active (.uart1 byte)
              late := if line.chip.ctsStopped then line.late + 1 else 0
              toSend := toSend }
  | .outToken ep togOk packet =>
      { line with chip := line.chip.step active (.outToken ep togOk packet) }
  | .inToken ep => { line with chip := line.chip.step active (.inToken ep) }
  | .setConfiguration usbConfig =>
      { line with chip := line.chip.step active (.setConfiguration usbConfig) }

/-- Events one after the other. -/
def run (line : Line) (events : List LineEvent) : Line :=
  events.foldl (step active) line

/-- The FPGA is going to send frames to a controller that has been started. -/
def start (resetKeep : UInt8) (frames : List Packet) : Line where
  chip := Chip.boot resetKeep
  late := 0
  toSend := wire frames

/-- The bytes that the loop has not taken. -/
def unread (line : Line) : List UInt8 :=
  line.chip.uartRxBuf.contents ++ line.toSend

end Line

namespace UartToUsb

variable (usb : UartToUsb)

/-- The ring as the FPGA sees it. -/
def gauge (late : Nat) : StopSignal.Gauge where
  count := usb.uartRxBuf.count
  stop := if usb.ctsStopped then some late else none

/-- The condition under which bytes are taken for a sink. -/
def Wants (sink : Sink) : Prop :=
  usb.frameStarted = true ∧
    usb.frameDiscard = decide (sink = .discard) ∧
    usb.dataAvailable sink = false ∧
    (sink ≠ .discard → usb.frameMode = sink.mode)

instance (sink : Sink) : Decidable (usb.Wants sink) :=
  inferInstanceAs (Decidable (_ ∧ _ ∧ _ ∧ _))

/-- How many bytes are taken for a sink. -/
def pieceLength (sink : Sink) : Option Nat :=
  if usb.Wants sink then usb.chunkLength (decide (sink ≠ .fido)) else none

end UartToUsb

def Line.gauge (line : Line) : StopSignal.Gauge :=
  line.chip.toUartToUsb.gauge line.late

/-- A command to change the endpoints, which resets the controller. -/
def Chip.Commands (chip : Chip) : Prop :=
  chip.stage = .ch552 ∧ chip.dataAvailable .ch552 = true ∧
    chip.frameBuf 0 = setEndpoints

/--
A piece is to be taken and CTS to be lowered although there may be no room for
three more bytes.
-/
def Chip.Overcommits (chip : Chip) : Prop :=
  chip.stage = .copy ∧
    ∃ sink ∈ [Sink.cdc, .fido, .ccid, .debug, .ch552, .discard],
      ∃ length ∈ chip.toUartToUsb.pieceLength sink,
        136 < chip.uartRxBuf.count - length

/-- The loop never goes on from a state of some kind. -/
def Line.Avoids (active : UInt8) (bad : Chip → Prop) :
    Line → List LineEvent → Prop
  | _, [] => True
  | line, event :: events =>
      ¬ (event = .main ∧ bad line.chip) ∧
        Line.Avoids active bad (line.step active event) events

/--
No command of the FPGA resets the controller, and CTS is only lowered while
there is room for three more bytes.
-/
def Line.Spared (active : UInt8) : Line → List LineEvent → Prop :=
  Line.Avoids active fun chip => chip.Commands ∨ chip.Overcommits

instance (chip : Chip) : Decidable chip.Commands :=
  inferInstanceAs (Decidable (_ ∧ _ ∧ _))

instance (chip : Chip) : Decidable chip.Overcommits :=
  inferInstanceAs (Decidable (_ ∧ _))

instance Line.decidableAvoids
    (active : UInt8)
    (bad : Chip → Prop)
    [DecidablePred bad] :
    (line : Line) → (events : List LineEvent) →
      Decidable (line.Avoids active bad events)
  | _, [] => .isTrue trivial
  | line, event :: events =>
      have := Line.decidableAvoids active bad (line.step active event) events
      inferInstanceAs (Decidable (¬ (_ ∧ _) ∧ _))

instance (active : UInt8) (line : Line) (events : List LineEvent) :
    Decidable (line.Spared active events) :=
  inferInstanceAs (Decidable (line.Avoids active _ events))

/-- How often the loop goes on. -/
def loopSteps (events : List LineEvent) : Nat :=
  events.countP fun event =>
    match event with
    | .main => true
    | _ => false

/-- Nothing is to be handed over. -/
def FrameState.holdsNothing (frame : FrameState) : Bool :=
  [Sink.cdc, .fido, .ccid, .debug, .ch552, .discard].all
    fun sink => !frame.dataAvailable sink

/-- What is left to do in the frame. -/
def FrameState.weight (frame : FrameState) : Nat :=
  if frame.frameStarted = false then 0
  else if frame.holdsNothing then 4
  else if frame.frameRemainingBytes = 0 then 2
  else 6

/-- What is left to do. -/
def Line.work (line : Line) : Nat :=
  4 * line.unread.length + line.chip.toFrameState.weight +
    (if line.chip.cdcSendZeroLenPacket then 1 else 0)

/-- The loop waits for bytes that have not arrived. -/
def Chip.Starves (chip : Chip) : Prop :=
  if chip.frameStarted = false then
    chip.uartRxBuf.count < 2
  else
    chip.holdsNothing ∧
      chip.uartRxBuf.count < min maxFrameSize chip.frameRemainingBytes

/-- The loop waits for the host to collect a packet. -/
def Chip.Blocks (chip : Chip) : Prop :=
  ∃ sink ep,
    chip.dataAvailable sink = true ∧ sink.endpoint = some ep ∧
      (chip.ins ep).uploadBusy = true

/-- Frames reach the host, after what it has been given before. -/
structure Line.Forwards
    (active : UInt8)
    (given : Endpoint → List (List UInt8))
    (frames : List Packet)
    (line : Line) : Prop where
  running : line.chip.resetting = false
  /-- The ring has room for all bytes that can arrive. -/
  room : line.gauge.level 133 2 < uartRxBufSize
  inOrder :
    ∀ ep,
      (line.chip.ins ep).given <+: given ep ++ expected active ep frames
  /-- Between frames the next byte is the mode of the next frame. -/
  ready :
    line.chip.frameStarted = false →
      ∃ handled later,
        frames = handled ++ later ∧
          line.unread = wire later ∧
          ∀ ep,
            (line.chip.ins ep).given =
              given ep ++ expected active ep handled
  /-- The FPGA is not stopped while the loop waits for bytes. -/
  supplied : line.chip.Starves → line.chip.ctsStopped = false
  finished :
    line.work = 0 →
      line.unread = [] ∧
        ∀ ep,
          (line.chip.ins ep).given = given ep ++ expected active ep frames

/--
Whatever the order of events, frames are forwarded.  What is left to do never
gets more, and it gets less within an iteration of the loop and a stage unless
the loop waits for bytes that have not arrived or for the host.
-/
def Line.Serves
    (active : UInt8)
    (line : Line)
    (given : Endpoint → List (List UInt8))
    (frames : List Packet) : Prop :=
  ∀ before after,
    line.Spared active (before ++ after) →
      (line.run active before).Forwards active given frames ∧
        ((line.run active before).run active after).work ≤
          (line.run active before).work ∧
        (¬ (line.run active before).chip.Starves →
          ¬ (line.run active before).chip.Blocks →
          (∀ during, during <+: after →
            ((line.run active before).run active during).chip.usbConfig ≠
              0) →
          14 ≤ loopSteps after →
          ((line.run active before).run active after).work <
            (line.run active before).work)

end Definitions

section Flow

/-- What is in the ring is enough to go on with. -/
def Phase.Supplied (count : Nat) : Phase → Prop
  | .between => 133 ≤ count
  | .taking _ rest => min maxFrameSize rest.length ≤ count
  | .staged _ _ _ => 133 ≤ count

/-- The CTS signal keeps the ring from running over and from running dry. -/
structure Line.Flows (line : Line) (phase : Phase) : Prop where
  level : line.gauge.level 133 2 ≤ 139
  supplied :
    line.chip.ctsStopped = true → phase.Supplied line.chip.uartRxBuf.count

/-- A piece is small enough to be there when the ring is nearly full. -/
theorem Phase.supplied_of_full
    {count : Nat}
    (full : 133 ≤ count)
    (phase : Phase) :
    phase.Supplied count := by
  cases phase with
  | between => exact full
  | taking sink rest =>
      exact
        Nat.le_trans (Nat.min_le_left _ _)
          (Nat.le_trans (by decide) full)
  | staged sink chunk rest => exact full

/-- More bytes are enough as well. -/
theorem Phase.Supplied.mono
    {count count' : Nat}
    {phase : Phase}
    (supplied : phase.Supplied count)
    (more : count ≤ count') :
    phase.Supplied count' := by
  cases phase <;> exact Nat.le_trans supplied more

section Gauge

variable {usb : UartToUsb} {late : Nat}

/-- What the FPGA knows of a signal that is low does not matter. -/
theorem UartToUsb.gauge_late :
    usb.gauge (if usb.ctsStopped then late else 0) = usb.gauge late := by
  rw [gauge, gauge]
  cases usb.ctsStopped <;> rfl

theorem UartToUsb.gauge_congr
    {usb' : UartToUsb}
    (ring : usb'.uartRxBuf.count = usb.uartRxBuf.count)
    (cts : usb'.ctsStopped = usb.ctsStopped) :
    usb'.gauge late = usb.gauge late := by
  rw [gauge, gauge, ring, cts]

theorem UartToUsb.mayArrive_gauge
    (mayArrive : usb.ctsStopped = true → late < 2) :
    (usb.gauge late).MayArrive 2 := by
  intro late' isLate
  rw [gauge] at isLate
  by_cases isStopped : usb.ctsStopped = true
  · rw [if_pos isStopped] at isLate
    rw [← Option.some.inj isLate]
    exact mayArrive isStopped
  · rw [if_neg isStopped] at isLate
    cases isLate

/-- There is room for a byte that may come. -/
theorem UartToUsb.room_of_gauge
    (level : (usb.gauge late).level 133 2 ≤ 139)
    (mayArrive : usb.ctsStopped = true → late < 2) :
    usb.uartRxBuf.count + 1 < uartRxBufSize :=
  Nat.succ_lt_succ
    (Nat.lt_of_lt_of_le
      (StopSignal.Gauge.count_lt_level (mayArrive_gauge mayArrive)) level)

/-- What `Uart1_ISR` leaves alone. -/
theorem UartToUsb.uart1Isr_eq (usb : UartToUsb) (byte : UInt8) :
    usb.uart1Isr byte =
      { usb with
        uartRxBuf := usb.uartRxBuf.push byte
        ctsStopped :=
          if (usb.uartRxBuf.push byte).count ≥ 133 then true
          else usb.ctsStopped } := by
  rw [uart1Isr]
  simp only
  split <;> rfl

/-- `Uart1_ISR` raises CTS at the mark. -/
theorem UartToUsb.gauge_uart1Isr
    (room : usb.uartRxBuf.count + 1 < uartRxBufSize)
    (byte : UInt8) :
    (usb.uart1Isr byte).gauge (if usb.ctsStopped then late + 1 else 0) =
      (usb.gauge late).arrive 133 := by
  have count := Ring.count_push _ room byte
  rw [uart1Isr_eq, gauge, gauge, StopSignal.Gauge.arrive]
  simp only [count]
  cases usb.ctsStopped with
  | true => simp only [ite_self, if_true]
  | false =>
      by_cases full : 133 ≤ usb.uartRxBuf.count + 1
      · simp only [if_pos full, if_true, Bool.false_eq_true, if_false]
      · simp only [if_neg full, Bool.false_eq_true, if_false]

/-- A stage takes bytes, and it only lowers CTS while there is room. -/
inductive UartToUsb.Drains (usb usb' : UartToUsb) : Prop where
  | takes
      (less : usb'.uartRxBuf.count ≤ usb.uartRxBuf.count)
      (cts : usb'.ctsStopped = usb.ctsStopped)
  | starts
      (few : usb'.uartRxBuf.count ≤ 136)
      (cts : usb'.ctsStopped = false)

/-- A line behind a stage. -/
def Line.behind (line : Line) (chip' : Chip) : Line :=
  { line with
    chip := chip'
    late := if line.chip.ctsStopped then line.late else 0 }

/-- Only lowering CTS lets more bytes come. -/
theorem Line.level_behind
    {line : Line}
    {chip' : Chip}
    (level : line.gauge.level 133 2 ≤ 139)
    (drains : line.chip.toUartToUsb.Drains chip'.toUartToUsb) :
    (line.behind chip').gauge.level 133 2 ≤ 139 := by
  cases drains with
  | takes less cts =>
      obtain ⟨number, taken⟩ := Nat.exists_eq_add_of_le less
      have gauge :
          (line.behind chip').gauge = line.gauge.take number := by
        rw [Line.gauge, Line.gauge, behind, UartToUsb.gauge,
          UartToUsb.gauge, StopSignal.Gauge.take]
        simp only [cts, taken, Nat.add_sub_cancel]
        cases line.chip.ctsStopped <;> rfl
      have inside : number ≤ line.gauge.count :=
        Nat.le.intro ((Nat.add_comm _ _).trans taken.symm)
      have lower :=
        @StopSignal.Gauge.level_take_le 133 2 line.gauge number inside
      rw [gauge]
      omega
  | starts few cts =>
      have gauge :
          (line.behind chip').gauge =
            StopSignal.Gauge.mk chip'.uartRxBuf.count none := by
        rw [Line.gauge, behind, UartToUsb.gauge, cts]
        rfl
      rw [gauge]
      exact Nat.max_le.mpr ⟨by decide, Nat.add_le_add_right few 3⟩

end Gauge

end Flow

section Tracks

/-- The line is in a phase, with frames to come. -/
structure Line.Tracks
    (active : UInt8)
    (line : Line)
    (phase : Phase)
    (later : List Packet) : Prop where
  position : line.chip.toFrameState.At phase
  unread : line.unread = phase.rest ++ wire later
  fits : ∀ frame, frame ∈ later → Fits active frame
  armed :
    ∀ ep, (line.chip.ins ep).uploadBusy = (line.chip.ins ep).acks
  counted :
    line.chip.stage = .copy →
      line.chip.uartRxBufByteCount ≤ line.chip.uartRxBuf.count
  running : line.chip.resetting = false
  flows : line.Flows phase

/-- What has been delivered and what is still to come. -/
def Line.total
    (active : UInt8)
    (line : Line)
    (phase : Phase)
    (later : List Packet)
    (ep : Endpoint) : List (List UInt8) :=
  (line.chip.ins ep).given ++ coming active ep phase later

theorem FrameState.holdsNothing_iff (frame : FrameState) :
    frame.holdsNothing = true ↔ ∀ sink, frame.dataAvailable sink = false := by
  rw [holdsNothing, List.all_eq_true]
  constructor
  · intro all sink
    have member :
        sink ∈ [Sink.cdc, .fido, .ccid, .debug, .ch552, .discard] := by
      cases sink <;> decide
    have isEmpty := all sink member
    rw [Bool.not_eq_eq_eq_not, Bool.not_true] at isEmpty
    exact isEmpty
  · intro none sink _
    rw [none]
    rfl

/-- The weight of a frame only depends on the phase. -/
theorem FrameState.weight_eq
    {frame : FrameState}
    {phase : Phase}
    (position : frame.At phase) :
    frame.weight = phase.weight := by
  cases phase with
  | between => exact if_pos position.notStarted
  | taking sink rest =>
      have started : ¬ frame.frameStarted = false := by
        rw [position.started]
        exact Bool.noConfusion
      rw [weight, if_neg started,
        if_pos (frame.holdsNothing_iff.mpr position.empty)]
      rfl
  | staged sink chunk rest =>
      have started : ¬ frame.frameStarted = false := by
        rw [position.started]
        exact Bool.noConfusion
      have holds : ¬ frame.holdsNothing = true := by
        rw [holdsNothing_iff]
        intro none
        have available := position.available_self
        rw [none] at available
        exact Bool.noConfusion available
      rw [weight, if_neg started, if_neg holds, position.remaining]
      simp only [List.length_eq_zero_iff]
      rfl

/-- A step of the abstract machine keeps the flow. -/
theorem Line.Flows.moves
    {active : UInt8}
    {line : Line}
    {phase phase' : Phase}
    {later later' : List Packet}
    {out : Endpoint → List (List UInt8)}
    (flows : line.Flows phase)
    (unread : line.unread = phase.rest ++ wire later)
    {chip' : Chip}
    (moves :
      line.chip.toUartToUsb.Moves active phase later chip'.toUartToUsb phase'
        later' out)
    (room :
      ∀ sink rest,
        phase = .taking sink rest →
          line.chip.uartRxBuf.count - min maxFrameSize rest.length ≤ 136) :
    (line.behind chip').Flows phase' := by
  have lengths := congrArg List.length unread
  have lengths' := congrArg List.length (moves.unread _ unread)
  have cts := moves.cts
  have supplied := flows.supplied
  simp only [Line.unread, List.length_append, Ring.length_contents]
    at lengths lengths'
  cases moves.advance with
  | header frame later =>
      have taken :
          line.chip.uartRxBuf.count = chip'.uartRxBuf.count + 2 := by
        simp only [Phase.rest, wire_cons, List.length_cons,
          List.length_append, List.length_nil] at lengths lengths'
        omega
      refine
        ⟨Line.level_behind flows.level (.takes (Nat.le.intro taken.symm) cts),
          fun stopped => ?_⟩
      have full : 133 ≤ line.chip.uartRxBuf.count :=
        supplied (cts.symm.trans stopped)
      have there : maxFrameSize ≤ chip'.uartRxBuf.count := by
        rw [maxFrameSize]
        omega
      exact Nat.le_trans (Nat.min_le_left _ _) there
  | piece sink rest later =>
      have taken :
          line.chip.uartRxBuf.count =
            chip'.uartRxBuf.count + min maxFrameSize rest.length := by
        simp only [Phase.rest, List.length_drop] at lengths lengths'
        omega
      have few := room sink rest rfl
      rw [taken, Nat.add_sub_cancel] at few
      refine
        ⟨Line.level_behind flows.level (.starts few cts), fun stopped => ?_⟩
      exact Bool.noConfusion (cts.symm.trans stopped)
  | handOver sink chunk rest later =>
      have same :
          line.chip.uartRxBuf.count = chip'.uartRxBuf.count := by
        rw [Phase.rest_afterPiece] at lengths'
        simp only [Phase.rest] at lengths
        omega
      refine
        ⟨Line.level_behind flows.level (.takes (Nat.le_of_eq same.symm) cts),
          fun stopped => ?_⟩
      have full : 133 ≤ line.chip.uartRxBuf.count :=
        supplied (cts.symm.trans stopped)
      exact Phase.supplied_of_full (same ▸ full) _

/-- What a step does to the line. -/
structure Line.Keeps
    (active : UInt8)
    (line : Line)
    (phase : Phase)
    (later : List Packet)
    (line' : Line)
    (phase' : Phase)
    (later' : List Packet) : Prop where
  tracks : line'.Tracks active phase' later'
  handled : ∃ frames, later = frames ++ later'
  total :
    ∀ ep, line'.total active phase' later' ep = line.total active phase later ep
  work : line'.work ≤ line.work

section Steps

variable {active : UInt8} {line : Line} {phase : Phase} {later : List Packet}

/-- A step of the abstract machine. -/
theorem Line.Tracks.moves
    (tracks : line.Tracks active phase later)
    {chip' : Chip}
    {phase' : Phase}
    {later' : List Packet}
    {out : Endpoint → List (List UInt8)}
    (moves :
      line.chip.toUartToUsb.Moves active phase later chip'.toUartToUsb phase'
        later' out)
    (counted :
      chip'.stage = .copy →
        chip'.uartRxBufByteCount ≤ chip'.uartRxBuf.count)
    (room :
      ∀ sink rest,
        phase = .taking sink rest →
          line.chip.uartRxBuf.count - min maxFrameSize rest.length ≤ 136) :
    line.Keeps active phase later (line.behind chip') phase' later' ∧
      (line.behind chip').work < line.work := by
  have unread' : (line.behind chip').unread = phase'.rest ++ wire later' :=
    moves.unread _ tracks.unread
  have position : (line.behind chip').chip.toFrameState.At phase' :=
    moves.position
  obtain ⟨bytes, split, weight⟩ := moves.advance.taken
  have lighter : (line.behind chip').work < line.work := by
    rw [Line.work, Line.work, unread', tracks.unread, split,
      FrameState.weight_eq tracks.position, FrameState.weight_eq position]
    simp only [List.length_append]
    split <;> split <;> omega
  obtain ⟨frames, isLater⟩ := moves.advance.handled
  refine ⟨⟨?_, ⟨frames, isLater⟩, ?_, Nat.le_of_lt lighter⟩, lighter⟩
  · exact
      { position := position
        unread := unread'
        fits := fun frame member =>
          tracks.fits frame
            (isLater ▸ List.mem_append_right frames member)
        armed := moves.armed
        counted := counted
        running := moves.resetting.trans tracks.running
        flows := tracks.flows.moves tracks.unread moves room }
  · intro ep
    have given :
        ((line.behind chip').chip.ins ep).given =
          (line.chip.ins ep).given ++ (out ep).filter (· ≠ []) :=
      moves.given ep
    rw [Line.total, Line.total, given, List.append_assoc,
      moves.advance.coming_eq]

/-- A stage that does nothing to frames. -/
theorem Line.Tracks.rests
    (tracks : line.Tracks active phase later)
    (line' : Line)
    (rests : line.chip.toUartToUsb.Rests line'.chip.toUartToUsb)
    (counted :
      line'.chip.stage = .copy →
        line'.chip.uartRxBufByteCount ≤ line'.chip.uartRxBuf.count)
    (sender :
      line'.toSend = line.toSend ∧
        (line'.late = line.late ∨
          line'.late = if line.chip.ctsStopped then line.late else 0)) :
    line.Keeps active phase later line' phase later ∧
      (line'.work < line.work ∨ line'.chip.ins = line.chip.ins) := by
  have unread' : line'.unread = line.unread := by
    rw [Line.unread, Line.unread, rests.buffer, sender.1]
  have less :
      line'.work ≤ line.work ∧
        (line'.work < line.work ∨ line'.chip.ins = line.chip.ins) := by
    rw [Line.work, Line.work, unread', rests.frame]
    rcases rests.zeroLen with ⟨ins, same⟩ | ⟨sends, sent⟩
    · rw [same]
      exact ⟨Nat.le_refl _, .inr ins⟩
    · rw [sends, sent, if_pos rfl, if_neg Bool.false_ne_true]
      exact ⟨Nat.le_succ _, .inl (Nat.lt_succ_self _)⟩
  have gauge : line'.gauge = line.gauge := by
    have same {late : Nat} :=
      @UartToUsb.gauge_congr _ late _ (congrArg Ring.count rests.buffer)
        rests.cts
    rw [Line.gauge, Line.gauge, same]
    rcases sender.2 with asBefore | reset
    · rw [asBefore]
    · rw [reset, UartToUsb.gauge_late]
  refine ⟨⟨?_, ⟨[], rfl⟩, ?_, less.1⟩, less.2⟩
  · refine
      { position := ?_
        unread := unread'.trans tracks.unread
        fits := tracks.fits
        armed := rests.armed
        counted := counted
        running := rests.resetting.trans tracks.running
        flows := ⟨?_, fun stopped => ?_⟩ }
    · rw [rests.frame]
      exact tracks.position
    · rw [gauge]
      exact tracks.flows.level
    · rw [rests.cts] at stopped
      rw [rests.buffer]
      exact tracks.flows.supplied stopped
  · intro ep
    rw [Line.total, Line.total, rests.given]

/-- The bytes that were counted are in the buffer. -/
theorem UartToUsb.counted_takeHeader (usb : UartToUsb) :
    (usb.takeHeader active).uartRxBufByteCount ≤
      (usb.takeHeader active).uartRxBuf.count := by
  rw [takeHeader]
  simp only
  split
  · rename_i arrived
    split
    · exact Nat.le_of_eq (Ring.count_advance _ arrived.1).symm
    · exact Nat.le_refl _
  · exact Nat.le_refl _

/-- The loop is not held up at its top. -/
def Chip.GoesOn (chip : Chip) : Prop :=
  ¬ (chip.stage = .top ∧ chip.usbConfig = 0)

theorem Chip.main_of_goesOn
    {chip : Chip}
    (running : chip.resetting = false)
    (goesOn : chip.GoesOn) :
    chip.main active =
      { toUsbToUart := chip.toUsbToUart.perform active chip.stage
        toUartToUsb := chip.toUartToUsb.perform active chip.stage
        stage := chip.stage.next
        usbConfig := chip.usbConfig } := by
  have notResetting : ¬ chip.resetting = true := by
    rw [running]
    exact Bool.false_ne_true
  rw [Chip.main, if_neg notResetting, if_neg goesOn]

/-- A stage has been done, whatever it did to packets of the host. -/
structure Chip.Performs (active : UInt8) (chip chip' : Chip) : Prop where
  usb :
    chip'.toUartToUsb = chip.toUartToUsb.perform active chip.stage
  stage : chip'.stage = chip.stage.next

theorem Chip.performs_main
    {chip : Chip}
    (running : chip.resetting = false)
    (goesOn : chip.GoesOn) :
    chip.Performs active (chip.main active) := by
  rw [Chip.main_of_goesOn running goesOn]
  exact ⟨rfl, rfl⟩

/-- Only behind the header the count matters. -/
theorem Chip.Performs.counted
    {chip chip' : Chip}
    (performs : chip.Performs active chip')
    (isCopy : chip'.stage = .copy) :
    chip'.uartRxBufByteCount ≤ chip'.uartRxBuf.count := by
  have isHeader : chip.stage = .header := by
    have next := performs.stage.symm.trans isCopy
    revert next
    cases chip.stage <;> first | exact fun _ => rfl | exact nofun
  rw [performs.usb, isHeader]
  exact UartToUsb.counted_takeHeader chip.toUartToUsb

/-- The length of a piece that has arrived. -/
theorem UartToUsb.pieceLength_of_taking
    {usb : UartToUsb}
    {sink : Sink}
    {rest : List UInt8}
    (taking : usb.Taking sink rest)
    (arrived : min maxFrameSize rest.length ≤ usb.uartRxBufByteCount) :
    usb.pieceLength sink = some (min maxFrameSize rest.length) := by
  have wants : usb.Wants sink :=
    ⟨taking.started, taking.discard, taking.empty sink, taking.mode⟩
  have whole (isFido : decide (sink ≠ .fido) = false) :
      rest.length = maxFrameSize :=
    taking.takes.1 (not_not.mp (of_decide_eq_false isFido))
  rw [pieceLength, if_pos wants, chunkLength_eq taking.remaining whole,
    if_pos arrived]

/-- There is room when CTS is lowered. -/
theorem Line.Tracks.room_of_due
    (tracks : line.Tracks active phase later)
    (restrained : ¬ line.chip.Overcommits)
    (due : line.chip.toUartToUsb.Due line.chip.stage phase)
    (sink : Sink)
    (rest : List UInt8)
    (isTaking : phase = .taking sink rest) :
    line.chip.uartRxBuf.count - min maxFrameSize rest.length ≤ 136 := by
  subst isTaking
  obtain ⟨isCopy, arrived⟩ := due
  refine Nat.not_lt.mp fun many => restrained ⟨isCopy, sink, ?_, ?_⟩
  · cases sink <;> decide
  · exact
      ⟨_, UartToUsb.pieceLength_of_taking tracks.position arrived, many⟩

/-- A stage with something to do. -/
theorem Line.Tracks.performs_of_due
    (tracks : line.Tracks active phase later)
    (spared : ¬ (line.chip.Commands ∨ line.chip.Overcommits))
    {chip' : Chip}
    (performs : line.chip.Performs active chip')
    (due : line.chip.toUartToUsb.Due line.chip.stage phase) :
    ∃ phase' later' out,
      line.chip.toUartToUsb.Moves active phase later chip'.toUartToUsb phase'
          later' out ∧
        line.Keeps active phase later (line.behind chip') phase' later' ∧
        (line.behind chip').work < line.work := by
  obtain ⟨phase', later', out, moves⟩ :=
    UartToUsb.perform_moves tracks.armed tracks.position due tracks.counted
      (fun isStage isAvailable isCommand =>
        spared (.inl ⟨isStage, isAvailable, isCommand⟩))
      tracks.fits tracks.unread
  rw [← performs.usb] at moves
  exact
    ⟨phase', later', out, moves,
      tracks.moves moves performs.counted
        (tracks.room_of_due (fun many => spared (.inr many)) due)⟩

/-- A stage with nothing to do. -/
theorem Line.Tracks.performs_of_not_due
    (tracks : line.Tracks active phase later)
    {chip' : Chip}
    (performs : line.chip.Performs active chip')
    (notDue : ¬ line.chip.toUartToUsb.Due line.chip.stage phase) :
    line.Keeps active phase later (line.behind chip') phase later ∧
      ((line.behind chip').work < line.work ∨
        chip'.ins = line.chip.ins) := by
  have rests :=
    @UartToUsb.perform_rests active _ _ _ tracks.armed tracks.position notDue
  rw [← performs.usb] at rests
  exact
    tracks.rests (line.behind chip') rests performs.counted ⟨rfl, .inr rfl⟩

/-- The loop goes on. -/
theorem Line.Tracks.main
    (tracks : line.Tracks active phase later)
    (spared : ¬ (line.chip.Commands ∨ line.chip.Overcommits)) :
    ∃ phase' later',
      line.Keeps active phase later (line.step active .main) phase'
        later' := by
  by_cases goesOn : line.chip.GoesOn
  case neg =>
    have notResetting : ¬ line.chip.resetting = true := by
      rw [tracks.running]
      exact Bool.false_ne_true
    have same : (line.step active .main).chip = line.chip := by
      rw [step, Chip.step, Chip.main, if_neg notResetting,
        if_pos (not_not.mp goesOn)]
    have rests :
        line.chip.toUartToUsb.Rests
          (line.step active .main).chip.toUartToUsb := by
      rw [same]
      exact UartToUsb.Rests.refl tracks.armed
    refine
      ⟨phase, later,
        (tracks.rests _ rests (fun isCopy => ?_) ⟨rfl, .inr rfl⟩).1⟩
    rw [same] at isCopy ⊢
    exact tracks.counted isCopy
  have performs := @Chip.performs_main active _ tracks.running goesOn
  by_cases due : line.chip.toUartToUsb.Due line.chip.stage phase
  · obtain ⟨phase', later', _, _, keeps, _⟩ :=
      tracks.performs_of_due spared performs due
    exact ⟨phase', later', keeps⟩
  · exact ⟨phase, later, (tracks.performs_of_not_due performs due).1⟩

theorem Chip.step_uart1 (chip : Chip) (byte : UInt8) :
    chip.step active (.uart1 byte) =
      { chip with
        uartRxBuf := chip.uartRxBuf.push byte
        ctsStopped :=
          if (chip.uartRxBuf.push byte).count ≥ 133 then true
          else chip.ctsStopped } :=
  congrArg (fun usb => { chip with toUartToUsb := usb })
    (UartToUsb.uart1Isr_eq chip.toUartToUsb byte)

/-- A byte that may come arrives, or none does. -/
theorem Line.step_receive (line : Line) :
    line.step active .receive = line ∨
      ∃ byte,
        line.toSend = byte :: line.toSend.tail ∧
          (line.chip.ctsStopped = true → line.late < 2) ∧
          line.step active .receive =
            { chip := line.chip.step active (.uart1 byte)
              late := if line.chip.ctsStopped then line.late + 1 else 0
              toSend := line.toSend.tail } := by
  rw [step]
  cases next : line.toSend with
  | nil => exact .inl rfl
  | cons byte toSend =>
      dsimp only
      by_cases stopped : line.chip.ctsStopped = true ∧ 2 ≤ line.late
      · rw [if_pos stopped]
        exact .inl rfl
      · rw [if_neg stopped]
        exact
          .inr ⟨byte, rfl,
            fun is => Nat.not_le.mp fun many => stopped ⟨is, many⟩, rfl⟩

/-- A byte that arrives is still to be read. -/
theorem Line.unread_receive
    {byte : UInt8}
    (next : line.toSend = byte :: line.toSend.tail)
    (room : line.chip.uartRxBuf.count + 1 < uartRxBufSize) :
    (line.chip.uartRxBuf.push byte).contents ++ line.toSend.tail =
      line.unread := by
  rw [Ring.contents_push _ room, Line.unread, List.append_assoc]
  exact congrArg _ next.symm

/-- A byte arrives. -/
theorem Line.Tracks.receive (tracks : line.Tracks active phase later) :
    line.Keeps active phase later (line.step active .receive) phase
      later := by
  obtain same | ⟨byte, next, mayArrive, received⟩ :=
    @Line.step_receive active line
  · rw [same]
    exact ⟨tracks, ⟨[], rfl⟩, fun _ => rfl, Nat.le_refl _⟩
  have flows := tracks.flows
  have room := UartToUsb.room_of_gauge flows.level mayArrive
  have count := Ring.count_push _ room byte
  have unread' := Line.unread_receive next room
  rw [received]
  refine
    ⟨{ position := ?_
       unread := ?_
       fits := tracks.fits
       armed := ?_
       counted := fun isCopy => ?_
       running := ?_
       flows := ⟨?_, fun stopped => ?_⟩ },
      ⟨[], rfl⟩, fun ep => ?_, ?_⟩
  · rw [Chip.step_uart1]
    exact tracks.position
  · rw [Line.unread, Chip.step_uart1]
    exact unread'.trans tracks.unread
  · rw [Chip.step_uart1]
    exact tracks.armed
  · rw [Chip.step_uart1] at isCopy ⊢
    exact
      Nat.le_trans (tracks.counted isCopy)
        (Nat.le_of_lt (Nat.lt_of_lt_of_eq (Nat.lt_succ_self _) count.symm))
  · rw [Chip.step_uart1]
    exact tracks.running
  · refine Nat.le_trans (Nat.le_of_eq ?_)
      (Nat.le_trans
        (StopSignal.Gauge.level_arrive_le
          (UartToUsb.mayArrive_gauge mayArrive)) flows.level)
    exact congrArg _ (UartToUsb.gauge_uart1Isr room byte)
  · rw [Chip.step_uart1] at stopped ⊢
    simp only [count] at stopped ⊢
    by_cases full : line.chip.uartRxBuf.count + 1 ≥ 133
    · exact Phase.supplied_of_full full phase
    · rw [if_neg full] at stopped
      exact (flows.supplied stopped).mono (Nat.le_succ _)
  · rw [Line.total, Line.total, Chip.step_uart1]
  · rw [Line.work, Line.work, Line.unread, Chip.step_uart1]
    simp only [unread']
    exact Nat.le_refl _

/-- The host collects a packet that it has been given. -/
theorem UartToUsb.given_inToken
    {usb : UartToUsb}
    (armed : ∀ ep, (usb.ins ep).uploadBusy = (usb.ins ep).acks)
    (ep other : Endpoint) :
    ((usb.inToken ep).ins other).given = (usb.ins other).given ∧
      ((usb.inToken ep).ins other).uploadBusy =
        ((usb.inToken ep).ins other).acks := by
  rw [inToken]
  by_cases acks : (usb.ins ep).acks = true
  · have busy : (usb.ins ep).uploadBusy = true := (armed ep).trans acks
    rw [if_pos acks]
    by_cases isEp : other = ep
    · simp only [isEp, Function.update_self, and_true]
      rw [InEndpoint.given, InEndpoint.given, if_pos busy]
      exact congrArg (List.filter _) (List.append_nil _)
    · simp only [Function.update_of_ne isEp, true_and]
      exact armed other
  · rw [if_neg acks]
    exact ⟨rfl, armed other⟩

theorem UartToUsb.inToken_eq (usb : UartToUsb) (ep : Endpoint) :
    usb.inToken ep = { usb with ins := (usb.inToken ep).ins } := by
  rw [inToken]
  split <;> rfl

/-- The host collects a packet. -/
theorem Line.Tracks.inToken
    (tracks : line.Tracks active phase later)
    (ep : Endpoint) :
    line.Keeps active phase later (line.step active (.inToken ep)) phase
      later := by
  have given := UartToUsb.given_inToken tracks.armed ep
  rw [step, Chip.step, UartToUsb.inToken_eq]
  refine
    ⟨{ tracks with
        armed := fun other => (given other).2
        flows := ⟨tracks.flows.level, tracks.flows.supplied⟩ },
      ⟨[], rfl⟩, fun other => ?_, Nat.le_refl _⟩
  rw [Line.total, Line.total]
  exact congrArg (· ++ _) (given other).1

/-- One event. -/
theorem Line.Tracks.step
    (tracks : line.Tracks active phase later)
    (event : LineEvent)
    (spared :
      ¬ (event = .main ∧
        (line.chip.Commands ∨ line.chip.Overcommits))) :
    ∃ phase' later',
      line.Keeps active phase later (line.step active event) phase'
        later' := by
  cases event with
  | receive => exact ⟨phase, later, tracks.receive⟩
  | main => exact tracks.main fun is => spared ⟨rfl, is⟩
  | inToken ep => exact ⟨phase, later, tracks.inToken ep⟩
  | outToken ep togOk packet =>
      have rests :
          line.chip.toUartToUsb.Rests
            (line.chip.step active
              (.outToken ep togOk packet)).toUartToUsb :=
        UartToUsb.Rests.refl tracks.armed
      exact
        ⟨phase, later,
          (tracks.rests (line.step active (.outToken ep togOk packet)) rests
            tracks.counted ⟨rfl, .inl rfl⟩).1⟩
  | setConfiguration usbConfig =>
      have rests :
          line.chip.toUartToUsb.Rests
            (line.chip.step active
              (.setConfiguration usbConfig)).toUartToUsb :=
        UartToUsb.Rests.refl tracks.armed
      exact
        ⟨phase, later,
          (tracks.rests (line.step active (.setConfiguration usbConfig)) rests
            tracks.counted ⟨rfl, .inl rfl⟩).1⟩

/-- A run. -/
theorem Line.Tracks.run
    (tracks : line.Tracks active phase later)
    (events : List LineEvent)
    (spared : line.Spared active events) :
    ∃ phase' later',
      line.Keeps active phase later (line.run active events) phase'
        later' := by
  induction events generalizing line phase later with
  | nil =>
      exact ⟨phase, later, tracks, ⟨[], rfl⟩, fun _ => rfl, Nat.le_refl _⟩
  | cons event events inductionHypothesis =>
      obtain ⟨phase', later', first⟩ := tracks.step event spared.1
      obtain ⟨phase'', later'', second⟩ :=
        inductionHypothesis first.tracks spared.2
      obtain ⟨frames, isLater⟩ := first.handled
      obtain ⟨frames', isLater'⟩ := second.handled
      refine
        ⟨phase'', later'', second.tracks, ⟨frames ++ frames', ?_⟩, ?_, ?_⟩
      · rw [isLater, isLater', List.append_assoc]
      · intro ep
        exact (second.total ep).trans (first.total ep)
      · exact Nat.le_trans second.work first.work

/-- Two parts of a run. -/
theorem Line.Avoids.split
    {bad : Chip → Prop}
    {before after : List LineEvent}
    (avoids : line.Avoids active bad (before ++ after)) :
    line.Avoids active bad before ∧
      (line.run active before).Avoids active bad after := by
  induction before generalizing line with
  | nil => exact ⟨trivial, avoids⟩
  | cons event before inductionHypothesis =>
      obtain ⟨first, second⟩ := inductionHypothesis avoids.2
      exact ⟨⟨avoids.1, first⟩, second⟩

end Steps

end Tracks

section Progress

variable {active : UInt8} {line : Line} {phase : Phase} {later : List Packet}

/-- What comes next does not depend on anything else. -/
def Line.Ready (line : Line) : Phase → Prop
  | .between => 2 ≤ line.chip.uartRxBuf.count
  | .taking _ rest =>
      min maxFrameSize rest.length ≤ line.chip.uartRxBuf.count
  | .staged sink _ _ =>
      ∀ ep, sink.endpoint = some ep →
        (line.chip.ins ep).uploadBusy = false

/-- The number of stages until something is done. -/
def Line.lag (line : Line) : Phase → Nat
  | .between => line.chip.stage.stepsTo .header + 1
  | .taking _ rest =>
      if line.chip.stage = .copy ∧
          min maxFrameSize rest.length ≤ line.chip.uartRxBufByteCount then
        1
      else
        line.chip.stage.stepsTo .header + 2
  | .staged sink _ _ => line.chip.stage.stepsTo sink.stage + 1

theorem Line.lag_bounds (line : Line) (phase : Phase) :
    0 < line.lag phase ∧ line.lag phase ≤ 14 := by
  cases phase with
  | between =>
      have near := line.chip.stage.stepsTo_lt .header
      exact ⟨Nat.succ_pos _, Nat.le_succ_of_le near⟩
  | staged sink chunk rest =>
      have near := line.chip.stage.stepsTo_lt sink.stage
      exact ⟨Nat.succ_pos _, Nat.le_succ_of_le near⟩
  | taking sink rest =>
      have near := line.chip.stage.stepsTo_lt .header
      rw [lag]
      split <;> omega

/-- The loop does not wait for anything. -/
theorem Line.Tracks.ready
    (tracks : line.Tracks active phase later)
    (arrived : ¬ line.chip.Starves)
    (free : ¬ line.chip.Blocks) :
    line.Ready phase := by
  have position := tracks.position
  cases phase with
  | between =>
      rw [Chip.Starves, if_pos position.notStarted] at arrived
      exact Nat.not_lt.mp arrived
  | taking sink rest =>
      have started : ¬ line.chip.frameStarted = false := by
        rw [position.started]
        exact Bool.noConfusion
      have holds :=
        (FrameState.holdsNothing_iff _).mpr position.empty
      rw [Chip.Starves, if_neg started, position.remaining] at arrived
      exact Nat.not_lt.mp fun missing => arrived ⟨holds, missing⟩
  | staged sink chunk rest =>
      intro ep isEndpoint
      refine Bool.eq_false_of_not_eq_true fun busy => free ?_
      exact ⟨sink, ep, position.available_self, isEndpoint, busy⟩

/-- The FPGA may send when the loop waits for bytes. -/
theorem Line.Tracks.supplied
    (tracks : line.Tracks active phase later)
    (starves : line.chip.Starves) :
    line.chip.ctsStopped = false := by
  refine Bool.eq_false_of_not_eq_true fun stopped => ?_
  have supplied := tracks.flows.supplied stopped
  have position := tracks.position
  rw [Chip.Starves] at starves
  cases phase with
  | between =>
      have full : 133 ≤ line.chip.uartRxBuf.count := supplied
      rw [if_pos position.notStarted] at starves
      omega
  | taking sink rest =>
      have started : ¬ line.chip.frameStarted = false := by
        rw [position.started]
        exact Bool.noConfusion
      have there :
          min maxFrameSize rest.length ≤ line.chip.uartRxBuf.count :=
        supplied
      rw [if_neg started, position.remaining] at starves
      exact absurd starves.2 (Nat.not_lt.mpr there)
  | staged sink chunk rest =>
      have started : ¬ line.chip.frameStarted = false := by
        rw [position.started]
        exact Bool.noConfusion
      rw [if_neg started, FrameState.holdsNothing_iff] at starves
      have available := position.available_self
      rw [starves.1 sink] at available
      exact Bool.noConfusion available

/-- While a frame is handled only the bytes are counted. -/
theorem UartToUsb.takeHeader_of_started
    {usb : UartToUsb}
    (started : usb.frameStarted = true) :
    usb.takeHeader active =
      { usb with uartRxBufByteCount := usb.uartRxBuf.count } :=
  if_neg fun header => header.2 started

/-- Every stage takes the loop nearer to what it does next. -/
theorem Line.Tracks.main_nearer
    (tracks : line.Tracks active phase later)
    (ready : line.Ready phase)
    (spared : ¬ (line.chip.Commands ∨ line.chip.Overcommits))
    (goesOn : line.chip.GoesOn) :
    (line.step active .main).work < line.work ∨
      line.Keeps active phase later (line.step active .main) phase later ∧
        (line.step active .main).Ready phase ∧
        (line.step active .main).lag phase + 1 = line.lag phase := by
  have performs := @Chip.performs_main active _ tracks.running goesOn
  by_cases due : line.chip.toUartToUsb.Due line.chip.stage phase
  · obtain ⟨_, _, _, _, _, less⟩ :=
      tracks.performs_of_due spared performs due
    exact .inl less
  obtain ⟨keeps, less | ins⟩ := tracks.performs_of_not_due performs due
  · exact .inl less
  have rests :=
    @UartToUsb.perform_rests active _ _ _ tracks.armed tracks.position due
  have main := @Chip.main_of_goesOn active _ tracks.running goesOn
  have buffer :
      (line.chip.main active).uartRxBuf = line.chip.uartRxBuf := by
    rw [main]
    exact rests.buffer
  have stage :
      (line.chip.main active).stage = line.chip.stage.next := by
    rw [main]
  right
  refine ⟨keeps, ?_⟩
  rw [Line.step, Chip.step]
  cases phase with
  | between =>
      have other : line.chip.stage ≠ .header := fun isHeader =>
        due ⟨isHeader, ready⟩
      rw [Ready, lag, lag, buffer, stage]
      exact ⟨ready, congrArg (· + 1) (Stage.stepsTo_next other)⟩
  | staged sink chunk rest =>
      have other : line.chip.stage ≠ sink.stage := fun isStage =>
        due ⟨isStage, ready⟩
      rw [Ready, lag, lag, ins, stage]
      exact ⟨ready, congrArg (· + 1) (Stage.stepsTo_next other)⟩
  | taking sink rest =>
      have before :
          line.lag (.taking sink rest) =
            line.chip.stage.stepsTo .header + 2 :=
        if_neg due
      rw [Ready, before, lag, buffer, stage]
      refine ⟨ready, ?_⟩
      by_cases isHeader : line.chip.stage = .header
      · -- The header stage counts all bytes that have arrived.
        have counted :
            (line.chip.main active).uartRxBufByteCount =
              line.chip.uartRxBuf.count := by
          have perform :
              line.chip.toUartToUsb.perform active .header =
                { line.chip.toUartToUsb with
                  uartRxBufByteCount := line.chip.uartRxBuf.count } :=
            UartToUsb.takeHeader_of_started tracks.position.started
          rw [main]
          simp only [isHeader, perform]
        rw [if_pos, isHeader]
        · rfl
        · rw [isHeader, counted]
          exact ⟨rfl, ready⟩
      · have notCopy : ¬ line.chip.stage.next = .copy := by
          revert isHeader
          cases line.chip.stage <;>
            first | exact fun _ => Stage.noConfusion | exact fun is => absurd rfl is
        rw [if_neg fun is => notCopy is.1]
        exact congrArg (· + 2) (Stage.stepsTo_next isHeader)

theorem Line.Ready.mono
    {line' : Line}
    (ready : line.Ready phase)
    (arrived : line.chip.uartRxBuf.count ≤ line'.chip.uartRxBuf.count)
    (free :
      ∀ ep, (line.chip.ins ep).uploadBusy = false →
        (line'.chip.ins ep).uploadBusy = false) :
    line'.Ready phase := by
  cases phase with
  | between => exact Nat.le_trans ready arrived
  | taking sink rest => exact Nat.le_trans ready arrived
  | staged sink chunk rest =>
      exact fun ep isEndpoint => free ep (ready ep isEndpoint)

theorem Line.lag_congr
    {line' : Line}
    (stage : line'.chip.stage = line.chip.stage)
    (counted :
      line'.chip.uartRxBufByteCount = line.chip.uartRxBufByteCount) :
    line'.lag phase = line.lag phase := by
  cases phase <;> simp only [lag, stage, counted]

/-- Other events only let more bytes arrive or make endpoints free. -/
theorem Line.Tracks.other_nearer
    (tracks : line.Tracks active phase later)
    (ready : line.Ready phase)
    {event : LineEvent}
    (other : event ≠ .main) :
    line.Keeps active phase later (line.step active event) phase later ∧
      (line.step active event).Ready phase ∧
      (line.step active event).lag phase = line.lag phase := by
  cases event with
  | main => exact absurd rfl other
  | receive =>
      refine ⟨tracks.receive, ?_⟩
      obtain same | ⟨byte, -, mayArrive, received⟩ :=
        @Line.step_receive active line
      · rw [same]
        exact ⟨ready, rfl⟩
      · have room := UartToUsb.room_of_gauge tracks.flows.level mayArrive
        have count := Ring.count_push _ room byte
        rw [received, Chip.step_uart1]
        exact ⟨ready.mono (Nat.le.intro count.symm) fun _ free => free, rfl⟩
  | inToken ep =>
      refine
        ⟨tracks.inToken ep, ready.mono (Nat.le_of_eq ?_) ?_,
          lag_congr rfl ?_⟩
      · rw [Line.step, Chip.step, UartToUsb.inToken_eq]
      · intro ep' free
        rw [Line.step, Chip.step, UartToUsb.inToken]
        by_cases acks : (line.chip.ins ep).acks = true
        · rw [if_pos acks]
          by_cases isEp : ep' = ep
          · simp only [isEp, Function.update_self]
          · simp only [Function.update_of_ne isEp]
            exact free
        · rw [if_neg acks]
          exact free
      · rw [Line.step, Chip.step, UartToUsb.inToken_eq]
  | outToken ep togOk packet =>
      have rests :
          line.chip.toUartToUsb.Rests
            (line.chip.step active
              (.outToken ep togOk packet)).toUartToUsb :=
        UartToUsb.Rests.refl tracks.armed
      exact
        ⟨(tracks.rests (line.step active (.outToken ep togOk packet)) rests
            tracks.counted ⟨rfl, .inl rfl⟩).1,
          ready.mono (Nat.le_refl _) fun _ free => free, lag_congr rfl rfl⟩
  | setConfiguration usbConfig =>
      have rests :
          line.chip.toUartToUsb.Rests
            (line.chip.step active
              (.setConfiguration usbConfig)).toUartToUsb :=
        UartToUsb.Rests.refl tracks.armed
      exact
        ⟨(tracks.rests (line.step active (.setConfiguration usbConfig)) rests
            tracks.counted ⟨rfl, .inl rfl⟩).1,
          ready.mono (Nat.le_refl _) fun _ free => free, lag_congr rfl rfl⟩

/-- What is next is done within an iteration of the loop and a stage. -/
theorem Line.Tracks.work_lt
    (tracks : line.Tracks active phase later)
    (ready : line.Ready phase)
    {events : List LineEvent}
    (spared : line.Spared active events)
    (configured :
      ∀ before, before <+: events →
        (line.run active before).chip.usbConfig ≠ 0)
    (enough : line.lag phase ≤ loopSteps events) :
    (line.run active events).work < line.work := by
  induction events generalizing line with
  | nil =>
      exact
        absurd enough (Nat.not_le.mpr (line.lag_bounds phase).1)
  | cons event events inductionHypothesis =>
      have configured' (before) (isBefore : before <+: events) :
          ((line.step active event).run active before).chip.usbConfig ≠ 0 :=
        configured (event :: before)
          (List.cons_prefix_cons.mpr ⟨rfl, isBefore⟩)
      by_cases isMain : event = .main
      · subst isMain
        have goesOn : line.chip.GoesOn := fun waits =>
          configured [] List.nil_prefix waits.2
        have steps : loopSteps (.main :: events) = loopSteps events + 1 :=
          List.countP_cons_of_pos rfl
        rcases tracks.main_nearer ready (fun is => spared.1 ⟨rfl, is⟩)
            goesOn with less | ⟨keeps, ready', nearer⟩
        · obtain ⟨_, _, first⟩ := tracks.step .main spared.1
          obtain ⟨_, _, rest⟩ := first.tracks.run events spared.2
          exact Nat.lt_of_le_of_lt rest.work less
        · refine
            Nat.lt_of_lt_of_le
              (inductionHypothesis keeps.tracks ready' spared.2 configured'
                ?_)
              keeps.work
          omega
      · obtain ⟨keeps, ready', same⟩ := tracks.other_nearer ready isMain
        have steps : loopSteps (event :: events) = loopSteps events := by
          refine List.countP_cons_of_neg ?_
          cases event <;>
            first | exact absurd rfl isMain | exact Bool.noConfusion
        refine
          Nat.lt_of_lt_of_le
            (inductionHypothesis keeps.tracks ready' spared.2 configured' ?_)
            keeps.work
        rw [same]
        omega

end Progress

section Forwarding

variable {active : UInt8}

/-- Before anything has happened all frames are to come. -/
theorem Line.tracks_start
    (resetKeep : UInt8)
    {frames : List Packet}
    (fits : ∀ frame, frame ∈ frames → Fits active frame) :
    (Line.start resetKeep frames).Tracks active .between frames where
  position := ⟨rfl, rfl, fun _ => rfl⟩
  unread := rfl
  fits := fits
  armed := fun _ => rfl
  counted := nofun
  running := rfl
  flows := ⟨show 135 ≤ 139 by decide, nofun⟩

/-- What the phases mean for the frames. -/
theorem Line.Tracks.forwards
    {line : Line}
    {phase : Phase}
    {given : Endpoint → List (List UInt8)}
    {frames handled later : List Packet}
    (tracks : line.Tracks active phase later)
    (split : frames = handled ++ later)
    (total :
      ∀ ep,
        line.total active phase later ep =
          given ep ++ expected active ep frames) :
    line.Forwards active given frames := by
  have between (isBetween : phase = .between) :
      line.unread = wire later ∧
        ∀ ep,
          (line.chip.ins ep).given =
            given ep ++ expected active ep handled := by
    subst isBetween
    refine ⟨tracks.unread, fun ep => ?_⟩
    have both := total ep
    rw [split, expected_append, ← List.append_assoc] at both
    exact List.append_cancel_right both
  refine
    { running := tracks.running
      room := Nat.lt_succ_of_le tracks.flows.level
      inOrder := fun ep => ⟨_, total ep⟩
      ready := ?_
      supplied := tracks.supplied
      finished := ?_ }
  · intro notStarted
    have position := tracks.position
    have isBetween : phase = .between := by
      cases phase with
      | between => rfl
      | taking sink rest =>
          rw [position.started] at notStarted
          exact Bool.noConfusion notStarted
      | staged sink chunk rest =>
          rw [position.started] at notStarted
          exact Bool.noConfusion notStarted
    exact ⟨handled, later, split, between isBetween⟩
  · intro done
    rw [Line.work, FrameState.weight_eq tracks.position] at done
    have nothing : line.unread = [] :=
      List.length_eq_zero_iff.mp (by omega)
    have isBetween : phase = .between := by
      cases phase with
      | between => rfl
      | taking sink rest =>
          rw [Phase.weight] at done
          omega
      | staged sink chunk rest =>
          rw [Phase.weight] at done
          split at done <;> omega
    obtain ⟨unread, given⟩ := between isBetween
    have none : later = [] := by
      have short := length_le_length_wire later
      rw [← unread, nothing] at short
      exact List.length_eq_zero_iff.mp (Nat.le_zero.mp short)
    rw [split, none, List.append_nil]
    exact ⟨nothing, given⟩

/-- From every state in which the frames to come are known, they are served. -/
theorem Line.Tracks.serves
    {line : Line}
    {phase : Phase}
    {given : Endpoint → List (List UInt8)}
    {frames : List Packet}
    (tracks : line.Tracks active phase frames)
    (total :
      ∀ ep,
        line.total active phase frames ep =
          given ep ++ expected active ep frames) :
    line.Serves active given frames := by
  intro before after spared
  obtain ⟨sparedBefore, sparedAfter⟩ := spared.split
  obtain ⟨phase', later, keeps⟩ := tracks.run before sparedBefore
  obtain ⟨handled, split⟩ := keeps.handled
  obtain ⟨_, _, rest⟩ := keeps.tracks.run after sparedAfter
  have total' (ep : Endpoint) :=
    (keeps.total ep).trans (total ep)
  refine ⟨keeps.tracks.forwards split total', rest.work, ?_⟩
  intro arrived free configured enough
  exact
    keeps.tracks.work_lt (keeps.tracks.ready arrived free) sparedAfter
      configured (Nat.le_trans (Line.lag_bounds _ phase').2 enough)

/--
The frames of the FPGA are served, from the start of the controller until one of
them resets it, if the loop can handle all of them.
-/
theorem uart_to_usb
    (active resetKeep : UInt8)
    (frames : List Packet)
    (fits : ∀ frame, frame ∈ frames → Fits active frame) :
    (Line.start resetKeep frames).Serves active (fun _ => []) frames :=
  (Line.tracks_start resetKeep fits).serves fun _ => rfl

/-- A frame of two bytes for CDC. -/
def cdcFrame : Packet where
  mode := ioCdc
  payload := [1, 2]
  short := by decide

theorem uart_to_usb_sample :
    let line :=
      (Line.start 0 [cdcFrame]).run (activeEndpoints 0)
        [.setConfiguration 1, .receive, .receive]
    (line.run (activeEndpoints 0) (List.replicate 14 .main)).work <
      line.work := by
  have fits (frame) (member : frame ∈ [cdcFrame]) :
      Fits (activeEndpoints 0) frame := by
    rw [List.mem_singleton.mp member]
    exact ⟨by decide, by decide, by decide⟩
  refine
    (uart_to_usb (activeEndpoints 0) 0 [cdcFrame] fits
      [.setConfiguration 1, .receive, .receive]
      (List.replicate 14 .main) (by decide)).2.2 ?_ ?_ ?_ (by decide)
  · unfold Chip.Starves
    decide
  · rintro ⟨sink, ep, available, _⟩
    revert available
    cases sink <;> decide
  · intro during isDuring
    have configured :
        ∀ count, count < 15 →
          (((Line.start 0 [cdcFrame]).run (activeEndpoints 0)
            [.setConfiguration 1, .receive, .receive]).run
              (activeEndpoints 0)
              (List.replicate count .main)).chip.usbConfig ≠ 0 := by
      decide
    obtain ⟨short, all⟩ := List.prefix_replicate_iff.mp isDuring
    rw [all]
    exact configured _ (Nat.lt_succ_of_le short)

/--
No stage copies bytes of the frame: less than a report is left of a FIDO frame,
or the mode has been lost.
-/
structure UartToUsb.Stalls (usb : UartToUsb) : Prop where
  started : usb.frameStarted = true
  keeps : usb.frameDiscard = false
  empty : ∀ sink, usb.dataAvailable sink = false
  stuck :
    usb.frameMode = ioFido ∧ usb.frameRemainingBytes < maxFrameSize ∨
      usb.frameMode = ioNone
  noZeroLen : usb.cdcSendZeroLenPacket = false

theorem UartToUsb.Stalls.perform_copy
    {usb : UartToUsb}
    (stalls : usb.Stalls) :
    usb.perform active .copy = usb := by
  have keeps : ¬ usb.frameDiscard = true := by
    rw [stalls.keeps]
    exact Bool.false_ne_true
  rcases stalls.stuck with ⟨isFido, tail⟩ | lost
  · have copies : usb.Copies .fido := by
      refine ⟨stalls.started, keeps, ?_, isFido⟩
      rw [stalls.empty]
      exact Bool.false_ne_true
    have nothing :
        usb.chunkLength (decide (Sink.fido ≠ .fido)) = none := by
      rw [chunkLength, if_neg fun is => absurd is.1 (Nat.not_le.mpr tail)]
      rfl
    rw [perform_copy_of_mode (by decide) copies, nothing]
  · refine perform_copy_of_none ?_ fun is => keeps is.2.1
    intro sink isSink copies
    have none : Sink.discard.mode = usb.frameMode := lost.symm
    exact isSink (Sink.mode_injective (copies.2.2.2.symm.trans none.symm))

/-- No stage does anything then. -/
theorem UartToUsb.Stalls.perform
    {usb : UartToUsb}
    (stalls : usb.Stalls)
    (stage : Stage) :
    usb.perform active stage = usb ∨
      usb.perform active stage =
        { usb with uartRxBufByteCount := usb.uartRxBuf.count } := by
  cases stage with
  | top => exact .inl rfl
  | ep2 => exact .inl rfl
  | ep3 => exact .inl rfl
  | ep4 => exact .inl rfl
  | header => exact .inr (takeHeader_of_started stalls.started)
  | copy => exact .inl stalls.perform_copy
  | zeroLenPacket =>
      refine .inl (if_neg fun is => ?_)
      rw [stalls.noZeroLen] at is
      exact Bool.noConfusion is.1
  | cdc => exact .inl (perform_of_unavailable (stalls.empty .cdc))
  | fido => exact .inl (perform_of_unavailable (stalls.empty .fido))
  | ccid => exact .inl (perform_of_unavailable (stalls.empty .ccid))
  | debug => exact .inl (perform_of_unavailable (stalls.empty .debug))
  | ch552 => exact .inl (perform_of_unavailable (stalls.empty .ch552))
  | discard => exact .inl (perform_of_unavailable (stalls.empty .discard))

/-- The loop does nothing for a stalled frame. -/
theorem Line.run_of_stalls
    {line : Line}
    (stalls : line.chip.toUartToUsb.Stalls)
    (count : Nat) :
    (line.run active (List.replicate count .main)).work = line.work ∧
      (line.run active (List.replicate count .main)).chip.ins =
        line.chip.ins := by
  induction count generalizing line with
  | zero => exact ⟨rfl, rfl⟩
  | succ count inductionHypothesis =>
      have same :
          (line.chip.main active).toUartToUsb = line.chip.toUartToUsb ∨
            (line.chip.main active).toUartToUsb =
              { line.chip.toUartToUsb with
                uartRxBufByteCount := line.chip.uartRxBuf.count } := by
        rw [Chip.main]
        split
        · exact .inl rfl
        split
        · exact .inl rfl
        · exact stalls.perform _
      have next :
          (line.chip.main active).toUartToUsb.Stalls ∧
            (line.step active .main).work = line.work ∧
            (line.chip.main active).ins = line.chip.ins := by
        rw [Line.work, Line.work, Line.unread, Line.unread]
        rcases same with same | same <;> rw [Line.step, Chip.step, same]
        · exact ⟨stalls, rfl, rfl⟩
        · exact
            ⟨⟨stalls.started, stalls.keeps, stalls.empty, stalls.stuck,
              stalls.noZeroLen⟩, rfl, rfl⟩
      obtain ⟨work, ins⟩ :=
        @inductionHypothesis (line.step active .main) next.1
      exact ⟨work.trans next.2.1, ins.trans next.2.2⟩

/-- A frame of one byte for FIDO. -/
def shortFrame : Packet where
  mode := ioFido
  payload := [0xAA]
  short := by decide

/-- The frame arrives and its header is taken. -/
def shortEvents : List LineEvent :=
  [.setConfiguration 1, .receive, .receive, .receive, .main, .main, .main,
    .main, .main]

/--
When all of the frame is in the buffer and no endpoint is busy, the loop never
does anything again.
-/
theorem uart_to_usb_counterexample :
    let line :=
      (Line.start ioFido [shortFrame]).run (activeEndpoints ioFido)
        shortEvents
    line.toSend = [] ∧
      ¬ line.chip.Starves ∧
      ¬ line.chip.Blocks ∧
      ∀ count,
        ¬ (line.run (activeEndpoints ioFido)
          (List.replicate count .main)).work < line.work := by
  intro line
  have stalls : line.chip.toUartToUsb.Stalls :=
    { started := by rfl
      keeps := by rfl
      empty := fun sink => by cases sink <;> rfl
      stuck := .inl (by decide)
      noZeroLen := by rfl }
  refine ⟨by rfl, ?_, ?_, ?_⟩
  · unfold Chip.Starves
    decide
  · rintro ⟨sink, ep, available, _⟩
    rw [stalls.empty] at available
    exact Bool.noConfusion available
  · intro count
    rw [(Line.run_of_stalls stalls count).1]
    exact Nat.lt_irrefl _

end Forwarding

end TKey.Ch552
