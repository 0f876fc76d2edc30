import TKey.UartToUsb

namespace TKey.Ch552

open ByteMemory RingBuffer

/-!
# Receive interrupts

`Uart1_ISR` can come between any two accesses of the loop to the ring and to the
CTS signal.  The stages that take bytes are taken apart into their accesses, so
that interrupts come between these as well.
-/

section Accesses

namespace UartToUsb

variable (usb : UartToUsb)

/-- `uart_byte_count`. -/
def countBytes : UartToUsb :=
  { usb with uartRxBufByteCount := usb.uartRxBuf.count }

/-- Extract frame mode. -/
def extractMode : UartToUsb :=
  { usb with frameMode := usb.uartRxBuf.cells usb.uartRxBuf.output }

/-- Extract frame length. -/
def extractLength : UartToUsb :=
  let frameLength :=
    usb.uartRxBuf.cells
      (Ring.increment uartRxBufSize usb.uartRxBuf.output 1)
  { usb with
    frameLength := frameLength
    frameRemainingBytes := frameLength.toNat }

/-- Take bytes out of the buffer. -/
def moveOutputPointer (length : Nat) : UartToUsb :=
  { usb with uartRxBuf := usb.uartRxBuf.advance length }

/-- The header has been taken. -/
def startFrame (active : UInt8) : UartToUsb :=
  { usb with
    uartRxBufByteCount := usb.uartRxBufByteCount - 2
    frameStarted := true
    frameDiscard :=
      if usb.frameMode &&& active = 0 then true else usb.frameDiscard }

/-- Invalid frame mode. -/
def refuseMode : UartToUsb :=
  { usb with ctsStopped := true, resetting := true }

/-- Copy a byte from `UartRxBuf` to `FrameBuf`. -/
def copyByte (index : Nat) : UartToUsb :=
  { usb with
    frameBuf :=
      Function.update usb.frameBuf index
        (usb.uartRxBuf.cells
          (Ring.copyIndex uartRxBufSize usb.uartRxBuf.output index)) }

/-- Bytes have been copied. -/
def setFrameBufLength (length : Nat) : UartToUsb :=
  { usb with frameBufLength := length }

/-- Bytes have been taken for a sink. -/
def setDataAvailable (sink : Sink) (length : Nat) : UartToUsb :=
  { usb with
    frameRemainingBytes := usb.frameRemainingBytes - length
    dataAvailable := Function.update usb.dataAvailable sink true }

/-- `cts_start`. -/
def ctsStart : UartToUsb :=
  { usb with ctsStopped := false }

end UartToUsb

/-- Bytes that are taken for a sink, and the sinks that come after it. -/
structure Piece where
  sink : Sink
  length : Nat
  later : List Sink
  deriving DecidableEq

/-- Where the loop is within a stage. -/
inductive Point where
  | entry
  /-- `UartRxBufByteCount` is known. -/
  | counted
  /-- `FrameMode` is known. -/
  | modeKnown
  /-- `FrameLength` is known. -/
  | lengthKnown
  /-- The output pointer is behind the header. -/
  | headerTaken
  /-- The conditions of these sinks are to be tested. -/
  | testing (sinks : List Sink)
  /-- Some bytes of the piece have been copied. -/
  | copying (piece : Piece) (copied : Nat)
  /-- All bytes of the piece have been copied. -/
  | copied (piece : Piece)
  /-- The output pointer is behind the piece. -/
  | pieceTaken (piece : Piece)
  /-- `cts_start` is next. -/
  | starting (piece : Piece)
  deriving DecidableEq

end Accesses

section Definitions

/-- The controller with the bytes on the UART from the FPGA. -/
structure Loop where
  chip : Chip
  point : Point
  /-- The bytes that have arrived since CTS was raised. -/
  late : Nat
  /-- The bytes that the FPGA is going to send. -/
  toSend : List UInt8
  /-- The bytes that `Uart1_ISR` has received. -/
  arrived : List UInt8
  /-- The bytes that the loop has taken out of the ring. -/
  taken : List UInt8

/-- What can happen next. -/
inductive LoopEvent where
  /-- The loop goes on to the next point. -/
  | main
  /-- `Uart1_ISR` receives the next byte. -/
  | receive
  | outToken (ep : Endpoint) (togOk : Bool) (packet : UsbPacket)
  | inToken (ep : Endpoint)
  | setConfiguration (usbConfig : UInt8)
  deriving DecidableEq

namespace Loop

variable (active : UInt8) (loop : Loop)

/-- Go on at a point of the same stage. -/
def goTo (usb : UartToUsb) (point : Point) : Loop :=
  { loop with chip := { loop.chip with toUartToUsb := usb }, point := point }

/-- Go on with the next stage. -/
def leave (usb : UartToUsb) : Loop :=
  { loop with
    chip :=
      { loop.chip with toUartToUsb := usb, stage := loop.chip.stage.next }
    point := .entry }

/-- Bytes have been taken. -/
def took (bytes : List UInt8) : Loop :=
  { loop with taken := loop.taken ++ bytes }

/-- The bytes of a piece, as the loop has read them or skips them. -/
def pieceBytes (piece : Piece) : List UInt8 :=
  if piece.sink = .discard then
    loop.chip.uartRxBuf.copy loop.chip.uartRxBuf.output piece.length
  else
    read loop.chip.frameBuf 0 piece.length

/-- The first access of a stage; only two stages are taken apart. -/
def enter : Loop :=
  if loop.chip.resetting then
    loop
  else
    match loop.chip.stage with
    | .header => loop.goTo loop.chip.toUartToUsb.countBytes .counted
    | .copy =>
        loop.goTo loop.chip.toUartToUsb
          (.testing [.cdc, .fido, .ccid, .debug, .ch552, .discard])
    | _ => { loop with chip := loop.chip.main active }

/-- The next access of the loop. -/
def main : Loop :=
  let usb := loop.chip.toUartToUsb
  match loop.point with
  | .entry => loop.enter active
  | .counted =>
      if usb.uartRxBufByteCount ≥ 2 ∧ ¬ usb.frameStarted then
        loop.goTo usb.extractMode .modeKnown
      else
        loop.leave usb
  | .modeKnown =>
      if usb.frameMode ∈ UartToUsb.frameModes then
        loop.goTo usb.extractLength .lengthKnown
      else
        loop.leave usb.refuseMode
  | .lengthKnown =>
      (loop.goTo (usb.moveOutputPointer 2) .headerTaken).took
        [usb.frameMode, usb.frameLength]
  | .headerTaken => loop.leave (usb.startFrame active)
  | .testing [] => loop.leave usb
  | .testing (sink :: sinks) =>
      match usb.pieceLength sink with
      | none => loop.goTo usb (.testing sinks)
      | some length =>
          let piece := { sink := sink, length := length, later := sinks }
          loop.goTo usb
            (if sink = .discard then .copied piece else .copying piece 0)
  | .copying piece copied =>
      if copied < piece.length then
        loop.goTo (usb.copyByte copied) (.copying piece (copied + 1))
      else
        loop.goTo (usb.setFrameBufLength piece.length) (.copied piece)
  | .copied piece =>
      (loop.goTo (usb.moveOutputPointer piece.length)
        (.pieceTaken piece)).took (loop.pieceBytes piece)
  | .pieceTaken piece =>
      loop.goTo (usb.setDataAvailable piece.sink piece.length)
        (.starting piece)
  | .starting piece => loop.goTo usb.ctsStart (.testing piece.later)

/--
One event.  The FPGA sends at most two more bytes after CTS has been raised,
until it is lowered.
-/
def step : LoopEvent → Loop
  | .main =>
      { loop.main active with
        late := if loop.chip.ctsStopped then loop.late else 0 }
  | .receive =>
      match loop.toSend with
      | [] => loop
      | byte :: toSend =>
          if loop.chip.ctsStopped = true ∧ 2 ≤ loop.late then
            loop
          else
            { loop with
              chip := loop.chip.step active (.uart1 byte)
              late := if loop.chip.ctsStopped then loop.late + 1 else 0
              toSend := toSend
              arrived := loop.arrived ++ [byte] }
  | .outToken ep togOk packet =>
      { loop with chip := loop.chip.step active (.outToken ep togOk packet) }
  | .inToken ep =>
      { loop with chip := loop.chip.step active (.inToken ep) }
  | .setConfiguration usbConfig =>
      { loop with chip := loop.chip.step active (.setConfiguration usbConfig) }

/-- Events one after the other. -/
def run (events : List LoopEvent) : Loop :=
  events.foldl (step active) loop

/-- The FPGA is going to send frames to a controller that has been started. -/
def start (resetKeep : UInt8) (frames : List Packet) : Loop where
  chip := Chip.boot resetKeep
  point := .entry
  late := 0
  toSend := wire frames
  arrived := []
  taken := []

/-- The number of bytes that have arrived and have not been taken. -/
def unread : Nat :=
  loop.arrived.length - loop.taken.length

end Loop

/-- `cts_start` is next. -/
def Point.startsCts : Point → Bool
  | .starting _ => true
  | _ => false

/-- CTS is to be lowered although there may be no room for three more bytes. -/
def Loop.Overcommits (loop : Loop) : Prop :=
  loop.point.startsCts = true ∧ 136 < loop.unread

instance (loop : Loop) : Decidable loop.Overcommits :=
  inferInstanceAs (Decidable (_ ∧ _))

/-- CTS is only lowered while there is room for three more bytes. -/
def Loop.Restrained (active : UInt8) : Loop → List LoopEvent → Prop
  | _, [] => True
  | loop, event :: events =>
      ¬ (event = .main ∧ loop.Overcommits) ∧
        Loop.Restrained active (loop.step active event) events

instance Loop.decidableRestrained (active : UInt8) :
    (loop : Loop) → (events : List LoopEvent) →
      Decidable (loop.Restrained active events)
  | _, [] => .isTrue trivial
  | loop, event :: events =>
      have := Loop.decidableRestrained active (loop.step active event) events
      inferInstanceAs (Decidable (¬ (_ ∧ _) ∧ _))

/-- No byte is lost or reordered. -/
structure Loop.Intact (frames : List Packet) (loop : Loop) : Prop where
  sent : loop.arrived ++ loop.toSend = wire frames
  bounded : loop.unread ≤ 139
  /-- A full ring is never mistaken for an empty one. -/
  counted : loop.chip.uartRxBuf.count = loop.unread
  /-- Bytes are taken as they arrived, and the others are in the ring. -/
  inOrder : loop.taken ++ loop.chip.uartRxBuf.contents = loop.arrived

end Definitions

section Points

/-- A piece for a sink, with no bytes for the sinks after it. -/
structure UartToUsb.Serves
    (usb : UartToUsb)
    (stage : Stage)
    (piece : Piece) : Prop where
  stage : stage = .copy
  distinct : piece.later.Nodup
  others : ∀ sink, sink ∈ piece.later → ¬ usb.Wants sink

/-- What the loop relies on at a point. -/
def UartToUsb.AtPoint (usb : UartToUsb) (stage : Stage) : Point → Prop
  | .entry =>
      stage = .copy → usb.uartRxBufByteCount ≤ usb.uartRxBuf.count
  | .counted => usb.uartRxBufByteCount ≤ usb.uartRxBuf.count
  | .modeKnown =>
      2 ≤ usb.uartRxBufByteCount ∧
        usb.uartRxBufByteCount ≤ usb.uartRxBuf.count ∧
        usb.uartRxBuf.contents.take 1 = [usb.frameMode]
  | .lengthKnown =>
      2 ≤ usb.uartRxBufByteCount ∧
        usb.uartRxBufByteCount ≤ usb.uartRxBuf.count ∧
        usb.uartRxBuf.contents.take 2 = [usb.frameMode, usb.frameLength]
  | .headerTaken => usb.uartRxBufByteCount - 2 ≤ usb.uartRxBuf.count
  | .testing sinks =>
      stage = .copy ∧
        sinks.Nodup ∧
        (usb.uartRxBufByteCount ≤ usb.uartRxBuf.count ∨
          ∀ sink, sink ∈ sinks → ¬ usb.Wants sink)
  | .copying piece copied =>
      usb.Serves stage piece ∧
        piece.length ≤ usb.uartRxBuf.count ∧
        piece.sink ≠ .discard ∧
        copied ≤ piece.length ∧
        read usb.frameBuf 0 copied = usb.uartRxBuf.contents.take copied
  | .copied piece =>
      usb.Serves stage piece ∧
        piece.length ≤ usb.uartRxBuf.count ∧
        (piece.sink ≠ .discard →
          read usb.frameBuf 0 piece.length =
            usb.uartRxBuf.contents.take piece.length)
  | .pieceTaken piece => usb.Serves stage piece
  | .starting piece => usb.Serves stage piece

/-- What the loop does to the ring and to CTS. -/
inductive Loop.Accesses (loop loop' : Loop) : Prop where
  | nothing
      (ring : loop'.chip.uartRxBuf = loop.chip.uartRxBuf)
      (cts : loop'.chip.ctsStopped = loop.chip.ctsStopped)
      (taken : loop'.taken = loop.taken)
  | takes (number : Nat)
      (inside : number ≤ loop.chip.uartRxBuf.count)
      (ring : loop'.chip.uartRxBuf = loop.chip.uartRxBuf.advance number)
      (cts : loop'.chip.ctsStopped = loop.chip.ctsStopped)
      (taken :
        loop'.taken =
          loop.taken ++ loop.chip.uartRxBuf.contents.take number)
  | starts
      (next : loop.point.startsCts = true)
      (ring : loop'.chip.uartRxBuf = loop.chip.uartRxBuf)
      (cts : loop'.chip.ctsStopped = false)
      (taken : loop'.taken = loop.taken)
  | stops
      (ring : loop'.chip.uartRxBuf = loop.chip.uartRxBuf)
      (cts : loop'.chip.ctsStopped = true)
      (taken : loop'.taken = loop.taken)

/-- The loop is where it expects to be. -/
def Loop.Placed (loop : Loop) : Prop :=
  loop.chip.toUartToUsb.AtPoint loop.chip.stage loop.point

end Points

section Main

variable {active : UInt8} {usb : UartToUsb} {loop : Loop}

/-- The mode, and whether the frame is discarded, tell its sink. -/
theorem FrameState.sink_unique
    {frame : FrameState}
    {sink other : Sink}
    (discard : frame.frameDiscard = decide (sink = .discard))
    (mode : sink ≠ .discard → frame.frameMode = sink.mode)
    (discard' : frame.frameDiscard = decide (other = .discard))
    (mode' : other ≠ .discard → frame.frameMode = other.mode) :
    sink = other := by
  have both := decide_eq_decide.mp (discard.symm.trans discard')
  by_cases isDiscard : sink = .discard
  · exact isDiscard.trans (both.mp isDiscard).symm
  · have isOther : other ≠ .discard := fun is => isDiscard (both.mpr is)
    exact Sink.mode_injective ((mode isDiscard).symm.trans (mode' isOther))

/-- Bytes are taken for one sink only. -/
theorem UartToUsb.Wants.unique
    {sink other : Sink}
    (wants : usb.Wants sink)
    (others : usb.Wants other) :
    sink = other := by
  obtain ⟨-, discard, -, mode⟩ := wants
  obtain ⟨-, discard', -, mode'⟩ := others
  exact FrameState.sink_unique discard mode discard' mode'

/-- A piece has been counted, is left of the frame and fits into `FrameBuf`. -/
theorem UartToUsb.bounds_of_pieceLength
    {sink : Sink}
    {length : Nat}
    (takes : usb.pieceLength sink = some length) :
    usb.Wants sink ∧ length ≤ usb.uartRxBufByteCount ∧
      length ≤ usb.frameRemainingBytes ∧ length ≤ maxFrameSize := by
  rw [pieceLength, chunkLength] at takes
  split_ifs at takes with wants whole tail
  · obtain rfl := Option.some.inj takes
    exact ⟨wants, whole.2, whole.1, Nat.le_refl _⟩
  · obtain rfl := Option.some.inj takes
    exact ⟨wants, tail.2.2, Nat.le_refl _, Nat.le_of_lt tail.2.1⟩

/-- The stages that are not taken apart leave the ring alone. -/
theorem UartToUsb.perform_other
    {stage : Stage}
    (notHeader : stage ≠ .header)
    (notCopy : stage ≠ .copy) :
    (usb.perform active stage).uartRxBuf = usb.uartRxBuf ∧
      ((usb.perform active stage).ctsStopped = usb.ctsStopped ∨
        (usb.perform active stage).ctsStopped = true) := by
  cases stage with
  | header => exact absurd rfl notHeader
  | copy => exact absurd rfl notCopy
  | top => exact ⟨rfl, .inl rfl⟩
  | ep2 => exact ⟨rfl, .inl rfl⟩
  | ep3 => exact ⟨rfl, .inl rfl⟩
  | ep4 => exact ⟨rfl, .inl rfl⟩
  | cdc =>
      rw [perform, uploadCdc]
      split
      · rw [endOfFrame_eq]
        refine ⟨?_, .inl ?_⟩ <;> simp only [release] <;> split <;> rfl
      · exact ⟨rfl, .inl rfl⟩
  | zeroLenPacket =>
      rw [perform, sendZeroLenPacket]
      split <;> exact ⟨rfl, .inl rfl⟩
  | fido =>
      rw [perform, uploadFido]
      split <;> exact ⟨rfl, .inl rfl⟩
  | ccid =>
      rw [perform, uploadCcid]
      split <;> exact ⟨rfl, .inl rfl⟩
  | debug =>
      rw [perform, uploadDebug]
      split
      · rw [endOfFrame_eq]
        exact ⟨rfl, .inl rfl⟩
      · exact ⟨rfl, .inl rfl⟩
  | ch552 =>
      rw [perform, handleCh552]
      split
      · split
        · exact ⟨rfl, .inr rfl⟩
        · rw [endOfFrame_eq]
          exact ⟨rfl, .inl rfl⟩
      · exact ⟨rfl, .inl rfl⟩
  | discard =>
      rw [perform, endDiscard]
      split
      · simp only
        split <;> exact ⟨rfl, .inl rfl⟩
      · exact ⟨rfl, .inl rfl⟩

/-- A stage that is not taken apart. -/
theorem Loop.Placed.perform
    (notHeader : loop.chip.stage ≠ .header)
    (notCopy : loop.chip.stage ≠ .copy)
    {chip' : Chip}
    (main : chip' = loop.chip.main active) :
    chip'.stage ≠ .copy ∧
      loop.Accesses { loop with chip := chip' } := by
  rw [Chip.main] at main
  split_ifs at main with resetting waits
  · subst main
    exact ⟨notCopy, .nothing rfl rfl rfl⟩
  · subst main
    exact ⟨notCopy, .nothing rfl rfl rfl⟩
  · obtain ⟨ring, cts⟩ :=
      @UartToUsb.perform_other active loop.chip.toUartToUsb _ notHeader
        notCopy
    subst main
    refine ⟨?_, ?_⟩
    · revert notHeader
      cases loop.chip.stage <;>
        first | exact fun is => absurd rfl is | exact fun _ => Stage.noConfusion
    · rcases cts with same | stopped
      · exact .nothing ring same rfl
      · exact .stops ring stopped rfl

theorem Loop.enter_of_other
    (notHeader : loop.chip.stage ≠ .header)
    (notCopy : loop.chip.stage ≠ .copy) :
    loop.enter active = { loop with chip := loop.chip.main active } := by
  rw [enter]
  split
  case isTrue resetting => rw [Chip.main, if_pos resetting]
  · split
    case h_1 isHeader => exact absurd isHeader notHeader
    case h_2 isCopy => exact absurd isCopy notCopy
    case h_3 => rfl

/-- The first access of a stage. -/
theorem Loop.Placed.enter
    (placed : loop.Placed)
    (isEntry : loop.point = .entry) :
    (loop.enter active).Placed ∧ loop.Accesses (loop.enter active) := by
  rw [Placed, isEntry] at placed
  by_cases resetting : loop.chip.resetting = true
  · rw [Loop.enter, if_pos resetting, Placed, isEntry]
    exact ⟨placed, .nothing rfl rfl rfl⟩
  by_cases isHeader : loop.chip.stage = .header
  · rw [Loop.enter, if_neg resetting, isHeader]
    exact ⟨Nat.le_refl _, .nothing rfl rfl rfl⟩
  by_cases isCopy : loop.chip.stage = .copy
  · rw [Loop.enter, if_neg resetting, isCopy]
    exact ⟨⟨isCopy, by decide, .inl (placed isCopy)⟩, .nothing rfl rfl rfl⟩
  · obtain ⟨notCopy, accesses⟩ :=
      Loop.Placed.perform isHeader isCopy (Eq.refl (loop.chip.main active))
    rw [enter_of_other isHeader isCopy]
    refine ⟨?_, accesses⟩
    rw [Placed, isEntry]
    exact fun is => absurd is notCopy

/-- Accesses of the header stage. -/
theorem Loop.Placed.main_counted
    (placed : loop.Placed)
    (point : loop.point = .counted) :
    (loop.main active).Placed ∧ loop.Accesses (loop.main active) := by
  rw [Placed, point] at placed
  rw [Loop.main, point]
  simp only
  split
  case isTrue arrived =>
    have inside : 1 ≤ loop.chip.uartRxBuf.count :=
      Nat.le_of_succ_le (Nat.le_trans arrived.1 placed)
    have first : Ring.increment uartRxBufSize loop.chip.uartRxBuf.output 0 =
        loop.chip.uartRxBuf.output :=
      Nat.mod_eq_of_lt loop.chip.uartRxBuf.output_lt
    refine ⟨⟨arrived.1, placed, ?_⟩, .nothing rfl rfl rfl⟩
    refine (loop.chip.uartRxBuf.take_contents inside).trans ?_
    exact congrArg (fun cell => [loop.chip.uartRxBuf.cells cell]) first
  case isFalse => exact ⟨fun _ => placed, .nothing rfl rfl rfl⟩

theorem Loop.Placed.main_modeKnown
    (placed : loop.Placed)
    (point : loop.point = .modeKnown) :
    (loop.main active).Placed ∧ loop.Accesses (loop.main active) := by
  rw [Placed, point] at placed
  obtain ⟨arrived, counted, mode⟩ := placed
  rw [Loop.main, point]
  simp only
  split
  · have inside := Nat.le_trans arrived counted
    have first :=
      (loop.chip.uartRxBuf.take_contents (Nat.le_of_succ_le inside)).symm
    rw [mode] at first
    refine ⟨⟨arrived, counted, ?_⟩, .nothing rfl rfl rfl⟩
    refine (loop.chip.uartRxBuf.take_contents inside).trans ?_
    exact congrArg (· ++ _) first
  · exact ⟨fun _ => counted, .stops rfl rfl rfl⟩

theorem Loop.Placed.main_lengthKnown
    (placed : loop.Placed)
    (point : loop.point = .lengthKnown) :
    (loop.main active).Placed ∧ loop.Accesses (loop.main active) := by
  rw [Placed, point] at placed
  obtain ⟨arrived, counted, header⟩ := placed
  have inside := Nat.le_trans arrived counted
  rw [Loop.main, point]
  refine ⟨?_, .takes 2 inside rfl rfl ?_⟩
  · show _ - 2 ≤ (loop.chip.uartRxBuf.advance 2).count
    rw [Ring.count_advance _ inside]
    exact Nat.sub_le_sub_right counted 2
  · exact congrArg _ header.symm

theorem Loop.Placed.main_headerTaken
    (placed : loop.Placed)
    (point : loop.point = .headerTaken) :
    (loop.main active).Placed ∧ loop.Accesses (loop.main active) := by
  rw [Placed, point] at placed
  rw [Loop.main, point]
  exact ⟨fun _ => placed, .nothing rfl rfl rfl⟩

/-- The conditions of a sink are tested. -/
theorem Loop.Placed.main_testing
    (placed : loop.Placed)
    {sinks : List Sink}
    (point : loop.point = .testing sinks) :
    (loop.main active).Placed ∧ loop.Accesses (loop.main active) := by
  rw [Placed, point] at placed
  obtain ⟨isCopy, distinct, counted⟩ := placed
  rw [Loop.main, point]
  cases sinks with
  | nil =>
      refine ⟨fun next => ?_, .nothing rfl rfl rfl⟩
      rw [Loop.leave, isCopy] at next
      cases next
  | cons sink sinks =>
      obtain ⟨other, distinct'⟩ := List.nodup_cons.mp distinct
      simp only
      cases takes : loop.chip.toUartToUsb.pieceLength sink with
      | none =>
          refine ⟨⟨isCopy, distinct', ?_⟩, .nothing rfl rfl rfl⟩
          exact
            counted.imp_right fun none sink' member =>
              none sink' (List.mem_cons_of_mem _ member)
      | some length =>
          obtain ⟨wants, inCount, -⟩ := UartToUsb.bounds_of_pieceLength takes
          have inside :=
            Nat.le_trans inCount
              (counted.resolve_right fun none =>
                none sink List.mem_cons_self wants)
          have serves :
              loop.chip.toUartToUsb.Serves loop.chip.stage
                { sink := sink, length := length, later := sinks } := by
            refine ⟨isCopy, distinct', fun sink' member wants' => ?_⟩
            rw [wants.unique wants'] at other
            exact other member
          simp only
          by_cases isDiscard : sink = .discard
          · rw [if_pos isDiscard]
            exact
              ⟨⟨serves, inside, fun is => absurd isDiscard is⟩,
                .nothing rfl rfl rfl⟩
          · rw [if_neg isDiscard]
            exact
              ⟨⟨serves, inside, isDiscard, Nat.zero_le _, rfl⟩,
                .nothing rfl rfl rfl⟩

/-- Accesses for a piece. -/
theorem Loop.Placed.main_copying
    (placed : loop.Placed)
    {piece : Piece}
    {copied : Nat}
    (point : loop.point = .copying piece copied) :
    (loop.main active).Placed ∧ loop.Accesses (loop.main active) := by
  rw [Placed, point] at placed
  obtain ⟨serves, inside, notDiscard, bounded, same⟩ := placed
  rw [Loop.main, point]
  simp only
  split
  case isTrue more =>
    refine
      ⟨⟨⟨serves.stage, serves.distinct, serves.others⟩, inside, notDiscard,
        more, ?_⟩, .nothing rfl rfl rfl⟩
    have inCount : copied + 1 ≤ loop.chip.uartRxBuf.count :=
      Nat.le_trans more inside
    have before := loop.chip.uartRxBuf.take_contents (Nat.le_of_succ_le inCount)
    have small : copied ≤ uartRxBufSize :=
      Nat.le_of_succ_le (Nat.le_trans inCount (Nat.le_of_lt (Ring.count_lt _)))
    have cell :=
      Ring.copyIndex_eq loop.chip.uartRxBuf.output_lt small
    show read (Function.update loop.chip.frameBuf copied _) 0 (copied + 1) =
      loop.chip.uartRxBuf.contents.take (copied + 1)
    rw [Ring.take_contents _ inCount, List.range_succ, List.map_append,
      ← before, ← same, read_succ, Nat.zero_add, Function.update_self, cell]
    refine congrArg (· ++ _) (read_congr fun index isBefore => ?_)
    exact Function.update_of_ne (by omega) _ _
  case isFalse none =>
    have all : copied = piece.length :=
      Nat.le_antisymm bounded (Nat.not_lt.mp none)
    rw [all] at same
    exact
      ⟨⟨⟨serves.stage, serves.distinct, serves.others⟩, inside,
        fun _ => same⟩, .nothing rfl rfl rfl⟩

theorem Loop.Placed.main_copied
    (placed : loop.Placed)
    {piece : Piece}
    (point : loop.point = .copied piece) :
    (loop.main active).Placed ∧ loop.Accesses (loop.main active) := by
  rw [Placed, point] at placed
  obtain ⟨serves, inside, same⟩ := placed
  have bytes :
      loop.pieceBytes piece =
        loop.chip.uartRxBuf.contents.take piece.length := by
    rw [pieceBytes]
    split
    · exact Ring.copy_output _ inside
    case isFalse notDiscard => exact same notDiscard
  rw [Loop.main, point]
  exact
    ⟨⟨serves.stage, serves.distinct, serves.others⟩,
      .takes piece.length inside rfl rfl (congrArg _ bytes)⟩

theorem Loop.Placed.main_pieceTaken
    (placed : loop.Placed)
    {piece : Piece}
    (point : loop.point = .pieceTaken piece) :
    (loop.main active).Placed ∧ loop.Accesses (loop.main active) := by
  rw [Placed, point] at placed
  rw [Loop.main, point]
  refine
    ⟨⟨placed.stage, placed.distinct, fun sink member wants => ?_⟩,
      .nothing rfl rfl rfl⟩
  refine placed.others sink member ⟨wants.1, wants.2.1, ?_, wants.2.2.2⟩
  have available :
      Function.update loop.chip.dataAvailable piece.sink true sink = false :=
    wants.2.2.1
  by_cases isSink : sink = piece.sink
  · rw [isSink, Function.update_self] at available
    exact Bool.noConfusion available
  · rw [Function.update_of_ne isSink] at available
    exact available

theorem Loop.Placed.main_starting
    (placed : loop.Placed)
    {piece : Piece}
    (point : loop.point = .starting piece) :
    (loop.main active).Placed ∧ loop.Accesses (loop.main active) := by
  rw [Placed, point] at placed
  have next : loop.point.startsCts = true := by
    rw [point]
    rfl
  rw [Loop.main, point]
  exact
    ⟨⟨placed.stage, placed.distinct, .inr placed.others⟩,
      .starts next rfl rfl rfl⟩

/-- The loop is where it expects to be, whatever it does. -/
theorem Loop.Placed.main (placed : loop.Placed) :
    (loop.main active).Placed ∧ loop.Accesses (loop.main active) := by
  cases point : loop.point with
  | entry =>
      have enters : loop.main active = loop.enter active := by
        rw [Loop.main, point]
      rw [enters]
      exact placed.enter point
  | counted => exact placed.main_counted point
  | modeKnown => exact placed.main_modeKnown point
  | lengthKnown => exact placed.main_lengthKnown point
  | headerTaken => exact placed.main_headerTaken point
  | testing sinks => exact placed.main_testing point
  | copying piece copied => exact placed.main_copying point
  | copied piece => exact placed.main_copied point
  | pieceTaken piece => exact placed.main_pieceTaken point
  | starting piece => exact placed.main_starting point

/-- The loop does not send bytes. -/
theorem Loop.main_sender :
    (loop.main active).toSend = loop.toSend ∧
      (loop.main active).arrived = loop.arrived := by
  rw [Loop.main]
  cases loop.point with
  | entry =>
      simp only [enter]
      split
      · exact ⟨rfl, rfl⟩
      · split <;> exact ⟨rfl, rfl⟩
  | counted => simp only; split <;> exact ⟨rfl, rfl⟩
  | modeKnown => simp only; split <;> exact ⟨rfl, rfl⟩
  | lengthKnown => exact ⟨rfl, rfl⟩
  | headerTaken => exact ⟨rfl, rfl⟩
  | testing sinks =>
      cases sinks with
      | nil => exact ⟨rfl, rfl⟩
      | cons sink sinks => simp only; split <;> exact ⟨rfl, rfl⟩
  | copying piece copied => simp only; split <;> exact ⟨rfl, rfl⟩
  | copied piece => exact ⟨rfl, rfl⟩
  | pieceTaken piece => exact ⟨rfl, rfl⟩
  | starting piece => exact ⟨rfl, rfl⟩

end Main

section Runs

variable {active : UInt8} {loop : Loop} {frames : List Packet}

def Loop.gauge (loop : Loop) : StopSignal.Gauge :=
  loop.chip.toUartToUsb.gauge loop.late

/-- The ring holds what has arrived and has not been taken. -/
structure Loop.Tracks (frames : List Packet) (loop : Loop) : Prop where
  sent : loop.arrived ++ loop.toSend = wire frames
  inOrder : loop.taken ++ loop.chip.uartRxBuf.contents = loop.arrived
  level : loop.gauge.level 133 2 ≤ 139
  placed : loop.Placed

/-- The bytes in the ring are those that have not been taken. -/
theorem Loop.count_eq_unread
    (inOrder : loop.taken ++ loop.chip.uartRxBuf.contents = loop.arrived) :
    loop.chip.uartRxBuf.count = loop.unread := by
  rw [unread, ← inOrder, List.length_append, Nat.add_sub_cancel_left,
    Ring.length_contents]

theorem Loop.Tracks.intact (tracks : loop.Tracks frames) :
    loop.Intact frames where
  sent := tracks.sent
  bounded := by
    rw [← count_eq_unread tracks.inOrder]
    exact Nat.le_trans (loop.gauge.count_le_level 133 2) tracks.level
  counted := count_eq_unread tracks.inOrder
  inOrder := tracks.inOrder

theorem Loop.tracks_start (resetKeep : UInt8) :
    (Loop.start resetKeep frames).Tracks frames where
  sent := rfl
  inOrder := rfl
  level := show 135 ≤ 139 by decide
  placed := fun is => Stage.noConfusion is

/-- Only lowering CTS lets more bytes come. -/
theorem Loop.Accesses.level
    (accesses : loop.Accesses (loop.main active))
    (level : loop.gauge.level 133 2 ≤ 139)
    (room :
      loop.point.startsCts = true → loop.chip.uartRxBuf.count ≤ 136) :
    (loop.step active .main).gauge.level 133 2 ≤ 139 := by
  cases accesses with
  | nothing ring cts taken =>
      have gauge : (loop.step active .main).gauge = loop.gauge :=
        (UartToUsb.gauge_congr (congrArg Ring.count ring) cts).trans
          UartToUsb.gauge_late
      rw [gauge]
      exact level
  | takes number inside ring cts taken =>
      have gauge :
          (loop.step active .main).gauge = loop.gauge.take number := by
        rw [gauge, gauge, UartToUsb.gauge, UartToUsb.gauge,
          StopSignal.Gauge.take]
        simp only [Loop.step, ring, cts, Ring.count_advance _ inside]
        cases loop.chip.ctsStopped <;> rfl
      have less :=
        @StopSignal.Gauge.level_take_le 133 2 loop.gauge number inside
      rw [gauge]
      omega
  | starts next ring cts taken =>
      have gauge : (loop.step active .main).gauge = loop.gauge.go := by
        rw [gauge, gauge, UartToUsb.gauge, UartToUsb.gauge,
          StopSignal.Gauge.go]
        simp only [Loop.step, ring, cts, Bool.false_eq_true, if_false]
      rw [gauge]
      exact Nat.max_le.mpr ⟨by decide, Nat.add_le_add_right (room next) 3⟩
  | stops ring cts taken =>
      have gauge : (loop.step active .main).gauge = loop.gauge.halt := by
        rw [gauge, gauge, UartToUsb.gauge, UartToUsb.gauge,
          StopSignal.Gauge.halt]
        simp only [Loop.step, ring, cts, if_true]
        cases loop.chip.ctsStopped <;> rfl
      rw [gauge]
      exact Nat.le_trans StopSignal.Gauge.level_halt_le level

/-- Bytes are taken from the front of the ring. -/
theorem Loop.Accesses.inOrder
    {loop' : Loop}
    (accesses : loop.Accesses loop') :
    loop'.taken ++ loop'.chip.uartRxBuf.contents =
      loop.taken ++ loop.chip.uartRxBuf.contents := by
  cases accesses with
  | nothing ring cts taken => rw [ring, taken]
  | takes number inside ring cts taken =>
      rw [ring, taken, Ring.contents_advance _ inside, List.append_assoc,
        List.take_append_drop]
  | starts next ring cts taken => rw [ring, taken]
  | stops ring cts taken => rw [ring, taken]

/-- The loop goes on. -/
theorem Loop.Tracks.main
    (tracks : loop.Tracks frames)
    (restrained : ¬ loop.Overcommits) :
    (loop.step active .main).Tracks frames := by
  obtain ⟨placed, accesses⟩ := @Loop.Placed.main active _ tracks.placed
  obtain ⟨toSend, arrived⟩ := @Loop.main_sender active loop
  refine ⟨?_, ?_, accesses.level tracks.level fun next => ?_, placed⟩
  · exact (congrArg₂ (· ++ ·) arrived toSend).trans tracks.sent
  · exact (accesses.inOrder.trans tracks.inOrder).trans arrived.symm
  · have few : ¬ 136 < loop.unread := fun many => restrained ⟨next, many⟩
    rw [count_eq_unread tracks.inOrder]
    exact Nat.not_lt.mp few

/-- What the loop relies on is in the frame and in front of other bytes. -/
theorem UartToUsb.AtPoint.mono
    {usb usb' : UartToUsb}
    {stage : Stage}
    {point : Point}
    {behind : List UInt8}
    (atPoint : usb.AtPoint stage point)
    (frame : usb'.toFrameState = usb.toFrameState)
    (byteCount : usb'.uartRxBufByteCount = usb.uartRxBufByteCount)
    (contents : usb'.uartRxBuf.contents = usb.uartRxBuf.contents ++ behind) :
    usb'.AtPoint stage point := by
  have first {length : Nat} (inside : length ≤ usb.uartRxBuf.count) :
      usb'.uartRxBuf.contents.take length =
        usb.uartRxBuf.contents.take length := by
    rw [contents, List.take_append_of_le_length]
    rw [Ring.length_contents]
    exact inside
  have still {number : Nat} (inside : number ≤ usb.uartRxBuf.count) :
      number ≤ usb'.uartRxBuf.count := by
    rw [← Ring.length_contents usb'.uartRxBuf, contents, List.length_append,
      Ring.length_contents]
    exact Nat.le_add_right_of_le inside
  have wants (sink : Sink) : usb'.Wants sink ↔ usb.Wants sink := by
    rw [Wants, Wants, frame]
  have serves {piece : Piece} (served : usb.Serves stage piece) :
      usb'.Serves stage piece :=
    ⟨served.stage, served.distinct, fun sink member is =>
      served.others sink member ((wants sink).mp is)⟩
  cases point with
  | entry =>
      intro isCopy
      rw [byteCount]
      exact still (atPoint isCopy)
  | counted =>
      rw [AtPoint, byteCount]
      exact still atPoint
  | modeKnown =>
      obtain ⟨arrived, counted, mode⟩ := atPoint
      have inside := Nat.le_of_succ_le (Nat.le_trans arrived counted)
      rw [AtPoint, byteCount, frame]
      exact ⟨arrived, still counted, (first inside).trans mode⟩
  | lengthKnown =>
      obtain ⟨arrived, counted, header⟩ := atPoint
      have inside := Nat.le_trans arrived counted
      rw [AtPoint, byteCount, frame]
      exact ⟨arrived, still counted, (first inside).trans header⟩
  | headerTaken =>
      rw [AtPoint, byteCount]
      exact still atPoint
  | testing sinks =>
      obtain ⟨isCopy, distinct, counted⟩ := atPoint
      rw [AtPoint, byteCount]
      refine ⟨isCopy, distinct, counted.imp still fun none sink member => ?_⟩
      exact fun is => none sink member ((wants sink).mp is)
  | copying piece copied =>
      obtain ⟨served, inside, notDiscard, bounded, same⟩ := atPoint
      refine ⟨serves served, still inside, notDiscard, bounded, ?_⟩
      rw [frame]
      exact same.trans (first (Nat.le_trans bounded inside)).symm
  | copied piece =>
      obtain ⟨served, inside, same⟩ := atPoint
      refine ⟨serves served, still inside, fun notDiscard => ?_⟩
      rw [frame]
      exact (same notDiscard).trans (first inside).symm
  | pieceTaken piece => exact serves atPoint
  | starting piece => exact serves atPoint

/-- A byte that may come arrives. -/
theorem Loop.step_receive
    {byte : UInt8}
    {toSend : List UInt8}
    (next : loop.toSend = byte :: toSend)
    (mayArrive : loop.chip.ctsStopped = true → loop.late < 2) :
    loop.step active .receive =
      { loop with
        chip := loop.chip.step active (.uart1 byte)
        late := if loop.chip.ctsStopped then loop.late + 1 else 0
        toSend := toSend
        arrived := loop.arrived ++ [byte] } := by
  rw [step, next]
  exact if_neg fun stopped =>
    Nat.not_le.mpr (mayArrive stopped.1) stopped.2

/-- A byte arrives. -/
theorem Loop.Tracks.receive (tracks : loop.Tracks frames) :
    (loop.step active .receive).Tracks frames := by
  cases next : loop.toSend with
  | nil =>
      rw [step, next]
      exact tracks
  | cons byte toSend =>
      by_cases stopped : loop.chip.ctsStopped = true ∧ 2 ≤ loop.late
      · rw [step, next]
        simp only [if_pos stopped]
        exact tracks
      have mayArrive (isStopped : loop.chip.ctsStopped = true) :
          loop.late < 2 :=
        Nat.not_le.mp fun many => stopped ⟨isStopped, many⟩
      have room := UartToUsb.room_of_gauge tracks.level mayArrive
      have contents := Ring.contents_push _ room byte
      rw [step_receive next mayArrive]
      have placed :
          Loop.Placed
            { loop with chip := loop.chip.step active (.uart1 byte) } := by
        rw [Placed, Chip.step_uart1]
        exact tracks.placed.mono rfl rfl contents
      refine ⟨?_, ?_, ?_, placed⟩
      · rw [← tracks.sent, next, List.append_assoc]
        rfl
      · rw [Chip.step_uart1, ← tracks.inOrder, List.append_assoc]
        exact congrArg _ contents
      · refine Nat.le_trans (Nat.le_of_eq ?_)
          (Nat.le_trans
            (StopSignal.Gauge.level_arrive_le
              (UartToUsb.mayArrive_gauge mayArrive)) tracks.level)
        exact congrArg _ (UartToUsb.gauge_uart1Isr room byte)

/-- One event. -/
theorem Loop.Tracks.step
    (tracks : loop.Tracks frames)
    (event : LoopEvent)
    (restrained : ¬ (event = .main ∧ loop.Overcommits)) :
    (loop.step active event).Tracks frames := by
  cases event with
  | main => exact tracks.main fun is => restrained ⟨rfl, is⟩
  | receive => exact tracks.receive
  | outToken ep togOk packet =>
      exact ⟨tracks.sent, tracks.inOrder, tracks.level, tracks.placed⟩
  | setConfiguration usbConfig =>
      exact ⟨tracks.sent, tracks.inOrder, tracks.level, tracks.placed⟩
  | inToken ep =>
      have same := UartToUsb.inToken_eq loop.chip.toUartToUsb ep
      rw [Loop.step, Chip.step, same]
      exact
        ⟨tracks.sent, tracks.inOrder, tracks.level,
          tracks.placed.mono rfl rfl (List.append_nil _).symm⟩

/-- A run. -/
theorem Loop.Tracks.run
    (tracks : loop.Tracks frames)
    (events : List LoopEvent)
    (restrained : loop.Restrained active events) :
    (loop.run active events).Tracks frames := by
  induction events generalizing loop with
  | nil => exact tracks
  | cons event events inductionHypothesis =>
      exact
        inductionHypothesis (tracks.step event restrained.1) restrained.2

/-- What a byte that arrives does to the numbers of bytes. -/
theorem Loop.receive_lengths
    (more : 0 < loop.toSend.length)
    (mayArrive : loop.chip.ctsStopped = true → loop.late < 2) :
    let next := loop.step active .receive
    next.toSend.length + 1 = loop.toSend.length ∧
      next.arrived.length = loop.arrived.length + 1 ∧
      next.taken = loop.taken ∧
      next.late = if loop.chip.ctsStopped then loop.late + 1 else 0 := by
  obtain ⟨byte, toSend, next⟩ := List.exists_cons_of_length_pos more
  rw [step_receive next mayArrive, next]
  exact ⟨rfl, List.length_append, rfl, rfl⟩

theorem Loop.main_starts
    (next : loop.point.startsCts = true) :
    (loop.main active).chip.ctsStopped = false ∧
      (loop.main active).taken = loop.taken := by
  rw [main]
  cases point : loop.point with
  | starting piece => exact ⟨rfl, rfl⟩
  | _ =>
      rw [point] at next
      cases next

/-- Three bytes can come after CTS has been lowered. -/
theorem Loop.Overcommits.overflows
    (overcommits : loop.Overcommits)
    (more : 3 ≤ loop.toSend.length) :
    139 <
      (loop.run active [.main, .receive, .receive, .receive]).unread := by
  obtain ⟨next, many⟩ := overcommits
  obtain ⟨low, taken⟩ := @main_starts active loop next
  obtain ⟨toSend, arrived⟩ := @Loop.main_sender active loop
  change
    139 <
      ((((loop.step active .main).step active .receive).step active
        .receive).step active .receive).unread
  rw [← toSend] at more
  rw [unread, ← arrived, ← taken] at many
  change 3 ≤ (loop.step active .main).toSend.length at more
  change
    136 <
      (loop.step active .main).arrived.length -
        (loop.step active .main).taken.length at many
  change (loop.step active .main).chip.ctsStopped = false at low
  generalize loop.step active .main = started at *
  obtain ⟨toSend₁, arrived₁, taken₁, late₁⟩ :=
    @receive_lengths active started (by omega)
      (fun stopped => absurd (low.symm.trans stopped) Bool.false_ne_true)
  rw [low, if_neg Bool.false_ne_true] at late₁
  generalize started.step active .receive = first at *
  obtain ⟨toSend₂, arrived₂, taken₂, late₂⟩ :=
    @receive_lengths active first (by omega)
      (fun _ => Nat.lt_of_le_of_lt (Nat.le_of_eq late₁) Nat.zero_lt_two)
  generalize first.step active .receive = second at *
  have early : second.late < 2 := by
    rw [late₂, late₁]
    split <;> decide
  obtain ⟨-, arrived₃, taken₃, -⟩ :=
    @receive_lengths active second (by omega) (fun _ => early)
  rw [unread, taken₃, taken₂, taken₁, arrived₃, arrived₂, arrived₁]
  omega

end Runs

section Stages

variable {active : UInt8} {usb : UartToUsb} {loop : Loop}

/-- Without interrupts the loop gets to the next stage. -/
inductive Loop.Leaves (active : UInt8) : Loop → Loop → Prop where
  | last {loop : Loop}
      (entry : (loop.step active .main).point = .entry) :
      Leaves active loop (loop.step active .main)
  | next {loop left : Loop}
      (inside : (loop.step active .main).point ≠ .entry)
      (rest : Leaves active (loop.step active .main) left) :
      Leaves active loop left

theorem Loop.Leaves.unique
    {left left' : Loop}
    (leaves : loop.Leaves active left)
    (leaves' : loop.Leaves active left') :
    left = left' := by
  induction leaves with
  | last entry =>
      cases leaves' with
      | last => rfl
      | next inside _ => exact absurd entry inside
  | next inside _ inductionHypothesis =>
      cases leaves' with
      | last entry => exact absurd entry inside
      | next _ rest => exact inductionHypothesis rest

theorem Loop.Leaves.run
    {left : Loop}
    (leaves : loop.Leaves active left) :
    left.point = .entry ∧
      left.toSend = loop.toSend ∧
      ∃ count, loop.run active (List.replicate count .main) = left := by
  induction leaves with
  | last entry => exact ⟨entry, Loop.main_sender.1, 1, rfl⟩
  | next _ _ inductionHypothesis =>
      obtain ⟨entry, toSend, count, runs⟩ := inductionHypothesis
      exact ⟨entry, toSend.trans Loop.main_sender.1, count + 1, runs⟩

/-- What the accesses up to the next stage do. -/
def Loop.Finishes (active : UInt8) (loop : Loop) (usb : UartToUsb) : Prop :=
  ∃ left,
    loop.Leaves active left ∧
      left.chip =
        { loop.chip with
          toUartToUsb := usb
          stage := loop.chip.stage.next }

/-- The next access does not end the stage. -/
theorem Loop.Finishes.next
    {usb' : UartToUsb}
    {point : Point}
    (access :
      (loop.main active).chip = { loop.chip with toUartToUsb := usb } ∧
        (loop.main active).point = point)
    (inside : point ≠ .entry)
    (rest :
      ∀ loop' : Loop,
        loop'.point = point → loop'.chip.toUartToUsb = usb →
          loop'.Finishes active usb') :
    loop.Finishes active usb' := by
  obtain ⟨chip, isPoint⟩ := access
  obtain ⟨left, leaves, after⟩ :=
    rest (loop.step active .main) isPoint (congrArg Chip.toUartToUsb chip)
  refine ⟨left, .next (fun entry => ?_) leaves, after.trans ?_⟩
  · exact inside (isPoint.symm.trans entry)
  · have same : (loop.step active .main).chip = (loop.main active).chip := rfl
    rw [same, chip]

/-- The next access ends the stage. -/
theorem Loop.Finishes.last
    (leaves : loop.main active = loop.leave usb) :
    loop.Finishes active usb := by
  refine ⟨loop.step active .main, .last ?_, ?_⟩
  · change (loop.main active).point = _
    rw [leaves]
    rfl
  · change (loop.main active).chip = _
    rw [leaves]
    rfl

theorem Loop.finishes_headerTaken (point : loop.point = .headerTaken) :
    loop.Finishes active (loop.chip.toUartToUsb.startFrame active) := by
  apply Finishes.last
  rw [main, point]

theorem Loop.finishes_lengthKnown (point : loop.point = .lengthKnown) :
    loop.Finishes active
      ((loop.chip.toUartToUsb.moveOutputPointer 2).startFrame active) := by
  apply Finishes.next
  · rw [main, point]
    exact ⟨rfl, rfl⟩
  · exact nofun
  · intro loop' point' usb'
    rw [← usb']
    exact finishes_headerTaken point'

theorem Loop.finishes_modeKnown (point : loop.point = .modeKnown) :
    loop.Finishes active
      (if loop.chip.frameMode ∈ UartToUsb.frameModes then
        (loop.chip.toUartToUsb.extractLength.moveOutputPointer 2).startFrame
          active
      else
        loop.chip.toUartToUsb.refuseMode) := by
  by_cases known : loop.chip.frameMode ∈ UartToUsb.frameModes
  · rw [if_pos known]
    apply Finishes.next
    · rw [main, point]
      simp only [if_pos known]
      exact ⟨rfl, rfl⟩
    · exact nofun
    · intro loop' point' usb'
      rw [← usb']
      exact finishes_lengthKnown point'
  · rw [if_neg known]
    apply Finishes.last
    rw [main, point]
    exact if_neg known

/-- The accesses of the header stage. -/
theorem Loop.finishes_header
    (entry : loop.point = .entry)
    (running : loop.chip.resetting = false)
    (isHeader : loop.chip.stage = .header) :
    loop.Finishes active (loop.chip.toUartToUsb.takeHeader active) := by
  have enters :
      loop.enter active = loop.goTo loop.chip.toUartToUsb.countBytes .counted := by
    rw [enter, running, if_neg Bool.false_ne_true, isHeader]
  apply Finishes.next
  · rw [main, entry]
    simp only [enters]
    exact ⟨rfl, rfl⟩
  · exact nofun
  intro loop' point' usb'
  by_cases arrived : 2 ≤ loop.chip.uartRxBuf.count ∧ ¬ loop.chip.frameStarted
  · have takes :
        loop.chip.toUartToUsb.takeHeader active =
          let usb := loop.chip.toUartToUsb.countBytes.extractMode
          if usb.frameMode ∈ UartToUsb.frameModes then
            (usb.extractLength.moveOutputPointer 2).startFrame active
          else
            usb.refuseMode :=
      if_pos arrived
    have arrived' :
        loop'.chip.uartRxBufByteCount ≥ 2 ∧ ¬ loop'.chip.frameStarted := by
      rw [usb']
      exact arrived
    rw [takes]
    apply Finishes.next
    · rw [main, point']
      simp only [if_pos arrived']
      exact ⟨rfl, rfl⟩
    · exact nofun
    · intro loop'' point'' usb''
      rw [← usb', ← usb'']
      exact finishes_modeKnown point''
  · have counts :
        loop.chip.toUartToUsb.takeHeader active =
          loop.chip.toUartToUsb.countBytes :=
      if_neg arrived
    rw [counts, ← usb']
    apply Finishes.last
    rw [main, point']
    refine if_neg ?_
    rw [usb']
    exact arrived

/-- What is done for a sink in the copy stage. -/
def UartToUsb.takePiece (usb : UartToUsb) (sink : Sink) : UartToUsb :=
  match usb.pieceLength sink with
  | none => usb
  | some length =>
      if sink = .discard then usb.skip sink length
      else usb.copyBytes sink length

/-- The bytes of a piece from some byte on. -/
def UartToUsb.pieceFrom (usb : UartToUsb) (length copied : Nat) :
    List UInt8 :=
  (usb.uartRxBuf.copy usb.uartRxBuf.output length).drop copied

/-- `FrameBuf` when the rest of a piece has been copied. -/
def UartToUsb.copyRest (usb : UartToUsb) (length copied : Nat) : UartToUsb :=
  { usb with
    frameBuf := write usb.frameBuf copied (usb.pieceFrom length copied)
    frameBufLength := length }

theorem UartToUsb.length_copy
    {length : Nat}
    (small : length ≤ uartRxBufSize) :
    (usb.uartRxBuf.copy usb.uartRxBuf.output length).length = length := by
  rw [Ring.copy_eq _ usb.uartRxBuf.output_lt small, List.length_map,
    List.length_range]

/-- All bytes have been copied. -/
theorem UartToUsb.copyRest_self
    {length : Nat}
    (small : length ≤ uartRxBufSize) :
    usb.copyRest length length = usb.setFrameBufLength length := by
  have nothing : usb.pieceFrom length length = [] :=
    List.drop_eq_nil_of_le (Nat.le_of_eq (usb.length_copy small))
  rw [copyRest, nothing, write_nil]
  rfl

/-- Bytes are copied one by one. -/
theorem UartToUsb.copyRest_copyByte
    {length copied : Nat}
    (small : length ≤ uartRxBufSize)
    (more : copied < length) :
    (usb.copyByte copied).copyRest length (copied + 1) =
      usb.copyRest length copied := by
  have cell :=
    Ring.copyIndex_eq usb.uartRxBuf.output_lt
      (Nat.le_trans (Nat.le_of_lt more) small)
  have bytes := usb.length_copy small
  have next :
      usb.pieceFrom length copied =
        usb.uartRxBuf.cells
            (Ring.copyIndex uartRxBufSize usb.uartRxBuf.output copied) ::
          usb.pieceFrom length (copied + 1) := by
    rw [pieceFrom, List.drop_eq_getElem_cons (by omega)]
    refine congrArg (· :: _) ?_
    simp only [Ring.copy_eq _ usb.uartRxBuf.output_lt small, List.getElem_map,
      List.getElem_range, cell]
  rw [copyRest, copyRest, next, write_cons]
  rfl

theorem Loop.finishes_copying
    {usb : UartToUsb}
    {piece : Piece}
    (small : piece.length ≤ uartRxBufSize)
    (missing : Nat)
    {copied : Nat}
    (all : copied + missing = piece.length)
    (point : loop.point = .copying piece copied)
    (rest :
      ∀ loop' : Loop,
        loop'.point = .copied piece →
          loop'.chip.toUartToUsb =
              loop.chip.toUartToUsb.copyRest piece.length copied →
            loop'.Finishes active usb) :
    loop.Finishes active usb := by
  induction missing generalizing loop copied with
  | zero =>
      obtain rfl : copied = piece.length := all
      rw [UartToUsb.copyRest_self small] at rest
      apply Finishes.next
      · rw [main, point]
        simp only [if_neg (Nat.lt_irrefl piece.length)]
        exact ⟨rfl, rfl⟩
      · exact nofun
      · exact rest
  | succ missing inductionHypothesis =>
      have more : copied < piece.length := by
        omega
      apply Finishes.next
      · rw [main, point]
        simp only [if_pos more]
        exact ⟨rfl, rfl⟩
      · exact nofun
      intro loop' point' usb'
      refine inductionHypothesis (by omega) point' ?_
      rw [usb', UartToUsb.copyRest_copyByte small more]
      exact rest

/-- A piece has been copied, or is to be discarded. -/
theorem Loop.finishes_copied
    {usb : UartToUsb}
    {piece : Piece}
    (point : loop.point = .copied piece)
    (rest :
      ∀ loop' : Loop,
        loop'.point = .testing piece.later →
          loop'.chip.toUartToUsb =
            loop.chip.toUartToUsb.skip piece.sink piece.length →
            loop'.Finishes active usb) :
    loop.Finishes active usb := by
  apply Finishes.next
  · rw [main, point]
    exact ⟨rfl, rfl⟩
  · exact nofun
  intro taken point₁ usb₁
  apply Finishes.next
  · rw [main, point₁]
    exact ⟨rfl, rfl⟩
  · exact nofun
  intro available point₂ usb₂
  apply Finishes.next
  · rw [main, point₂]
    exact ⟨rfl, rfl⟩
  · exact nofun
  intro started point₃ usb₃
  refine rest started point₃ (usb₃.trans ?_)
  rw [usb₂, usb₁]
  rfl

/-- A piece is not longer than the ring. -/
theorem UartToUsb.le_bufSize_of_pieceLength
    {sink : Sink}
    {length : Nat}
    (takes : usb.pieceLength sink = some length) :
    length ≤ uartRxBufSize :=
  Nat.le_trans (bounds_of_pieceLength takes).2.2.2 (by decide)

/-- The accesses for sinks. -/
theorem Loop.finishes_testing
    {sinks : List Sink}
    (point : loop.point = .testing sinks) :
    loop.Finishes active
      (sinks.foldl UartToUsb.takePiece loop.chip.toUartToUsb) := by
  induction sinks generalizing loop with
  | nil =>
      apply Finishes.last
      rw [main, point]
      rfl
  | cons sink sinks inductionHypothesis =>
      rw [List.foldl_cons, UartToUsb.takePiece]
      cases takes : loop.chip.toUartToUsb.pieceLength sink with
      | none =>
          apply Finishes.next
          · rw [main, point]
            simp only [takes]
            exact ⟨rfl, rfl⟩
          · exact nofun
          · intro loop' point' usb'
            simp only [← usb']
            exact inductionHypothesis point'
      | some length =>
          simp only
          by_cases isDiscard : sink = .discard
          · rw [if_pos isDiscard]
            apply Finishes.next
            · rw [main, point]
              simp only [takes, if_pos isDiscard]
              exact ⟨rfl, rfl⟩
            · exact nofun
            intro ready point' usb'
            refine finishes_copied point' fun skipped point'' usb'' => ?_
            rw [← usb', ← usb'']
            exact inductionHypothesis point''
          · rw [if_neg isDiscard]
            apply Finishes.next
            · rw [main, point]
              simp only [takes, if_neg isDiscard]
              exact ⟨rfl, rfl⟩
            · exact nofun
            intro ready point' usb'
            refine
              finishes_copying (UartToUsb.le_bufSize_of_pieceLength takes)
                length (Nat.zero_add _) point'
                fun copied pointC usbC => ?_
            refine finishes_copied pointC fun skipped pointS usbS => ?_
            have same :
                loop.chip.toUartToUsb.copyBytes sink length =
                  skipped.chip.toUartToUsb := by
              rw [usbS, usbC, usb']
              rfl
            rw [same]
            exact inductionHypothesis pointS

theorem UartToUsb.takePiece_eq_copyFor
    {sink : Sink}
    (notDiscard : sink ≠ .discard) :
    usb.takePiece sink = usb.copyFor sink := by
  have same : usb.Wants sink ↔ usb.Copies sink := by
    rw [Wants, Copies, decide_eq_false notDiscard, Bool.not_eq_true,
      Bool.not_eq_true]
    exact
      and_congr_right' (and_congr_right' (and_congr_right'
        ⟨fun mode => mode notDiscard, fun mode _ => mode⟩))
  rw [Copies] at same
  rw [takePiece, copyFor, copyData, pieceLength]
  by_cases wants : usb.Wants sink
  · rw [if_pos wants, if_pos (same.mp wants)]
    cases usb.chunkLength (decide (sink ≠ .fido)) with
    | none => rfl
    | some length => exact if_neg notDiscard
  · rw [if_neg wants, if_neg (mt same.mpr wants)]

theorem UartToUsb.takePiece_discard :
    usb.takePiece .discard = usb.discardFrame := by
  have same :
      usb.Wants .discard ↔
        usb.frameStarted ∧ usb.frameDiscard ∧
          ¬ usb.dataAvailable .discard := by
    rw [Wants, decide_eq_true rfl, Bool.not_eq_true]
    exact
      and_congr_right' (and_congr_right'
        (and_iff_left fun is => absurd rfl is))
  have tail : decide (Sink.discard ≠ .fido) = true := by
    decide
  rw [takePiece, discardFrame, pieceLength, tail]
  by_cases wants : usb.Wants .discard
  · rw [if_pos wants, if_pos (same.mp wants)]
    cases usb.chunkLength true with
    | none => rfl
    | some length => exact if_pos rfl
  · rw [if_neg wants, if_neg (mt same.mpr wants)]

/-- The accesses of the copy stage. -/
theorem UartToUsb.foldl_takePiece :
    [Sink.cdc, .fido, .ccid, .debug, .ch552, .discard].foldl takePiece usb =
      usb.perform active .copy := by
  rw [perform_copy]
  simp only [List.foldl_cons, List.foldl_nil, takePiece_discard]
  rw [takePiece_eq_copyFor, takePiece_eq_copyFor, takePiece_eq_copyFor,
    takePiece_eq_copyFor, takePiece_eq_copyFor] <;> decide

/-- A sink that does not want bytes gets none. -/
theorem UartToUsb.takePiece_of_not_wants
    {sink : Sink}
    (none : ¬ usb.Wants sink) :
    usb.takePiece sink = usb := by
  rw [takePiece, pieceLength, if_neg none]

theorem UartToUsb.foldl_takePiece_of_none
    {sinks : List Sink}
    (none : ∀ sink, sink ∈ sinks → ¬ usb.Wants sink) :
    sinks.foldl takePiece usb = usb := by
  induction sinks with
  | nil => rfl
  | cons sink sinks inductionHypothesis =>
      rw [List.foldl_cons,
        takePiece_of_not_wants (none sink List.mem_cons_self)]
      exact
        inductionHypothesis fun other member =>
          none other (List.mem_cons_of_mem _ member)

/-- What is taken for a sink is not taken for another one. -/
theorem UartToUsb.not_wants_takePiece
    {sink other : Sink}
    (wants : usb.Wants sink)
    (isOther : other ≠ sink) :
    ¬ (usb.takePiece sink).Wants other := by
  intro wants'
  refine isOther (Wants.unique ?_ wants)
  rw [takePiece] at wants'
  split at wants'
  · exact wants'
  · have free : usb.dataAvailable other = false := by
      have available := wants'.2.2.1
      split at available
      · exact (Function.update_of_ne isOther _ _).symm.trans available
      · exact (Function.update_of_ne isOther _ _).symm.trans available
    split at wants'
    · exact ⟨wants'.1, wants'.2.1, free, wants'.2.2.2⟩
    · exact ⟨wants'.1, wants'.2.1, free, wants'.2.2.2⟩

theorem UartToUsb.foldl_takePiece_of_wants
    {sinks : List Sink}
    {sink : Sink}
    (wants : usb.Wants sink)
    (distinct : sinks.Nodup)
    (member : sink ∈ sinks) :
    sinks.foldl takePiece usb = usb.takePiece sink := by
  obtain ⟨before, after, rfl⟩ := List.append_of_mem member
  rw [List.nodup_append] at distinct
  rcases distinct with ⟨-, distinctAfter, apart⟩
  have first : before.foldl takePiece usb = usb := by
    refine foldl_takePiece_of_none fun other isBefore wants' => ?_
    exact apart other isBefore sink List.mem_cons_self (wants'.unique wants)
  rw [List.foldl_append, first, List.foldl_cons]
  refine foldl_takePiece_of_none fun other isAfter => ?_
  refine not_wants_takePiece wants ?_
  rintro rfl
  exact (List.nodup_cons.mp distinctAfter).1 isAfter

/-- The copy stage serves the sink that wants bytes. -/
theorem UartToUsb.perform_copy_of_wants
    {sink : Sink}
    (wants : usb.Wants sink) :
    usb.perform active .copy = usb.takePiece sink := by
  rw [← foldl_takePiece]
  refine foldl_takePiece_of_wants wants (by decide) ?_
  cases sink <;> decide

/-- Without a sink that wants bytes the copy stage does nothing. -/
theorem UartToUsb.perform_copy_of_no_wants
    (none : ∀ sink, ¬ usb.Wants sink) :
    usb.perform active .copy = usb := by
  rw [← foldl_takePiece]
  exact foldl_takePiece_of_none fun sink _ => none sink

/-- Without interrupts the accesses of a stage are the stage. -/
theorem Loop.leaves_stage (entry : loop.point = .entry) :
    ∃ left,
      loop.Leaves active left ∧ left.chip = loop.chip.main active := by
  by_cases resetting : loop.chip.resetting = true
  · have stays : loop.main active = loop := by
      rw [main, entry]
      exact if_pos resetting
    refine ⟨_, .last ?_, ?_⟩
    · change (loop.main active).point = _
      rw [stays]
      exact entry
    · change (loop.main active).chip = _
      rw [stays, Chip.main, if_pos resetting]
  have running : loop.chip.resetting = false :=
    Bool.eq_false_of_not_eq_true resetting
  by_cases isHeader : loop.chip.stage = .header
  · obtain ⟨left, leaves, chip⟩ :=
      @finishes_header active loop entry running isHeader
    have goesOn : loop.chip.GoesOn := by
      rw [Chip.GoesOn, isHeader]
      exact fun waits => Stage.noConfusion waits.1
    refine ⟨left, leaves, chip.trans ?_⟩
    rw [Chip.main_of_goesOn running goesOn, isHeader]
    rfl
  by_cases isCopy : loop.chip.stage = .copy
  · have enters :
        loop.enter active =
          loop.goTo loop.chip.toUartToUsb
            (.testing [.cdc, .fido, .ccid, .debug, .ch552, .discard]) := by
      rw [enter, running, if_neg Bool.false_ne_true, isCopy]
    have finishes :
        loop.Finishes active
          (loop.chip.toUartToUsb.perform active .copy) := by
      apply Finishes.next
      · rw [main, entry]
        simp only [enters]
        exact ⟨rfl, rfl⟩
      · intro same
        cases same
      intro loop' point' usb'
      rw [← UartToUsb.foldl_takePiece, ← usb']
      exact finishes_testing point'
    obtain ⟨left, leaves, chip⟩ := finishes
    have goesOn : loop.chip.GoesOn := by
      rw [Chip.GoesOn, isCopy]
      exact fun waits => Stage.noConfusion waits.1
    refine ⟨left, leaves, chip.trans ?_⟩
    rw [Chip.main_of_goesOn running goesOn, isCopy]
    rfl
  · have other := @enter_of_other active loop isHeader isCopy
    have isOther : loop.main active = loop.enter active := by
      rw [main, entry]
    refine ⟨_, .last ?_, ?_⟩
    · change (loop.main active).point = _
      rw [isOther, other]
      exact entry
    · change (loop.main active).chip = _
      rw [isOther, other]

end Stages

section RingIntegrity

/--
The ring keeps its bytes in order, at most 139 of them, as long as CTS is only
lowered while there is room for three more.  When it is lowered without, the
FPGA can make the ring run over.
-/
theorem receive_ring
    (active resetKeep : UInt8)
    (frames : List Packet) :
    let start := Loop.start resetKeep frames
    (∀ events,
      start.Restrained active events →
        (start.run active events).Intact frames) ∧
      ∀ events,
        (start.run active events).Overcommits →
          3 ≤ (start.run active events).toSend.length →
            ¬ (start.run active
              (events ++ [.main, .receive, .receive, .receive])).Intact
                frames := by
  intro start
  refine ⟨fun events restrained => ?_, fun events overcommits more intact => ?_⟩
  · exact ((Loop.tracks_start resetKeep).run events restrained).intact
  · have bounded := intact.bounded
    rw [Loop.run, List.foldl_append] at bounded
    exact Nat.not_le.mpr (overcommits.overflows more) bounded

/-- A frame without payload. -/
def emptyFrame (mode : UInt8) : Packet where
  mode := mode
  payload := []
  short := Nat.zero_le 255

theorem receive_ring_sample :
    ((Loop.start 0 [emptyFrame ioDebug]).run (activeEndpoints 0)
      (.setConfiguration 1 :: .receive :: .receive ::
        List.replicate 20 .main)).Intact [emptyFrame ioDebug] :=
  (receive_ring (activeEndpoints 0) 0 [emptyFrame ioDebug]).1
    (.setConfiguration 1 :: .receive :: .receive :: List.replicate 20 .main)
    (by decide +kernel)

/-- An empty frame is discarded, and three bytes come. -/
def refillEvents : List LoopEvent :=
  List.replicate 19 .main ++ List.replicate 3 .receive ++
    List.replicate 8 .main

/-- The ring is nearly full when the loop begins. -/
def overflowEvents : List LoopEvent :=
  List.replicate 135 .receive ++ .setConfiguration 1 ::
    (List.replicate 5 refillEvents).flatten

/-- Each empty frame makes room for two bytes, but lets three come. -/
theorem receive_ring_counterexample :
    let loop :=
      (Loop.start 0 (List.replicate 75 (emptyFrame ioDebug))).run
        (activeEndpoints 0) overflowEvents
    loop.unread = 140 ∧ loop.chip.uartRxBuf.count = 0 := by
  decide +kernel

end RingIntegrity

end TKey.Ch552
