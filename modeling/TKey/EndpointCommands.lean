import TKey.ReceiveInterrupts

namespace TKey.Ch552

open ByteMemory RingBuffer

/-!
# Commands for the controller

A frame for the controller itself can change the set of active endpoints.  The
command and its argument are looked up in `FrameBuf`, which earlier frames have
used as well, whatever the length of the frame is.
-/

section Definitions

/--
A piece of a FIDO or CCID frame is uploaded, and what is left of the frame is
taken for the header of a next one.
-/
def Chip.Cuts (chip : Chip) : Prop :=
  (chip.stage = .fido ∧ chip.dataAvailable .fido = true ∨
    chip.stage = .ccid ∧ chip.dataAvailable .ccid = true) ∧
    (chip.ins .ep3).uploadBusy = false ∧
    chip.frameRemainingBytes ≠ 0

instance (chip : Chip) : Decidable chip.Cuts :=
  inferInstanceAs (Decidable ((_ ∧ _ ∨ _ ∧ _) ∧ _ ∧ _))

/-- No frame is cut, and CTS is only lowered while there is room. -/
def Line.InStep (active : UInt8) : Line → List LineEvent → Prop :=
  Line.Avoids active fun chip => chip.Cuts ∨ chip.Overcommits

instance (active : UInt8) (line : Line) (events : List LineEvent) :
    Decidable (line.InStep active events) :=
  inferInstanceAs (Decidable (line.Avoids active _ events))

/--
The frame for the controller that is handled: a piece of it has been copied, and
the bytes behind the piece are still to be read.
-/
structure Line.Handles
    (frames : List Packet)
    (line : Line)
    (frame : Packet)
    (earlier piece : List UInt8) : Prop where
  mode : frame.mode = ioCh552
  stream :
    ∃ handled later,
      frames = handled ++ frame :: later ∧
        earlier ++ piece ++ line.unread = frame.payload ++ wire later
  inFrame : earlier ++ piece <+: frame.payload
  copied : piece.length = line.chip.frameBufLength

/--
The frame that is handled contains a command with its argument, and the
argument is installed.
-/
def Line.ActsOnOwnFrame
    (active : UInt8)
    (frames : List Packet)
    (line : Line) : Prop :=
  ∃ frame earlier argument rest,
    line.Handles frames frame earlier (setEndpoints :: argument :: rest) ∧
      (line.step active .main).chip.resetKeep = argument

end Definitions

section Commands

variable {active : UInt8} {usb : UartToUsb}

theorem UartToUsb.resetKeep_takePiece (sink : Sink) :
    (usb.takePiece sink).resetKeep = usb.resetKeep := by
  rw [takePiece]
  split
  · rfl
  · split <;> rfl

theorem UartToUsb.resetKeep_foldl_takePiece (sinks : List Sink) :
    (sinks.foldl takePiece usb).resetKeep = usb.resetKeep := by
  induction sinks generalizing usb with
  | nil => rfl
  | cons sink sinks inductionHypothesis =>
      exact inductionHypothesis.trans (resetKeep_takePiece sink)

theorem UartToUsb.resetKeep_endOfFrame :
    usb.endOfFrame.resetKeep = usb.resetKeep := by
  rw [endOfFrame_eq]

/-- Only a command changes the set of active endpoints. -/
theorem UartToUsb.resetKeep_perform
    {stage : Stage}
    (spared :
      ¬ (stage = .ch552 ∧ usb.dataAvailable .ch552 = true ∧
        usb.frameBuf 0 = setEndpoints)) :
    (usb.perform active stage).resetKeep = usb.resetKeep := by
  cases stage with
  | top => rfl
  | ep2 => rfl
  | ep3 => rfl
  | ep4 => rfl
  | header =>
      rw [perform, takeHeader]
      simp only
      split
      · split <;> rfl
      · rfl
  | copy =>
      rw [← foldl_takePiece]
      exact resetKeep_foldl_takePiece _
  | cdc =>
      rw [perform, uploadCdc]
      split
      · refine resetKeep_endOfFrame.trans ?_
        simp only [release]
        split <;> rfl
      · rfl
  | zeroLenPacket =>
      rw [perform, sendZeroLenPacket]
      split <;> rfl
  | fido =>
      rw [perform, uploadFido]
      split <;> rfl
  | ccid =>
      rw [perform, uploadCcid]
      split <;> rfl
  | debug =>
      rw [perform, uploadDebug]
      split
      · exact resetKeep_endOfFrame
      · rfl
  | ch552 =>
      rw [perform, handleCh552]
      split
      case isTrue available =>
        have other : ¬ (usb.frameBuf 0 < ch552CmdMax ∧
            usb.frameBuf 0 = setEndpoints) :=
          fun is => spared ⟨rfl, available, is.2⟩
        rw [if_neg other]
        exact resetKeep_endOfFrame
      · rfl
  | discard =>
      rw [perform, endDiscard]
      split
      · simp only
        split <;> rfl
      · rfl

/-- A command installs the second byte of `FrameBuf`. -/
theorem UartToUsb.resetKeep_of_command
    (available : usb.dataAvailable .ch552 = true)
    (command : usb.frameBuf 0 = setEndpoints) :
    (usb.perform active .ch552).resetKeep = usb.frameBuf 1 ∧
      (usb.perform active .ch552).resetting = true := by
  have known :
      usb.frameBuf 0 < ch552CmdMax ∧ usb.frameBuf 0 = setEndpoints := by
    rw [command]
    exact ⟨by decide, rfl⟩
  rw [perform, handleCh552, if_pos available, if_pos known]
  exact ⟨rfl, rfl⟩

/-- Only a command of the FPGA changes the set of active endpoints. -/
theorem Line.resetKeep_step
    {line : Line}
    {event : LineEvent}
    (spared : ¬ (event = .main ∧ line.chip.Commands)) :
    (line.step active event).chip.resetKeep = line.chip.resetKeep := by
  cases event with
  | main =>
      rw [step, Chip.step, Chip.main]
      split
      · rfl
      split
      · rfl
      · exact UartToUsb.resetKeep_perform fun is => spared ⟨rfl, is⟩
  | receive =>
      obtain same | ⟨byte, -, -, received⟩ := @Line.step_receive active line
      · rw [same]
      · rw [received, Chip.step_uart1]
  | inToken ep =>
      rw [step, Chip.step, UartToUsb.inToken_eq]
  | outToken ep togOk packet => rfl
  | setConfiguration usbConfig => rfl

end Commands

section HandOver

variable {active : UInt8} {usb : UartToUsb}

/-- Only the frame is looked at, and the ring stays as it is. -/
structure UartToUsb.SameFrame (usb usb' : UartToUsb) : Prop where
  frame : usb'.toFrameState = usb.toFrameState
  buffer : usb'.uartRxBuf = usb.uartRxBuf
  cts : usb'.ctsStopped = usb.ctsStopped
  resetting : usb'.resetting = usb.resetting

/-- What has been copied for a sink is handed over. -/
structure UartToUsb.HandsOver
    (usb : UartToUsb)
    (sink : Sink)
    (usb' : UartToUsb) : Prop where
  buffer : usb'.uartRxBuf = usb.uartRxBuf
  cts : usb'.ctsStopped = usb.ctsStopped
  resetting : usb'.resetting = usb.resetting
  available :
    usb'.dataAvailable = Function.update usb.dataAvailable sink false
  mode : usb'.frameMode = usb.frameMode
  length : usb'.frameLength = usb.frameLength
  remaining : usb'.frameRemainingBytes = usb.frameRemainingBytes
  started :
    usb'.frameStarted =
      if usb.frameRemainingBytes = 0 ∨ sink = .fido ∨ sink = .ccid then
        false
      else
        usb.frameStarted
  discard :
    usb'.frameDiscard =
      if sink = .discard ∧ usb.frameRemainingBytes = 0 then false
      else usb.frameDiscard

theorem UartToUsb.SameFrame.of_eq
    {usb' : UartToUsb}
    (same : usb' = usb) :
    usb.SameFrame usb' := by
  subst same
  exact ⟨rfl, rfl, rfl, rfl⟩

/-- The end of a frame. -/
theorem UartToUsb.HandsOver.endOfFrame
    {sink : Sink}
    {usb' : UartToUsb}
    (buffer : usb'.uartRxBuf = usb.uartRxBuf)
    (cts : usb'.ctsStopped = usb.ctsStopped)
    (resetting : usb'.resetting = usb.resetting)
    (available :
      usb'.dataAvailable = Function.update usb.dataAvailable sink false)
    (frame :
      usb'.frameMode = usb.frameMode ∧
        usb'.frameLength = usb.frameLength ∧
        usb'.frameRemainingBytes = usb.frameRemainingBytes ∧
        usb'.frameStarted = usb.frameStarted ∧
        usb'.frameDiscard = usb.frameDiscard)
    (other : sink ≠ .fido ∧ sink ≠ .ccid ∧ sink ≠ .discard) :
    usb.HandsOver sink usb'.endOfFrame := by
  obtain ⟨mode, length, remaining, started, discard⟩ := frame
  rw [endOfFrame_eq]
  refine
    ⟨buffer, cts, resetting, available, mode, length, remaining, ?_, ?_⟩
  · simp only [remaining, started, other.1, other.2.1, or_false]
  · simp only [other.2.2, false_and, if_false]
    exact discard

/-- A stage hands over what has been copied for its sink. -/
theorem UartToUsb.handsOver_perform
    {sink : Sink}
    (available : usb.dataAvailable sink = true)
    (free :
      ∀ {ep}, sink.endpoint = some ep → ¬ (usb.ins ep).uploadBusy = true)
    (spared : ¬ (sink = .ch552 ∧ usb.frameBuf 0 = setEndpoints)) :
    usb.HandsOver sink (usb.perform active sink.stage) := by
  cases sink with
  | cdc =>
      rw [Sink.stage, perform, uploadCdc, if_pos ⟨available, free rfl⟩]
      simp only
      split <;>
        exact
          .endOfFrame rfl rfl rfl rfl ⟨rfl, rfl, rfl, rfl, rfl⟩
            (by decide)
  | fido =>
      rw [Sink.stage, perform, uploadFido, if_pos ⟨available, free rfl⟩]
      exact ⟨rfl, rfl, rfl, rfl, rfl, rfl, rfl, (if_pos (.inr (.inl rfl))).symm, rfl⟩
  | ccid =>
      rw [Sink.stage, perform, uploadCcid, if_pos ⟨available, free rfl⟩]
      exact ⟨rfl, rfl, rfl, rfl, rfl, rfl, rfl, (if_pos (.inr (.inr rfl))).symm, rfl⟩
  | debug =>
      rw [Sink.stage, perform, uploadDebug, if_pos ⟨available, free rfl⟩]
      exact
        .endOfFrame rfl rfl rfl rfl ⟨rfl, rfl, rfl, rfl, rfl⟩
          (by decide)
  | ch552 =>
      have other : ¬ (usb.frameBuf 0 < ch552CmdMax ∧
          usb.frameBuf 0 = setEndpoints) :=
        fun is => spared ⟨rfl, is.2⟩
      rw [Sink.stage, perform, handleCh552, if_pos available, if_neg other]
      exact
        .endOfFrame rfl rfl rfl rfl ⟨rfl, rfl, rfl, rfl, rfl⟩
          (by decide)
  | discard =>
      rw [Sink.stage, perform, endDiscard, if_pos available]
      simp only
      by_cases last : usb.frameRemainingBytes = 0
      · rw [if_pos last]
        exact
          ⟨rfl, rfl, rfl, rfl, rfl, rfl, rfl, (if_pos (.inl last)).symm,
            (if_pos ⟨rfl, last⟩).symm⟩
      · rw [if_neg last]
        refine ⟨rfl, rfl, rfl, rfl, rfl, rfl, rfl, ?_, ?_⟩
        · simp only [last, reduceCtorEq, or_self, if_false]
        · simp only [last, and_false, if_false]

/-- The stages that are not for a sink. -/
theorem UartToUsb.perform_rest
    {stage : Stage}
    (notHeader : stage ≠ .header)
    (notCopy : stage ≠ .copy)
    (unavailable :
      ∀ sink, sink.stage = stage → usb.dataAvailable sink = false) :
    usb.SameFrame (usb.perform active stage) := by
  cases stage with
  | header => exact absurd rfl notHeader
  | copy => exact absurd rfl notCopy
  | top => exact .of_eq rfl
  | ep2 => exact .of_eq rfl
  | ep3 => exact .of_eq rfl
  | ep4 => exact .of_eq rfl
  | zeroLenPacket =>
      rw [perform, sendZeroLenPacket]
      split <;> exact ⟨rfl, rfl, rfl, rfl⟩
  | cdc => exact .of_eq (perform_of_unavailable (unavailable .cdc rfl))
  | fido => exact .of_eq (perform_of_unavailable (unavailable .fido rfl))
  | ccid => exact .of_eq (perform_of_unavailable (unavailable .ccid rfl))
  | debug => exact .of_eq (perform_of_unavailable (unavailable .debug rfl))
  | ch552 => exact .of_eq (perform_of_unavailable (unavailable .ch552 rfl))
  | discard =>
      exact .of_eq (perform_of_unavailable (unavailable .discard rfl))

end HandOver

section Reading

/-- Where the loop is in the frames of the FPGA. -/
inductive Reading where
  | between
  | taking (frame : Packet) (earlier : List UInt8) (sink : Sink)
  | staged (frame : Packet) (earlier piece : List UInt8) (sink : Sink)

variable (frames : List Packet)

/-- The next byte is the mode of a frame. -/
structure FrameState.Outside (state : FrameState) (unread : List UInt8) :
    Prop where
  notStarted : state.frameStarted = false
  keeps : state.frameDiscard = false
  empty : ∀ sink, state.dataAvailable sink = false
  stream : ∃ handled later, frames = handled ++ later ∧ unread = wire later

/-- The payload of a frame has been taken up to some byte. -/
structure FrameState.Inside
    (state : FrameState)
    (unread : List UInt8)
    (frame : Packet)
    (taken : List UInt8)
    (sink : Sink) : Prop where
  started : state.frameStarted = true
  discard : state.frameDiscard = decide (sink = .discard)
  mode : sink ≠ .discard → state.frameMode = sink.mode
  own : state.frameMode = frame.mode
  stream :
    ∃ handled later,
      frames = handled ++ frame :: later ∧
        taken ++ unread = frame.payload ++ wire later
  length : taken.length + state.frameRemainingBytes = frame.payload.length

/-- The loop is somewhere in the frames of the FPGA. -/
def UartToUsb.Reads (usb : UartToUsb) (toSend : List UInt8) :
    Reading → Prop
  | .between => usb.Outside frames (usb.uartRxBuf.contents ++ toSend)
  | .taking frame earlier sink =>
      usb.Inside frames (usb.uartRxBuf.contents ++ toSend) frame earlier
          sink ∧
        ∀ other, usb.dataAvailable other = false
  | .staged frame earlier piece sink =>
      usb.Inside frames (usb.uartRxBuf.contents ++ toSend) frame
          (earlier ++ piece) sink ∧
        (∀ other, usb.dataAvailable other = decide (other = sink)) ∧
        (sink ≠ .discard →
          read usb.frameBuf 0 usb.frameBufLength = piece)

end Reading

section Steps

variable {frames : List Packet} {active : UInt8}
variable {usb usb' : UartToUsb} {toSend toSend' : List UInt8}
variable {reading : Reading}

/-- Neither the frame nor the bytes to be read have changed. -/
theorem UartToUsb.Reads.congr
    (reads : usb.Reads frames toSend reading)
    (state : usb'.toFrameState = usb.toFrameState)
    (unread :
      usb'.uartRxBuf.contents ++ toSend' =
        usb.uartRxBuf.contents ++ toSend) :
    usb'.Reads frames toSend' reading := by
  cases reading with
  | between =>
      rw [Reads, state, unread]
      exact reads
  | taking frame earlier sink =>
      rw [Reads, state, unread]
      exact reads
  | staged frame earlier piece sink =>
      rw [Reads, state, unread]
      exact reads

/-- A stage that leaves the frame alone. -/
theorem UartToUsb.Reads.sameFrame
    (reads : usb.Reads frames toSend reading)
    (same : usb.SameFrame usb') :
    usb'.Reads frames toSend reading ∧ usb.Drains usb' := by
  refine ⟨reads.congr same.frame ?_, .takes (Nat.le_of_eq ?_) same.cts⟩
  · rw [same.buffer]
  · rw [same.buffer]

/-- The loop takes a header, if there is one. -/
theorem UartToUsb.Reads.takeHeader
    (reads : usb.Reads frames toSend reading) :
    (usb.takeHeader active).resetting = true ∨
      usb.Drains (usb.takeHeader active) ∧
        ∃ reading', (usb.takeHeader active).Reads frames toSend reading' := by
  by_cases arrived : 2 ≤ usb.uartRxBuf.count ∧ ¬ usb.frameStarted
  case neg =>
    have counts : usb.takeHeader active = usb.countBytes :=
      if_neg arrived
    have same : usb.SameFrame usb.countBytes := ⟨rfl, rfl, rfl, rfl⟩
    obtain ⟨reads', drains⟩ := reads.sameFrame same
    rw [counts]
    exact .inr ⟨drains, reading, reads'⟩
  cases reading with
  | taking frame earlier sink => exact absurd reads.1.started arrived.2
  | staged frame earlier piece sink => exact absurd reads.1.started arrived.2
  | between =>
      obtain ⟨mode, length, more, contents⟩ := exists_header arrived.1
      by_cases known : mode ∈ frameModes
      case neg =>
        have cell := (usb.uartRxBuf.cells_first_two contents).1
        rw [UartToUsb.takeHeader]
        simp only [cell]
        rw [if_pos arrived, if_neg known]
        exact .inl rfl
      right
      obtain ⟨handled, later, split, unread⟩ := reads.stream
      rw [contents] at unread
      rw [takeHeader_of_contents contents reads.notStarted known]
      have less : (usb.uartRxBuf.advance 2).count ≤ usb.uartRxBuf.count := by
        rw [Ring.count_advance _ arrived.1]
        exact Nat.sub_le _ _
      refine ⟨.takes less rfl, ?_⟩
      cases later with
      | nil => cases unread
      | cons frame later =>
          rw [wire_cons] at unread
          obtain ⟨isMode, unread⟩ := List.cons_eq_cons.mp unread
          obtain ⟨isLength, unread⟩ := List.cons_eq_cons.mp unread
          refine
            ⟨.taking frame [] (sinkOf active mode),
              ⟨rfl, ?_, mode_sinkOf known, isMode,
                ⟨handled, later, split, ?_⟩, ?_⟩, reads.empty⟩
          · simp only [reads.keeps]
            by_cases isInactive : mode &&& active = 0
            · rw [if_pos isInactive,
                decide_eq_true (sinkOf_eq_discard_iff.mpr isInactive)]
            · rw [if_neg isInactive,
                decide_eq_false (mt sinkOf_eq_discard_iff.mp isInactive)]
          · simp only [contents_behind_header contents]
            exact unread
          · rw [isLength]
            exact (Nat.zero_add _).trans (toNat_ofNat_length frame)

/-- A piece has been taken for the sink of the frame. -/
theorem UartToUsb.Reads.skip
    {frame : Packet}
    {earlier : List UInt8}
    {sink : Sink}
    (reads : usb.Reads frames toSend (.taking frame earlier sink))
    {length : Nat}
    (inside : length ≤ usb.uartRxBuf.count)
    (inRemaining : length ≤ usb.frameRemainingBytes)
    {frameBuf : Memory}
    {frameBufLength : Nat}
    (held :
      sink ≠ .discard →
        read frameBuf 0 frameBufLength =
          usb.uartRxBuf.contents.take length) :
    UartToUsb.Reads frames
      { usb.skip sink length with
        frameBuf := frameBuf
        frameBufLength := frameBufLength }
      toSend
      (.staged frame earlier (usb.uartRxBuf.contents.take length) sink) := by
  obtain ⟨isInside, empty⟩ := reads
  have size : (usb.uartRxBuf.contents.take length).length = length := by
    rw [List.length_take, Ring.length_contents, Nat.min_eq_left inside]
  refine
    ⟨{ isInside with stream := ?_, length := ?_ }, fun other => ?_, held⟩
  · obtain ⟨handled, later, split, unread⟩ := isInside.stream
    refine ⟨handled, later, split, Eq.trans ?_ unread⟩
    simp only [UartToUsb.skip, Ring.contents_advance _ inside]
    rw [List.append_assoc earlier,
      ← List.append_assoc (usb.uartRxBuf.contents.take length),
      List.take_append_drop]
  · have before := isInside.length
    rw [List.length_append, size]
    show _ + (usb.frameRemainingBytes - length) = frame.payload.length
    omega
  · show Function.update usb.dataAvailable sink true other = _
    by_cases isSink : other = sink
    · rw [isSink, Function.update_self, decide_eq_true rfl]
    · rw [Function.update_of_ne isSink, decide_eq_false isSink]
      exact empty other

/-- The copy stage takes a piece for the sink of the frame, if it is there. -/
theorem UartToUsb.Reads.copy
    (reads : usb.Reads frames toSend reading)
    (counted : usb.uartRxBufByteCount ≤ usb.uartRxBuf.count)
    (room :
      ∀ sink length,
        usb.pieceLength sink = some length →
          usb.uartRxBuf.count - length ≤ 136) :
    usb.Drains (usb.perform active .copy) ∧
      ∃ reading',
        (usb.perform active .copy).Reads frames toSend reading' := by
  have drains : usb.Drains usb := .takes (Nat.le_refl _) rfl
  cases reading with
  | between =>
      have none (sink : Sink) : ¬ usb.Wants sink := fun wants =>
        Bool.false_ne_true (reads.notStarted.symm.trans wants.1)
      rw [perform_copy_of_no_wants none]
      exact ⟨drains, .between, reads⟩
  | staged frame earlier piece sink =>
      obtain ⟨inside, available, held⟩ := reads
      have none (other : Sink) : ¬ usb.Wants other := by
        rintro ⟨-, discard, free, mode⟩
        have isSink : other = sink :=
          FrameState.sink_unique discard mode inside.discard inside.mode
        rw [available, decide_eq_true isSink] at free
        exact Bool.noConfusion free
      rw [perform_copy_of_no_wants none]
      exact ⟨drains, .staged frame earlier piece sink, inside, available, held⟩
  | taking frame earlier sink =>
      have wants : usb.Wants sink :=
        ⟨reads.1.started, reads.1.discard, reads.2 sink, reads.1.mode⟩
      rw [perform_copy_of_wants wants, takePiece]
      cases takes : usb.pieceLength sink with
      | none => exact ⟨drains, _, reads⟩
      | some length =>
          obtain ⟨-, inCount, inRemaining, -⟩ := bounds_of_pieceLength takes
          have inside : length ≤ usb.uartRxBuf.count :=
            Nat.le_trans inCount counted
          have few : (usb.uartRxBuf.advance length).count ≤ 136 := by
            rw [Ring.count_advance _ inside]
            exact room sink length takes
          have bytes := usb.uartRxBuf.copy_output inside
          simp only
          by_cases isDiscard : sink = .discard
          · rw [if_pos isDiscard]
            exact
              ⟨.starts few rfl, _,
                reads.skip inside inRemaining fun is => absurd isDiscard is⟩
          · rw [if_neg isDiscard]
            refine
              ⟨.starts few rfl, _,
                reads.skip inside inRemaining fun _ => ?_⟩
            have stored :=
              read_write_same usb.frameBuf 0
                (usb.uartRxBuf.copy usb.uartRxBuf.output length)
            rw [bytes, List.length_take, Ring.length_contents,
              Nat.min_eq_left inside] at stored
            rw [bytes]
            exact stored

/-- The next frame comes after the last piece. -/
theorem UartToUsb.Reads.endFrame
    {frame : Packet}
    {earlier piece : List UInt8}
    {sink : Sink}
    (reads : usb.Reads frames toSend (.staged frame earlier piece sink))
    (hands : usb.HandsOver sink usb')
    (last : usb.frameRemainingBytes = 0) :
    usb'.Reads frames toSend .between := by
  obtain ⟨inside, available, -⟩ := reads
  refine ⟨hands.started.trans (if_pos (.inl last)), ?_, fun other => ?_, ?_⟩
  · rw [hands.discard, inside.discard]
    by_cases isDiscard : sink = .discard
    · exact if_pos ⟨isDiscard, last⟩
    · rw [if_neg fun is => isDiscard is.1]
      exact decide_eq_false isDiscard
  · rw [hands.available]
    by_cases isSink : other = sink
    · rw [isSink, Function.update_self]
    · rw [Function.update_of_ne isSink, available]
      exact decide_eq_false isSink
  · obtain ⟨handled, later, split, unread⟩ := inside.stream
    have length := inside.length
    rw [last, Nat.add_zero] at length
    refine ⟨handled ++ [frame], later, ?_, ?_⟩
    · rw [split, List.append_assoc]
      rfl
    · rw [hands.buffer]
      exact (List.append_inj unread length).2

/-- After a piece the frame goes on, or the next one follows. -/
theorem UartToUsb.Reads.handsOver
    {frame : Packet}
    {earlier piece : List UInt8}
    {sink : Sink}
    (reads : usb.Reads frames toSend (.staged frame earlier piece sink))
    (hands : usb.HandsOver sink usb')
    (uncut : sink = .fido ∨ sink = .ccid → usb.frameRemainingBytes = 0) :
    ∃ reading', usb'.Reads frames toSend reading' := by
  by_cases last : usb.frameRemainingBytes = 0
  · exact ⟨.between, reads.endFrame hands last⟩
  have goesOn :
      ¬ (usb.frameRemainingBytes = 0 ∨ sink = .fido ∨ sink = .ccid) :=
    fun ends => last (ends.elim id uncut)
  obtain ⟨inside, available, -⟩ := reads
  refine
    ⟨.taking frame (earlier ++ piece) sink, ⟨?_, ?_, ?_, ?_, ?_, ?_⟩,
      fun other => ?_⟩
  · rw [hands.started, if_neg goesOn]
    exact inside.started
  · rw [hands.discard, if_neg fun is => last is.2]
    exact inside.discard
  · rw [hands.mode]
    exact inside.mode
  · rw [hands.mode]
    exact inside.own
  · rw [hands.buffer]
    exact inside.stream
  · rw [hands.remaining]
    exact inside.length
  · rw [hands.available]
    by_cases isSink : other = sink
    · rw [isSink, Function.update_self]
    · rw [Function.update_of_ne isSink, available]
      exact decide_eq_false isSink

/-- One stage. -/
theorem UartToUsb.Reads.perform
    (reads : usb.Reads frames toSend reading)
    {stage : Stage}
    (counted :
      stage = .copy → usb.uartRxBufByteCount ≤ usb.uartRxBuf.count)
    (room :
      stage = .copy →
        ∀ sink length,
          usb.pieceLength sink = some length →
            usb.uartRxBuf.count - length ≤ 136)
    (uncut :
      ∀ sink,
        sink = .fido ∨ sink = .ccid →
          stage = sink.stage →
            usb.dataAvailable sink = true →
              (usb.ins .ep3).uploadBusy = false →
                usb.frameRemainingBytes = 0) :
    (usb.perform active stage).resetting = true ∨
      usb.Drains (usb.perform active stage) ∧
        ∃ reading', (usb.perform active stage).Reads frames toSend
          reading' := by
  by_cases isHeader : stage = .header
  · subst isHeader
    exact reads.takeHeader
  by_cases isCopy : stage = .copy
  · subst isCopy
    exact .inr (reads.copy (counted rfl) (room rfl))
  by_cases available :
      ∃ sink, sink.stage = stage ∧ usb.dataAvailable sink = true
  case neg =>
    have same :=
      @perform_rest active usb stage isHeader isCopy
        (fun sink isStage =>
          Bool.eq_false_of_not_eq_true fun is =>
            available ⟨sink, isStage, is⟩)
    obtain ⟨reads', drains⟩ := reads.sameFrame same
    exact .inr ⟨drains, reading, reads'⟩
  obtain ⟨sink, rfl, isAvailable⟩ := available
  by_cases command : sink = .ch552 ∧ usb.frameBuf 0 = setEndpoints
  · obtain ⟨rfl, isCommand⟩ := command
    exact .inl (resetKeep_of_command isAvailable isCommand).2
  right
  by_cases busy :
      ∃ ep, sink.endpoint = some ep ∧ (usb.ins ep).uploadBusy = true
  · obtain ⟨ep, isEndpoint, isBusy⟩ := busy
    rw [perform_of_busy isEndpoint isBusy]
    exact ⟨.takes (Nat.le_refl _) rfl, reading, reads⟩
  have free {ep : Endpoint} (isEndpoint : sink.endpoint = some ep) :
      ¬ (usb.ins ep).uploadBusy = true :=
    fun isBusy => busy ⟨ep, isEndpoint, isBusy⟩
  have hands :=
    @handsOver_perform active usb sink isAvailable free command
  refine
    ⟨.takes (Nat.le_of_eq (congrArg Ring.count hands.buffer)) hands.cts, ?_⟩
  cases reading with
  | between =>
      rw [reads.empty] at isAvailable
      cases isAvailable
  | taking frame earlier other =>
      rw [reads.2] at isAvailable
      cases isAvailable
  | staged frame earlier piece other =>
      have isOther : sink = other := by
        have only := reads.2.1 sink
        rw [isAvailable] at only
        exact of_decide_eq_true only.symm
      subst isOther
      refine reads.handsOver hands fun isCut => ?_
      refine
        uncut sink isCut rfl isAvailable
          (Bool.eq_false_of_not_eq_true (free ?_))
      rcases isCut with rfl | rfl <;> rfl

end Steps

section Runs

variable {frames : List Packet} {active : UInt8}
variable {line line' : Line}

/-- The line is somewhere in the frames of the FPGA. -/
structure Line.Follows (frames : List Packet) (line : Line) : Prop where
  running : line.chip.resetting = false
  level : line.gauge.level 133 2 ≤ 139
  counted :
    line.chip.stage = .copy →
      line.chip.uartRxBufByteCount ≤ line.chip.uartRxBuf.count
  reads :
    ∃ reading, line.chip.toUartToUsb.Reads frames line.toSend reading

theorem Line.follows_start (resetKeep : UInt8) :
    (Line.start resetKeep frames).Follows frames where
  running := rfl
  level := show 135 ≤ 139 by decide
  counted := fun is => Stage.noConfusion is
  reads := ⟨.between, rfl, rfl, fun _ => rfl, [], frames, rfl, rfl⟩

/-- A byte arrives. -/
theorem Line.Follows.receive (follows : line.Follows frames) :
    (line.step active .receive).Follows frames := by
  obtain same | ⟨byte, next, mayArrive, received⟩ :=
    @Line.step_receive active line
  · rw [same]
    exact follows
  have room := UartToUsb.room_of_gauge follows.level mayArrive
  obtain ⟨reading, reads⟩ := follows.reads
  have unread :
      (line.chip.uartRxBuf.push byte).contents ++ line.toSend.tail =
        line.chip.uartRxBuf.contents ++ line.toSend :=
    Line.unread_receive next room
  rw [received]
  refine
    { running := ?_
      level := ?_
      counted := fun isCopy => ?_
      reads := ⟨reading, reads.congr ?_ ?_⟩ }
  · rw [Chip.step_uart1]
    exact follows.running
  · refine Nat.le_trans (Nat.le_of_eq ?_)
      (Nat.le_trans
        (StopSignal.Gauge.level_arrive_le
          (UartToUsb.mayArrive_gauge mayArrive)) follows.level)
    exact congrArg _ (UartToUsb.gauge_uart1Isr room byte)
  · rw [Chip.step_uart1] at isCopy ⊢
    refine Nat.le_trans (follows.counted isCopy) ?_
    rw [Ring.count_push _ room byte]
    exact Nat.le_succ _
  · rw [Chip.step_uart1]
  · rw [Chip.step_uart1]
    exact unread

/-- The loop goes on. -/
theorem Line.Follows.main
    (follows : line.Follows frames)
    (inStep : ¬ (line.chip.Cuts ∨ line.chip.Overcommits)) :
    (line.step active .main).chip.resetting = true ∨
      (line.step active .main).Follows frames := by
  obtain ⟨reading, reads⟩ := follows.reads
  by_cases goesOn : line.chip.GoesOn
  case neg =>
    have notResetting : ¬ line.chip.resetting = true := by
      rw [follows.running]
      exact Bool.false_ne_true
    have same : line.chip.main active = line.chip := by
      rw [Chip.main, if_neg notResetting, if_pos (not_not.mp goesOn)]
    have behind : line.step active .main = line.behind line.chip := by
      rw [step, Chip.step, same]
      rfl
    rw [behind]
    exact
      .inr
        ⟨follows.running,
          Line.level_behind follows.level (.takes (Nat.le_refl _) rfl),
          follows.counted, reading, reads⟩
  have performs := @Chip.performs_main active _ follows.running goesOn
  have room (isCopy : line.chip.stage = .copy) (sink : Sink) (length : Nat)
      (takes : line.chip.toUartToUsb.pieceLength sink = some length) :
      line.chip.uartRxBuf.count - length ≤ 136 := by
    refine Nat.not_lt.mp fun many => inStep (.inr ⟨isCopy, sink, ?_, ?_⟩)
    · cases sink <;> decide
    · exact ⟨length, takes, many⟩
  have uncut (sink : Sink) (isCut : sink = .fido ∨ sink = .ccid)
      (isStage : line.chip.stage = sink.stage)
      (available : line.chip.dataAvailable sink = true)
      (free : (line.chip.ins .ep3).uploadBusy = false) :
      line.chip.frameRemainingBytes = 0 := by
    by_contra more
    refine inStep (.inl ⟨?_, free, more⟩)
    rcases isCut with rfl | rfl
    · exact .inl ⟨isStage, available⟩
    · exact .inr ⟨isStage, available⟩
  have done :=
    @UartToUsb.Reads.perform _ active _ _ _ reads _ follows.counted room uncut
  rw [← performs.usb] at done
  rcases done with resets | ⟨drains, next⟩
  · exact .inl resets
  by_cases resets : (line.step active .main).chip.resetting = true
  · exact .inl resets
  · exact
      .inr
        ⟨Bool.eq_false_of_not_eq_true resets,
          Line.level_behind follows.level drains, performs.counted, next⟩

/-- One event. -/
theorem Line.Follows.step
    (follows : line.Follows frames)
    (event : LineEvent)
    (inStep :
      ¬ (event = .main ∧ (line.chip.Cuts ∨ line.chip.Overcommits))) :
    (line.step active event).chip.resetting = true ∨
      (line.step active event).Follows frames := by
  cases event with
  | main => exact follows.main fun is => inStep ⟨rfl, is⟩
  | receive => exact .inr follows.receive
  | inToken ep =>
      rw [Line.step, Chip.step, UartToUsb.inToken_eq]
      exact
        .inr ⟨follows.running, follows.level, follows.counted, follows.reads⟩
  | outToken ep togOk packet =>
      exact
        .inr ⟨follows.running, follows.level, follows.counted, follows.reads⟩
  | setConfiguration usbConfig =>
      exact
        .inr ⟨follows.running, follows.level, follows.counted, follows.reads⟩

/-- The controller resets until it is started again. -/
theorem Line.resetting_step
    (resets : line.chip.resetting = true)
    (event : LineEvent) :
    (line.step active event).chip.resetting = true := by
  cases event with
  | main =>
      rw [step, Chip.step, Chip.main, if_pos resets]
      exact resets
  | receive =>
      obtain same | ⟨byte, -, -, received⟩ := @Line.step_receive active line
      · rw [same]
        exact resets
      · rw [received, Chip.step_uart1]
        exact resets
  | inToken ep =>
      rw [step, Chip.step, UartToUsb.inToken_eq]
      exact resets
  | outToken ep togOk packet => exact resets
  | setConfiguration usbConfig => exact resets

/-- A run. -/
theorem Line.follows_run
    (follows : line.chip.resetting = true ∨ line.Follows frames)
    (events : List LineEvent)
    (inStep : line.InStep active events) :
    (line.run active events).chip.resetting = true ∨
      (line.run active events).Follows frames := by
  induction events generalizing line with
  | nil => exact follows
  | cons event events inductionHypothesis =>
      refine inductionHypothesis ?_ inStep.2
      rcases follows with resets | follows
      · exact .inl (Line.resetting_step resets event)
      · exact follows.step event inStep.1

/-- The frame that a command is looked up for. -/
theorem Line.Follows.handles
    (follows : line.Follows frames)
    (available : line.chip.dataAvailable .ch552 = true) :
    ∃ frame earlier,
      line.Handles frames frame earlier
        (read line.chip.frameBuf 0 line.chip.frameBufLength) := by
  obtain ⟨reading, reads⟩ := follows.reads
  cases reading with
  | between =>
      rw [reads.empty] at available
      cases available
  | taking frame earlier sink =>
      rw [reads.2] at available
      cases available
  | staged frame earlier piece sink =>
      obtain ⟨inside, only, held⟩ := reads
      rw [only] at available
      have isCh552 : Sink.ch552 = sink := of_decide_eq_true available
      subst isCh552
      have notDiscard : Sink.ch552 ≠ .discard := by
        decide
      rw [held notDiscard]
      refine
        ⟨frame, earlier,
          inside.own.symm.trans (inside.mode notDiscard), inside.stream, ?_, ?_⟩
      · obtain ⟨handled, later, -, unread⟩ := inside.stream
        refine
          List.prefix_of_prefix_length_le ⟨_, unread⟩
            (List.prefix_append _ _) ?_
        exact Nat.le.intro inside.length
      · rw [← held notDiscard, length_read]

end Runs

section OwnFrames

variable {frames : List Packet} {active : UInt8} {line : Line}

/-- The argument is in the frame when two bytes have been copied. -/
theorem Line.Follows.actsOnOwnFrame_iff
    (follows : line.Follows frames)
    (commands : line.chip.Commands) :
    line.ActsOnOwnFrame active frames ↔ 2 ≤ line.chip.frameBufLength := by
  obtain ⟨isStage, available, command⟩ := commands
  constructor
  · rintro ⟨frame, earlier, argument, rest, handles, -⟩
    rw [← handles.copied]
    exact Nat.le_add_left 2 rest.length
  · intro enough
    obtain ⟨frame, earlier, handles⟩ := follows.handles available
    have goesOn : line.chip.GoesOn := by
      rw [Chip.GoesOn, isStage]
      exact fun waits => Stage.noConfusion waits.1
    have installs :
        (line.step active .main).chip.resetKeep = line.chip.frameBuf 1 := by
      have performs :=
        (@Chip.performs_main active _ follows.running goesOn).usb
      rw [isStage] at performs
      rw [Line.step, Chip.step, performs]
      exact (UartToUsb.resetKeep_of_command available command).1
    obtain ⟨more, length⟩ := Nat.exists_eq_add_of_le' enough
    rw [length, ByteMemory.read, List.range_succ_eq_map,
      List.range_succ_eq_map] at handles
    simp only [List.map_cons, List.map_map, Nat.zero_add, command] at handles
    exact ⟨frame, earlier, line.chip.frameBuf 1, _, handles, installs⟩

/--
Only a command changes the set of active endpoints.  As long as no frame is cut
and the ring has room, the frame that is handled contains the command and its
argument, and the argument is installed, exactly when two bytes have been copied
for it.
-/
theorem ch552_commands
    (active resetKeep : UInt8)
    (frames : List Packet)
    (events : List LineEvent)
    (inStep : (Line.start resetKeep frames).InStep active events) :
    let line := (Line.start resetKeep frames).run active events
    (∀ event,
      (line.step active event).chip.resetKeep ≠ line.chip.resetKeep →
        event = .main ∧ line.chip.resetting = false ∧ line.chip.Commands) ∧
      (line.chip.resetting = false → line.chip.Commands →
        (line.ActsOnOwnFrame active frames ↔
          2 ≤ line.chip.frameBufLength)) := by
  intro line
  refine ⟨fun event changes => ?_, fun running commands => ?_⟩
  · have command : event = .main ∧ line.chip.Commands :=
      not_not.mp fun spared => changes (Line.resetKeep_step spared)
    refine ⟨command.1, Bool.eq_false_of_not_eq_true fun resets => ?_, command.2⟩
    refine changes ?_
    rw [command.1, Line.step, Chip.step, Chip.main, if_pos resets]
  · have follows :=
      Line.follows_run (.inr (Line.follows_start resetKeep)) events inStep
    have running' : ¬ line.chip.resetting = true := by
      rw [running]
      exact Bool.false_ne_true
    exact (follows.resolve_left running').actsOnOwnFrame_iff commands

/-- The command to make FIDO active, as the payload of a frame. -/
def commandFrame (mode : UInt8) : Packet where
  mode := mode
  payload := [setEndpoints, ioFido]
  short := by decide

/-- Bytes arrive, and the loop comes to the handling of commands. -/
def commandLineEvents (bytes : Nat) : List LineEvent :=
  .setConfiguration 1 :: List.replicate bytes .receive ++
    List.replicate 11 .main

theorem ch552_commands_sample :
    ((Line.start 0 [commandFrame ioCh552]).run (activeEndpoints 0)
      (commandLineEvents 4)).ActsOnOwnFrame (activeEndpoints 0)
        [commandFrame ioCh552] :=
  ((ch552_commands (activeEndpoints 0) 0 [commandFrame ioCh552]
    (commandLineEvents 4) (by decide +kernel)).2 (by decide +kernel)
      (by decide +kernel)).mpr (by decide +kernel)

/--
The frame that is handled is empty, but an earlier frame for CDC has left a
command in `FrameBuf`.
-/
theorem ch552_commands_counterexample :
    let line :=
      (Line.start 0 [commandFrame ioCdc, emptyFrame ioCh552]).run
        (activeEndpoints 0)
        (.setConfiguration 1 :: List.replicate 6 .receive ++
          List.replicate 24 .main)
    line.unread = [] ∧
      line.chip.frameMode = ioCh552 ∧
      line.chip.frameLength = 0 ∧
      line.chip.resetKeep = 0 ∧
      (line.step (activeEndpoints 0) .main).chip.resetKeep = ioFido := by
  decide +kernel

end OwnFrames

end TKey.Ch552
