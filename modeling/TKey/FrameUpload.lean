import TKey.Ch552

namespace TKey.Ch552

open ByteMemory RingBuffer

/-!
# From frames to reports

What the stages of the loop make of frames on the UART: a frame is taken in
chunks, which are uploaded as reports to the endpoint of its mode.  The stages
are steps of an abstract machine that knows the frames.
-/

section Frames

/-- Where a frame of a mode goes to. -/
def sinkOf (active mode : UInt8) : Sink :=
  if mode &&& active = 0 then .discard
  else if mode = ioCdc then .cdc
  else if mode = ioFido then .fido
  else if mode = ioCcid then .ccid
  else if mode = ioDebug then .debug
  else .ch552

/-- The endpoint that gets the reports. -/
def Sink.endpoint : Sink → Option Endpoint
  | .cdc => some .ep2
  | .fido => some .ep3
  | .ccid => some .ep3
  | .debug => some .ep4
  | .ch552 => none
  | .discard => none

/-- The payload of a frame in pieces of at most `MAX_FRAME_SIZE` bytes. -/
def chunks (payload : List UInt8) : List (List UInt8) :=
  if payload.length ≤ maxFrameSize then
    [payload]
  else
    payload.take maxFrameSize :: chunks (payload.drop maxFrameSize)
termination_by payload.length
decreasing_by
  rw [List.length_drop, maxFrameSize] at *
  omega

/-- The report for a piece; FIDO and DEBUG have reports of fixed size. -/
def Sink.report (sink : Sink) (chunk : List UInt8) : List UInt8 :=
  if sink = .fido ∨ sink = .debug then
    chunk ++ List.replicate (maxPacketSize - chunk.length) 0
  else
    chunk

/-- The reports for pieces, at an endpoint. -/
def Sink.reports (sink : Sink) (ep : Endpoint) (pieces : List (List UInt8)) :
    List (List UInt8) :=
  if sink.endpoint = some ep then pieces.map sink.report else []

/-- The reports for a frame, at an endpoint. -/
def reportsOf (active : UInt8) (ep : Endpoint) (frame : Packet) :
    List (List UInt8) :=
  (sinkOf active frame.mode).reports ep (chunks frame.payload)

/-- The reports for frames, at an endpoint; empty packets do not count. -/
def expected (active : UInt8) (ep : Endpoint) (frames : List Packet) :
    List (List UInt8) :=
  (frames.flatMap (reportsOf active ep)).filter (· ≠ [])

/-- The payload that a sink can take. -/
def Sink.Takes (sink : Sink) (payload : List UInt8) : Prop :=
  (sink = .fido → payload.length = maxFrameSize) ∧
    (sink = .ccid → payload.length ≤ maxFrameSize)

/-- A frame that the loop can handle. -/
def Fits (active : UInt8) (frame : Packet) : Prop :=
  frame.mode ∈ UartToUsb.frameModes ∧
    (sinkOf active frame.mode).Takes frame.payload

/-- The pieces of a payload by the first one. -/
theorem chunks_eq (payload : List UInt8) :
    chunks payload =
      payload.take maxFrameSize ::
        (if payload.drop maxFrameSize = [] then []
          else chunks (payload.drop maxFrameSize)) := by
  rw [chunks]
  by_cases short : payload.length ≤ maxFrameSize
  · rw [if_pos short, List.take_of_length_le short,
      if_pos (List.drop_eq_nil_of_le short)]
  · rw [if_neg short,
      if_neg fun nothing => short (List.drop_eq_nil_iff.mp nothing)]

theorem expected_append
    (active : UInt8)
    (ep : Endpoint)
    (first second : List Packet) :
    expected active ep (first ++ second) =
      expected active ep first ++ expected active ep second := by
  rw [expected, List.flatMap_append, List.filter_append]
  rfl

/-- The reports of a sink with an endpoint. -/
theorem Sink.reports_self
    {sink : Sink}
    {ep : Endpoint}
    (isEndpoint : sink.endpoint = some ep)
    (pieces : List (List UInt8)) :
    sink.reports ep pieces = pieces.map sink.report :=
  if_pos isEndpoint

theorem Sink.reports_other
    {sink : Sink}
    {ep : Endpoint}
    (other : sink.endpoint ≠ some ep)
    (pieces : List (List UInt8)) :
    sink.reports ep pieces = [] :=
  if_neg other

theorem Sink.reports_cons
    (sink : Sink)
    (ep : Endpoint)
    (chunk : List UInt8)
    (pieces : List (List UInt8)) :
    sink.reports ep (chunk :: pieces) =
      sink.reports ep [chunk] ++ sink.reports ep pieces := by
  rw [reports, reports, reports]
  split <;> rfl

end Frames

section Abstract

/-- How far a frame has been handled; `rest` has not been taken yet. -/
inductive Phase where
  | between
  | taking (sink : Sink) (rest : List UInt8)
  | staged (sink : Sink) (chunk rest : List UInt8)

namespace Phase

/-- The bytes of the frame that have not been taken. -/
def rest : Phase → List UInt8
  | between => []
  | taking _ rest => rest
  | staged _ _ rest => rest

/-- The reports that are still to come from the frame. -/
def reports (ep : Endpoint) : Phase → List (List UInt8)
  | between => []
  | taking sink rest => sink.reports ep (chunks rest)
  | staged sink chunk rest =>
      sink.reports ep (chunk :: (if rest = [] then [] else chunks rest))

/-- What is left to do in the frame. -/
def weight : Phase → Nat
  | between => 0
  | taking _ _ => 4
  | staged _ _ rest => if rest = [] then 2 else 6

/-- The phase behind a piece that has been handed over. -/
def afterPiece (sink : Sink) (rest : List UInt8) : Phase :=
  if rest = [] then between else taking sink rest

theorem rest_afterPiece (sink : Sink) (rest : List UInt8) :
    (afterPiece sink rest).rest = rest := by
  rw [afterPiece]
  by_cases last : rest = []
  · rw [if_pos last, last]
    rfl
  · rw [if_neg last]
    rfl

end Phase

/-- The reports that are still to come. -/
def coming (active : UInt8) (ep : Endpoint) (phase : Phase)
    (later : List Packet) : List (List UInt8) :=
  (phase.reports ep).filter (· ≠ []) ++ expected active ep later

/-- One step in the handling of frames, with the report that it delivers. -/
inductive Advance (active : UInt8) :
    Phase → List Packet → (Endpoint → List (List UInt8)) →
      Phase → List Packet → Prop where
  /-- The header of the next frame is taken. -/
  | header (frame : Packet) (later : List Packet) :
      Advance active .between (frame :: later) (fun _ => [])
        (.taking (sinkOf active frame.mode) frame.payload) later
  /-- A piece is taken. -/
  | piece (sink : Sink) (rest : List UInt8) (later : List Packet) :
      Advance active (.taking sink rest) later (fun _ => [])
        (.staged sink (rest.take maxFrameSize) (rest.drop maxFrameSize))
        later
  /-- A piece is handed over. -/
  | handOver (sink : Sink) (chunk rest : List UInt8) (later : List Packet) :
      Advance active (.staged sink chunk rest) later
        (fun ep => sink.reports ep [chunk])
        (.afterPiece sink rest) later

namespace Advance

variable {active : UInt8} {phase phase' : Phase} {later later' : List Packet}
variable {out : Endpoint → List (List UInt8)}

/-- No report is lost and none comes twice. -/
theorem coming_eq
    (advance : Advance active phase later out phase' later')
    (ep : Endpoint) :
    (out ep).filter (· ≠ []) ++ coming active ep phase' later' =
      coming active ep phase later := by
  cases advance with
  | header frame later =>
      have first :
          expected active ep [frame] =
            (reportsOf active ep frame).filter (· ≠ []) := by
        rw [expected, List.flatMap_singleton]
      rw [coming, coming, ← List.singleton_append, expected_append, first]
      rfl
  | piece sink rest later =>
      rw [coming, coming, Phase.reports, Phase.reports, chunks_eq rest]
      rfl
  | handOver sink chunk rest later =>
      rw [coming, coming, Phase.reports, Sink.reports_cons,
        List.filter_append, List.append_assoc, Phase.afterPiece]
      by_cases last : rest = []
      · have nothing : sink.reports ep [] = [] := by
          rw [Sink.reports]
          split <;> rfl
        rw [if_pos last, if_pos last, nothing]
        rfl
      · rw [if_neg last, if_neg last]
        rfl

/-- Frames are handled one after the other. -/
theorem handled
    (advance : Advance active phase later out phase' later') :
    ∃ frames, later = frames ++ later' := by
  cases advance with
  | header frame later => exact ⟨[frame], rfl⟩
  | piece sink rest later => exact ⟨[], rfl⟩
  | handOver sink chunk rest later => exact ⟨[], rfl⟩

/-- Bytes are taken from the front. -/
theorem taken
    (advance : Advance active phase later out phase' later') :
    ∃ bytes,
      phase.rest ++ wire later = bytes ++ (phase'.rest ++ wire later') ∧
        phase'.weight + 2 ≤ 4 * bytes.length + phase.weight := by
  cases advance with
  | header frame later =>
      refine ⟨[frame.mode, UInt8.ofNat frame.payload.length], ?_, ?_⟩
      · exact wire_cons frame _
      · rw [Phase.weight, Phase.weight, List.length_cons,
          List.length_singleton]
        omega
  | piece sink rest later =>
      refine ⟨rest.take maxFrameSize, ?_, ?_⟩
      · rw [Phase.rest, Phase.rest, ← List.append_assoc,
          List.take_append_drop]
      · rw [Phase.weight, Phase.weight]
        by_cases last : rest.drop maxFrameSize = []
        · rw [if_pos last]
          omega
        · have long : maxFrameSize < rest.length :=
            Nat.lt_of_not_le (mt List.drop_eq_nil_iff.mpr last)
          rw [if_neg last,
            List.length_take_of_le (Nat.le_of_lt long), maxFrameSize]
          omega
  | handOver sink chunk rest later =>
      refine ⟨[], ?_, ?_⟩
      · rw [Phase.rest_afterPiece]
        rfl
      · rw [Phase.afterPiece, Phase.weight]
        by_cases last : rest = []
        · rw [if_pos last, if_pos last, Phase.weight]
          omega
        · rw [if_neg last, if_neg last, Phase.weight]
          omega

end Advance

end Abstract

section Positions

/-- The mode of the frames for a sink. -/
def Sink.mode : Sink → UInt8
  | .cdc => ioCdc
  | .fido => ioFido
  | .ccid => ioCcid
  | .debug => ioDebug
  | .ch552 => ioCh552
  | .discard => ioNone

/-- The stage that uses the data of a sink. -/
def Sink.stage : Sink → Stage
  | .cdc => .cdc
  | .fido => .fido
  | .ccid => .ccid
  | .debug => .debug
  | .ch552 => .ch552
  | .discard => .discard

/-- The next byte is the mode of a frame. -/
structure FrameState.Between (frame : FrameState) : Prop where
  notStarted : frame.frameStarted = false
  keeps : frame.frameDiscard = false
  empty : ∀ sink, frame.dataAvailable sink = false

/-- Bytes of a frame are to be taken. -/
structure FrameState.Taking
    (frame : FrameState)
    (sink : Sink)
    (rest : List UInt8) : Prop where
  started : frame.frameStarted = true
  discard : frame.frameDiscard = decide (sink = .discard)
  empty : ∀ other, frame.dataAvailable other = false
  remaining : frame.frameRemainingBytes = rest.length
  mode : sink ≠ .discard → frame.frameMode = sink.mode
  takes : sink.Takes rest

/--
A piece of a frame is to be handed over.  Only while more of the frame is to be
copied does its mode matter.
-/
structure FrameState.Staged
    (frame : FrameState)
    (sink : Sink)
    (chunk rest : List UInt8) : Prop where
  started : frame.frameStarted = true
  discard : frame.frameDiscard = decide (sink = .discard)
  available : ∀ other, frame.dataAvailable other = decide (other = sink)
  remaining : frame.frameRemainingBytes = rest.length
  mode :
    sink ≠ .discard →
      frame.frameMode = sink.mode ∨ frame.frameMode = ioNone ∧ rest = []
  held : sink ≠ .discard → read frame.frameBuf 0 frame.frameBufLength = chunk
  short : chunk.length ≤ maxFrameSize
  whole : sink = .fido → chunk.length = maxFrameSize
  last : sink = .fido ∨ sink = .ccid → rest = []

/-- Where the machine is in a frame. -/
def FrameState.At (frame : FrameState) : Phase → Prop
  | .between => frame.Between
  | .taking sink rest => frame.Taking sink rest
  | .staged sink chunk rest => frame.Staged sink chunk rest

/-- The packets that the host has got or can collect; empty ones don't count. -/
def InEndpoint.given (endpoint : InEndpoint) : List (List UInt8) :=
  (endpoint.collected ++
    if endpoint.uploadBusy then
      [read endpoint.bufferTx 0 endpoint.tLen]
    else
      []).filter (· ≠ [])

theorem Sink.mode_injective
    {sink other : Sink}
    (same : sink.mode = other.mode) :
    sink = other := by
  cases sink <;> cases other <;>
    first | rfl | exact absurd same (by decide)

/-- The mode of a frame is that of its sink. -/
theorem mode_sinkOf
    {active mode : UInt8}
    (known : mode ∈ UartToUsb.frameModes)
    (active_ : sinkOf active mode ≠ .discard) :
    mode = (sinkOf active mode).mode := by
  rw [sinkOf] at active_ ⊢
  split at active_
  · exact absurd rfl active_
  rename_i isActive
  rw [if_neg isActive]
  have cases := known
  simp only [UartToUsb.frameModes, List.mem_cons, List.not_mem_nil,
    or_false] at cases
  rcases cases with rfl | rfl | rfl | rfl | rfl <;> rfl

theorem sinkOf_eq_discard_iff {active mode : UInt8} :
    sinkOf active mode = .discard ↔ mode &&& active = 0 := by
  rw [sinkOf]
  by_cases isInactive : mode &&& active = 0
  · rw [if_pos isInactive]
    exact ⟨fun _ => isInactive, fun _ => rfl⟩
  · rw [if_neg isInactive]
    constructor
    · intro isDiscard
      split_ifs at isDiscard
    · intro is
      exact absurd is isInactive

/-- After a piece the frame goes on, or the next one follows. -/
theorem FrameState.Staged.at_afterPiece
    {frame frame' : FrameState}
    {sink : Sink}
    {chunk rest : List UInt8}
    (staged : frame.Staged sink chunk rest)
    (empty : ∀ other, frame'.dataAvailable other = false)
    (started : frame'.frameStarted = decide (rest ≠ []))
    (discard : frame'.frameDiscard = decide (sink = .discard ∧ rest ≠ []))
    (remaining : frame'.frameRemainingBytes = frame.frameRemainingBytes)
    (mode : frame'.frameMode = frame.frameMode) :
    frame'.At (.afterPiece sink rest) := by
  rw [Phase.afterPiece]
  by_cases last : rest = []
  · rw [if_pos last]
    refine ⟨?_, ?_, empty⟩
    · rw [started, last]
      rfl
    · rw [discard]
      exact decide_eq_false fun is => is.2 last
  · rw [if_neg last]
    refine ⟨?_, ?_, empty, ?_, ?_, ?_, ?_⟩
    · rw [started]
      exact decide_eq_true last
    · rw [discard]
      exact decide_eq_decide.mpr ⟨fun is => is.1, fun is => ⟨is, last⟩⟩
    · rw [remaining]
      exact staged.remaining
    · intro notDiscard
      rw [mode]
      exact
        (staged.mode notDiscard).resolve_right fun is => last is.2
    · intro isFido
      exact absurd (staged.last (.inl isFido)) last
    · intro isCcid
      exact absurd (staged.last (.inr isCcid)) last

end Positions

section Stages

/-- A stage that does nothing to frames. -/
structure UartToUsb.Rests (usb usb' : UartToUsb) : Prop where
  frame : usb'.toFrameState = usb.toFrameState
  buffer : usb'.uartRxBuf = usb.uartRxBuf
  cts : usb'.ctsStopped = usb.ctsStopped
  resetting : usb'.resetting = usb.resetting
  given : ∀ ep, (usb'.ins ep).given = (usb.ins ep).given
  armed : ∀ ep, (usb'.ins ep).uploadBusy = (usb'.ins ep).acks
  /-- An endpoint gets busy for a zero-length packet only. -/
  zeroLen :
    usb'.ins = usb.ins ∧
        usb'.cdcSendZeroLenPacket = usb.cdcSendZeroLenPacket ∨
      usb.cdcSendZeroLenPacket = true ∧ usb'.cdcSendZeroLenPacket = false

/-- A stage that takes the handling of frames a step further. -/
structure UartToUsb.Moves
    (active : UInt8)
    (usb : UartToUsb)
    (phase : Phase)
    (later : List Packet)
    (usb' : UartToUsb)
    (phase' : Phase)
    (later' : List Packet)
    (out : Endpoint → List (List UInt8)) : Prop where
  advance : Advance active phase later out phase' later'
  position : usb'.toFrameState.At phase'
  unread :
    ∀ beyond,
      usb.uartRxBuf.contents ++ beyond = phase.rest ++ wire later →
        usb'.uartRxBuf.contents ++ beyond = phase'.rest ++ wire later'
  cts :
    usb'.ctsStopped =
      match phase with
      | .taking _ _ => false
      | _ => usb.ctsStopped
  resetting : usb'.resetting = usb.resetting
  given :
    ∀ ep,
      (usb'.ins ep).given = (usb.ins ep).given ++ (out ep).filter (· ≠ [])
  armed : ∀ ep, (usb'.ins ep).uploadBusy = (usb'.ins ep).acks

/-- A stage has something to do for frames. -/
def UartToUsb.Due (usb : UartToUsb) (stage : Stage) : Phase → Prop
  | .between => stage = .header ∧ 2 ≤ usb.uartRxBuf.count
  | .taking _ rest =>
      stage = .copy ∧
        min maxFrameSize rest.length ≤ usb.uartRxBufByteCount
  | .staged sink _ _ =>
      stage = sink.stage ∧
        ∀ ep, sink.endpoint = some ep → (usb.ins ep).uploadBusy = false

/-- A stage that does nothing at all. -/
theorem UartToUsb.Rests.refl
    {usb : UartToUsb}
    (armed : ∀ ep, (usb.ins ep).uploadBusy = (usb.ins ep).acks) :
    usb.Rests usb :=
  ⟨rfl, rfl, rfl, rfl, fun _ => rfl, armed, .inl ⟨rfl, rfl⟩⟩

section Header

variable {active : UInt8} {usb : UartToUsb}

/-- Without a header to take only the bytes are counted. -/
theorem UartToUsb.rests_takeHeader
    (armed : ∀ ep, (usb.ins ep).uploadBusy = (usb.ins ep).acks)
    (none : ¬ (2 ≤ usb.uartRxBuf.count ∧ usb.frameStarted = false)) :
    usb.Rests (usb.takeHeader active) := by
  have counts :
      usb.takeHeader active =
        { usb with uartRxBufByteCount := usb.uartRxBuf.count } := by
    refine if_neg fun header => none ⟨header.1, ?_⟩
    exact Bool.eq_false_of_not_eq_true header.2
  rw [counts]
  exact ⟨rfl, rfl, rfl, rfl, fun _ => rfl, armed, .inl ⟨rfl, rfl⟩⟩

/-- The first two bytes are a header. -/
theorem UartToUsb.takeHeader_of_contents
    {mode length : UInt8}
    {more : List UInt8}
    (contents : usb.uartRxBuf.contents = mode :: length :: more)
    (notStarted : usb.frameStarted = false)
    (known : mode ∈ frameModes) :
    usb.takeHeader active =
      { usb with
        uartRxBufByteCount := usb.uartRxBuf.count - 2
        frameMode := mode
        frameLength := length
        frameRemainingBytes := length.toNat
        uartRxBuf := usb.uartRxBuf.advance 2
        frameStarted := true
        frameDiscard :=
          if mode &&& active = 0 then true else usb.frameDiscard } := by
  obtain ⟨cellMode, cellLength⟩ := usb.uartRxBuf.cells_first_two contents
  have count : 2 ≤ usb.uartRxBuf.count := by
    rw [← Ring.length_contents, contents]
    exact Nat.le_add_left 2 more.length
  rw [takeHeader]
  simp only [cellMode, cellLength]
  rw [if_pos, if_pos known]
  exact ⟨count, by rw [notStarted]; exact Bool.false_ne_true⟩

/-- The bytes behind a header. -/
theorem UartToUsb.contents_behind_header
    {mode length : UInt8}
    {more : List UInt8}
    (contents : usb.uartRxBuf.contents = mode :: length :: more) :
    (usb.uartRxBuf.advance 2).contents = more := by
  have count : 2 ≤ usb.uartRxBuf.count := by
    rw [← Ring.length_contents, contents]
    exact Nat.le_add_left 2 more.length
  rw [Ring.contents_advance _ count, contents]
  rfl

/-- Two bytes that have arrived. -/
theorem UartToUsb.exists_header
    (arrived : 2 ≤ usb.uartRxBuf.count) :
    ∃ mode length more,
      usb.uartRxBuf.contents = mode :: length :: more := by
  rw [← Ring.length_contents] at arrived
  match usb.uartRxBuf.contents, arrived with
  | mode :: length :: more, _ => exact ⟨mode, length, more, rfl⟩

/-- The loop takes the header of the next frame. -/
theorem UartToUsb.moves_takeHeader
    (armed : ∀ ep, (usb.ins ep).uploadBusy = (usb.ins ep).acks)
    (between : usb.Between)
    {frame : Packet}
    {later : List Packet}
    (fits : Fits active frame)
    (arrived : 2 ≤ usb.uartRxBuf.count)
    {beyond : List UInt8}
    (unread :
      usb.uartRxBuf.contents ++ beyond =
        Phase.between.rest ++ wire (frame :: later)) :
    usb.Moves active .between (frame :: later) (usb.takeHeader active)
      (.taking (sinkOf active frame.mode) frame.payload) later
      (fun _ => []) := by
  obtain ⟨mode, length, more, contents⟩ := exists_header arrived
  rw [contents, Phase.rest, wire_cons] at unread
  obtain ⟨isMode, unread⟩ := List.cons_eq_cons.mp unread
  obtain ⟨isLength, unread⟩ := List.cons_eq_cons.mp unread
  rw [isMode, isLength] at contents
  rw [takeHeader_of_contents contents between.notStarted fits.1]
  refine
    ⟨.header frame later, ⟨rfl, ?_, between.empty, ?_, ?_, fits.2⟩, ?_, rfl,
      rfl, fun _ => (List.append_nil _).symm, armed⟩
  · simp only [between.keeps]
    by_cases isInactive : frame.mode &&& active = 0
    · rw [if_pos isInactive,
        decide_eq_true (sinkOf_eq_discard_iff.mpr isInactive)]
    · rw [if_neg isInactive,
        decide_eq_false (mt sinkOf_eq_discard_iff.mp isInactive)]
  · exact toNat_ofNat_length frame
  · exact mode_sinkOf fits.1
  · intro beyond' unread'
    rw [contents, Phase.rest, wire_cons] at unread'
    show (usb.uartRxBuf.advance 2).contents ++ beyond' = _
    rw [contents_behind_header contents]
    exact
      (List.cons_eq_cons.mp (List.cons_eq_cons.mp unread').2).2

end Header

section Copy

variable {active : UInt8} {usb : UartToUsb}

/-- Data is copied for a sink. -/
def UartToUsb.Copies (usb : UartToUsb) (sink : Sink) : Prop :=
  usb.frameStarted ∧ ¬ usb.frameDiscard ∧ ¬ usb.dataAvailable sink ∧
    usb.frameMode = sink.mode

/-- The copying of data for a sink; only FIDO has no branch for a tail. -/
def UartToUsb.copyFor (usb : UartToUsb) (sink : Sink) : UartToUsb :=
  usb.copyData sink sink.mode (decide (sink ≠ .fido))

theorem UartToUsb.perform_copy :
    usb.perform active .copy =
      ([Sink.cdc, .fido, .ccid, .debug, .ch552].foldl copyFor
        usb).discardFrame :=
  rfl

/-- Nothing is copied for other sinks. -/
theorem UartToUsb.foldl_copyFor
    {sinks : List Sink}
    (none : ∀ sink, sink ∈ sinks → ¬ usb.Copies sink) :
    sinks.foldl copyFor usb = usb := by
  induction sinks with
  | nil => rfl
  | cons sink sinks inductionHypothesis =>
      have same : usb.copyFor sink = usb :=
        if_neg (none sink List.mem_cons_self)
      rw [List.foldl_cons, same]
      exact
        inductionHypothesis fun other member =>
          none other (List.mem_cons_of_mem _ member)

/-- When nothing is copied or discarded the stage does nothing. -/
theorem UartToUsb.perform_copy_of_none
    (none : ∀ sink, sink ≠ .discard → ¬ usb.Copies sink)
    (keeps :
      ¬ (usb.frameStarted ∧ usb.frameDiscard ∧
        ¬ usb.dataAvailable .discard)) :
    usb.perform active .copy = usb := by
  rw [perform_copy, foldl_copyFor]
  · exact if_neg keeps
  · intro sink member
    refine none sink ?_
    rintro rfl
    exact absurd member (by decide)

/-- A mode that is being copied is copied for its own sink only. -/
theorem UartToUsb.perform_copy_of_mode
    {sink : Sink}
    (notDiscard : sink ≠ .discard)
    (copies : usb.Copies sink) :
    usb.perform active .copy =
      match usb.chunkLength (decide (sink ≠ .fido)) with
      | some length => usb.copyBytes sink length
      | none => usb := by
  have listed : sink ∈ [Sink.cdc, .fido, .ccid, .debug, .ch552] := by
    cases sink <;> first | exact absurd rfl notDiscard | decide
  have once : [Sink.cdc, .fido, .ccid, .debug, .ch552].Nodup := by
    decide
  obtain ⟨before, after, split⟩ := List.append_of_mem listed
  rw [split, List.nodup_append] at once
  have others (usb' : UartToUsb) (same : usb'.frameMode = usb.frameMode)
      {other : Sink} (isOther : other ≠ sink) : ¬ usb'.Copies other := by
    intro copies'
    refine isOther (Sink.mode_injective ?_)
    rw [← copies'.2.2.2, same, copies.2.2.2]
  have copied :
      usb.copyFor sink =
        match usb.chunkLength (decide (sink ≠ .fido)) with
        | some length => usb.copyBytes sink length
        | none => usb :=
    if_pos copies
  have sameMode :
      (usb.copyFor sink).frameMode = usb.frameMode ∧
        (usb.copyFor sink).frameDiscard = usb.frameDiscard := by
    rw [copied]
    split <;> exact ⟨rfl, rfl⟩
  have first : before.foldl copyFor usb = usb := by
    refine foldl_copyFor fun other member => others _ rfl ?_
    rintro rfl
    exact once.2.2 _ member _ List.mem_cons_self rfl
  have second : after.foldl copyFor (usb.copyFor sink) = usb.copyFor sink := by
    refine foldl_copyFor fun other member => others _ sameMode.1 ?_
    rintro rfl
    exact (List.nodup_cons.mp once.2.1).1 member
  rw [perform_copy, split, List.foldl_append, List.foldl_cons, first, second,
    discardFrame, if_neg, copied]
  rintro ⟨_, discards, _⟩
  rw [sameMode.2] at discards
  exact copies.2.1 discards

/-- What is taken next are whole pieces. -/
theorem UartToUsb.chunkLength_eq
    {rest : List UInt8}
    (remaining : usb.frameRemainingBytes = rest.length)
    {tail : Bool}
    (whole : tail = false → rest.length = maxFrameSize) :
    usb.chunkLength tail =
      if min maxFrameSize rest.length ≤ usb.uartRxBufByteCount then
        some (min maxFrameSize rest.length)
      else
        none := by
  rw [chunkLength, remaining]
  rcases Nat.lt_or_ge rest.length maxFrameSize with short | long
  · have isTail : tail = true := by
      by_contra notTail
      have is := whole (Bool.eq_false_of_not_eq_true notTail)
      omega
    rw [if_neg fun is => absurd is.1 (Nat.not_le.mpr short),
      Nat.min_eq_right (Nat.le_of_lt short)]
    by_cases arrived : rest.length ≤ usb.uartRxBufByteCount
    · rw [if_pos ⟨isTail, short, arrived⟩, if_pos arrived]
    · rw [if_neg fun is => arrived is.2.2, if_neg arrived]
  · rw [Nat.min_eq_left long]
    by_cases arrived : maxFrameSize ≤ usb.uartRxBufByteCount
    · rw [if_pos ⟨long, arrived⟩, if_pos arrived]
    · rw [if_neg fun is => arrived is.2,
        if_neg fun is => absurd is.2.1 (Nat.not_lt.mpr long),
        if_neg arrived]

/-- Bytes that have arrived are the next ones of the frame. -/
theorem taken_of_unread
    {contents beyond rest more : List UInt8}
    (unread : contents ++ beyond = rest ++ more)
    (arrived : min maxFrameSize rest.length ≤ contents.length) :
    contents.take (min maxFrameSize rest.length) =
        rest.take maxFrameSize ∧
      contents.drop (min maxFrameSize rest.length) ++ beyond =
        rest.drop maxFrameSize ++ more := by
  have inRest : min maxFrameSize rest.length ≤ rest.length :=
    Nat.min_le_right _ _
  have taken :
      rest.take maxFrameSize = rest.take (min maxFrameSize rest.length) :=
    List.take_eq_take_min
  have left :
      rest.drop maxFrameSize = rest.drop (min maxFrameSize rest.length) :=
    List.drop_eq_drop_min
  rw [taken, left, ← List.take_append_of_le_length inRest,
    ← List.drop_append_of_le_length inRest, ← unread,
    List.take_append_of_le_length arrived,
    List.drop_append_of_le_length arrived]
  exact ⟨rfl, rfl⟩

/-- A piece has been taken. -/
theorem FrameState.Taking.staged
    {frame frame' : FrameState}
    {sink : Sink}
    {rest : List UInt8}
    (taking : frame.Taking sink rest)
    (started : frame'.frameStarted = frame.frameStarted)
    (discard : frame'.frameDiscard = frame.frameDiscard)
    (mode : frame'.frameMode = frame.frameMode)
    (available :
      frame'.dataAvailable = Function.update frame.dataAvailable sink true)
    (remaining :
      frame'.frameRemainingBytes =
        frame.frameRemainingBytes - min maxFrameSize rest.length)
    (held :
      sink ≠ .discard →
        read frame'.frameBuf 0 frame'.frameBufLength =
          rest.take maxFrameSize) :
    frame'.Staged sink (rest.take maxFrameSize)
      (rest.drop maxFrameSize) where
  started := started.trans taking.started
  discard := discard.trans taking.discard
  available := by
    intro other
    rw [available]
    by_cases isSink : other = sink
    · rw [isSink, Function.update_self, decide_eq_true rfl]
    · rw [Function.update_of_ne isSink, decide_eq_false isSink]
      exact taking.empty other
  remaining := by
    rw [remaining, taking.remaining, List.length_drop]
    omega
  mode := fun notDiscard => .inl (mode.trans (taking.mode notDiscard))
  held := held
  short := by
    rw [List.length_take]
    exact Nat.min_le_left _ _
  whole := fun isFido => by
    rw [List.length_take, taking.takes.1 isFido, Nat.min_self]
  last := by
    rintro (isFido | isCcid)
    · exact
        List.drop_eq_nil_of_le (Nat.le_of_eq (taking.takes.1 isFido))
    · exact List.drop_eq_nil_of_le (taking.takes.2 isCcid)

/-- Between frames nothing is copied. -/
theorem UartToUsb.perform_copy_between (between : usb.Between) :
    usb.perform active .copy = usb := by
  have notStarted : ¬ usb.frameStarted = true := by
    rw [between.notStarted]
    exact Bool.false_ne_true
  exact
    perform_copy_of_none (fun _ _ copies => notStarted copies.1)
      fun discards => notStarted discards.1

/-- Nothing is copied while a piece waits to be handed over. -/
theorem UartToUsb.perform_copy_staged
    {sink : Sink}
    {chunk rest : List UInt8}
    (staged : usb.Staged sink chunk rest) :
    usb.perform active .copy = usb := by
  have available : usb.dataAvailable sink = true := by
    rw [staged.available]
    exact decide_eq_true rfl
  apply perform_copy_of_none
  · rintro other isSink ⟨_, keeps, free, mode⟩
    have notDiscard : sink ≠ .discard := by
      rintro rfl
      exact keeps staged.discard
    rcases staged.mode notDiscard with same | ⟨none, _⟩
    · have isOther := Sink.mode_injective (mode.symm.trans same)
      rw [isOther] at free
      exact free available
    · have isDiscard : other.mode = Sink.discard.mode := mode.symm.trans none
      exact isSink (Sink.mode_injective isDiscard)
  · rintro ⟨_, discards, free⟩
    rw [staged.discard] at discards
    rw [of_decide_eq_true discards] at available
    exact free available

variable
  {sink : Sink}
  {rest : List UInt8}
  (taking : usb.Taking sink rest)

include taking in
/-- A piece is taken when all of it has arrived. -/
theorem UartToUsb.perform_copy_taking :
    usb.perform active .copy =
      if min maxFrameSize rest.length ≤ usb.uartRxBufByteCount then
        if sink = .discard then
          usb.skip sink (min maxFrameSize rest.length)
        else
          usb.copyBytes sink (min maxFrameSize rest.length)
      else
        usb := by
  have empty (other) : ¬ usb.dataAvailable other = true := by
    rw [taking.empty]
    exact Bool.false_ne_true
  by_cases isDiscard : sink = .discard
  · subst isDiscard
    have discards : usb.frameDiscard = true := taking.discard
    have none (other) : ¬ usb.Copies other := by
      rintro ⟨_, keeps, _⟩
      exact keeps discards
    have tail : true = false → rest.length = maxFrameSize :=
      fun is => Bool.noConfusion is
    rw [perform_copy, foldl_copyFor fun other _ => none other,
      discardFrame, if_pos ⟨taking.started, discards, empty _⟩,
      chunkLength_eq taking.remaining tail, if_pos rfl]
    by_cases arrived :
        min maxFrameSize rest.length ≤ usb.uartRxBufByteCount
    · rw [if_pos arrived, if_pos arrived]
    · rw [if_neg arrived, if_neg arrived]
  · have copies : usb.Copies sink := by
      refine ⟨taking.started, ?_, empty _, taking.mode isDiscard⟩
      rw [taking.discard, decide_eq_false isDiscard]
      exact Bool.false_ne_true
    have tail :
        decide (sink ≠ .fido) = false → rest.length = maxFrameSize := by
      intro isFido
      exact taking.takes.1 (not_not.mp (of_decide_eq_false isFido))
    rw [perform_copy_of_mode isDiscard copies,
      chunkLength_eq taking.remaining tail, if_neg isDiscard]
    by_cases arrived :
        min maxFrameSize rest.length ≤ usb.uartRxBufByteCount
    · rw [if_pos arrived, if_pos arrived]
    · rw [if_neg arrived, if_neg arrived]

variable (armed : ∀ ep, (usb.ins ep).uploadBusy = (usb.ins ep).acks)

include armed taking in
/-- A piece that has not arrived is not taken. -/
theorem UartToUsb.rests_copy_taking
    (missing : ¬ min maxFrameSize rest.length ≤ usb.uartRxBufByteCount) :
    usb.Rests (usb.perform active .copy) := by
  rw [perform_copy_taking taking, if_neg missing]
  exact Rests.refl armed

include armed taking in
/-- The loop takes a piece that has arrived. -/
theorem UartToUsb.moves_copy
    {later : List Packet}
    (counted : usb.uartRxBufByteCount ≤ usb.uartRxBuf.count)
    {beyond : List UInt8}
    (unread :
      usb.uartRxBuf.contents ++ beyond = rest ++ wire later)
    (arrived : min maxFrameSize rest.length ≤ usb.uartRxBufByteCount) :
    usb.Moves active (.taking sink rest) later (usb.perform active .copy)
      (.staged sink (rest.take maxFrameSize) (rest.drop maxFrameSize)) later
      (fun _ => []) := by
  have inBuffer := Nat.le_trans arrived counted
  have inContents := inBuffer
  rw [← Ring.length_contents] at inContents
  have left (beyond')
      (unread' :
        usb.uartRxBuf.contents ++ beyond' = rest ++ wire later) :
      (usb.uartRxBuf.advance (min maxFrameSize rest.length)).contents ++
          beyond' =
        rest.drop maxFrameSize ++ wire later := by
    rw [Ring.contents_advance _ inBuffer]
    exact (taken_of_unread unread' inContents).2
  rw [perform_copy_taking taking, if_pos arrived]
  by_cases isDiscard : sink = .discard
  · rw [if_pos isDiscard]
    exact
      ⟨.piece _ _ _,
        taking.staged rfl rfl rfl rfl rfl (fun is => absurd isDiscard is),
        left, rfl, rfl, fun _ => (List.append_nil _).symm, armed⟩
  · rw [if_neg isDiscard]
    refine
      ⟨.piece _ _ _, taking.staged rfl rfl rfl rfl rfl fun _ => ?_, left,
        rfl, rfl, fun _ => (List.append_nil _).symm, armed⟩
    have bytes := usb.uartRxBuf.copy_output inBuffer
    have length :
        (usb.uartRxBuf.copy usb.uartRxBuf.output
          (min maxFrameSize rest.length)).length =
            min maxFrameSize rest.length := by
      rw [bytes, List.length_take_of_le inContents]
    have stored :=
      read_write_same usb.frameBuf 0
        (usb.uartRxBuf.copy usb.uartRxBuf.output
          (min maxFrameSize rest.length))
    rw [length] at stored
    refine stored.trans (bytes.trans ?_)
    exact (taken_of_unread unread inContents).1

end Copy

section HandOver

variable {active : UInt8} {usb : UartToUsb}

/-- A sink without data is left alone. -/
theorem UartToUsb.perform_of_unavailable
    {sink : Sink}
    (unavailable : usb.dataAvailable sink = false) :
    usb.perform active sink.stage = usb := by
  have none : ¬ usb.dataAvailable sink = true := by
    rw [unavailable]
    exact Bool.false_ne_true
  cases sink with
  | cdc => exact if_neg fun is => none is.1
  | fido => exact if_neg fun is => none is.1
  | ccid => exact if_neg fun is => none is.1
  | debug => exact if_neg fun is => none is.1
  | ch552 => exact if_neg none
  | discard => exact if_neg none

/-- Nothing is uploaded to an endpoint that is busy. -/
theorem UartToUsb.perform_of_busy
    {sink : Sink}
    {ep : Endpoint}
    (isEndpoint : sink.endpoint = some ep)
    (busy : (usb.ins ep).uploadBusy = true) :
    usb.perform active sink.stage = usb := by
  cases sink <;> cases isEndpoint <;> exact if_neg fun is => is.2 busy

theorem UartToUsb.ins_arm_self
    (ep : Endpoint)
    (bufferTx : Memory)
    (tLen : Nat) :
    (usb.arm ep bufferTx tLen).ins ep =
      { usb.ins ep with
        bufferTx := bufferTx
        uploadBusy := true
        tLen := tLen
        acks := true } :=
  Function.update_self _ _ _

theorem UartToUsb.ins_arm_of_ne
    {ep other : Endpoint}
    (isOther : other ≠ ep)
    (bufferTx : Memory)
    (tLen : Nat) :
    (usb.arm ep bufferTx tLen).ins other = usb.ins other :=
  Function.update_of_ne isOther _ _

/-- A report for the host. -/
theorem UartToUsb.given_arm
    {ep : Endpoint}
    (free : ¬ (usb.ins ep).uploadBusy = true)
    (bufferTx : Memory)
    (tLen : Nat)
    (other : Endpoint) :
    ((usb.arm ep bufferTx tLen).ins other).given =
      (usb.ins other).given ++
        (if other = ep then [read bufferTx 0 tLen] else []).filter
          (· ≠ []) := by
  by_cases isEp : other = ep
  · rw [isEp, ins_arm_self, InEndpoint.given, InEndpoint.given, if_pos rfl,
      if_neg free, if_pos rfl, List.filter_append, List.append_nil]
  · rw [ins_arm_of_ne isEp, if_neg isEp]
    exact (List.append_nil _).symm

theorem UartToUsb.armed_arm
    (armed : ∀ ep, (usb.ins ep).uploadBusy = (usb.ins ep).acks)
    (ep : Endpoint)
    (bufferTx : Memory)
    (tLen : Nat)
    (other : Endpoint) :
    ((usb.arm ep bufferTx tLen).ins other).uploadBusy =
      ((usb.arm ep bufferTx tLen).ins other).acks := by
  by_cases isEp : other = ep
  · rw [isEp, ins_arm_self]
  · rw [ins_arm_of_ne isEp]
    exact armed other

/-- A zero-length packet is no report. -/
theorem UartToUsb.rests_sendZeroLenPacket
    (armed : ∀ ep, (usb.ins ep).uploadBusy = (usb.ins ep).acks) :
    usb.Rests usb.sendZeroLenPacket := by
  rw [sendZeroLenPacket]
  by_cases sends :
      usb.cdcSendZeroLenPacket ∧ ¬ (usb.ins .ep2).uploadBusy
  · rw [if_pos sends]
    refine
      ⟨rfl, rfl, rfl, rfl, fun ep => ?_, armed_arm armed _ _ _,
        .inr ⟨sends.1, rfl⟩⟩
    refine (given_arm sends.2 _ _ ep).trans ?_
    rw [read_zero]
    split <;> exact List.append_nil _
  · rw [if_neg sends]
    exact Rests.refl armed

/-- A piece has been handed over to an endpoint. -/
theorem UartToUsb.moves_arm
    (armed : ∀ ep, (usb.ins ep).uploadBusy = (usb.ins ep).acks)
    {sink : Sink}
    {ep : Endpoint}
    (isEndpoint : sink.endpoint = some ep)
    (free : ¬ (usb.ins ep).uploadBusy = true)
    {chunk rest : List UInt8}
    {later : List Packet}
    {bufferTx : Memory}
    {tLen : Nat}
    (report : read bufferTx 0 tLen = sink.report chunk)
    {usb' : UartToUsb}
    (ins : usb'.ins = (usb.arm ep bufferTx tLen).ins)
    (position : usb'.toFrameState.At (.afterPiece sink rest))
    (buffer : usb'.uartRxBuf = usb.uartRxBuf)
    (cts : usb'.ctsStopped = usb.ctsStopped)
    (resetting : usb'.resetting = usb.resetting) :
    usb.Moves active (.staged sink chunk rest) later usb'
      (.afterPiece sink rest) later
      (fun ep => sink.reports ep [chunk]) := by
  refine
    ⟨.handOver _ _ _ _, position, ?_, cts, resetting, ?_, ?_⟩
  · intro beyond unread
    rw [buffer, Phase.rest_afterPiece]
    exact unread
  · intro other
    rw [ins, given_arm free, report]
    by_cases isEp : other = ep
    · rw [if_pos isEp, isEp, Sink.reports_self isEndpoint]
      rfl
    · have isOther : sink.endpoint ≠ some other := by
        rw [isEndpoint]
        exact fun is => isEp (Option.some.inj is).symm
      rw [if_neg isEp, Sink.reports_other isOther]
  · intro other
    rw [ins]
    exact armed_arm armed _ _ _ other

theorem FrameState.Staged.available_self
    {frame : FrameState}
    {sink : Sink}
    {chunk rest : List UInt8}
    (staged : frame.Staged sink chunk rest) :
    frame.dataAvailable sink = true := by
  rw [staged.available]
  exact decide_eq_true rfl

/-- Nothing is available once a piece has been handed over. -/
theorem FrameState.Staged.released
    {frame : FrameState}
    {sink : Sink}
    {chunk rest : List UInt8}
    (staged : frame.Staged sink chunk rest)
    (other : Sink) :
    Function.update frame.dataAvailable sink false other = false := by
  by_cases isSink : other = sink
  · rw [isSink, Function.update_self]
  · rw [Function.update_of_ne isSink, staged.available]
    exact decide_eq_false isSink

/-- `endOfFrame` only looks whether the frame goes on. -/
theorem UartToUsb.endOfFrame_eq (usb : UartToUsb) :
    usb.endOfFrame =
      { usb with
        frameStarted :=
          if usb.frameRemainingBytes = 0 then false
          else usb.frameStarted } := by
  rw [endOfFrame]
  split <;> rfl

theorem FrameState.Staged.at_endOfFrame
    {sink : Sink}
    {chunk rest : List UInt8}
    (staged : usb.Staged sink chunk rest)
    (notDiscard : sink ≠ .discard)
    {usb' : UartToUsb}
    (available :
      usb'.dataAvailable = Function.update usb.dataAvailable sink false)
    (started : usb'.frameStarted = usb.frameStarted)
    (discard : usb'.frameDiscard = usb.frameDiscard)
    (remaining : usb'.frameRemainingBytes = usb.frameRemainingBytes)
    (mode : usb'.frameMode = usb.frameMode) :
    usb'.endOfFrame.toFrameState.At (.afterPiece sink rest) := by
  rw [UartToUsb.endOfFrame_eq]
  refine staged.at_afterPiece ?_ ?_ ?_ remaining mode
  · intro other
    simp only [available]
    exact staged.released other
  · simp only [remaining, started, staged.remaining, staged.started,
      List.length_eq_zero_iff]
    by_cases last : rest = []
    · rw [if_pos last, decide_eq_false (not_not.mpr last)]
    · rw [if_neg last, decide_eq_true last]
  · simp only [discard, staged.discard]
    rw [decide_eq_false notDiscard, decide_eq_false fun is => notDiscard is.1]

theorem FrameState.Staged.at_frameEnd
    {sink : Sink}
    {chunk rest : List UInt8}
    (staged : usb.Staged sink chunk rest)
    (notDiscard : sink ≠ .discard)
    (last : rest = [])
    {usb' : UartToUsb}
    (available :
      usb'.dataAvailable = Function.update usb.dataAvailable sink false)
    (started : usb'.frameStarted = false)
    (discard : usb'.frameDiscard = usb.frameDiscard)
    (remaining : usb'.frameRemainingBytes = usb.frameRemainingBytes)
    (mode : usb'.frameMode = usb.frameMode) :
    usb'.toFrameState.At (.afterPiece sink rest) := by
  refine staged.at_afterPiece ?_ ?_ ?_ remaining mode
  · intro other
    rw [available]
    exact staged.released other
  · rw [started, decide_eq_false (not_not.mpr last)]
  · rw [discard, staged.discard, decide_eq_false notDiscard,
      decide_eq_false fun is => notDiscard is.1]

/-- The buffer of an endpoint starts with the bytes of `FrameBuf`. -/
theorem FrameState.Staged.read_bufferWithFrame
    {sink : Sink}
    {chunk rest : List UInt8}
    (staged : usb.Staged sink chunk rest)
    (notDiscard : sink ≠ .discard)
    (ep : Endpoint) :
    usb.frameBufLength = chunk.length ∧
      read (usb.bufferWithFrame ep) 0 chunk.length = chunk := by
  have held := staged.held notDiscard
  have length : usb.frameBufLength = chunk.length := by
    rw [← held, length_read]
  refine ⟨length, ?_⟩
  rw [UartToUsb.bufferWithFrame, held]
  exact read_write_same _ 0 chunk

/-- A whole piece needs no padding. -/
theorem Sink.report_whole
    (sink : Sink)
    {chunk : List UInt8}
    (whole : chunk.length = maxPacketSize) :
    sink.report chunk = chunk := by
  rw [report, whole, Nat.sub_self]
  split
  · exact List.append_nil _
  · rfl

variable
  (armed : ∀ ep, (usb.ins ep).uploadBusy = (usb.ins ep).acks)
  {chunk rest : List UInt8}
  {later : List Packet}

include armed in
/-- CDC data is uploaded. -/
theorem UartToUsb.moves_uploadCdc
    (staged : usb.Staged .cdc chunk rest)
    (free : ¬ (usb.ins .ep2).uploadBusy = true) :
    usb.Moves active (.staged .cdc chunk rest) later usb.uploadCdc
      (.afterPiece .cdc rest) later
      (fun ep => Sink.cdc.reports ep [chunk]) := by
  have notDiscard : Sink.cdc ≠ .discard := by decide
  obtain ⟨length, bytes⟩ := staged.read_bufferWithFrame notDiscard .ep2
  rw [← length] at bytes
  have report :
      read (usb.bufferWithFrame .ep2) 0 usb.frameBufLength =
        Sink.cdc.report chunk :=
    bytes
  rw [uploadCdc, if_pos ⟨staged.available_self, free⟩]
  by_cases whole : usb.frameBufLength = maxPacketSize
  · simp only [if_pos whole]
    refine
      moves_arm armed rfl free report ?_
        (staged.at_endOfFrame notDiscard rfl rfl rfl rfl rfl) ?_ ?_ ?_ <;>
      rw [endOfFrame_eq] <;> rfl
  · simp only [if_neg whole]
    refine
      moves_arm armed rfl free report ?_
        (staged.at_endOfFrame notDiscard rfl rfl rfl rfl rfl) ?_ ?_ ?_ <;>
      rw [endOfFrame_eq] <;> rfl

include armed in
/-- A FIDO report is uploaded. -/
theorem UartToUsb.moves_uploadFido
    (staged : usb.Staged .fido chunk rest)
    (free : ¬ (usb.ins .ep3).uploadBusy = true) :
    usb.Moves active (.staged .fido chunk rest) later usb.uploadFido
      (.afterPiece .fido rest) later
      (fun ep => Sink.fido.reports ep [chunk]) := by
  have notDiscard : Sink.fido ≠ .discard := by decide
  have whole := staged.whole rfl
  obtain ⟨_, bytes⟩ := staged.read_bufferWithFrame notDiscard .ep3
  rw [whole] at bytes
  rw [uploadFido, if_pos ⟨staged.available_self, free⟩]
  refine
    moves_arm armed rfl free ?_ rfl
      (staged.at_frameEnd notDiscard (staged.last (.inl rfl)) rfl rfl rfl
        rfl rfl)
      rfl rfl rfl
  rw [Sink.report_whole .fido whole]
  exact bytes

include armed in
/-- CCID data is uploaded. -/
theorem UartToUsb.moves_uploadCcid
    (staged : usb.Staged .ccid chunk rest)
    (free : ¬ (usb.ins .ep3).uploadBusy = true) :
    usb.Moves active (.staged .ccid chunk rest) later usb.uploadCcid
      (.afterPiece .ccid rest) later
      (fun ep => Sink.ccid.reports ep [chunk]) := by
  have notDiscard : Sink.ccid ≠ .discard := by decide
  obtain ⟨length, bytes⟩ := staged.read_bufferWithFrame notDiscard .ep3
  rw [uploadCcid, if_pos ⟨staged.available_self, free⟩]
  refine
    moves_arm armed rfl free ?_ rfl
      (staged.at_frameEnd notDiscard (staged.last (.inr rfl)) rfl rfl rfl
        rfl rfl)
      rfl rfl rfl
  rw [length]
  exact bytes

/-- Bytes over zeros are a padded report. -/
theorem read_padded
    (memory : Memory)
    {chunk : List UInt8}
    (short : chunk.length ≤ maxPacketSize) :
    read (write (write memory 0 (List.replicate maxPacketSize 0)) 0 chunk) 0
        maxPacketSize =
      chunk ++ List.replicate (maxPacketSize - chunk.length) 0 := by
  obtain ⟨padding, size⟩ := Nat.exists_eq_add_of_le short
  have zeros :
      read (write memory 0 (List.replicate maxPacketSize 0)) 0
          maxPacketSize =
        List.replicate maxPacketSize 0 := by
    have same :=
      read_write_same memory 0 (List.replicate maxPacketSize 0)
    rw [List.length_replicate] at same
    exact same
  rw [size, read_append] at zeros
  have parts :
      List.replicate (chunk.length + padding) (0 : UInt8) =
        List.replicate chunk.length 0 ++ List.replicate padding 0 :=
    List.replicate_add _ _ _
  have behind :=
    (List.append_inj (zeros.trans parts)
      (by rw [length_read, List.length_replicate])).2
  rw [size, read_write_front, Nat.add_sub_cancel_left, behind]

include armed in
/-- A DEBUG report is uploaded. -/
theorem UartToUsb.moves_uploadDebug
    (staged : usb.Staged .debug chunk rest)
    (free : ¬ (usb.ins .ep4).uploadBusy = true) :
    usb.Moves active (.staged .debug chunk rest) later usb.uploadDebug
      (.afterPiece .debug rest) later
      (fun ep => Sink.debug.reports ep [chunk]) := by
  have notDiscard : Sink.debug ≠ .discard := by decide
  obtain ⟨length, bytes⟩ := staged.read_bufferWithFrame notDiscard .ep4
  rw [uploadDebug, if_pos ⟨staged.available_self, free⟩]
  by_cases whole : usb.frameBufLength = maxPacketSize
  · have report :
        read (usb.bufferWithFrame .ep4) 0 maxPacketSize =
          Sink.debug.report chunk := by
      rw [← length, whole] at bytes
      rw [Sink.report_whole .debug (length.symm.trans whole)]
      exact bytes
    simp only [if_pos whole]
    refine
      moves_arm armed rfl free report ?_
        (staged.at_endOfFrame notDiscard rfl rfl rfl rfl rfl) ?_ ?_ ?_ <;>
      rw [endOfFrame_eq] <;> rfl
  · have report :
        read
            (write
              (write (usb.ins .ep4).bufferTx 0
                (List.replicate maxPacketSize 0)) 0
              (read usb.frameBuf 0 usb.frameBufLength)) 0 maxPacketSize =
          Sink.debug.report chunk := by
      rw [staged.held notDiscard]
      exact read_padded _ staged.short
    simp only [if_neg whole]
    refine
      moves_arm armed rfl free report ?_
        (staged.at_endOfFrame notDiscard rfl rfl rfl rfl rfl) ?_ ?_ ?_ <;>
      rw [endOfFrame_eq] <;> rfl

/-- A piece has been handed over that no endpoint gets. -/
theorem UartToUsb.moves_silently
    (armed : ∀ ep, (usb.ins ep).uploadBusy = (usb.ins ep).acks)
    {sink : Sink}
    (silent : sink.endpoint = none)
    {usb' : UartToUsb}
    (ins : usb'.ins = usb.ins)
    (position : usb'.toFrameState.At (.afterPiece sink rest))
    (buffer : usb'.uartRxBuf = usb.uartRxBuf)
    (cts : usb'.ctsStopped = usb.ctsStopped)
    (resetting : usb'.resetting = usb.resetting) :
    usb.Moves active (.staged sink chunk rest) later usb'
      (.afterPiece sink rest) later
      (fun ep => sink.reports ep [chunk]) := by
  refine
    ⟨.handOver _ _ _ _, position, ?_, cts, resetting, ?_, ?_⟩
  · intro beyond unread
    rw [buffer, Phase.rest_afterPiece]
    exact unread
  · intro ep
    have other : sink.endpoint ≠ some ep := by
      rw [silent]
      exact nofun
    rw [ins, Sink.reports_other other]
    exact (List.append_nil _).symm
  · rw [ins]
    exact armed

include armed in
/-- CH552 data is handled. -/
theorem UartToUsb.moves_handleCh552
    (staged : usb.Staged .ch552 chunk rest)
    (spared : usb.frameBuf 0 ≠ setEndpoints) :
    usb.Moves active (.staged .ch552 chunk rest) later usb.handleCh552
      (.afterPiece .ch552 rest) later
      (fun ep => Sink.ch552.reports ep [chunk]) := by
  have notDiscard : Sink.ch552 ≠ .discard := by decide
  rw [handleCh552, if_pos staged.available_self,
    if_neg fun is => spared is.2]
  refine
    moves_silently armed rfl ?_
      (staged.at_endOfFrame notDiscard rfl rfl rfl rfl rfl) ?_ ?_ ?_ <;>
    rw [endOfFrame_eq] <;> rfl

include armed in
/-- Data has been discarded. -/
theorem UartToUsb.moves_endDiscard
    (staged : usb.Staged .discard chunk rest) :
    usb.Moves active (.staged .discard chunk rest) later usb.endDiscard
      (.afterPiece .discard rest) later
      (fun ep => Sink.discard.reports ep [chunk]) := by
  rw [endDiscard, if_pos staged.available_self]
  have remaining := staged.remaining
  by_cases last : rest = []
  · have none : usb.frameRemainingBytes = 0 := by
      rw [remaining, last]
      rfl
    simp only [if_pos none]
    refine
      moves_silently armed rfl rfl
        (staged.at_afterPiece staged.released ?_ ?_ rfl rfl) rfl rfl rfl
    · exact (decide_eq_false (not_not.mpr last)).symm
    · exact (decide_eq_false fun is => is.2 last).symm
  · have some : ¬ usb.frameRemainingBytes = 0 := by
      rw [remaining]
      exact mt List.length_eq_zero_iff.mp last
    simp only [if_neg some]
    refine
      moves_silently armed rfl rfl
        (staged.at_afterPiece staged.released ?_ ?_ rfl rfl) rfl rfl rfl
    · rw [decide_eq_true last]
      exact staged.started
    · rw [decide_eq_true (And.intro rfl last)]
      exact staged.discard

end HandOver

section Refinement

variable {active : UInt8} {usb : UartToUsb} {stage : Stage} {phase : Phase}

/-- A stage that is not for frames. -/
theorem UartToUsb.perform_sink
    {sink : Sink}
    {chunk rest : List UInt8}
    {later : List Packet}
    (armed : ∀ ep, (usb.ins ep).uploadBusy = (usb.ins ep).acks)
    (staged : usb.Staged sink chunk rest)
    (free :
      ∀ ep, sink.endpoint = some ep → (usb.ins ep).uploadBusy = false)
    (spared :
      usb.dataAvailable .ch552 = true → usb.frameBuf 0 ≠ setEndpoints) :
    usb.Moves active (.staged sink chunk rest) later
      (usb.perform active sink.stage) (.afterPiece sink rest) later
      (fun ep => sink.reports ep [chunk]) := by
  have notBusy {ep : Endpoint} (is : sink.endpoint = some ep) :
      ¬ (usb.ins ep).uploadBusy = true := by
    rw [free ep is]
    exact Bool.false_ne_true
  cases sink with
  | cdc => exact moves_uploadCdc armed staged (notBusy rfl)
  | fido => exact moves_uploadFido armed staged (notBusy rfl)
  | ccid => exact moves_uploadCcid armed staged (notBusy rfl)
  | debug => exact moves_uploadDebug armed staged (notBusy rfl)
  | ch552 =>
      exact moves_handleCh552 armed staged (spared staged.available_self)
  | discard => exact moves_endDiscard armed staged

/-- A stage that has something to do takes the abstract machine a step on. -/
theorem UartToUsb.perform_moves
    (armed : ∀ ep, (usb.ins ep).uploadBusy = (usb.ins ep).acks)
    (position : usb.At phase)
    (due : usb.Due stage phase)
    (counted :
      stage = .copy → usb.uartRxBufByteCount ≤ usb.uartRxBuf.count)
    (spared :
      stage = .ch552 →
        usb.dataAvailable .ch552 = true → usb.frameBuf 0 ≠ setEndpoints)
    {later : List Packet}
    (fits : ∀ frame, frame ∈ later → Fits active frame)
    {beyond : List UInt8}
    (unread :
      usb.uartRxBuf.contents ++ beyond = phase.rest ++ wire later) :
    ∃ phase' later' out,
      usb.Moves active phase later (usb.perform active stage) phase' later'
        out := by
  cases phase with
  | between =>
      obtain ⟨rfl, arrived⟩ := due
      cases later with
      | nil =>
          have none : usb.uartRxBuf.contents = [] :=
            (List.append_eq_nil_iff.mp unread).1
          rw [← RingBuffer.Ring.length_contents, none] at arrived
          exact absurd arrived (by decide)
      | cons frame later =>
          exact
            ⟨_, _, _,
              moves_takeHeader armed position
                (fits frame List.mem_cons_self) arrived unread⟩
  | taking sink rest =>
      obtain ⟨rfl, arrived⟩ := due
      exact
        ⟨_, _, _, moves_copy position armed (counted rfl) unread arrived⟩
  | staged sink chunk rest =>
      obtain ⟨rfl, free⟩ := due
      refine ⟨_, _, _, perform_sink armed position free ?_⟩
      intro isCh552
      refine spared ?_ isCh552
      have only := position.available .ch552
      rw [isCh552] at only
      rw [← of_decide_eq_true only.symm]
      rfl

/-- A stage that has nothing to do leaves frames as they are. -/
theorem UartToUsb.perform_rests
    (armed : ∀ ep, (usb.ins ep).uploadBusy = (usb.ins ep).acks)
    (position : usb.At phase)
    (notDue : ¬ usb.Due stage phase) :
    usb.Rests (usb.perform active stage) := by
  have unavailable {sink : Sink}
      (none : usb.dataAvailable sink = false) :
      usb.Rests (usb.perform active sink.stage) := by
    rw [perform_of_unavailable none]
    exact Rests.refl armed
  have sinkStage (sink : Sink) :
      usb.dataAvailable sink = true →
        stage = sink.stage → usb.Rests (usb.perform active stage) := by
    rintro isAvailable rfl
    cases phase with
    | between =>
        rw [position.empty] at isAvailable
        exact Bool.noConfusion isAvailable
    | taking other rest =>
        rw [position.empty] at isAvailable
        exact Bool.noConfusion isAvailable
    | staged other chunk rest =>
        rw [position.available] at isAvailable
        obtain rfl := of_decide_eq_true isAvailable
        have busy :
            ∃ ep, sink.endpoint = some ep ∧
              (usb.ins ep).uploadBusy = true := by
          by_contra none
          refine notDue ⟨rfl, fun ep isEndpoint => ?_⟩
          refine Bool.eq_false_of_not_eq_true fun is => none ?_
          exact ⟨ep, isEndpoint, is⟩
        obtain ⟨ep, isEndpoint, isBusy⟩ := busy
        rw [perform_of_busy isEndpoint isBusy]
        exact Rests.refl armed
  have sinks (sink : Sink) (isStage : stage = sink.stage) :
      usb.Rests (usb.perform active stage) := by
    cases available : usb.dataAvailable sink with
    | true => exact sinkStage sink available isStage
    | false =>
        rw [isStage]
        exact unavailable available
  cases stage with
  | top => exact Rests.refl armed
  | ep2 => exact Rests.refl armed
  | ep3 => exact Rests.refl armed
  | ep4 => exact Rests.refl armed
  | header =>
      refine rests_takeHeader armed ?_
      rintro ⟨arrived, notStarted⟩
      cases phase with
      | between => exact notDue ⟨rfl, arrived⟩
      | taking sink rest =>
          rw [position.started] at notStarted
          exact Bool.noConfusion notStarted
      | staged sink chunk rest =>
          rw [position.started] at notStarted
          exact Bool.noConfusion notStarted
  | copy =>
      cases phase with
      | between =>
          rw [perform_copy_between position]
          exact Rests.refl armed
      | taking sink rest =>
          exact
            rests_copy_taking position armed fun arrived =>
              notDue ⟨rfl, arrived⟩
      | staged sink chunk rest =>
          rw [perform_copy_staged position]
          exact Rests.refl armed
  | cdc => exact sinks .cdc rfl
  | zeroLenPacket => exact rests_sendZeroLenPacket armed
  | fido => exact sinks .fido rfl
  | ccid => exact sinks .ccid rfl
  | debug => exact sinks .debug rfl
  | ch552 => exact sinks .ch552 rfl
  | discard => exact sinks .discard rfl

end Refinement

end Stages

end TKey.Ch552
