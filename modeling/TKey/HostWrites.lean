import TKey.UartToUsb

namespace TKey

open Ch552

/-!
# Writes of the device at the host

`write` of `io.c` cuts a buffer into packets for the UART.  Together with the
CH552 the packets become reports, and what the host collects from an endpoint
is what was written to it.
-/

section Write

namespace Uart

/-- `USBMODE_PACKET_SIZE`. -/
def usbmodePacketSize : Nat := 64

/-- The bytes of `write_with_header`. -/
def writeWithHeader (dest : UInt8) (buf : List UInt8) : List UInt8 :=
  dest :: UInt8.ofNat buf.length :: buf

/-- `len`, the size of the next packet. -/
def packetLen (nbytes : Nat) : Nat :=
  if nbytes < usbmodePacketSize then nbytes else usbmodePacketSize

/-- The loop of `write`. -/
def writeLoop (dest : UInt8) (buf : List UInt8) : List UInt8 :=
  if buf.length > 0 then
    let len := packetLen buf.length
    writeWithHeader dest (buf.take len) ++ writeLoop dest (buf.drop len)
  else
    []
termination_by buf.length
decreasing_by
  rw [List.length_drop, packetLen, usbmodePacketSize]
  split <;> omega

/-- What `write` puts out. -/
structure Output where
  uart : List UInt8
  /-- The debug port of QEMU. -/
  debugtx : List UInt8

def write (dest : UInt8) (buf : List UInt8) : Output :=
  if dest = ioQemu then
    { uart := [], debugtx := buf }
  else if dest = ioUart then
    { uart := buf, debugtx := [] }
  else
    { uart := writeLoop dest buf, debugtx := [] }

end Uart

/-- A call of `write`. -/
structure Write where
  dest : UInt8
  buf : List UInt8

/-- The packets of a buffer. -/
def packets (dest : UInt8) (buf : List UInt8) : List Packet :=
  if buf = [] then
    []
  else
    { mode := dest
      payload := buf.take 64
      short := by
        rw [List.length_take]
        omega } ::
      packets dest (buf.drop 64)
termination_by buf.length
decreasing_by
  rename_i more
  have positive := List.length_pos_iff.mpr more
  rw [List.length_drop]
  omega

/-- The bytes of a buffer in reports, which are whole ones for DEBUG. -/
def Ch552.Sink.bytes (sink : Sink) (buf : List UInt8) : List UInt8 :=
  if sink = .debug then
    buf ++ List.replicate ((64 - buf.length % 64) % 64) 0
  else
    buf

namespace Write

/-- The CH552 can handle all packets; FIDO has reports of 64 bytes only. -/
def Legal (active : UInt8) (write : Write) : Prop :=
  write.dest ∈ UartToUsb.frameModes ∧
    (sinkOf active write.dest = .fido → 64 ∣ write.buf.length)

/-- What the host receives of a write. -/
def received (active : UInt8) (ep : Endpoint) (write : Write) : List UInt8 :=
  if (sinkOf active write.dest).endpoint = some ep then
    (sinkOf active write.dest).bytes write.buf
  else
    []

/-- What the host receives of many writes. -/
def receivedAll (active : UInt8) (writes : List Write) (ep : Endpoint) :
    List UInt8 :=
  writes.flatMap (received active ep)

end Write

/-- The device is going to write to a controller that has been started. -/
def Ch552.Line.writing (resetKeep : UInt8) (writes : List Write) : Line where
  chip := Chip.boot resetKeep
  late := 0
  toSend := writes.flatMap fun write => (Uart.write write.dest write.buf).uart

/-- What the host has collected. -/
structure Collected
    (active : UInt8)
    (writes : List Write)
    (line : Line) : Prop where
  running : line.chip.resetting = false
  inOrder :
    ∀ ep,
      (line.chip.ins ep).given.flatten <+: Write.receivedAll active writes ep
  finished :
    line.work = 0 →
      ∀ ep,
        (line.chip.ins ep).given.flatten = Write.receivedAll active writes ep

end Write

section Packets

/-- The loop of `write` writes packets. -/
theorem wire_packets (dest : UInt8) (buf : List UInt8) :
    Uart.writeLoop dest buf = wire (packets dest buf) := by
  fun_induction packets dest buf with
  | case1 =>
      unfold Uart.writeLoop
      rfl
  | case2 buf more inductionHypothesis =>
      have positive := List.length_pos_iff.mpr more
      have rest :
          buf.take (Uart.packetLen buf.length) = buf.take 64 ∧
            buf.drop (Uart.packetLen buf.length) = buf.drop 64 := by
        rw [Uart.packetLen, Uart.usbmodePacketSize]
        split
        case isTrue short =>
          rw [List.take_length, List.drop_length,
            List.take_of_length_le (Nat.le_of_lt short),
            List.drop_eq_nil_of_le (Nat.le_of_lt short)]
          exact ⟨rfl, rfl⟩
        case isFalse => exact ⟨rfl, rfl⟩
      unfold Uart.writeLoop
      rw [if_pos positive, wire_cons]
      simp only [rest.1, rest.2, inductionHypothesis]
      rfl

theorem length_payload
    {dest : UInt8}
    {buf : List UInt8}
    {packet : Packet}
    (member : packet ∈ packets dest buf) :
    packet.mode = dest ∧ packet.payload.length ≤ 64 ∧
      (64 ∣ buf.length → packet.payload.length = 64) := by
  fun_induction packets dest buf with
  | case1 => cases member
  | case2 buf more inductionHypothesis =>
      have positive := List.length_pos_iff.mpr more
      rcases List.mem_cons.mp member with rfl | later
      · refine ⟨rfl, ?_, fun whole => ?_⟩
        · rw [List.length_take]
          exact Nat.min_le_left ..
        · rw [List.length_take]
          omega
      · obtain ⟨mode, short, whole⟩ := inductionHypothesis later
        refine ⟨mode, short, fun divides => whole ?_⟩
        rw [List.length_drop]
        omega

/-- The bytes of the reports for a buffer. -/
theorem flatten_reports
    {sink : Sink}
    (dest : UInt8)
    {buf : List UInt8}
    (legal : sink = .fido → 64 ∣ buf.length) :
    ((packets dest buf).map fun packet => sink.report packet.payload).flatten =
      sink.bytes buf := by
  fun_induction packets dest buf with
  | case1 =>
      rw [Sink.bytes]
      split <;> rfl
  | case2 buf more inductionHypothesis =>
      have positive := List.length_pos_iff.mpr more
      have rest : sink = .fido → 64 ∣ (buf.drop 64).length := by
        intro isFido
        have whole := legal isFido
        rw [List.length_drop]
        omega
      rw [List.map_cons, List.flatten_cons, inductionHypothesis rest]
      change sink.report (buf.take 64) ++ _ = _
      by_cases isDebug : sink = .debug
      case neg =>
        have asItIs : sink.report (buf.take 64) = buf.take 64 := by
          rw [Sink.report]
          split
          case isFalse => rfl
          case isTrue fixed =>
            have whole := legal (fixed.resolve_right isDebug)
            rw [List.length_take, maxPacketSize, Nat.min_eq_left (by omega)]
            exact List.append_nil _
        rw [Sink.bytes, Sink.bytes, if_neg isDebug, if_neg isDebug, asItIs,
          List.take_append_drop]
      case pos =>
        rw [Sink.bytes, Sink.bytes, if_pos isDebug, if_pos isDebug,
          Sink.report, if_pos (.inr isDebug), List.length_take,
          List.length_drop, maxPacketSize]
        by_cases short : buf.length < 64
        · have pad : (64 - buf.length % 64) % 64 = 64 - buf.length := by omega
          have none : (64 - (buf.length - 64) % 64) % 64 = 0 := by omega
          rw [List.drop_eq_nil_of_le (Nat.le_of_lt short),
            List.take_of_length_le (Nat.le_of_lt short), pad, none,
            Nat.min_eq_right (Nat.le_of_lt short)]
          simp
        · have pad :
              (64 - (buf.length - 64) % 64) % 64 =
                (64 - buf.length % 64) % 64 := by
            omega
          rw [pad, Nat.min_eq_left (Nat.not_lt.mp short), ← List.append_assoc]
          simp

/-- A packet goes to the CH552 as one piece. -/
theorem reportsOf_packet
    (active : UInt8)
    (ep : Endpoint)
    {packet : Packet}
    (short : packet.payload.length ≤ 64) :
    reportsOf active ep packet =
      (sinkOf active packet.mode).reports ep [packet.payload] := by
  rw [reportsOf, chunks]
  exact congrArg _ (if_pos short)

namespace Write

variable {active : UInt8}

/-- What is expected at an endpoint is what the host receives. -/
theorem Legal.flatten_expected
    {write : Write}
    (legal : write.Legal active)
    (ep : Endpoint) :
    (expected active ep (packets write.dest write.buf)).flatten =
      write.received active ep := by
  rw [expected, List.flatten_filter_ne_nil, received]
  have asReports :
      (packets write.dest write.buf).flatMap (reportsOf active ep) =
        (packets write.dest write.buf).flatMap fun packet =>
          (sinkOf active write.dest).reports ep [packet.payload] := by
    refine List.flatMap_congr fun packet member => ?_
    obtain ⟨mode, short, _⟩ := length_payload member
    rw [reportsOf_packet active ep short, mode]
  rw [asReports]
  by_cases here : (sinkOf active write.dest).endpoint = some ep
  · rw [if_pos here, ← flatten_reports write.dest legal.2,
      List.map_eq_flatMap]
    simp only [Sink.reports_self here, List.map_cons, List.map_nil]
  · rw [if_neg here]
    simp [Sink.reports_other here]

/-- Packets that the CH552 can handle. -/
theorem Legal.fits
    {write : Write}
    (legal : write.Legal active)
    {packet : Packet}
    (member : packet ∈ packets write.dest write.buf) :
    Fits active packet := by
  obtain ⟨mode, short, whole⟩ := length_payload member
  rw [Fits, mode]
  exact ⟨legal.1, fun isFido => whole (legal.2 isFido), fun _ => short⟩

/-- The bytes on the UART are those of packets. -/
theorem Legal.uart
    {write : Write}
    (legal : write.Legal active) :
    (Uart.write write.dest write.buf).uart =
      wire (packets write.dest write.buf) := by
  have isMode := legal.1
  have notQemu : write.dest ≠ ioQemu := by
    rintro isQemu
    rw [isQemu] at isMode
    revert isMode
    decide
  have notUart : write.dest ≠ ioUart := by
    rintro isUart
    rw [isUart] at isMode
    revert isMode
    decide
  rw [Uart.write, if_neg notQemu, if_neg notUart]
  exact wire_packets _ _

end Write

end Packets

section Host

variable {active : UInt8} {writes : List Write}

/-- The packets of many writes. -/
def packetsAll (writes : List Write) : List Packet :=
  writes.flatMap fun write => packets write.dest write.buf

theorem Ch552.Line.writing_eq
    (resetKeep : UInt8)
    (legal : ∀ write, write ∈ writes → write.Legal active) :
    Line.writing resetKeep writes =
      Line.start resetKeep (packetsAll writes) := by
  have same :
      (writes.flatMap fun write => (Uart.write write.dest write.buf).uart) =
        wire (packetsAll writes) := by
    rw [packetsAll, wire, List.flatMap_assoc]
    exact List.flatMap_congr fun write member => (legal write member).uart
  rw [Line.writing, same]
  rfl

theorem flatten_expected_packetsAll
    (legal : ∀ write, write ∈ writes → write.Legal active)
    (ep : Endpoint) :
    (expected active ep (packetsAll writes)).flatten =
      Write.receivedAll active writes ep := by
  induction writes with
  | nil => rfl
  | cons write writes inductionHypothesis =>
      have first := (legal write (List.mem_cons_self ..)).flatten_expected ep
      have rest :=
        inductionHypothesis fun later member =>
          legal later (List.mem_cons_of_mem _ member)
      rw [packetsAll, List.flatMap_cons, expected_append, List.flatten_append,
        first, ← packetsAll, rest]
      rfl

/-- The packets of legal writes are served. -/
theorem Ch552.Line.serves_writing
    (resetKeep : UInt8)
    (legal : ∀ write, write ∈ writes → write.Legal active) :
    (Line.writing resetKeep writes).Serves active (fun _ => [])
      (packetsAll writes) := by
  have fits (frame : Packet) (member : frame ∈ packetsAll writes) :
      Fits active frame := by
    obtain ⟨write, isWrite, isFrame⟩ := List.mem_flatMap.mp member
    exact (legal write isWrite).fits isFrame
  rw [Line.writing_eq resetKeep legal]
  exact (Line.tracks_start resetKeep fits).serves fun _ => rfl

/-- What is forwarded is collected. -/
theorem Ch552.Line.Forwards.collected
    {line : Line}
    (legal : ∀ write, write ∈ writes → write.Legal active)
    (forwards : line.Forwards active (fun _ => []) (packetsAll writes)) :
    Collected active writes line := by
  refine ⟨forwards.running, fun ep => ?_, fun done ep => ?_⟩
  · obtain ⟨rest, isRest⟩ := forwards.inOrder ep
    rw [← flatten_expected_packetsAll legal ep]
    exact ⟨rest.flatten, by rw [← List.flatten_append, isRest]; rfl⟩
  · rw [(forwards.finished done).2 ep, ← flatten_expected_packetsAll legal ep]
    rfl

/--
Whatever the order of events, the host collects from each endpoint what was
written to it, in order.  What is left to do gets less within an iteration of
the loop and a stage unless the loop waits for bytes that have not arrived or
for the host, and when nothing is left the host has everything.
-/
theorem writes_reach_host
    (resetKeep : UInt8)
    (legal : ∀ write, write ∈ writes → write.Legal active)
    (before after : List LineEvent)
    (spared :
      (Line.writing resetKeep writes).Spared active (before ++ after)) :
    let line := (Line.writing resetKeep writes).run active before
    Collected active writes line ∧
      (line.run active after).work ≤ line.work ∧
        (¬ line.chip.Starves →
          ¬ line.chip.Blocks →
            (∀ during, during <+: after →
              (line.run active during).chip.usbConfig ≠ 0) →
              14 ≤ loopSteps after →
                (line.run active after).work < line.work) := by
  intro line
  obtain ⟨forwards, notMore, less⟩ :=
    Line.serves_writing resetKeep legal before after spared
  exact ⟨forwards.collected legal, notMore, less⟩

/-- A run in which two bytes come to the host. -/
def hostEvents : List LineEvent :=
  [.setConfiguration 1, .receive, .receive, .receive, .receive] ++
    List.replicate 40 .main ++ [.inToken .ep2] ++ List.replicate 40 .main

theorem writes_reach_host_sample :
    let line :=
      (Line.writing 0 [⟨ioCdc, [1, 2]⟩]).run (activeEndpoints 0) hostEvents
    (line.chip.ins .ep2).given.flatten = [1, 2] := by
  have legal (write : Write) (member : write ∈ [⟨ioCdc, [1, 2]⟩]) :
      write.Legal (activeEndpoints 0) := by
    rw [List.mem_singleton.mp member]
    exact ⟨by decide, by decide⟩
  exact
    (writes_reach_host 0 legal hostEvents [] (by decide +kernel)).1.finished
      (by decide +kernel) .ep2

end Host

end TKey
