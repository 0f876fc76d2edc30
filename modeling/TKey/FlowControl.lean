import Mathlib.Data.List.Induction
import TKey.Lib.Register
import TKey.Lib.RingBuffer
import TKey.SerialFrames
import TKey.Ch552

namespace TKey.Fpga

open RingBuffer SerialLine

/-!
# Flow control from the CH552 to the FPGA

The CH552 starts a byte of a payload when it sees the pin `FPGA_CTS` low, which
it does at most one byte time late.  The loop that waits before a byte of a
header never waits, since it compares the pin with another value than the one it
has when it is high.  The UART of the FPGA receives the bytes into its FIFO, from
which the CPU reads them at any times.
-/

section Sender

/--
What the main loop sends for a packet of the host.  Endpoint 3 has no mode byte
while neither FIDO nor CCID is active, and nothing is sent for an empty packet.
-/
structure Forwarded where
  mode : List UInt8
  oneMode : mode.length ≤ 1
  payload : List UInt8
  nonempty : payload ≠ []
  short : payload.length ≤ 255

/-- The bytes in front of the payload. -/
def Forwarded.header (packet : Forwarded) : List UInt8 :=
  packet.mode ++ [UInt8.ofNat packet.payload.length]

/-- The bytes on the UART. -/
def Forwarded.wire (packet : Forwarded) : List UInt8 :=
  packet.header ++ packet.payload

/-- The functions that write into `SBUF1`. -/
inductive Sender where
  /-- `CH554UART1SendByte`. -/
  | sendByte
  /-- `CH554UART1SendBuffer`. -/
  | sendBuffer
  deriving DecidableEq

/-- Whether a function goes on with what `gpio_p1_4_get` returns. -/
def Sender.goesOn (gpio : UInt8) : Sender → Bool
  | .sendByte => !(gpio == 1)
  | .sendBuffer => gpio == 0

/-- The bytes that are written one after the other, and by which function. -/
def Forwarded.program (packet : Forwarded) : List (Sender × BitVec 8) :=
  packet.header.map (fun byte => (.sendByte, byte.toBitVec)) ++
    packet.payload.map (fun byte => (.sendBuffer, byte.toBitVec))

theorem Forwarded.program_bytes (packet : Forwarded) :
    packet.program.map Prod.snd = packet.wire.map UInt8.toBitVec := by
  rw [program, wire, List.map_append, List.map_append, List.map_map,
    List.map_map]
  rfl

/-- An endpoint has received at most 255 bytes. -/
theorem length_received (endpoint : Ch552.OutEndpoint) :
    (ByteMemory.read endpoint.bufferRx 0
      endpoint.usbEpByteCount.toNat).length ≤ 255 := by
  rw [ByteMemory.length_read]
  exact Nat.le_of_lt_succ (UInt8.toNat_lt _)

/-- What is sent for the packet that an endpoint has received. -/
def Forwarded.received
    (endpoint : Ch552.OutEndpoint)
    {mode : List UInt8}
    (oneMode : mode.length ≤ 1)
    (holds : endpoint.usbEpByteCount ≠ 0) : Forwarded where
  mode := mode
  oneMode := oneMode
  payload :=
    ByteMemory.read endpoint.bufferRx 0 endpoint.usbEpByteCount.toNat
  nonempty := by
    rw [ne_eq, ← List.length_eq_zero_iff, ByteMemory.length_read]
    exact fun zero => holds (UInt8.toNat_inj.mp zero)
  short := length_received endpoint

theorem Forwarded.wire_received
    (endpoint : Ch552.OutEndpoint)
    {mode : List UInt8}
    (oneMode : mode.length ≤ 1)
    (holds : endpoint.usbEpByteCount ≠ 0) :
    (received endpoint oneMode holds).wire =
      mode ++ endpoint.usbEpByteCount ::
        ByteMemory.read endpoint.bufferRx 0 endpoint.usbEpByteCount.toNat := by
  have length :
      (received endpoint oneMode holds).payload.length =
        endpoint.usbEpByteCount.toNat :=
    ByteMemory.length_read ..
  rw [wire, header, length, UInt8.ofNat_toNat, List.append_assoc]
  rfl

/-- Forwarding the packet of an endpoint sends it, or nothing. -/
theorem forward_sends
    (usb : Ch552.UsbToUart)
    (ep : Ch552.Endpoint)
    {mode : List UInt8}
    (oneMode : mode.length ≤ 1) :
    ∃ packets : List Forwarded,
      (usb.forward ep mode).tx =
        usb.tx ++ packets.flatMap Forwarded.wire := by
  rw [Ch552.UsbToUart.forward]
  by_cases holds : (usb.outs ep).usbEpByteCount ≠ 0
  · refine ⟨[.received (usb.outs ep) oneMode holds], ?_⟩
    rw [if_pos holds, List.flatMap_singleton, Forwarded.wire_received]
  · rw [if_neg holds]
    exact ⟨[], (List.append_nil _).symm⟩

/-- What the CH552 sends in a step. -/
theorem step_forwards
    (active : UInt8)
    (chip : Ch552.Chip)
    (event : Ch552.Event) :
    ∃ packets : List Forwarded,
      (chip.step active event).tx =
        chip.tx ++ packets.flatMap Forwarded.wire := by
  have nothing :
      ∃ packets : List Forwarded,
        chip.tx = chip.tx ++ packets.flatMap Forwarded.wire :=
    ⟨[], (List.append_nil _).symm⟩
  cases event with
  | outToken ep togOk packet =>
      have same : (chip.toUsbToUart.outToken ep togOk packet).tx = chip.tx := by
        rw [Ch552.UsbToUart.outToken]
        split <;> rfl
      exact same.symm ▸ nothing
  | inToken ep => exact nothing
  | setConfiguration usbConfig => exact nothing
  | uart1 byte => exact nothing
  | main =>
      show ∃ packets : List Forwarded, (chip.main active).tx = _
      rw [Ch552.Chip.main]
      split
      · exact nothing
      · split
        · exact nothing
        · show ∃ packets : List Forwarded,
            (chip.toUsbToUart.perform active chip.stage).tx = _
          cases chip.stage with
          | ep2 => exact forward_sends _ .ep2 (Nat.le_refl 1)
          | ep3 =>
              refine forward_sends _ .ep3 ?_
              split_ifs <;> decide
          | ep4 => exact forward_sends _ .ep4 (Nat.le_refl 1)
          | _ => exact nothing

/-- Whatever the CH552 has sent in a run are such packets. -/
theorem run_forwards
    (active resetKeep : UInt8)
    (events : List Ch552.Event) :
    ∃ packets : List Forwarded,
      ((Ch552.Chip.boot resetKeep).run active events).tx =
        packets.flatMap Forwarded.wire := by
  induction events using List.reverseRecOn with
  | nil => exact ⟨[], rfl⟩
  | append_singleton events event inductionHypothesis =>
      obtain ⟨packets, sent⟩ := inductionHypothesis
      obtain ⟨later, more⟩ :=
        step_forwards active ((Ch552.Chip.boot resetKeep).run active events) event
      refine ⟨packets ++ later, ?_⟩
      rw [Ch552.Chip.run, List.foldl_concat]
      refine more.trans ?_
      rw [sent, List.flatMap_append]

/-- How many bytes come before the next one of a payload. -/
def headers (program : List (Sender × BitVec 8)) : Nat :=
  (program.takeWhile fun next => next.1 == .sendByte).length

/-- There are at most two bytes between payloads. -/
def Paced (program : List (Sender × BitVec 8)) : Prop :=
  ∀ done, headers (program.drop done) ≤ 2

theorem Paced.drop
    {program : List (Sender × BitVec 8)}
    (paced : Paced program)
    (done : Nat) :
    Paced (program.drop done) := fun more => by
  rw [List.drop_drop]
  exact paced _

/-- A payload that comes first is no header. -/
theorem paced_payload
    (payload : List UInt8)
    {program : List (Sender × BitVec 8)}
    (paced : Paced program) :
    Paced
      (payload.map (fun byte => (Sender.sendBuffer, byte.toBitVec)) ++
        program) := by
  induction payload with
  | nil => exact paced
  | cons byte payload inductionHypothesis =>
      intro done
      cases done with
      | zero => exact Nat.zero_le _
      | succ done => exact inductionHypothesis done

/-- The packets of the CH552 have short headers. -/
theorem paced_program (packets : List Forwarded) :
    Paced (packets.flatMap Forwarded.program) := by
  induction packets with
  | nil =>
      intro done
      rw [List.flatMap_nil, List.drop_nil]
      exact Nat.zero_le _
  | cons packet packets inductionHypothesis =>
      have payload := paced_payload packet.payload inductionHypothesis
      obtain ⟨first, rest, isPayload⟩ :=
        List.exists_cons_of_ne_nil packet.nonempty
      have header (length : UInt8) :
          Paced
            ((.sendByte, length.toBitVec) ::
              (packet.payload.map (fun byte =>
                  (Sender.sendBuffer, byte.toBitVec)) ++
                packets.flatMap Forwarded.program)) := by
        intro done
        cases done with
        | zero =>
            rw [isPayload]
            exact Nat.le_succ 1
        | succ done => exact payload done
      rw [List.flatMap_cons, Forwarded.program, Forwarded.header,
        List.append_assoc]
      have short := packet.oneMode
      cases mode : packet.mode with
      | nil => exact header _
      | cons first others =>
          rw [mode] at short
          obtain rfl :=
            List.eq_nil_of_length_eq_zero
              (Nat.le_zero.mp (Nat.le_of_succ_le_succ short))
          intro done
          cases done with
          | zero =>
              rw [isPayload]
              exact Nat.le_refl 2
          | succ done => exact header _ done

end Sender

section Fifo

namespace UartFifo

variable {fifo : UartFifo}

/-- The bytes in the FIFO, first one first. -/
def contents (fifo : UartFifo) : List (BitVec 8) :=
  cells fifo.fifoMem fifo.outPtrReg fifo.byteCtrReg.toNat

/-- The pointers agree with the counter. -/
def Counted (fifo : UartFifo) : Prop :=
  fifo.inPtrReg = fifo.outPtrReg + fifo.byteCtrReg

theorem counted_reset (fifo : UartFifo) : fifo.reset.Counted :=
  rfl

@[simp] theorem length_contents (fifo : UartFifo) :
    fifo.contents.length = fifo.byteCtrReg.toNat := by
  rw [contents, cells, List.length_map, List.length_range]

/-- The byte that is given away. -/
def given (fifo : UartFifo) (outAck : Bool) : List (BitVec 8) :=
  if fifo.gives outAck then [fifo.outData] else []

/-- The byte that is stored. -/
def stored (fifo : UartFifo) (inSyn : Bool) (inData : BitVec 8) :
    List (BitVec 8) :=
  if fifo.takes inSyn then [inData] else []

/-- The memory after a store, with the cells of the bytes. -/
theorem cells_stored
    (counted : fifo.Counted)
    (inData : BitVec 8) :
    cells (Function.update fifo.fifoMem fifo.inPtrReg inData) fifo.outPtrReg
        (fifo.byteCtrReg.toNat + 1) =
      fifo.contents ++ [inData] := by
  have pointer :
      fifo.inPtrReg =
        fifo.outPtrReg + BitVec.ofNat 9 fifo.byteCtrReg.toNat := by
    rw [BitVec.ofNat_toNat, BitVec.setWidth_eq]
    exact counted
  rw [cells_concat, pointer, cells_update _ _ (fifo.byteCtrReg.isLt),
    Function.update_self, contents]

/-- The first byte, and the others. -/
theorem contents_of_not_empty (notEmpty : fifo.fifoEmpty = false) :
    fifo.contents =
      fifo.outData ::
        cells fifo.fifoMem (fifo.outPtrReg + 1) (fifo.byteCtrReg - 1).toNat ∧
      (fifo.byteCtrReg - 1).toNat + 1 = fifo.byteCtrReg.toNat := by
  have positive : fifo.byteCtrReg ≠ 0 := ne_of_beq_false notEmpty
  have less : (fifo.byteCtrReg - 1).toNat + 1 = fifo.byteCtrReg.toNat := by
    have nonzero : fifo.byteCtrReg.toNat ≠ 0 :=
      fun zero => positive (BitVec.eq_of_toNat_eq zero)
    bv_omega
  refine ⟨?_, less⟩
  rw [contents, ← less, cells_cons]
  rfl

/-- A cycle of the FIFO, which is a queue. -/
theorem contents_clock
    (counted : fifo.Counted)
    (inSyn : Bool)
    (inData : BitVec 8)
    (outAck : Bool) :
    (fifo.clock inSyn inData outAck).Counted ∧
      fifo.contents ++ fifo.stored inSyn inData =
        fifo.given outAck ++ (fifo.clock inSyn inData outAck).contents := by
  have pushed := cells_stored counted inData
  have more (takes : fifo.takes inSyn = true) :
      (fifo.byteCtrReg + 1).toNat = fifo.byteCtrReg.toNat + 1 := by
    have notFull : fifo.byteCtrReg ≠ 0x1ff := by
      simp only [UartFifo.takes, fifoFull, Bool.and_eq_true,
        Bool.not_eq_true'] at takes
      exact ne_of_beq_false takes.2
    have notMax : fifo.byteCtrReg.toNat ≠ 511 :=
      fun max => notFull (BitVec.eq_of_toNat_eq max)
    bv_omega
  have first (gives : fifo.gives outAck = true) :=
    @contents_of_not_empty fifo (by
      simp only [UartFifo.gives, Bool.and_eq_true, Bool.not_eq_true'] at gives
      exact gives.2)
  rw [stored, given]
  unfold clock Counted byteCtr contents
  rw [Counted] at counted
  cases takes : fifo.takes inSyn <;> cases gives : fifo.gives outAck
  case false.false =>
    exact ⟨counted, List.append_nil _⟩
  case false.true =>
    refine ⟨?_, ?_⟩
    · show fifo.inPtrReg = fifo.outPtrReg + 1 + (fifo.byteCtrReg - 1)
      rw [counted]
      bv_omega
    · rw [if_neg Bool.false_ne_true, List.append_nil]
      exact (first gives).1
  case true.false =>
    refine ⟨?_, ?_⟩
    · show fifo.inPtrReg + 1 = fifo.outPtrReg + (fifo.byteCtrReg + 1)
      rw [counted, BitVec.add_assoc]
    · show contents fifo ++ [inData] =
        cells (Function.update fifo.fifoMem fifo.inPtrReg inData) fifo.outPtrReg
          (fifo.byteCtrReg + 1).toNat
      rw [more takes, pushed]
  case true.true =>
    refine ⟨?_, ?_⟩
    · show fifo.inPtrReg + 1 = fifo.outPtrReg + 1 + fifo.byteCtrReg
      rw [counted]
      bv_omega
    · show contents fifo ++ [inData] =
        fifo.outData ::
          cells (Function.update fifo.fifoMem fifo.inPtrReg inData)
            (fifo.outPtrReg + 1) fifo.byteCtrReg.toNat
      rw [cells_cons, (first gives).1] at pushed
      rw [(first gives).1, ← pushed]
      have same := (List.cons.inj pushed).1
      rw [same]
      rfl

end UartFifo

end Fifo

section Design

/-- The CH552, the line from it, and the UART of the FPGA. -/
structure FlowControl where
  /-- What is not written into `SBUF1` yet, and by which function it is. -/
  toSend : List (Sender × BitVec 8)
  line : Line
  /-- The line one cycle ago and two cycles ago. -/
  line1 : Line
  line2 : Line
  /-- `fpga_cts` in the cycles before, last one first. -/
  ctsBefore : List Bool
  uart : UartCore

namespace FlowControl

/-- What happens in a cycle. -/
structure Pins where
  /-- The CH552 looks at the pin `FPGA_CTS`, as it was some cycles ago. -/
  looks : Option Nat
  /-- The access of the CPU; `rxd` is the line. -/
  ports : UartCore.Ports

/-- The FPGA comes out of reset, and the CH552 is to send some packets. -/
def reset (packets : List Forwarded) (uart : UartCore) : FlowControl where
  toSend := packets.flatMap Forwarded.program
  line := .idle
  line1 := .low
  line2 := .low
  ctsBefore := []
  uart := uart.reset

/-- `fpga_cts` some cycles ago; it is low after a reset. -/
def ctsAgo (flow : FlowControl) (delay : Nat) : Bool :=
  (flow.uart.fifo.fpgaCtsReg :: flow.ctsBefore).getD delay false

/-- `U1TI`: what was written into `SBUF1` is sent. -/
def u1ti (flow : FlowControl) : Bool :=
  match flow.line with
  | .low => false
  | .idle => true
  | .frame _ age => age + 1 == 480

/-- `gpio_p1_4_get` some cycles ago: `P1 & 0x10`. -/
def gpioP14 (flow : FlowControl) (delay : Nat) : UInt8 :=
  if flow.ctsAgo delay then 0x10 else 0

/-- What is written into `SBUF1`, when what was written before is sent. -/
def sbuf1 (flow : FlowControl) (pins : Pins) : Option (BitVec 8) :=
  match pins.looks, flow.toSend with
  | some delay, (sender, byte) :: _ =>
      if flow.u1ti && decide (delay ≤ 480) &&
          sender.goesOn (flow.gpioP14 delay) then
        some byte
      else
        none
  | _, _ => none

/-- The line in the next cycle. -/
def nextLine (flow : FlowControl) (pins : Pins) : Line :=
  match flow.sbuf1 pins with
  | some byte => .frame byte 0
  | none => flow.line.send 48 none

/-- The pins of the UART. -/
def uartPorts (flow : FlowControl) (pins : Pins) : UartCore.Ports :=
  { pins.ports with rxd := flow.line.level 48 }

/-- A clock edge. -/
def clock (flow : FlowControl) (pins : Pins) : FlowControl where
  toSend := flow.toSend.drop (flow.sbuf1 pins).toList.length
  line := flow.nextLine pins
  line1 := flow.line
  line2 := flow.line1
  ctsBefore := flow.uart.fifo.fpgaCtsReg :: flow.ctsBefore
  uart := flow.uart.clock (flow.uartPorts pins)

/-- The byte that the CPU reads. -/
def reads (flow : FlowControl) (pins : Pins) : List (BitVec 8) :=
  if flow.uart.fifo.gives (UartCore.fifoOutAck (flow.uartPorts pins)) then
    [(flow.uart.readData (flow.uartPorts pins)).extractLsb' 0 8]
  else
    []

/-- The bytes that the CH552 has sent. -/
def sent (flow : FlowControl) (cycles : List Pins) : List (BitVec 8) :=
  Register.outputs clock (fun flow pins => (flow.sbuf1 pins).toList) flow cycles

/-- The bytes that the CPU has read. -/
def read (flow : FlowControl) (cycles : List Pins) : List (BitVec 8) :=
  Register.outputs clock reads flow cycles

/-- The byte in the receive engine that the FIFO has not stored yet. -/
def inEngine (flow : FlowControl) : List (BitVec 8) :=
  if flow.uart.fifo.inAckReg then [] else flow.uart.rx.holds flow.line2

/-- The bytes whose frames did not come to the receive engine yet. -/
def onLine (flow : FlowControl) : List (BitVec 8) :=
  flow.line1.started ++ flow.line.started

end FlowControl

end Design

section Step

namespace FlowControl

variable {flow : FlowControl} {pins : Pins}

/-- The CH552 sends what comes first. -/
theorem sbuf1_head
    {byte : BitVec 8}
    (written : flow.sbuf1 pins = some byte) :
    ∃ sender rest,
      flow.toSend = (sender, byte) :: rest ∧
        flow.u1ti = true ∧
        ∃ delay ≤ 480, sender.goesOn (flow.gpioP14 delay) = true := by
  rw [sbuf1] at written
  split at written
  · rename_i delay sender first rest _ toSend
    split at written
    · rename_i goesOn
      simp only [Bool.and_eq_true, decide_eq_true_eq] at goesOn
      cases Option.some.inj written
      exact ⟨sender, rest, toSend, goesOn.1.1, delay, goesOn.1.2, goesOn.2⟩
    · cases written
  · cases written

theorem program_clock (flow : FlowControl) (pins : Pins) :
    (flow.sbuf1 pins).toList ++ (flow.clock pins).toSend.map Prod.snd =
      flow.toSend.map Prod.snd := by
  rw [clock]
  cases written : flow.sbuf1 pins with
  | none => rfl
  | some byte =>
      obtain ⟨sender, rest, toSend, -⟩ := sbuf1_head written
      rw [toSend]
      rfl

/-- The pin is high or low. -/
theorem ctsAgo_of_gpioP14
    {delay : Nat}
    (low : flow.gpioP14 delay = 0) :
    flow.ctsAgo delay = false := by
  rw [gpioP14] at low
  split at low
  · exact absurd low (by decide)
  · exact Bool.eq_false_iff.mpr ‹_›

/-- A frame starts when a byte is written. -/
theorem started_nextLine (flow : FlowControl) (pins : Pins) :
    (flow.nextLine pins).started = (flow.sbuf1 pins).toList := by
  rw [nextLine]
  cases flow.sbuf1 pins with
  | some byte => rfl
  | none =>
      cases flow.line with
      | low | idle => rfl
      | frame byte age => exact started_send_frame

/-- The line goes on as a line does. -/
theorem next_nextLine
    (driven : Driven 48 flow.line)
    (pins : Pins) :
    Line.Next 48 flow.line (flow.nextLine pins) := by
  rw [nextLine]
  cases written : flow.sbuf1 pins with
  | none => exact next_send driven
  | some byte =>
      obtain ⟨sender, rest, toSend, ended, -⟩ := sbuf1_head written
      rw [u1ti] at ended
      cases line : flow.line with
      | low =>
          rw [line] at ended
          cases ended
      | idle => exact .start byte
      | frame byte' age =>
          rw [line] at ended
          exact .again (eq_of_beq ended) byte

/-- All bytes that have been sent and are not read. -/
def unread (flow : FlowControl) : List (BitVec 8) :=
  flow.uart.fifo.contents ++ (flow.inEngine ++ flow.onLine)

/-- The cycles that a byte has waited in the receive engine. -/
def waited (flow : FlowControl) : Nat :=
  if flow.uart.fifo.inAckReg then 1 else 0

/--
The invariant.  When `fpga_cts` was low some cycles ago there were at most 485
bytes in the FIFO one cycle before, and two in flight; all others have started
on the line since then.  Behind a byte of a payload, for which the CH552 has seen
it low, at most two bytes of a header are sent without looking.
-/
structure Flows (flow : FlowControl) : Prop where
  driven : Driven 48 flow.line
  receives :
    flow.uart.rx.Receives flow.line2 flow.line1 flow.line flow.waited
      (flow.uart.rx.holds flow.line2 ++ flow.line1.started ++
        flow.line.started)
  counted : flow.uart.fifo.Counted
  room :
    ∀ delay,
      flow.ctsAgo delay = false →
      flow.unread.length ≤ 487 + flow.line.recent 48 delay
  paced : Paced flow.toSend
  bound : flow.unread.length + headers flow.toSend ≤ 491

theorem flows_reset (packets : List Forwarded) (uart : UartCore) :
    (reset packets uart).Flows where
  driven := .idle
  receives := RxEngine.receives_reset (.inr rfl)
  counted := UartFifo.counted_reset _
  room _ _ := Nat.zero_le _
  paced := paced_program packets
  bound :=
    Nat.le_trans (Nat.le_of_eq (Nat.zero_add _))
      (Nat.le_trans (paced_program packets 0) (by decide))

theorem waited_le (flow : FlowControl) : flow.waited ≤ 1 := by
  rw [waited]
  split <;> omega

/-- The FIFO is not full. -/
theorem Flows.not_full (flows : flow.Flows) :
    flow.uart.fifo.fifoFull = false := by
  have bound := flows.bound
  rw [unread, List.length_append, UartFifo.length_contents] at bound
  apply beq_false_of_ne
  intro full
  rw [full] at bound
  have count : (0x1ff : BitVec 9).toNat = 511 := rfl
  omega

/-- At most two bytes are in flight. -/
theorem Flows.length_flight_le (flows : flow.Flows) :
    (flow.inEngine ++ flow.onLine).length ≤ 2 := by
  have length := flows.receives.length_le
  rw [inEngine, onLine]
  split
  · simp only [List.length_append, List.length_nil] at length ⊢
    omega
  · rwa [List.append_assoc] at length

/-- The byte in the FIFO is acknowledged in the next cycle. -/
theorem Flows.inAckReg_clock (flows : flow.Flows) (pins : Pins) :
    (flow.clock pins).uart.fifo.inAckReg =
      (flow.uart.rx.rxdSynReg && !flow.uart.fifo.inAckReg) := by
  show (_ && _ && !flow.uart.fifo.fifoFull) = _
  rw [flows.not_full]
  exact Bool.and_true _

/-- The engine acknowledges what it has shown. -/
theorem Flows.waits_eq (flows : flow.Flows) (pins : Pins) :
    flow.uart.rx.waits flow.uart.fifo.inAckReg flow.waited =
      (flow.clock pins).waited := by
  rw [RxEngine.waits, waited, waited, flows.inAckReg_clock]
  cases flow.uart.fifo.inAckReg with
  | true =>
      rw [Bool.not_true, Bool.and_false]
      rfl
  | false => rfl

/-- What the receive engine hands ended to the FIFO. -/
theorem Flows.inEngine_clock
    (flows : flow.Flows)
    (holds :
      flow.uart.rx.holds flow.line2 ++ flow.line1.started =
        flow.uart.rx.delivers flow.uart.fifo.inAckReg ++
          (flow.clock pins).uart.rx.holds flow.line1) :
    flow.inEngine ++ flow.line1.started =
      flow.uart.fifo.stored flow.uart.rx.rxdSynReg flow.uart.rx.rxdByteReg ++
        (flow.clock pins).inEngine := by
  have line2 : (flow.clock pins).line2 = flow.line1 := rfl
  rw [inEngine, inEngine, UartFifo.stored, UartFifo.takes, flows.not_full,
    flows.inAckReg_clock, line2]
  cases ack : flow.uart.fifo.inAckReg with
  | true =>
      have syn : flow.uart.rx.rxdSynReg = true :=
        flows.receives.syn_of_waited (by rw [waited, ack]; decide)
      rw [RxEngine.delivers, ack, syn,
        (flows.receives.of_syn flow.waited_le syn).1] at holds
      rw [syn]
      exact List.append_cancel_left holds
  | false =>
      cases syn : flow.uart.rx.rxdSynReg with
      | false =>
          rw [RxEngine.delivers_of_not_syn syn] at holds
          exact holds
      | true =>
          obtain ⟨shown, noStart, -⟩ :=
            flows.receives.of_syn flow.waited_le syn
          rw [shown, noStart]
          rfl

/-- The line goes on in all its places. -/
theorem Flows.receives_clock (flows : flow.Flows) (pins : Pins) :
    let flow' := flow.clock pins
    flow'.uart.rx.Receives flow'.line2 flow'.line1 flow'.line flow'.waited
        (flow'.uart.rx.holds flow'.line2 ++ flow'.line1.started ++
          flow'.line.started) ∧
      flow.inEngine ++ flow.line1.started =
        flow.uart.fifo.stored flow.uart.rx.rxdSynReg flow.uart.rx.rxdByteReg ++
          flow'.inEngine := by
  have short : flow.uart.rx.waits flow.uart.fifo.inAckReg flow.waited < 22 := by
    rw [flows.waits_eq pins]
    exact Nat.lt_of_le_of_lt (waited_le _) (by decide)
  obtain ⟨undelivered, receives, same⟩ :=
    flows.receives.clock (next_nextLine flows.driven pins) short
  rw [flows.waits_eq pins] at receives
  have eq_holds := receives.eq_holds
  subst eq_holds
  refine ⟨receives, flows.inEngine_clock ?_⟩
  simp only [List.append_assoc] at same
  simp only [← List.append_assoc] at same
  exact List.append_cancel_right (List.append_cancel_right same)

/-- What the CPU reads comes from the FIFO. -/
theorem reads_eq_given (flow : FlowControl) (pins : Pins) :
    flow.reads pins =
      flow.uart.fifo.given (UartCore.fifoOutAck (flow.uartPorts pins)) := by
  rw [reads, UartFifo.given]
  split
  case isFalse => rfl
  case isTrue gives =>
    rw [UartFifo.gives, Bool.and_eq_true, UartCore.fifoOutAck,
      Bool.and_eq_true, beq_iff_eq] at gives
    obtain ⟨⟨access, address⟩, -⟩ := gives
    rw [UartCore.readData, if_pos access, if_neg (by rw [address]; decide),
      if_pos address, BitVec.extractLsb'_setWidth_of_le (by decide),
      BitVec.extractLsb'_eq_self]

/-- Nothing is lost in a cycle. -/
theorem Flows.unread_clock (flows : flow.Flows) (pins : Pins) :
    flow.unread ++ (flow.sbuf1 pins).toList =
      flow.reads pins ++ (flow.clock pins).unread := by
  have queue :=
    (UartFifo.contents_clock flows.counted flow.uart.rx.rxdSynReg
      flow.uart.rx.rxdByteReg
      (UartCore.fifoOutAck (flow.uartPorts pins))).2
  have engine := (flows.receives_clock pins).2
  have onLine : (flow.clock pins).onLine =
      flow.line.started ++ (flow.sbuf1 pins).toList := by
    rw [← started_nextLine]
    rfl
  rw [unread, unread, onLine, FlowControl.onLine, reads_eq_given]
  calc flow.uart.fifo.contents ++
        (flow.inEngine ++ (flow.line1.started ++ flow.line.started)) ++
        (flow.sbuf1 pins).toList
    _ = flow.uart.fifo.contents ++ (flow.inEngine ++ flow.line1.started) ++
        (flow.line.started ++ (flow.sbuf1 pins).toList) := by
      simp only [List.append_assoc]
    _ = (flow.uart.fifo.contents ++
          flow.uart.fifo.stored flow.uart.rx.rxdSynReg
            flow.uart.rx.rxdByteReg) ++
        ((flow.clock pins).inEngine ++
          (flow.line.started ++ (flow.sbuf1 pins).toList)) := by
      rw [engine]
      simp only [List.append_assoc]
    _ = _ := by
      rw [queue, List.append_assoc]
      rfl

/-- When a byte is sent, one frame has started in the time of a byte. -/
theorem recent_of_u1ti
    {delay : Nat}
    (ended : flow.u1ti = true)
    (late : delay ≤ 480) :
    flow.line.recent 48 delay ≤ 1 := by
  rw [u1ti] at ended
  cases line : flow.line with
  | low | idle =>
      show delay / (10 * 48) ≤ 1
      omega
  | frame byte age =>
      rw [line] at ended
      have last : age + 1 = 480 := eq_of_beq ended
      show (delay + 10 * 48 - age) / (10 * 48) ≤ 1
      omega

/-- A cycle of all parties. -/
theorem Flows.clock (flows : flow.Flows) (pins : Pins) :
    (flow.clock pins).Flows := by
  have next := next_nextLine flows.driven pins
  have conserved := congrArg List.length (flows.unread_clock pins)
  rw [List.length_append, List.length_append, ← started_nextLine] at conserved
  have started : (flow.clock pins).line.started.length ≤
      (flow.clock pins).line.recent 48 0 :=
    Line.started_le_recent _ (by decide)
  refine ⟨flows.driven.next (by decide) next, (flows.receives_clock pins).1,
    (UartFifo.contents_clock flows.counted _ _ _).1, ?_, flows.paced.drop _, ?_⟩
  · intro delay low
    cases delay with
    | zero =>
        have below : flow.uart.fifo.byteCtrReg.toNat < 486 :=
          Nat.lt_of_not_le (of_decide_eq_false low)
        have flight := flows.length_flight_le
        have unread : flow.unread.length = flow.uart.fifo.byteCtrReg.toNat +
            (flow.inEngine ++ flow.onLine).length := by
          rw [FlowControl.unread, List.length_append, UartFifo.length_contents]
        have line : (flow.clock pins).line = flow.nextLine pins := rfl
        rw [line] at started ⊢
        omega
    | succ delay =>
        have room := flows.room delay low
        have recent : _ ≤ (flow.clock pins).line.recent 48 (delay + 1) :=
          next.recent_le (by decide) delay
        omega
  · have bound := flows.bound
    have toSend : (flow.clock pins).toSend =
        flow.toSend.drop (flow.sbuf1 pins).toList.length := rfl
    have paced := flows.paced (flow.sbuf1 pins).toList.length
    rw [toSend]
    cases written : flow.sbuf1 pins with
    | none =>
        rw [started_nextLine, written] at conserved
        have none : (none : Option (BitVec 8)).toList.length = 0 := rfl
        rw [none, List.drop_zero]
        omega
    | some byte =>
        obtain ⟨sender, rest, isNext, ended, delay, late, goesOn⟩ :=
          sbuf1_head written
        have one : (some byte).toList.length = 1 := rfl
        rw [started_nextLine, written] at conserved
        rw [written, isNext, one, List.drop_succ_cons, List.drop_zero] at paced
        rw [isNext] at bound
        rw [isNext, one, List.drop_succ_cons, List.drop_zero]
        cases sender with
        | sendByte =>
            -- one byte of the header less is to come
            have header :
                headers ((.sendByte, byte) :: rest) = headers rest + 1 := rfl
            omega
        | sendBuffer =>
            have low := ctsAgo_of_gpioP14 (eq_of_beq goesOn)
            have room := flows.room delay low
            have recent := recent_of_u1ti ended late
            omega

end FlowControl

end Step

section Run

namespace FlowControl

/-- What holds of the bytes that are sent and read, and of the state. -/
structure Lossless
    (packets : List Forwarded)
    (flow : FlowControl)
    (sent read : List (BitVec 8)) : Prop where
  /-- The packets are sent, in order. -/
  program :
    sent ++ flow.toSend.map Prod.snd =
      (packets.flatMap Forwarded.wire).map UInt8.toBitVec
  notFull : flow.uart.fifo.fifoFull = false
  /-- When a start bit comes no byte waits for an `ack`. -/
  acknowledged : flow.line.started ≠ [] → flow.uart.rx.rxdSynReg = false
  conserved :
    sent =
      read ++ flow.uart.fifo.contents ++ flow.inEngine ++ flow.onLine

/-- The bytes that are to be written are those of the packets. -/
theorem program_bytes (packets : List Forwarded) :
    (packets.flatMap Forwarded.program).map Prod.snd =
      (packets.flatMap Forwarded.wire).map UInt8.toBitVec := by
  rw [List.map_flatMap, List.map_flatMap]
  exact congrArg packets.flatMap (funext Forwarded.program_bytes)

/-- What holds after a whole run. -/
theorem flows_run
    (packets : List Forwarded)
    (uart : UartCore)
    (cycles : List Pins) :
    let start := reset packets uart
    (cycles.foldl clock start).Flows ∧
      start.sent cycles ++ (cycles.foldl clock start).toSend.map Prod.snd =
        (packets.flatMap Forwarded.wire).map UInt8.toBitVec ∧
      start.sent cycles =
        start.read cycles ++ (cycles.foldl clock start).unread := by
  intro start
  induction cycles using List.reverseRecOn with
  | nil => exact ⟨flows_reset packets uart, program_bytes packets, rfl⟩
  | append_singleton cycles pins inductionHypothesis =>
      obtain ⟨flows, program, conserved⟩ := inductionHypothesis
      have more : start.sent (cycles ++ [pins]) =
          start.sent cycles ++
            ((cycles.foldl clock start).sbuf1 pins).toList :=
        Register.outputs_concat ..
      have taken : start.read (cycles ++ [pins]) =
          start.read cycles ++ (cycles.foldl clock start).reads pins :=
        Register.outputs_concat ..
      rw [List.foldl_concat, more, taken]
      refine ⟨flows.clock pins, ?_, ?_⟩
      · rw [List.append_assoc, program_clock, program]
      · rw [conserved, List.append_assoc, flows.unread_clock,
          List.append_assoc]

/-- Flow control loses nothing. -/
theorem flow_control_lossless
    (packets : List Forwarded)
    (uart : UartCore)
    (cycles : List Pins) :
    let start := reset packets uart
    Lossless packets (cycles.foldl clock start) (start.sent cycles)
      (start.read cycles) := by
  intro start
  obtain ⟨flows, program, conserved⟩ := flows_run packets uart cycles
  refine ⟨program, flows.not_full, fun starts => ?_, ?_⟩
  · cases syn : (cycles.foldl clock start).uart.rx.rxdSynReg with
    | false => rfl
    | true =>
        exact absurd (flows.receives.of_syn (waited_le _) syn).2.2 starts
  · rw [conserved, unread, List.append_assoc, List.append_assoc]

end FlowControl

end Run

end TKey.Fpga
