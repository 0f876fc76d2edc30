import TKey.Lib.RingBuffer
import TKey.UsbControl

namespace TKey.Ch552

open ByteMemory RingBuffer

/-!
# The main loop of the USB controller

The endless loop of `main` in `main.c` of the CH552 firmware moves data between
the USB endpoints and the UART to the FPGA.  The loop is taken apart into stages
that only interrupts can come between: bytes that arrive on the UART, and the
tokens of the host.
-/

section Sizes

/-- `MAX_PACKET_SIZE`. -/
def maxPacketSize : Nat := 64

/-- `MAX_FRAME_SIZE`. -/
def maxFrameSize : Nat := 64

/-- `UART_RX_BUF_SIZE`. -/
def uartRxBufSize : Nat := 140

/-- `SET_ENDPOINTS`. -/
def setEndpoints : UInt8 := 0x01

/-- `CH552_CMD_MAX`. -/
def ch552CmdMax : UInt8 := 0x02

end Sizes

section State

/-- The endpoints with data. -/
inductive Endpoint where
  | ep2
  | ep3
  | ep4
  deriving Repr, DecidableEq

/-- Where a frame from the FPGA goes to; each has a `DataAvailable` flag. -/
inductive Sink where
  | cdc
  | fido
  | ccid
  | debug
  | ch552
  | discard
  deriving Repr, DecidableEq

/-- The OUT direction of an endpoint. -/
structure OutEndpoint where
  /-- `UsbEpXByteCount`. -/
  usbEpByteCount : UInt8
  bufferRx : Memory
  /-- Whether the response to OUT tokens is ACK; otherwise it is NAK. -/
  acks : Bool

/-- The IN direction of an endpoint. -/
structure InEndpoint where
  /-- `EndpointXUploadBusy`. -/
  uploadBusy : Bool
  bufferTx : Memory
  /-- `UEPX_T_LEN`. -/
  tLen : Nat
  /-- Whether the response to IN tokens is ACK; otherwise it is NAK. -/
  acks : Bool
  /-- The packets that the host has collected. -/
  collected : List (List UInt8)

/-- What takes packets of the host to the UART. -/
structure UsbToUart where
  outs : Endpoint → OutEndpoint
  /-- The bytes that were sent on the UART. -/
  tx : List UInt8

/-- The frame that is being received. -/
structure FrameState where
  dataAvailable : Sink → Bool
  frameBuf : Memory
  frameBufLength : Nat
  frameMode : UInt8
  frameLength : UInt8
  frameRemainingBytes : Nat
  frameStarted : Bool
  frameDiscard : Bool

/-- What takes frames on the UART to the host. -/
structure UartToUsb extends FrameState where
  /-- A software reset has been started. -/
  resetting : Bool
  /-- The register `RESET_KEEP`. -/
  resetKeep : UInt8
  /-- The FPGA has been told not to send more data. -/
  ctsStopped : Bool
  uartRxBuf : Ring UInt8 uartRxBufSize
  uartRxBufByteCount : Nat
  ins : Endpoint → InEndpoint
  cdcSendZeroLenPacket : Bool

/-- The stages of an iteration of the loop. -/
inductive Stage where
  | top
  | ep2
  | ep3
  | ep4
  | header
  | copy
  | cdc
  | zeroLenPacket
  | fido
  | ccid
  | debug
  | ch552
  | discard
  deriving Repr, DecidableEq

/-- The controller between two stages. -/
structure Chip extends UsbToUart, UartToUsb where
  stage : Stage
  usbConfig : UInt8

end State

section UsbToUart

/-- A packet of the host, of at most `MAX_PACKET_SIZE` bytes. -/
structure UsbPacket where
  data : List UInt8
  short : data.length ≤ 64
  deriving DecidableEq

/-- `USB_RX_LEN`. -/
def UsbPacket.usbRxLen (packet : UsbPacket) : UInt8 :=
  UInt8.ofNat packet.data.length

/-- `UIS_TOKEN_OUT | 2`. -/
def OutEndpoint.tokenOut2 (endpoint : OutEndpoint) (usbRxLen : UInt8) :
    OutEndpoint :=
  if usbRxLen = 0 then
    { endpoint with usbEpByteCount := usbRxLen }
  else
    { endpoint with usbEpByteCount := usbRxLen, acks := false }

/-- `UIS_TOKEN_OUT | 3`. -/
def OutEndpoint.tokenOut3 (endpoint : OutEndpoint) (usbRxLen : UInt8) :
    OutEndpoint :=
  { endpoint with usbEpByteCount := usbRxLen, acks := false }

/-- `UIS_TOKEN_OUT | 4`. -/
def OutEndpoint.tokenOut4 (endpoint : OutEndpoint) (usbRxLen : UInt8) :
    OutEndpoint :=
  { endpoint with usbEpByteCount := usbRxLen, acks := false }

/-- The handler of an OUT token. -/
def OutEndpoint.tokenOut :
    Endpoint → OutEndpoint → UInt8 → OutEndpoint
  | .ep2 => OutEndpoint.tokenOut2
  | .ep3 => OutEndpoint.tokenOut3
  | .ep4 => OutEndpoint.tokenOut4

namespace UsbToUart

/--
The host sends a packet.  An endpoint that does not ACK ignores it; the packet
is dropped when `U_TOG_OK` does not hold.
-/
def outToken
    (usb : UsbToUart)
    (ep : Endpoint)
    (togOk : Bool)
    (packet : UsbPacket) : UsbToUart :=
  if (usb.outs ep).acks then
    let received :=
      { usb.outs ep with bufferRx := write (usb.outs ep).bufferRx 0 packet.data }
    { usb with
      outs :=
        Function.update usb.outs ep
          (if togOk then received.tokenOut ep packet.usbRxLen else received) }
  else
    usb

/-- Send the packet of an endpoint on the UART, behind a mode header. -/
def forward (usb : UsbToUart) (ep : Endpoint) (mode : List UInt8) :
    UsbToUart :=
  let endpoint := usb.outs ep
  if endpoint.usbEpByteCount ≠ 0 then
    { usb with
      tx :=
        usb.tx ++
          (mode ++ endpoint.usbEpByteCount ::
            read endpoint.bufferRx 0 endpoint.usbEpByteCount.toNat)
      outs :=
        Function.update usb.outs ep
          { endpoint with usbEpByteCount := 0, acks := true } }
  else
    usb

/-- Endpoint 2 (CDC) has received data. -/
def forwardEp2 (usb : UsbToUart) : UsbToUart :=
  usb.forward .ep2 [ioCdc]

/-- Endpoint 3 (FIDO or CCID) has received data. -/
def forwardEp3 (active : UInt8) (usb : UsbToUart) : UsbToUart :=
  usb.forward .ep3
    (if active &&& ioFido ≠ 0 then [ioFido]
      else if active &&& ioCcid ≠ 0 then [ioCcid]
      else [])

/-- Endpoint 4 (DEBUG) has received data. -/
def forwardEp4 (usb : UsbToUart) : UsbToUart :=
  usb.forward .ep4 [ioDebug]

end UsbToUart

end UsbToUart

section UartToUsb

namespace UartToUsb

variable (usb : UartToUsb)

/-- `Uart1_ISR`, with `check_cts_stop`. -/
def uart1Isr (byte : UInt8) : UartToUsb :=
  let usb := { usb with uartRxBuf := usb.uartRxBuf.push byte }
  if usb.uartRxBuf.count ≥ 133 then { usb with ctsStopped := true } else usb

/-- The host sends an IN token; an endpoint that does not ACK ignores it. -/
def inToken (ep : Endpoint) : UartToUsb :=
  let endpoint := usb.ins ep
  if endpoint.acks then
    { usb with
      ins :=
        Function.update usb.ins ep
          { endpoint with
            collected :=
              endpoint.collected ++ [read endpoint.bufferTx 0 endpoint.tLen]
            tLen := 0
            acks := false
            uploadBusy := false } }
  else
    usb

/-- The modes that a frame can have. -/
def frameModes : List UInt8 := [ioCdc, ioFido, ioCcid, ioDebug, ioCh552]

/-- Extract the frame mode and the frame length. -/
def takeHeader (active : UInt8) : UartToUsb :=
  let usb := { usb with uartRxBufByteCount := usb.uartRxBuf.count }
  if usb.uartRxBufByteCount ≥ 2 ∧ ¬ usb.frameStarted then
    let usb :=
      { usb with frameMode := usb.uartRxBuf.cells usb.uartRxBuf.output }
    if usb.frameMode ∈ frameModes then
      let frameLength :=
        usb.uartRxBuf.cells
          (Ring.increment uartRxBufSize usb.uartRxBuf.output 1)
      { usb with
        frameLength := frameLength
        frameRemainingBytes := frameLength.toNat
        uartRxBuf := usb.uartRxBuf.advance 2
        uartRxBufByteCount := usb.uartRxBufByteCount - 2
        frameStarted := true
        frameDiscard :=
          if usb.frameMode &&& active = 0 then true else usb.frameDiscard }
    else
      { usb with ctsStopped := true, resetting := true }
  else
    usb

/-- How many bytes of the frame are taken out of the buffer next. -/
def chunkLength (tail : Bool) : Option Nat :=
  if usb.frameRemainingBytes ≥ maxFrameSize ∧
      usb.uartRxBufByteCount ≥ maxFrameSize then
    some maxFrameSize
  else if tail ∧ usb.frameRemainingBytes < maxFrameSize ∧
      usb.uartRxBufByteCount ≥ usb.frameRemainingBytes then
    some usb.frameRemainingBytes
  else
    none

/-- Take bytes out of the buffer. -/
def skip (sink : Sink) (length : Nat) : UartToUsb :=
  { usb with
    uartRxBuf := usb.uartRxBuf.advance length
    frameRemainingBytes := usb.frameRemainingBytes - length
    dataAvailable := Function.update usb.dataAvailable sink true
    ctsStopped := false }

/-- Copy bytes from `UartRxBuf` to `FrameBuf`. -/
def copyBytes (sink : Sink) (length : Nat) : UartToUsb :=
  { usb.skip sink length with
    frameBuf :=
      write usb.frameBuf 0
        (usb.uartRxBuf.copy usb.uartRxBuf.output length)
    frameBufLength := length }

/-- Copy data of a mode; without `tail` only whole `MAX_FRAME_SIZE` bytes. -/
def copyData (sink : Sink) (mode : UInt8) (tail : Bool) : UartToUsb :=
  if usb.frameStarted ∧ ¬ usb.frameDiscard ∧ ¬ usb.dataAvailable sink ∧
      usb.frameMode = mode then
    match usb.chunkLength tail with
    | some length => usb.copyBytes sink length
    | none => usb
  else
    usb

def copyCdc : UartToUsb := usb.copyData .cdc ioCdc true

/-- There is no branch for less than `MAX_FRAME_SIZE` bytes. -/
def copyFido : UartToUsb := usb.copyData .fido ioFido false

def copyCcid : UartToUsb := usb.copyData .ccid ioCcid true

def copyDebug : UartToUsb := usb.copyData .debug ioDebug true

def copyCh552 : UartToUsb := usb.copyData .ch552 ioCh552 true

/-- Discard bytes of a frame. -/
def discardFrame : UartToUsb :=
  if usb.frameStarted ∧ usb.frameDiscard ∧ ¬ usb.dataAvailable .discard then
    match usb.chunkLength true with
    | some length => usb.skip .discard length
    | none => usb
  else
    usb

/-- An endpoint is ready to send what is in its buffer. -/
def arm (ep : Endpoint) (bufferTx : Memory) (tLen : Nat) : UartToUsb :=
  { usb with
    ins :=
      Function.update usb.ins ep
        { usb.ins ep with
          bufferTx := bufferTx
          uploadBusy := true
          tLen := tLen
          acks := true } }

/-- The buffer of an endpoint with the bytes of `FrameBuf`. -/
def bufferWithFrame (ep : Endpoint) : Memory :=
  write (usb.ins ep).bufferTx 0 (read usb.frameBuf 0 usb.frameBufLength)

/-- `FrameBuf` has been used. -/
def release (sink : Sink) : UartToUsb :=
  { usb with
    dataAvailable := Function.update usb.dataAvailable sink false
    frameBufLength := 0 }

/-- Get the next header and data when the frame is complete. -/
def endOfFrame : UartToUsb :=
  if usb.frameRemainingBytes = 0 then
    { usb with frameStarted := false }
  else
    usb

/-- Upload data to endpoint 2 (CDC). -/
def uploadCdc : UartToUsb :=
  if usb.dataAvailable .cdc ∧ ¬ (usb.ins .ep2).uploadBusy then
    let armed := usb.arm .ep2 (usb.bufferWithFrame .ep2) usb.frameBufLength
    let marked :=
      if usb.frameBufLength = maxPacketSize then
        { armed with cdcSendZeroLenPacket := true }
      else
        armed
    (marked.release .cdc).endOfFrame
  else
    usb

/-- Transmit a zero-length packet to terminate 64-byte frames. -/
def sendZeroLenPacket : UartToUsb :=
  if usb.cdcSendZeroLenPacket ∧ ¬ (usb.ins .ep2).uploadBusy then
    { usb.arm .ep2 (usb.ins .ep2).bufferTx 0 with
      cdcSendZeroLenPacket := false }
  else
    usb

/-- Upload data to endpoint 3 (FIDO). -/
def uploadFido : UartToUsb :=
  if usb.dataAvailable .fido ∧ ¬ (usb.ins .ep3).uploadBusy then
    let armed := usb.arm .ep3 (usb.bufferWithFrame .ep3) maxPacketSize
    { armed.release .fido with frameStarted := false }
  else
    usb

/-- Upload data to endpoint 3 (CCID). -/
def uploadCcid : UartToUsb :=
  if usb.dataAvailable .ccid ∧ ¬ (usb.ins .ep3).uploadBusy then
    let armed := usb.arm .ep3 (usb.bufferWithFrame .ep3) usb.frameBufLength
    { armed.release .ccid with frameStarted := false }
  else
    usb

/-- Upload data to endpoint 4 (DEBUG). -/
def uploadDebug : UartToUsb :=
  if usb.dataAvailable .debug ∧ ¬ (usb.ins .ep4).uploadBusy then
    let bufferTx :=
      if usb.frameBufLength = maxPacketSize then
        usb.bufferWithFrame .ep4
      else
        write
          (write (usb.ins .ep4).bufferTx 0 (List.replicate maxPacketSize 0)) 0
          (read usb.frameBuf 0 usb.frameBufLength)
    let armed := usb.arm .ep4 bufferTx maxPacketSize
    (armed.release .debug).endOfFrame
  else
    usb

/-- Handle CH552 data. -/
def handleCh552 : UartToUsb :=
  if usb.dataAvailable .ch552 then
    if usb.frameBuf 0 < ch552CmdMax ∧ usb.frameBuf 0 = setEndpoints then
      { usb with
        ctsStopped := true
        resetKeep := usb.frameBuf 1
        resetting := true }
    else
      let released := usb.release .ch552
      { released with
        frameBuf :=
          write usb.frameBuf 0 (List.replicate maxFrameSize 0) }.endOfFrame
  else
    usb

/-- Data has been discarded. -/
def endDiscard : UartToUsb :=
  if usb.dataAvailable .discard then
    let usb :=
      { usb with
        dataAvailable := Function.update usb.dataAvailable .discard false }
    if usb.frameRemainingBytes = 0 then
      { usb with frameStarted := false, frameDiscard := false }
    else
      usb
  else
    usb

end UartToUsb

end UartToUsb

section MainLoop

/-- The stage that comes after a stage. -/
def Stage.next : Stage → Stage
  | .top => .ep2
  | .ep2 => .ep3
  | .ep3 => .ep4
  | .ep4 => .header
  | .header => .copy
  | .copy => .cdc
  | .cdc => .zeroLenPacket
  | .zeroLenPacket => .fido
  | .fido => .ccid
  | .ccid => .debug
  | .debug => .ch552
  | .ch552 => .discard
  | .discard => .top

/-- What a stage does for packets of the host. -/
def UsbToUart.perform (active : UInt8) (stage : Stage) (usb : UsbToUart) :
    UsbToUart :=
  match stage with
  | .ep2 => usb.forwardEp2
  | .ep3 => usb.forwardEp3 active
  | .ep4 => usb.forwardEp4
  | _ => usb

/-- What a stage does for frames on the UART. -/
def UartToUsb.perform (active : UInt8) (stage : Stage) (usb : UartToUsb) :
    UartToUsb :=
  match stage with
  | .header => usb.takeHeader active
  | .copy =>
      usb.copyCdc.copyFido.copyCcid.copyDebug.copyCh552.discardFrame
  | .cdc => usb.uploadCdc
  | .zeroLenPacket => usb.sendZeroLenPacket
  | .fido => usb.uploadFido
  | .ccid => usb.uploadCcid
  | .debug => usb.uploadDebug
  | .ch552 => usb.handleCh552
  | .discard => usb.endDiscard
  | _ => usb

namespace Chip

/-- The next stage of the loop; nothing is done before `UsbConfig` is set. -/
def main (active : UInt8) (chip : Chip) : Chip :=
  if chip.resetting then
    chip
  else if chip.stage = .top ∧ chip.usbConfig = 0 then
    chip
  else
    { toUsbToUart := chip.toUsbToUart.perform active chip.stage
      toUartToUsb := chip.toUartToUsb.perform active chip.stage
      stage := chip.stage.next
      usbConfig := chip.usbConfig }

/-- The beginning of the loop after the power-up or a software reset. -/
def boot (resetKeep : UInt8) : Chip where
  outs := fun _ =>
    { usbEpByteCount := 0, bufferRx := fun _ => 0, acks := true }
  tx := []
  resetting := false
  resetKeep := resetKeep
  ctsStopped := false
  uartRxBuf :=
    { cells := fun _ => 0
      input := 0
      output := 0
      input_lt := by decide
      output_lt := by decide }
  uartRxBufByteCount := 0
  ins := fun _ =>
    { uploadBusy := false
      bufferTx := fun _ => 0
      tLen := 0
      acks := false
      collected := [] }
  dataAvailable := fun _ => false
  cdcSendZeroLenPacket := false
  frameBuf := fun _ => 0
  frameBufLength := 0
  frameMode := 0
  frameLength := 0
  frameRemainingBytes := 0
  frameStarted := false
  frameDiscard := false
  stage := .top
  usbConfig := 0

/-- The interrupt for a bus reset. -/
def busReset (chip : Chip) : Chip :=
  { chip with
    outs := fun ep =>
      { chip.outs ep with usbEpByteCount := 0, acks := true }
    ins := fun ep =>
      { chip.ins ep with uploadBusy := false, acks := false }
    uartRxBuf := chip.uartRxBuf.clear
    uartRxBufByteCount := 0
    frameMode := 0
    usbConfig := 0 }

end Chip

/-- What can happen next. -/
inductive Event where
  /-- The loop goes on with the next stage. -/
  | main
  | outToken (ep : Endpoint) (togOk : Bool) (packet : UsbPacket)
  | inToken (ep : Endpoint)
  /-- `USB_SET_CONFIGURATION`. -/
  | setConfiguration (usbConfig : UInt8)
  | uart1 (byte : UInt8)

namespace Chip

variable (active : UInt8)

/-- One event. -/
def step (chip : Chip) : Event → Chip
  | .main => chip.main active
  | .outToken ep togOk packet =>
      { chip with toUsbToUart := chip.toUsbToUart.outToken ep togOk packet }
  | .inToken ep =>
      { chip with toUartToUsb := chip.toUartToUsb.inToken ep }
  | .setConfiguration usbConfig => { chip with usbConfig := usbConfig }
  | .uart1 byte =>
      { chip with toUartToUsb := chip.toUartToUsb.uart1Isr byte }

/-- Events one after the other. -/
def run (chip : Chip) (events : List Event) : Chip :=
  events.foldl (step active) chip

end Chip

/-- How often the loop goes on. -/
def mainSteps (events : List Event) : Nat :=
  events.countP fun event =>
    match event with
    | .main => true
    | _ => false

end MainLoop

section Stages

/-- The number of a stage. -/
def Stage.index : Stage → Nat
  | .top => 0
  | .ep2 => 1
  | .ep3 => 2
  | .ep4 => 3
  | .header => 4
  | .copy => 5
  | .cdc => 6
  | .zeroLenPacket => 7
  | .fido => 8
  | .ccid => 9
  | .debug => 10
  | .ch552 => 11
  | .discard => 12

/-- How many stages come before a stage is next. -/
def Stage.stepsTo (stage target : Stage) : Nat :=
  (target.index + 13 - stage.index) % 13

theorem Stage.index_lt (stage : Stage) : stage.index < 13 := by
  cases stage <;> decide

theorem Stage.index_next (stage : Stage) :
    stage.next.index = (stage.index + 1) % 13 := by
  cases stage <;> rfl

theorem Stage.eq_of_index_eq
    {stage target : Stage}
    (same : stage.index = target.index) :
    stage = target := by
  cases stage <;> cases target <;> first | rfl | cases same

theorem Stage.stepsTo_lt (stage target : Stage) :
    stage.stepsTo target < 13 :=
  Nat.mod_lt _ (by decide)

/-- Another stage comes nearer. -/
theorem Stage.stepsTo_next
    {stage target : Stage}
    (other : stage ≠ target) :
    stage.next.stepsTo target + 1 = stage.stepsTo target := by
  have differ : stage.index ≠ target.index := fun same =>
    other (eq_of_index_eq same)
  have inStages := stage.index_lt
  have targetInStages := target.index_lt
  rw [stepsTo, stepsTo, index_next]
  omega

end Stages

section Running

variable {active : UInt8}

/-- The loop runs. -/
def Chip.Running (chip : Chip) : Prop :=
  chip.usbConfig ≠ 0 ∧ chip.resetting = false

/-- The loop runs before every event. -/
def Chip.KeepsRunning (active : UInt8) (chip : Chip) (events : List Event) : Prop :=
  ∀ before, before <+: events → (chip.run active before).Running

theorem Chip.run_append (chip : Chip) (first second : List Event) :
    chip.run active (first ++ second) =
      (chip.run active first).run active second :=
  List.foldl_append

theorem Chip.KeepsRunning.tail
    {chip : Chip}
    {event : Event}
    {events : List Event}
    (keeps : chip.KeepsRunning active (event :: events)) :
    (chip.step active event).KeepsRunning active events := by
  intro before isBefore
  exact keeps (event :: before) (List.cons_prefix_cons.mpr ⟨rfl, isBefore⟩)

theorem Chip.KeepsRunning.head
    {chip : Chip}
    {events : List Event}
    (keeps : chip.KeepsRunning active events) :
    chip.Running :=
  keeps [] List.nil_prefix

/-- The loop goes on while it runs. -/
theorem Chip.stage_step
    {chip : Chip}
    (running : chip.Running)
    (event : Event) :
    (chip.step active event).stage =
      match event with
      | .main => chip.stage.next
      | _ => chip.stage := by
  cases event with
  | main =>
      have notResetting : ¬ chip.resetting = true := by
        rw [running.2]
        exact Bool.false_ne_true
      have configured : ¬ (chip.stage = .top ∧ chip.usbConfig = 0) :=
        fun waits => running.1 waits.2
      rw [step, Chip.main, if_neg notResetting, if_neg configured]
  | outToken ep togOk packet => rfl
  | inToken ep => rfl
  | setConfiguration usbConfig => rfl
  | uart1 byte => rfl

end Running

end TKey.Ch552
