import Mathlib.Logic.Function.Basic

namespace TKey.Fpga

/-!
# The UART core

`uart.v` with `uart_core.v` and `uart_fifo.v`: a receive engine that hands its
bytes to a FIFO, and a transmit engine.
-/

section UartCore

/-- The configuration ports of `uart_core`. -/
structure UartConfig where
  bitRate : BitVec 16
  dataBits : BitVec 4
  stopBits : BitVec 2

/-- `DEFAULT_BIT_RATE`, `DEFAULT_DATA_BITS` and `DEFAULT_STOP_BITS`. -/
def UartConfig.default : UartConfig where
  bitRate := 48
  dataBits := 8
  stopBits := 1

/-- `half_bit_rate`. -/
def UartConfig.halfBitRate (config : UartConfig) : BitVec 16 :=
  config.bitRate >>> 1

/-- `erx_ctrl_reg`. -/
inductive ErxCtrl where
  | idle
  | start
  | bits
  | stop
  | syn
  | err
  deriving Repr, DecidableEq

/-- The registers of `uart_core` for receiving. -/
structure RxEngine where
  rxd0Reg : Bool
  rxdReg : Bool
  rxdByteReg : BitVec 8
  rxdBitCtrReg : BitVec 4
  rxdBitrateCtrReg : BitVec 16
  rxdSynReg : Bool
  rxdStopBitReg : Bool
  erxCtrlReg : ErxCtrl
  deriving Repr, DecidableEq

namespace RxEngine

/-- The registers after a reset. -/
def reset : RxEngine where
  rxd0Reg := false
  rxdReg := false
  rxdByteReg := 0
  rxdBitCtrReg := 0
  rxdBitrateCtrReg := 0
  rxdSynReg := false
  rxdStopBitReg := false
  erxCtrlReg := .err

/-- What `external_rx_engine` computes. -/
structure Ctrl where
  rxdBitCtrRst : Bool := false
  rxdBitCtrInc : Bool := false
  rxdBitrateCtrRst : Bool := false
  rxdBitrateCtrInc : Bool := false
  rxdByteWe : Bool := false
  rxdSynNew : Bool := false
  rxdSynWe : Bool := false
  erxCtrlNew : ErxCtrl := .err
  erxCtrlWe : Bool := false
  rxdStopBitWe : Bool := false

/-- `external_rx_engine`. -/
def externalRxEngine
    (config : UartConfig)
    (rx : RxEngine)
    (rxdAck : Bool) : Ctrl :=
  match rx.erxCtrlReg with
  | .err =>
      if rx.rxdReg then
        { erxCtrlNew := .idle, erxCtrlWe := true }
      else
        {}
  | .idle =>
      if !rx.rxdReg then
        { rxdBitrateCtrInc := true, erxCtrlNew := .start, erxCtrlWe := true }
      else
        {}
  | .start =>
      if rx.rxdReg then
        -- Just a glitch.
        { rxdBitrateCtrRst := true, erxCtrlNew := .idle, erxCtrlWe := true }
      else if rx.rxdBitrateCtrReg < config.halfBitRate then
        { rxdBitrateCtrInc := true }
      else
        { rxdBitrateCtrRst := true
          rxdBitCtrRst := true
          erxCtrlNew := .bits
          erxCtrlWe := true }
  | .bits =>
      if rx.rxdBitrateCtrReg < config.bitRate then
        { rxdBitrateCtrInc := true }
      else if rx.rxdBitCtrReg < config.dataBits then
        { rxdBitrateCtrRst := true, rxdBitCtrInc := true, rxdByteWe := true }
      else
        { rxdBitrateCtrRst := true
          erxCtrlNew := .stop
          erxCtrlWe := true
          rxdStopBitWe := true }
  | .stop =>
      if rx.rxdStopBitReg then
        { rxdSynNew := true
          rxdSynWe := true
          erxCtrlNew := .syn
          erxCtrlWe := true }
      else
        -- Framing error.
        { erxCtrlNew := .err, erxCtrlWe := true }
  | .syn =>
      if rxdAck then
        { rxdSynNew := false
          rxdSynWe := true
          erxCtrlNew := .idle
          erxCtrlWe := true }
      else
        {}

/-- `rxd_bit_ctr`: the next value of `rxd_bit_ctr_reg`. -/
def rxdBitCtr (rx : RxEngine) (ctrl : Ctrl) : BitVec 4 :=
  if ctrl.rxdBitCtrRst then
    0
  else if ctrl.rxdBitCtrInc then
    rx.rxdBitCtrReg + 1
  else
    rx.rxdBitCtrReg

/-- `rxd_bitrate_ctr`: the next value of `rxd_bitrate_ctr_reg`. -/
def rxdBitrateCtr (rx : RxEngine) (ctrl : Ctrl) : BitVec 16 :=
  if ctrl.rxdBitrateCtrRst then
    1
  else if ctrl.rxdBitrateCtrInc then
    rx.rxdBitrateCtrReg + 1
  else
    rx.rxdBitrateCtrReg

/-- `reg_update`, with the line and the acknowledgement. -/
def clock
    (config : UartConfig)
    (rx : RxEngine)
    (rxd rxdAck : Bool) : RxEngine :=
  let ctrl := rx.externalRxEngine config rxdAck
  { rxd0Reg := rxd
    rxdReg := rx.rxd0Reg
    rxdByteReg :=
      if ctrl.rxdByteWe then
        BitVec.ofBool rx.rxdReg ++ rx.rxdByteReg.extractLsb' 1 7
      else
        rx.rxdByteReg
    rxdBitCtrReg := rx.rxdBitCtr ctrl
    rxdBitrateCtrReg := rx.rxdBitrateCtr ctrl
    rxdSynReg := if ctrl.rxdSynWe then ctrl.rxdSynNew else rx.rxdSynReg
    rxdStopBitReg := if ctrl.rxdStopBitWe then rx.rxdReg else rx.rxdStopBitReg
    erxCtrlReg := if ctrl.erxCtrlWe then ctrl.erxCtrlNew else rx.erxCtrlReg }

end RxEngine

/-- `etx_ctrl_reg`. -/
inductive EtxCtrl where
  | idle
  | start
  | bits
  | stop
  deriving Repr, DecidableEq

/-- The registers of `uart_core` for transmitting. -/
structure TxEngine where
  txdReg : Bool
  txdByteReg : BitVec 8
  txdBitCtrReg : BitVec 4
  txdBitrateCtrReg : BitVec 16
  txdReadyReg : Bool
  etxCtrlReg : EtxCtrl
  deriving Repr, DecidableEq

namespace TxEngine

/-- The registers after a reset. -/
def reset : TxEngine where
  txdReg := true
  txdByteReg := 0
  txdBitCtrReg := 0
  txdBitrateCtrReg := 0
  txdReadyReg := true
  etxCtrlReg := .idle

/-- What `external_tx_engine` computes. -/
structure Ctrl where
  txdNew : Bool := false
  txdWe : Bool := false
  txdByteNew : BitVec 8 := 0
  txdByteWe : Bool := false
  txdBitCtrRst : Bool := false
  txdBitCtrInc : Bool := false
  txdBitrateCtrRst : Bool := false
  txdBitrateCtrInc : Bool := false
  txdReadyNew : Bool := false
  txdReadyWe : Bool := false
  etxCtrlNew : EtxCtrl := .idle
  etxCtrlWe : Bool := false

/-- The data bit at `txd_bit_ctr_reg`. -/
def dataBit (tx : TxEngine) : Bool :=
  tx.txdByteReg.getLsbD (tx.txdBitCtrReg.extractLsb' 0 3).toNat

/-- `external_tx_engine`; `txd_syn` comes with `txd_data`. -/
def externalTxEngine
    (config : UartConfig)
    (tx : TxEngine)
    (txd : Option (BitVec 8)) : Ctrl :=
  match tx.etxCtrlReg with
  | .idle =>
      match txd with
      | some txdData =>
          { txdNew := false
            txdWe := true
            txdByteNew := txdData
            txdByteWe := true
            txdBitCtrRst := true
            txdReadyNew := false
            txdReadyWe := true
            txdBitrateCtrRst := true
            etxCtrlNew := .start
            etxCtrlWe := true }
      | none =>
          { txdNew := true, txdWe := true, txdBitCtrRst := true }
  | .start =>
      if tx.txdBitrateCtrReg < config.bitRate then
        { txdBitrateCtrInc := true }
      else
        { txdBitrateCtrRst := true
          txdBitCtrInc := true
          txdNew := tx.dataBit
          txdWe := true
          etxCtrlNew := .bits
          etxCtrlWe := true }
  | .bits =>
      if tx.txdBitrateCtrReg < config.bitRate then
        { txdBitrateCtrInc := true }
      else if tx.txdBitCtrReg < config.dataBits then
        { txdBitrateCtrRst := true
          txdBitCtrInc := true
          txdNew := tx.dataBit
          txdWe := true }
      else
        { txdBitrateCtrRst := true
          txdNew := true
          txdWe := true
          etxCtrlNew := .stop
          etxCtrlWe := true }
  | .stop =>
      if tx.txdBitrateCtrReg <
          config.bitRate * config.stopBits.setWidth 16 then
        { txdBitrateCtrInc := true }
      else
        { txdBitrateCtrRst := true
          txdBitCtrRst := true
          txdReadyNew := true
          txdReadyWe := true
          etxCtrlNew := .idle
          etxCtrlWe := true }

/-- `txd_bit_ctr`: the next value of `txd_bit_ctr_reg`. -/
def txdBitCtr (tx : TxEngine) (ctrl : Ctrl) : BitVec 4 :=
  if ctrl.txdBitCtrRst then
    0
  else if ctrl.txdBitCtrInc then
    tx.txdBitCtrReg + 1
  else
    tx.txdBitCtrReg

/-- `txd_bitrate_ctr`: the next value of `txd_bitrate_ctr_reg`. -/
def txdBitrateCtr (tx : TxEngine) (ctrl : Ctrl) : BitVec 16 :=
  if ctrl.txdBitrateCtrRst then
    1
  else if ctrl.txdBitrateCtrInc then
    tx.txdBitrateCtrReg + 1
  else
    tx.txdBitrateCtrReg

/-- `reg_update`. -/
def clock
    (config : UartConfig)
    (tx : TxEngine)
    (txd : Option (BitVec 8)) : TxEngine :=
  let ctrl := tx.externalTxEngine config txd
  { txdReg := if ctrl.txdWe then ctrl.txdNew else tx.txdReg
    txdByteReg := if ctrl.txdByteWe then ctrl.txdByteNew else tx.txdByteReg
    txdBitCtrReg := tx.txdBitCtr ctrl
    txdBitrateCtrReg := tx.txdBitrateCtr ctrl
    txdReadyReg := if ctrl.txdReadyWe then ctrl.txdReadyNew else tx.txdReadyReg
    etxCtrlReg := if ctrl.etxCtrlWe then ctrl.etxCtrlNew else tx.etxCtrlReg }

end TxEngine

end UartCore

section UartFifo

/-- The memory and the registers of `uart_fifo`. -/
structure UartFifo where
  fifoMem : BitVec 9 → BitVec 8
  inPtrReg : BitVec 9
  outPtrReg : BitVec 9
  byteCtrReg : BitVec 9
  inAckReg : Bool
  fpgaCtsReg : Bool

namespace UartFifo

/-- A reset, which keeps the memory. -/
def reset (fifo : UartFifo) : UartFifo where
  fifoMem := fifo.fifoMem
  inPtrReg := 0
  outPtrReg := 0
  byteCtrReg := 0
  inAckReg := false
  fpgaCtsReg := false

def fifoEmpty (fifo : UartFifo) : Bool :=
  fifo.byteCtrReg == 0

def fifoFull (fifo : UartFifo) : Bool :=
  fifo.byteCtrReg == 0x1ff

/-- The output port `out_data`. -/
def outData (fifo : UartFifo) : BitVec 8 :=
  fifo.fifoMem fifo.outPtrReg

/-- `in_logic`: whether a byte is stored. -/
def takes (fifo : UartFifo) (inSyn : Bool) : Bool :=
  inSyn && !fifo.inAckReg && !fifo.fifoFull

/-- `out_logic`: whether a byte is given away. -/
def gives (fifo : UartFifo) (outAck : Bool) : Bool :=
  outAck && !fifo.fifoEmpty

/-- `byte_ctr`: the next value of `byte_ctr_reg`. -/
def byteCtr (fifo : UartFifo) (byteCtrInc byteCtrDec : Bool) : BitVec 9 :=
  if byteCtrInc && !byteCtrDec then
    fifo.byteCtrReg + 1
  else if !byteCtrInc && byteCtrDec then
    fifo.byteCtrReg - 1
  else
    fifo.byteCtrReg

/-- `reg_update`. -/
def clock
    (fifo : UartFifo)
    (inSyn : Bool)
    (inData : BitVec 8)
    (outAck : Bool) : UartFifo :=
  let takes := fifo.takes inSyn
  let gives := fifo.gives outAck
  { inAckReg := takes
    fifoMem :=
      if takes then
        Function.update fifo.fifoMem fifo.inPtrReg inData
      else
        fifo.fifoMem
    inPtrReg := if takes then fifo.inPtrReg + 1 else fifo.inPtrReg
    outPtrReg := if gives then fifo.outPtrReg + 1 else fifo.outPtrReg
    byteCtrReg := fifo.byteCtr takes gives
    -- signals to not send more data when it is filled to 95 %
    fpgaCtsReg := decide (486 ≤ fifo.byteCtrReg) }

end UartFifo

end UartFifo

section Uart

def addrRxStatus : BitVec 8 := 0x20
def addrRxData : BitVec 8 := 0x21
def addrRxBytes : BitVec 8 := 0x22
def addrTxStatus : BitVec 8 := 0x40
def addrTxData : BitVec 8 := 0x41

/-- The registers of `uart`. -/
structure UartCore where
  rx : RxEngine
  tx : TxEngine
  fifo : UartFifo
  ch552CtsReg : BitVec 2

namespace UartCore

/-- The input ports of `uart`. -/
structure Ports where
  rxd : Bool
  ch552Cts : Bool
  cs : Bool
  we : Bool
  address : BitVec 8
  writeData : BitVec 32

/-- A reset, which keeps the memory of the FIFO. -/
def reset (uart : UartCore) : UartCore where
  rx := .reset
  tx := .reset
  fifo := uart.fifo.reset
  ch552CtsReg := 0

/-- `core_txd_syn` and `core_txd_data`. -/
def coreTxd (uart : UartCore) (ports : Ports) : Option (BitVec 8) :=
  if ports.cs && ports.we && ports.address == addrTxData &&
      uart.tx.txdReadyReg then
    some (ports.writeData.extractLsb' 0 8)
  else
    none

/-- `fifo_out_ack`. -/
def fifoOutAck (ports : Ports) : Bool :=
  ports.cs && !ports.we && ports.address == addrRxData

/-- The output port `read_data`. -/
def readData (uart : UartCore) (ports : Ports) : BitVec 32 :=
  if ports.cs && !ports.we then
    if ports.address = addrRxStatus then
      (BitVec.ofBool !uart.fifo.fifoEmpty).setWidth 32
    else if ports.address = addrRxData then
      uart.fifo.outData.setWidth 32
    else if ports.address = addrRxBytes then
      uart.fifo.byteCtrReg.setWidth 32
    else if ports.address = addrTxStatus then
      (BitVec.ofBool
        (uart.tx.txdReadyReg && !uart.ch552CtsReg.getLsbD 1)).setWidth 32
    else
      0
  else
    0

/-- A clock edge. -/
def clock (uart : UartCore) (ports : Ports) : UartCore where
  rx := uart.rx.clock .default ports.rxd uart.fifo.inAckReg
  tx := uart.tx.clock .default (uart.coreTxd ports)
  fifo :=
    uart.fifo.clock uart.rx.rxdSynReg uart.rx.rxdByteReg (fifoOutAck ports)
  ch552CtsReg :=
    uart.ch552CtsReg.extractLsb' 0 1 ++ BitVec.ofBool ports.ch552Cts

end UartCore

end Uart

end TKey.Fpga
