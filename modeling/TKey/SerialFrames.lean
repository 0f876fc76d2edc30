import Mathlib.Algebra.Group.Nat.Defs
import TKey.Lib.SerialLine
import TKey.UartCore

namespace TKey.Fpga

open SerialLine

/-!
# Frames in the UART engines

At the default bit rate a bit takes 48 cycles and a frame 480.  The transmit
engine drives its pin with frames.  The receive engine finds a frame by its
start bit, and takes each bit in the middle of its time.
-/

section Transmit

/-- A counter that is below its bound. -/
theorem toNat_add_one
    {width : Nat}
    {counter : BitVec width}
    (bound : Nat)
    (below : counter.toNat < bound)
    (fits : bound < 2 ^ width) :
    (counter + BitVec.ofNat width 1).toNat = counter.toNat + 1 := by
  rw [BitVec.toNat_add, BitVec.toNat_ofNat, Nat.add_mod_mod,
    Nat.mod_eq_of_lt (by omega)]

namespace TxEngine

variable {tx : TxEngine} {line : Line} {txd : Option (BitVec 8)}

/-- The transmit engine is as far as the frame on its pin. -/
inductive Drives (tx : TxEngine) : Line → Prop
  | idle
      (ctrl : tx.etxCtrlReg = .idle)
      (ready : tx.txdReadyReg = true)
      (high : tx.txdReg = true) :
      Drives tx .idle
  | start
      {byte : BitVec 8}
      {cycle : Nat}
      (ctrl : tx.etxCtrlReg = .start)
      (ready : tx.txdReadyReg = false)
      (byteReg : tx.txdByteReg = byte)
      (bitCtr : tx.txdBitCtrReg = 0)
      (bitrateCtr : tx.txdBitrateCtrReg.toNat = cycle + 1)
      (inside : cycle < 48)
      (startBit : tx.txdReg = false) :
      Drives tx (.frame byte cycle)
  | bits
      {byte : BitVec 8}
      {bit cycle : Nat}
      (ctrl : tx.etxCtrlReg = .bits)
      (ready : tx.txdReadyReg = false)
      (byteReg : tx.txdByteReg = byte)
      (bitCtr : tx.txdBitCtrReg.toNat = bit + 1)
      (isData : bit < 8)
      (bitrateCtr : tx.txdBitrateCtrReg.toNat = cycle + 1)
      (inside : cycle < 48)
      (dataBit : tx.txdReg = byte.getLsbD bit) :
      Drives tx (.frame byte (48 * (bit + 1) + cycle))
  | stop
      {byte : BitVec 8}
      {cycle : Nat}
      (ctrl : tx.etxCtrlReg = .stop)
      (ready : tx.txdReadyReg = false)
      (bitrateCtr : tx.txdBitrateCtrReg.toNat = cycle + 1)
      (inside : cycle < 48)
      (stopBit : tx.txdReg = true) :
      Drives tx (.frame byte (48 * 9 + cycle))

/-- The bytes that are taken in a cycle. -/
def takes (tx : TxEngine) (txd : Option (BitVec 8)) : List (BitVec 8) :=
  if tx.txdReadyReg then txd.toList else []

theorem drives_reset : Drives .reset .idle :=
  .idle rfl rfl rfl

/-- The pin shows the frame. -/
theorem Drives.level (drives : Drives tx line) :
    tx.txdReg = line.level 48 := by
  cases drives with
  | idle _ _ high => exact high
  | start _ _ _ _ _ inside startBit =>
      rw [startBit, level_start inside]
  | bits _ _ _ _ isData _ inside dataBit =>
      rw [dataBit, level_data isData inside]
  | stop _ _ _ inside stopBit =>
      rw [stopBit, level_stop inside]

/-- The engine is ready between frames. -/
theorem Drives.ready_iff (drives : Drives tx line) :
    tx.txdReadyReg = true ↔ line = .idle := by
  cases drives with
  | idle _ ready _ => exact ⟨fun _ => rfl, fun _ => ready⟩
  | start _ ready | bits _ ready | stop _ ready =>
      rw [ready]
      exact ⟨nofun, nofun⟩

theorem Drives.driven (drives : Drives tx line) : Driven 48 line := by
  cases drives with
  | idle => exact .idle
  | start _ _ _ _ _ inside => exact .frame (by omega)
  | bits _ _ _ _ isData _ inside => exact .frame (by omega)
  | stop _ _ _ inside => exact .frame (by omega)

/-- A byte is taken when its frame starts. -/
theorem Drives.takes_eq (drives : Drives tx line) :
    tx.takes txd = (line.send 48 txd).started := by
  rw [takes]
  cases drives with
  | idle _ ready _ =>
      rw [ready]
      cases txd <;> rfl
  | start _ ready | bits _ ready | stop _ ready =>
      rw [ready, started_send_frame]
      rfl

/-- The bit goes on. -/
theorem clock_count
    (sending : tx.etxCtrlReg ≠ .idle)
    (more : tx.txdBitrateCtrReg.toNat < 48) :
    tx.clock .default txd =
      { tx with txdBitrateCtrReg := tx.txdBitrateCtrReg + 1 } := by
  have engine :
      tx.externalTxEngine .default txd = { txdBitrateCtrInc := true } := by
    unfold externalTxEngine
    split
    case h_1 ctrl => exact absurd ctrl sending
    all_goals exact if_pos more
  rw [clock, engine]
  rfl

/-- The counter at the end of a bit. -/
private theorem bitrateCtr_over
    (ended : tx.txdBitrateCtrReg.toNat = 48) :
    ¬ tx.txdBitrateCtrReg < UartConfig.default.bitRate := by
  intro more
  have less : tx.txdBitrateCtrReg.toNat < 48 := more
  omega

/-- The first data bit. -/
theorem clock_startBit
    (ctrl : tx.etxCtrlReg = .start)
    (ended : tx.txdBitrateCtrReg.toNat = 48) :
    tx.clock .default txd =
      { tx with
        txdReg := tx.dataBit
        txdBitCtrReg := tx.txdBitCtrReg + 1
        txdBitrateCtrReg := 1
        etxCtrlReg := .bits } := by
  have engine :
      tx.externalTxEngine .default txd =
        { txdBitrateCtrRst := true
          txdBitCtrInc := true
          txdNew := tx.dataBit
          txdWe := true
          etxCtrlNew := .bits
          etxCtrlWe := true } := by
    unfold externalTxEngine
    rw [ctrl]
    exact if_neg (bitrateCtr_over ended)
  rw [clock, engine]
  rfl

/-- The next data bit. -/
theorem clock_dataBit
    (ctrl : tx.etxCtrlReg = .bits)
    (ended : tx.txdBitrateCtrReg.toNat = 48)
    (more : tx.txdBitCtrReg.toNat < 8) :
    tx.clock .default txd =
      { tx with
        txdReg := tx.dataBit
        txdBitCtrReg := tx.txdBitCtrReg + 1
        txdBitrateCtrReg := 1 } := by
  have engine :
      tx.externalTxEngine .default txd =
        { txdBitrateCtrRst := true
          txdBitCtrInc := true
          txdNew := tx.dataBit
          txdWe := true } := by
    unfold externalTxEngine
    rw [ctrl]
    exact (if_neg (bitrateCtr_over ended)).trans (if_pos more)
  rw [clock, engine]
  rfl

/-- The stop bit. -/
theorem clock_lastBit
    (ctrl : tx.etxCtrlReg = .bits)
    (ended : tx.txdBitrateCtrReg.toNat = 48)
    (all : tx.txdBitCtrReg.toNat = 8) :
    tx.clock .default txd =
      { tx with
        txdReg := true
        txdBitrateCtrReg := 1
        etxCtrlReg := .stop } := by
  have engine :
      tx.externalTxEngine .default txd =
        { txdBitrateCtrRst := true
          txdNew := true
          txdWe := true
          etxCtrlNew := .stop
          etxCtrlWe := true } := by
    have noMore : ¬ tx.txdBitCtrReg < UartConfig.default.dataBits := by
      intro more
      have less : tx.txdBitCtrReg.toNat < 8 := more
      omega
    unfold externalTxEngine
    rw [ctrl]
    exact (if_neg (bitrateCtr_over ended)).trans (if_neg noMore)
  rw [clock, engine]
  rfl

/-- The end of a frame. -/
theorem clock_stopBit
    (ctrl : tx.etxCtrlReg = .stop)
    (ended : tx.txdBitrateCtrReg.toNat = 48) :
    tx.clock .default txd =
      { tx with
        txdBitCtrReg := 0
        txdBitrateCtrReg := 1
        txdReadyReg := true
        etxCtrlReg := .idle } := by
  have engine :
      tx.externalTxEngine .default txd =
        { txdBitrateCtrRst := true
          txdBitCtrRst := true
          txdReadyNew := true
          txdReadyWe := true
          etxCtrlNew := .idle
          etxCtrlWe := true } := by
    unfold externalTxEngine
    rw [ctrl]
    exact if_neg (bitrateCtr_over ended)
  rw [clock, engine]
  rfl

/-- Between frames. -/
theorem clock_idle
    (ctrl : tx.etxCtrlReg = .idle) :
    tx.clock .default none =
      { tx with txdReg := true, txdBitCtrReg := 0 } := by
  have engine :
      tx.externalTxEngine .default none =
        { txdNew := true, txdWe := true, txdBitCtrRst := true } := by
    unfold externalTxEngine
    rw [ctrl]
  rw [clock, engine]
  rfl

/-- The start of a frame. -/
theorem clock_byte
    (ctrl : tx.etxCtrlReg = .idle)
    (byte : BitVec 8) :
    tx.clock .default (some byte) =
      { txdReg := false
        txdByteReg := byte
        txdBitCtrReg := 0
        txdBitrateCtrReg := 1
        txdReadyReg := false
        etxCtrlReg := .start } := by
  rw [clock]
  unfold externalTxEngine
  rw [ctrl]
  rfl

/-- The bit at the counter. -/
theorem dataBit_eq
    {bit : Nat}
    (bitCtr : tx.txdBitCtrReg.toNat = bit)
    (isData : bit < 8) :
    tx.dataBit = tx.txdByteReg.getLsbD bit := by
  have place : (tx.txdBitCtrReg.extractLsb' 0 3).toNat = bit := by
    rw [BitVec.extractLsb'_toNat, bitCtr, Nat.shiftRight_zero,
      Nat.mod_eq_of_lt isData]
  rw [dataBit, place]

/-- A cycle of the engine is one of its line. -/
theorem Drives.clock (drives : Drives tx line) :
    Drives (tx.clock .default txd) (line.send 48 txd) := by
  cases drives with
  | idle ctrl ready high =>
      cases txd with
      | none =>
          rw [clock_idle ctrl]
          exact .idle ctrl ready rfl
      | some byte =>
          rw [clock_byte ctrl]
          exact .start rfl rfl rfl rfl rfl (by omega) rfl
  | @start byte cycle ctrl ready byteReg bitCtr bitrateCtr inside startBit =>
      rw [Line.send, if_pos (by omega)]
      by_cases last : cycle + 1 = 48
      · rw [clock_startBit ctrl (bitrateCtr.trans last), last]
        have first : tx.txdBitCtrReg.toNat = 0 := by rw [bitCtr]; rfl
        refine @bits _ byte 0 0 rfl ready byteReg ?_ (by omega) rfl
          (by omega) ?_
        · rw [bitCtr]
          rfl
        · show tx.dataBit = _
          rw [dataBit_eq first (by omega), byteReg]
      · rw [clock_count (by rw [ctrl]; decide) (by omega)]
        refine .start ctrl ready byteReg bitCtr ?_ (by omega) startBit
        rw [← bitrateCtr]
        exact toNat_add_one 48 (by omega) (by omega)
  | @bits byte bit cycle ctrl ready byteReg bitCtr isData bitrateCtr inside
      dataBit =>
      rw [Line.send, if_pos (by omega)]
      by_cases last : cycle + 1 = 48
      case neg =>
        rw [clock_count (by rw [ctrl]; decide) (by omega)]
        refine @bits _ byte bit (cycle + 1) ctrl ready byteReg bitCtr isData ?_
          (by omega) dataBit
        rw [← bitrateCtr]
        exact toNat_add_one 48 (by omega) (by omega)
      have ended := bitrateCtr.trans last
      by_cases more : bit + 1 < 8
      · rw [clock_dataBit ctrl ended (by omega),
          show 48 * (bit + 1) + cycle + 1 = 48 * (bit + 1 + 1) + 0 by omega]
        refine .bits ctrl ready byteReg ?_ more rfl (by omega) ?_
        · rw [← bitCtr]
          exact toNat_add_one 8 (by omega) (by omega)
        · show tx.dataBit = _
          rw [dataBit_eq bitCtr more, byteReg]
      · rw [clock_lastBit ctrl ended (by omega),
          show 48 * (bit + 1) + cycle + 1 = 48 * 9 + 0 by omega]
        exact .stop rfl ready rfl (by omega) rfl
  | @stop byte cycle ctrl ready bitrateCtr inside stopBit =>
      by_cases last : cycle + 1 = 48
      · rw [clock_stopBit ctrl (bitrateCtr.trans last), Line.send,
          if_neg (by omega)]
        exact .idle rfl rfl stopBit
      · rw [clock_count (by rw [ctrl]; decide) (by omega), Line.send,
          if_pos (by omega)]
        refine @stop _ byte (cycle + 1) ctrl ready ?_ (by omega) stopBit
        rw [← bitrateCtr]
        exact toNat_add_one 48 (by omega) (by omega)

end TxEngine

end Transmit

section Receive

namespace RxEngine

variable {rx : RxEngine} {rxd rxdAck : Bool}

/-- The line comes in through two registers. -/
def sampled (rx : RxEngine) (rxd : Bool) : RxEngine :=
  { rx with rxd0Reg := rxd, rxdReg := rx.rxd0Reg }

/-- Waiting for the line to be high, for a start bit, or for an `ack`. -/
theorem clock_wait
    (waits :
      rx.erxCtrlReg = .err ∧ rx.rxdReg = false ∨
        rx.erxCtrlReg = .idle ∧ rx.rxdReg = true ∨
        rx.erxCtrlReg = .syn ∧ rxdAck = false) :
    rx.clock .default rxd rxdAck = rx.sampled rxd := by
  have engine : rx.externalRxEngine .default rxdAck = {} := by
    unfold externalRxEngine
    rcases waits with ⟨ctrl, low⟩ | ⟨ctrl, high⟩ | ⟨ctrl, noAck⟩
    · rw [ctrl, low]
      rfl
    · rw [ctrl, high]
      rfl
    · rw [ctrl, noAck]
      rfl
  rw [clock, engine]
  rfl

/-- The line is high for the first time. -/
theorem clock_wake
    (ctrl : rx.erxCtrlReg = .err)
    (high : rx.rxdReg = true) :
    rx.clock .default rxd rxdAck =
      { rx.sampled rxd with erxCtrlReg := .idle } := by
  have engine :
      rx.externalRxEngine .default rxdAck =
        { erxCtrlNew := .idle, erxCtrlWe := true } := by
    unfold externalRxEngine
    rw [ctrl, high]
    rfl
  rw [clock, engine]
  rfl

/-- A start bit is detected. -/
theorem clock_detect
    (ctrl : rx.erxCtrlReg = .idle)
    (low : rx.rxdReg = false) :
    rx.clock .default rxd rxdAck =
      { rx.sampled rxd with
        rxdBitrateCtrReg := rx.rxdBitrateCtrReg + 1
        erxCtrlReg := .start } := by
  have engine :
      rx.externalRxEngine .default rxdAck =
        { rxdBitrateCtrInc := true
          erxCtrlNew := .start
          erxCtrlWe := true } := by
    unfold externalRxEngine
    rw [ctrl, low]
    rfl
  rw [clock, engine]
  rfl

/-- The start bit, or another bit, goes on. -/
theorem clock_count
    (more :
      rx.erxCtrlReg = .start ∧ rx.rxdReg = false ∧
          rx.rxdBitrateCtrReg.toNat < 24 ∨
        rx.erxCtrlReg = .bits ∧ rx.rxdBitrateCtrReg.toNat < 48) :
    rx.clock .default rxd rxdAck =
      { rx.sampled rxd with rxdBitrateCtrReg := rx.rxdBitrateCtrReg + 1 } := by
  have engine :
      rx.externalRxEngine .default rxdAck = { rxdBitrateCtrInc := true } := by
    unfold externalRxEngine
    rcases more with ⟨ctrl, low, more⟩ | ⟨ctrl, more⟩
    · rw [ctrl, low]
      exact if_pos more
    · rw [ctrl]
      exact if_pos more
  rw [clock, engine]
  rfl

/-- The middle of the start bit. -/
theorem clock_startBit
    (ctrl : rx.erxCtrlReg = .start)
    (low : rx.rxdReg = false)
    (middle : rx.rxdBitrateCtrReg.toNat = 24) :
    rx.clock .default rxd rxdAck =
      { rx.sampled rxd with
        rxdBitCtrReg := 0
        rxdBitrateCtrReg := 1
        erxCtrlReg := .bits } := by
  have noMore :
      ¬ rx.rxdBitrateCtrReg < UartConfig.default.halfBitRate := by
    intro more
    have less : rx.rxdBitrateCtrReg.toNat < 24 := more
    omega
  have engine :
      rx.externalRxEngine .default rxdAck =
        { rxdBitrateCtrRst := true
          rxdBitCtrRst := true
          erxCtrlNew := .bits
          erxCtrlWe := true } := by
    unfold externalRxEngine
    rw [ctrl, low]
    exact if_neg noMore
  rw [clock, engine]
  rfl

/-- The counter in the middle of a bit. -/
private theorem rxdBitrateCtr_over
    (middle : rx.rxdBitrateCtrReg.toNat = 48) :
    ¬ rx.rxdBitrateCtrReg < UartConfig.default.bitRate := by
  intro more
  have less : rx.rxdBitrateCtrReg.toNat < 48 := more
  omega

/-- The middle of a data bit. -/
theorem clock_dataBit
    (ctrl : rx.erxCtrlReg = .bits)
    (middle : rx.rxdBitrateCtrReg.toNat = 48)
    (more : rx.rxdBitCtrReg.toNat < 8) :
    rx.clock .default rxd rxdAck =
      { rx.sampled rxd with
        rxdByteReg := shiftIn rx.rxdByteReg rx.rxdReg
        rxdBitCtrReg := rx.rxdBitCtrReg + 1
        rxdBitrateCtrReg := 1 } := by
  have engine :
      rx.externalRxEngine .default rxdAck =
        { rxdBitrateCtrRst := true
          rxdBitCtrInc := true
          rxdByteWe := true } := by
    unfold externalRxEngine
    rw [ctrl]
    exact (if_neg (rxdBitrateCtr_over middle)).trans (if_pos more)
  rw [clock, engine]
  rfl

/-- The middle of the stop bit. -/
theorem clock_stopBit
    (ctrl : rx.erxCtrlReg = .bits)
    (middle : rx.rxdBitrateCtrReg.toNat = 48)
    (all : rx.rxdBitCtrReg.toNat = 8) :
    rx.clock .default rxd rxdAck =
      { rx.sampled rxd with
        rxdBitrateCtrReg := 1
        rxdStopBitReg := rx.rxdReg
        erxCtrlReg := .stop } := by
  have noMore : ¬ rx.rxdBitCtrReg < UartConfig.default.dataBits := by
    intro more
    have less : rx.rxdBitCtrReg.toNat < 8 := more
    omega
  have engine :
      rx.externalRxEngine .default rxdAck =
        { rxdBitrateCtrRst := true
          erxCtrlNew := .stop
          erxCtrlWe := true
          rxdStopBitWe := true } := by
    unfold externalRxEngine
    rw [ctrl]
    exact (if_neg (rxdBitrateCtr_over middle)).trans (if_neg noMore)
  rw [clock, engine]
  rfl

/-- The byte is complete. -/
theorem clock_complete
    (ctrl : rx.erxCtrlReg = .stop)
    (stopBit : rx.rxdStopBitReg = true) :
    rx.clock .default rxd rxdAck =
      { rx.sampled rxd with rxdSynReg := true, erxCtrlReg := .syn } := by
  have engine :
      rx.externalRxEngine .default rxdAck =
        { rxdSynNew := true
          rxdSynWe := true
          erxCtrlNew := .syn
          erxCtrlWe := true } := by
    unfold externalRxEngine
    rw [ctrl, stopBit]
    rfl
  rw [clock, engine]
  rfl

/-- The byte is taken over. -/
theorem clock_ack (ctrl : rx.erxCtrlReg = .syn) :
    rx.clock .default rxd true =
      { rx.sampled rxd with rxdSynReg := false, erxCtrlReg := .idle } := by
  have engine :
      rx.externalRxEngine .default true =
        { rxdSynNew := false
          rxdSynWe := true
          erxCtrlNew := .idle
          erxCtrlWe := true } := by
    unfold externalRxEngine
    rw [ctrl]
    rfl
  rw [clock, engine]
  rfl

variable {line line' : Line} {waited : Nat} {pending : List (BitVec 8)}

/--
The receive engine is as far as the frame that it sees, or one cycle late; with
the cycles that a byte has waited, and the bytes that are not taken over yet.
-/
inductive Reading (rx : RxEngine) : Line → Nat → List (BitVec 8) → Prop
  | error
      {line : Line}
      (ctrl : rx.erxCtrlReg = .err)
      (syn : rx.rxdSynReg = false)
      (counter : rx.rxdBitrateCtrReg = 0)
      (before : line = .low ∨ line = .idle) :
      Reading rx line 0 []
  | idle
      (ctrl : rx.erxCtrlReg = .idle)
      (syn : rx.rxdSynReg = false)
      (counter : rx.rxdBitrateCtrReg.toNat ≤ 1) :
      Reading rx .idle 0 []
  | detect
      {byte : BitVec 8}
      (ctrl : rx.erxCtrlReg = .idle)
      (syn : rx.rxdSynReg = false)
      (counter : rx.rxdBitrateCtrReg.toNat ≤ 1) :
      Reading rx (.frame byte 0) 0 [byte]
  | start
      {byte : BitVec 8}
      {age late : Nat}
      (ctrl : rx.erxCtrlReg = .start)
      (syn : rx.rxdSynReg = false)
      (atMost : late ≤ 1)
      (counter : rx.rxdBitrateCtrReg.toNat + late = age + 1)
      (inside : age ≤ 23 + late) :
      Reading rx (.frame byte age) 0 [byte]
  | bits
      {byte : BitVec 8}
      {bit cycle late : Nat}
      (ctrl : rx.erxCtrlReg = .bits)
      (syn : rx.rxdSynReg = false)
      (atMost : late ≤ 1)
      (bitCtr : rx.rxdBitCtrReg.toNat = bit)
      (counter : rx.rxdBitrateCtrReg.toNat = cycle + 1)
      (inside : bit ≤ 8 ∧ cycle < 48)
      (shifted : Shifted rx.rxdByteReg byte bit) :
      Reading rx (.frame byte (48 * bit + 24 + cycle + late)) 0 [byte]
  | stop
      {byte : BitVec 8}
      {late : Nat}
      (ctrl : rx.erxCtrlReg = .stop)
      (syn : rx.rxdSynReg = false)
      (atMost : late ≤ 1)
      (counter : rx.rxdBitrateCtrReg = 1)
      (stopBit : rx.rxdStopBitReg = true)
      (byteReg : rx.rxdByteReg = byte) :
      Reading rx (.frame byte (456 + late)) 0 [byte]
  | waiting
      {byte : BitVec 8}
      {late waited : Nat}
      (ctrl : rx.erxCtrlReg = .syn)
      (syn : rx.rxdSynReg = true)
      (atMost : late ≤ 1)
      (counter : rx.rxdBitrateCtrReg = 1)
      (inside : waited < 22)
      (byteReg : rx.rxdByteReg = byte) :
      Reading rx (.frame byte (457 + late + waited)) waited [byte]
  | done
      {byte : BitVec 8}
      {age : Nat}
      (ctrl : rx.erxCtrlReg = .idle)
      (syn : rx.rxdSynReg = false)
      (counter : rx.rxdBitrateCtrReg = 1)
      (ended : 458 ≤ age) :
      Reading rx (.frame byte age) 0 []

/-- The bytes that are taken over in a cycle. -/
def delivers (rx : RxEngine) (rxdAck : Bool) : List (BitVec 8) :=
  if rx.rxdSynReg && rxdAck then [rx.rxdByteReg] else []

/-- How long a byte has waited after a cycle. -/
def waits (rx : RxEngine) (rxdAck : Bool) (waited : Nat) : Nat :=
  if rx.rxdSynReg && !rxdAck then waited + 1 else 0

theorem delivers_of_not_syn (syn : rx.rxdSynReg = false) :
    rx.delivers rxdAck = [] := by
  rw [delivers, syn]
  rfl

theorem waits_of_not_syn (syn : rx.rxdSynReg = false) :
    rx.waits rxdAck waited = 0 := by
  rw [waits, syn]
  rfl

theorem waits_le {limit : Nat} (less : waited < limit) :
    rx.waits rxdAck waited ≤ limit := by
  rw [waits]
  split <;> omega

/-- A line that is idle, or where a frame starts, in the state `idle`. -/
theorem reading_of_idle
    (ctrl : rx.erxCtrlReg = .idle)
    (syn : rx.rxdSynReg = false)
    (counter : rx.rxdBitrateCtrReg.toNat ≤ 1)
    (starts : line = .idle ∨ ∃ byte, line = .frame byte 0) :
    Reading rx line 0 line.started := by
  rcases starts with rfl | ⟨byte, rfl⟩
  · exact .idle ctrl syn counter
  · exact .detect ctrl syn counter

/-- What comes after an idle line. -/
private theorem starts_of_idle (next : Line.Next 48 .idle line') :
    line' = .idle ∨ ∃ byte, line' = .frame byte 0 := by
  cases next with
  | idle => exact .inl rfl
  | start byte => exact .inr ⟨byte, rfl⟩

/-- The line after a byte was taken over. -/
private theorem reading_of_done
    {byte : BitVec 8}
    {age : Nat}
    (ctrl : rx.erxCtrlReg = .idle)
    (syn : rx.rxdSynReg = false)
    (counter : rx.rxdBitrateCtrReg = 1)
    (ended : 457 ≤ age)
    (next : Line.Next 48 (.frame byte age) line') :
    Reading rx line' 0 line'.started := by
  have atMost : rx.rxdBitrateCtrReg.toNat ≤ 1 := by
    rw [counter]
    decide
  cases next with
  | within _ => exact .done ctrl syn counter (by omega)
  | finish _ => exact .idle ctrl syn atMost
  | again _ byte' => exact .detect ctrl syn atMost

/-- A cycle of the engine in which no byte waits for an `ack`. -/
theorem Reading.clock_of_not_syn
    (reading : Reading rx line waited pending)
    (sees : rx.rxdReg = line.level 48)
    (next : Line.Next 48 line line')
    (noByte : rx.rxdSynReg = false) :
    Reading (rx.clock .default rxd rxdAck) line' 0
      (pending ++ line'.started) := by
  cases reading with
  | error ctrl syn counter before =>
      rcases before with rfl | rfl
      · rw [clock_wait (.inl ⟨ctrl, sees⟩)]
        cases next with
        | low => exact .error ctrl syn counter (.inl rfl)
        | wake => exact .error ctrl syn counter (.inr rfl)
      · rw [clock_wake ctrl sees]
        refine reading_of_idle rfl syn ?_ (starts_of_idle next)
        show rx.rxdBitrateCtrReg.toNat ≤ 1
        rw [counter]
        decide
  | idle ctrl syn counter =>
      rw [clock_wait (.inr (.inl ⟨ctrl, sees⟩))]
      exact reading_of_idle ctrl syn counter (starts_of_idle next)
  | @detect byte ctrl syn counter =>
      rw [level_start (by omega)] at sees
      rw [next.eq_frame (by omega), clock_detect ctrl sees]
      refine @start _ byte 1 (1 - rx.rxdBitrateCtrReg.toNat) rfl syn
        (by omega) ?_ (by omega)
      have counted :
          (rx.rxdBitrateCtrReg + 1).toNat = rx.rxdBitrateCtrReg.toNat + 1 :=
        toNat_add_one 2 (by omega) (by omega)
      show (rx.rxdBitrateCtrReg + 1).toNat + _ = _
      omega
  | @start byte age late ctrl syn atMost counter inside =>
      rw [level_start (by omega)] at sees
      rw [next.eq_frame (by omega)]
      by_cases middle : rx.rxdBitrateCtrReg.toNat = 24
      · rw [clock_startBit ctrl sees middle]
        show Reading _ (.frame byte (age + 1)) 0 [byte]
        rw [show age + 1 = 48 * 0 + 24 + 0 + late by omega]
        exact .bits rfl syn atMost rfl rfl (by omega) shifted_zero
      · rw [clock_count (.inl ⟨ctrl, sees, by omega⟩)]
        have counted :
            (rx.rxdBitrateCtrReg + 1).toNat = rx.rxdBitrateCtrReg.toNat + 1 :=
          toNat_add_one 24 (by omega) (by omega)
        refine .start ctrl syn atMost ?_ (by omega)
        show (rx.rxdBitrateCtrReg + 1).toNat + _ = _
        omega
  | @bits byte bit cycle late ctrl syn atMost bitCtr counter inside shifted =>
      obtain ⟨bits, cycles⟩ := inside
      rw [next.eq_frame (by omega)]
      show Reading _ (.frame byte (_ + 1)) 0 [byte]
      by_cases middle : cycle = 47
      case neg =>
        rw [clock_count (.inr ⟨ctrl, by omega⟩),
          show 48 * bit + 24 + cycle + late + 1 =
            48 * bit + 24 + (cycle + 1) + late by omega]
        refine .bits ctrl syn atMost bitCtr ?_ ⟨bits, by omega⟩ shifted
        rw [← counter]
        exact toNat_add_one 48 (by omega) (by omega)
      subst middle
      have age :
          48 * bit + 24 + 47 + late = 48 * (bit + 1) + (23 + late) := by
        omega
      rw [age] at sees ⊢
      by_cases more : bit < 8
      · rw [level_data more (by omega)] at sees
        rw [clock_dataBit ctrl counter (by omega), sees,
          show 48 * (bit + 1) + (23 + late) + 1 =
            48 * (bit + 1) + 24 + 0 + late by omega]
        refine .bits ctrl syn atMost ?_ rfl (by omega) (shifted.shiftIn more)
        rw [← bitCtr]
        exact toNat_add_one 8 (by omega) (by omega)
      · obtain rfl : bit = 8 := by omega
        rw [level_stop (by omega)] at sees
        rw [clock_stopBit ctrl counter bitCtr,
          show 48 * (8 + 1) + (23 + late) + 1 = 456 + late by omega]
        exact .stop rfl syn atMost rfl sees shifted.eq
  | @stop byte late ctrl syn atMost counter stopBit byteReg =>
      rw [next.eq_frame (by omega), clock_complete ctrl stopBit]
      show Reading _ (.frame byte (456 + late + 1)) 0 [byte]
      rw [show 456 + late + 1 = 457 + late + 0 by omega]
      exact .waiting rfl rfl atMost counter (by omega) byteReg
  | waiting _ syn =>
      rw [syn] at noByte
      cases noByte
  | @done byte age ctrl syn counter ended =>
      have high : rx.rxdReg = true := by
        rw [sees, show age = 48 * 9 + (age - 432) by omega]
        exact level_stop (by cases next <;> omega)
      rw [clock_wait (.inr (.inl ⟨ctrl, high⟩))]
      exact reading_of_done ctrl syn counter (by omega) next

/-- A cycle of the engine, when no byte waits for too long. -/
theorem Reading.clock
    (reading : Reading rx line waited pending)
    (sees : rx.rxdReg = line.level 48)
    (next : Line.Next 48 line line')
    (prompt : rx.waits rxdAck waited < 22) :
    ∃ pending',
      Reading (rx.clock .default rxd rxdAck) line' (rx.waits rxdAck waited)
        pending' ∧
      pending ++ line'.started = rx.delivers rxdAck ++ pending' := by
  cases syn : rx.rxdSynReg with
  | false =>
      rw [waits_of_not_syn syn, delivers_of_not_syn syn]
      exact ⟨_, reading.clock_of_not_syn sees next syn, rfl⟩
  | true =>
      cases reading with
      | error _ noSyn | idle _ noSyn | detect _ noSyn | start _ noSyn
      | bits _ noSyn | stop _ noSyn | done _ noSyn =>
          rw [noSyn] at syn
          cases syn
      | @waiting byte late waited ctrl _ atMost counter inside byteReg =>
          rw [waits, syn] at prompt ⊢
          rw [delivers, syn]
          cases rxdAck with
          | false =>
              have inside : waited + 1 < 22 := prompt
              rw [next.eq_frame (by omega),
                clock_wait (.inr (.inr ⟨ctrl, rfl⟩))]
              exact ⟨[byte],
                @waiting _ byte late (waited + 1) ctrl syn atMost counter inside
                  byteReg, rfl⟩
          | true =>
              rw [clock_ack ctrl, byteReg]
              exact ⟨_, reading_of_done rfl rfl counter (by omega) next, rfl⟩

/-- The receive engine sees a line two cycles later. -/
structure Receives
    (rx : RxEngine)
    (line2 line1 line : Line)
    (waited : Nat)
    (undelivered : List (BitVec 8)) : Prop where
  rxd : rx.rxdReg = line2.level 48
  rxd0 : rx.rxd0Reg = line1.level 48
  next1 : Line.Next 48 line2 line1
  next : Line.Next 48 line1 line
  reading :
    ∃ pending,
      Reading rx line2 waited pending ∧
      undelivered = pending ++ line1.started ++ line.started

/-- After a reset the line is not idle before its first high level. -/
theorem receives_reset (before : line = .low ∨ line = .idle) :
    Receives .reset .low .low line 0 [] := by
  rcases before with rfl | rfl
  · exact ⟨rfl, rfl, .low, .low, [], .error rfl rfl rfl (.inl rfl), rfl⟩
  · exact ⟨rfl, rfl, .low, .wake, [], .error rfl rfl rfl (.inl rfl), rfl⟩

variable {line2 line1 : Line} {undelivered : List (BitVec 8)}

/-- A cycle of the line and of the receive engine. -/
theorem Receives.clock
    (receives : Receives rx line2 line1 line waited undelivered)
    (next : Line.Next 48 line line')
    (prompt : rx.waits rxdAck waited < 22) :
    ∃ undelivered',
      Receives (rx.clock .default (line.level 48) rxdAck) line1 line line'
        (rx.waits rxdAck waited) undelivered' ∧
      undelivered ++ line'.started = rx.delivers rxdAck ++ undelivered' := by
  obtain ⟨rxd, rxd0, next1, next0, pending, reading, rfl⟩ := receives
  obtain ⟨pending', reading', same⟩ := reading.clock rxd next1 prompt
  refine ⟨pending' ++ line.started ++ line'.started,
    ⟨rxd0, rfl, next0, next, pending', reading', rfl⟩, ?_⟩
  rw [same, List.append_assoc, List.append_assoc, List.append_assoc]

theorem Receives.waited_lt
    (receives : Receives rx line2 line1 line waited undelivered) :
    waited < 22 := by
  obtain ⟨_, reading, _⟩ := receives.reading
  cases reading with
  | waiting _ _ _ _ inside => exact inside
  | error | idle | detect | start | bits | stop | done => omega

/-- Nothing is on its way when the line was idle for long enough. -/
theorem Receives.eq_nil
    (receives : Receives rx .idle .idle .idle waited undelivered) :
    undelivered = [] := by
  obtain ⟨_, _, _, _, pending, reading, rfl⟩ := receives
  cases reading with
  | error | idle => rfl

/-- The byte of the frame that the engine sees, if it is not taken over yet. -/
def holds (rx : RxEngine) (seen : Line) : List (BitVec 8) :=
  match rx.erxCtrlReg with
  | .err => []
  | .idle => seen.started
  | .start => seen.carried
  | .bits => seen.carried
  | .stop => seen.carried
  | .syn => [rx.rxdByteReg]

theorem Reading.eq_holds (reading : Reading rx line waited pending) :
    pending = rx.holds line := by
  unfold holds
  cases reading with
  | error ctrl | start ctrl | bits ctrl | stop ctrl | idle ctrl
  | detect ctrl => rw [ctrl] <;> rfl
  | waiting ctrl _ _ _ _ byteReg =>
      rw [ctrl, byteReg]
  | @done byte age ctrl _ _ ended =>
      obtain ⟨cycles, rfl⟩ := Nat.exists_eq_add_of_le' ended
      rw [ctrl]
      rfl

theorem Receives.eq_holds
    (receives : Receives rx line2 line1 line waited undelivered) :
    undelivered = rx.holds line2 ++ line1.started ++ line.started := by
  obtain ⟨pending, reading, rfl⟩ := receives.reading
  rw [reading.eq_holds]

/-- A byte is waiting when it has waited. -/
theorem Receives.syn_of_waited
    (receives : Receives rx line2 line1 line waited undelivered)
    (hasWaited : 0 < waited) :
    rx.rxdSynReg = true := by
  obtain ⟨pending, reading, -⟩ := receives.reading
  cases reading with
  | waiting _ syn => exact syn
  | error | idle | detect | start | bits | stop | done => omega

/-- No frame starts soon when a byte has not waited for long. -/
theorem Receives.of_syn
    (receives : Receives rx line2 line1 line waited undelivered)
    (short : waited ≤ 1)
    (syn : rx.rxdSynReg = true) :
    rx.holds line2 = [rx.rxdByteReg] ∧
      line1.started = [] ∧
      line.started = [] := by
  obtain ⟨_, _, next1, next, pending, reading, rfl⟩ := receives
  cases reading with
  | error _ noSyn | idle _ noSyn | detect _ noSyn | start _ noSyn
  | bits _ noSyn | stop _ noSyn | done _ noSyn =>
      rw [noSyn] at syn
      cases syn
  | waiting ctrl =>
      have seen := next1.eq_frame (by omega)
      rw [seen] at next
      rw [seen, next.eq_frame (by omega)]
      unfold holds
      rw [ctrl]
      exact ⟨rfl, rfl, rfl⟩

/-- At most two bytes are on their way. -/
theorem Receives.length_le
    (receives : Receives rx line2 line1 line waited undelivered) :
    undelivered.length ≤ 2 := by
  obtain ⟨_, _, _, next, pending, reading, rfl⟩ := receives
  have one : pending.length ≤ 1 := by
    cases reading <;> exact Nat.le_of_ble_eq_true rfl
  have started := next.length_started_le
  rw [List.append_assoc, List.length_append]
  omega

end RxEngine

end Receive

end TKey.Fpga
