import Mathlib.Data.List.Induction
import TKey.Lib.SpiWires
import TKey.Tk1Core

namespace TKey.Fpga

open SpiWires

/-!
# The transfer of a byte over SPI

A transfer takes 24 cycles after the one that starts it, three for each bit: the
clock is low, high, and low again.  Nothing that is asked of the SPI master
meanwhile has an effect, unless it releases the slave.
-/

section Cycles

namespace SpiMaster

variable {spi : SpiMaster} {ports : Ports} {byte : BitVec 8}

/-- The wires in a cycle. -/
def wires (spi : SpiMaster) (spiMiso : Bool) : Wires where
  ss := spi.spiSsReg
  sck := spi.spiCskReg
  mosi := spi.spiTxDataReg.getLsbD 7
  miso := spiMiso

/-- The wires in some cycles. -/
def trace (spi : SpiMaster) (cycles : List Ports) : List Wires :=
  Register.outputs clock (fun spi ports => [spi.wires ports.spiMiso]) spi cycles

/-- The slave is not released. -/
def Ports.KeepsSelected (ports : Ports) : Prop :=
  ports.spiEnableVld = true → ports.spiEnable = true

/-- No transfer is in progress. -/
structure Rests (spi : SpiMaster) : Prop where
  ctrl : spi.spiCtrlReg = .idle
  ready : spi.spiReadyReg = true
  sck : spi.spiCskReg = false

theorem rests_reset : reset.Rests :=
  ⟨rfl, rfl, rfl⟩

/-- What a transfer keeps as it is. -/
structure Transfers (spi : SpiMaster) : Prop where
  ready : spi.spiReadyReg = false
  ss : spi.spiSsReg = false

/-- The next value of `spi_ss_reg`. -/
private theorem ss_of_keepsSelected
    (ss : spi.spiSsReg = false)
    (keeps : ports.KeepsSelected) :
    (if ports.spiEnableVld then !ports.spiEnable else spi.spiSsReg) =
      false := by
  split
  case isTrue writes => rw [keeps writes, Bool.not_true]
  case isFalse => exact ss

theorem clock_posFlank
    (ctrl : spi.spiCtrlReg = .posFlank)
    (transfers : spi.Transfers)
    (keeps : ports.KeepsSelected) :
    spi.clock ports =
      { spi with
        spiMisoSampleReg := ports.spiMiso
        spiCskReg := true
        spiCtrlReg := .negFlank } := by
  have engine :
      spi.spiMasterCtrl ports =
        { spiCskNew := true
          spiCskWe := true
          spiCtrlNew := .negFlank
          spiCtrlWe := true } := by
    rw [spiMasterCtrl, ctrl]
  rw [clock, engine, ss_of_keepsSelected transfers.ss keeps, spiTxDataLogic,
    spiRxDataLogic, transfers.ready, transfers.ss, Bool.and_false]
  rfl

theorem clock_negFlank
    (ctrl : spi.spiCtrlReg = .negFlank)
    (transfers : spi.Transfers)
    (keeps : ports.KeepsSelected) :
    spi.clock ports =
      { spi with
        spiMisoSampleReg := ports.spiMiso
        spiCskReg := false
        spiTxDataReg := shiftLeft spi.spiTxDataReg false
        spiCtrlReg := .next } := by
  have engine :
      spi.spiMasterCtrl ports =
        { spiTxDataNxt := true
          spiCskNew := false
          spiCskWe := true
          spiCtrlNew := .next
          spiCtrlWe := true } := by
    rw [spiMasterCtrl, ctrl]
  rw [clock, engine, ss_of_keepsSelected transfers.ss keeps, spiRxDataLogic,
    transfers.ss, transfers.ready]
  rfl

theorem clock_next
    (ctrl : spi.spiCtrlReg = .next)
    (transfers : spi.Transfers)
    (keeps : ports.KeepsSelected)
    (more : spi.spiBitCtrReg ≠ 7) :
    spi.clock ports =
      { spi with
        spiMisoSampleReg := ports.spiMiso
        spiRxDataReg := shiftLeft spi.spiRxDataReg spi.spiMisoSampleReg
        spiBitCtrReg := spi.spiBitCtrReg + 1
        spiCtrlReg := .posFlank } := by
  have engine :
      spi.spiMasterCtrl ports =
        { spiRxDataNxt := true
          spiBitCtrInc := true
          spiCtrlNew := .posFlank
          spiCtrlWe := true } := by
    rw [spiMasterCtrl, ctrl]
    exact if_neg more
  rw [clock, engine, ss_of_keepsSelected transfers.ss keeps, spiTxDataLogic,
    spiRxDataLogic, transfers.ready, transfers.ss, Bool.and_false]
  rfl

theorem clock_last
    (ctrl : spi.spiCtrlReg = .next)
    (transfers : spi.Transfers)
    (keeps : ports.KeepsSelected)
    (last : spi.spiBitCtrReg = 7) :
    spi.clock ports =
      { spi with
        spiMisoSampleReg := ports.spiMiso
        spiRxDataReg := shiftLeft spi.spiRxDataReg spi.spiMisoSampleReg
        spiReadyReg := true
        spiCtrlReg := .idle } := by
  have engine :
      spi.spiMasterCtrl ports =
        { spiRxDataNxt := true
          spiReadyNew := true
          spiReadyWe := true
          spiCtrlNew := .idle
          spiCtrlWe := true } := by
    rw [spiMasterCtrl, ctrl]
    exact if_pos last
  rw [clock, engine, ss_of_keepsSelected transfers.ss keeps, spiTxDataLogic,
    spiRxDataLogic, transfers.ready, transfers.ss, Bool.and_false]
  rfl

/-- Between transfers a byte is loaded, and the slave is selected. -/
theorem clock_rest
    (rests : spi.Rests)
    (noStart : ports.spiStart = false) :
    spi.clock ports =
      { spi with
        spiMisoSampleReg := ports.spiMiso
        spiSsReg :=
          if ports.spiEnableVld then !ports.spiEnable else spi.spiSsReg
        spiTxDataReg :=
          if ports.spiTxDataVld then ports.spiTxData else spi.spiTxDataReg
        spiRxDataReg := if spi.spiSsReg then 0 else spi.spiRxDataReg } := by
  have engine : spi.spiMasterCtrl ports = {} := by
    rw [spiMasterCtrl, rests.ctrl, noStart]
    rfl
  rw [clock, engine, spiTxDataLogic, spiRxDataLogic, rests.ready,
    Bool.and_true]
  rfl

/-- A transfer starts, with a byte that was loaded before or is loaded now. -/
theorem clock_start
    (rests : spi.Rests)
    (start : ports.spiStart = true) :
    (spi.clock ports).spiCtrlReg = .posFlank ∧
      (spi.clock ports).spiReadyReg = false ∧
      (spi.clock ports).spiCskReg = false ∧
      (spi.clock ports).spiBitCtrReg = 0 := by
  have engine :
      spi.spiMasterCtrl ports =
        { spiCskNew := false
          spiCskWe := true
          spiBitCtrRst := true
          spiReadyNew := false
          spiReadyWe := true
          spiCtrlNew := .posFlank
          spiCtrlWe := true } := by
    rw [spiMasterCtrl, rests.ctrl]
    exact if_pos start
  rw [clock, engine]
  exact ⟨rfl, rfl, rfl, rfl⟩

end SpiMaster

end Cycles

section Transfer

namespace SpiMaster

variable {spi : SpiMaster} {ports : Ports} {byte : BitVec 8}
variable {cycle : Nat} {bits : List (Bool × Bool)}

/-- The bits that are exchanged when some have been shifted in. -/
def shifted (byte rxData : BitVec 8) (count : Nat) : List (Bool × Bool) :=
  (highBits count byte).zip (lowBits count rxData)

/-- A transfer is in some cycle, and has exchanged some bits. -/
inductive Sends (spi : SpiMaster) (byte : BitVec 8) :
    Nat → List (Bool × Bool) → Prop
  | posFlank
      {bit : Nat}
      (transfers : spi.Transfers)
      (ctrl : spi.spiCtrlReg = .posFlank)
      (sck : spi.spiCskReg = false)
      (bitCtr : spi.spiBitCtrReg.toNat = bit)
      (ahead : Ahead spi.spiTxDataReg byte bit) :
      Sends spi byte (3 * bit) (shifted byte spi.spiRxDataReg bit)
  | negFlank
      {bit : Nat}
      (transfers : spi.Transfers)
      (ctrl : spi.spiCtrlReg = .negFlank)
      (sck : spi.spiCskReg = true)
      (bitCtr : spi.spiBitCtrReg.toNat = bit)
      (ahead : Ahead spi.spiTxDataReg byte bit) :
      Sends spi byte (3 * bit + 1) (shifted byte spi.spiRxDataReg bit)
  | next
      {bit : Nat}
      (transfers : spi.Transfers)
      (ctrl : spi.spiCtrlReg = .next)
      (sck : spi.spiCskReg = false)
      (bitCtr : spi.spiBitCtrReg.toNat = bit)
      (ahead : Ahead spi.spiTxDataReg byte (bit + 1)) :
      Sends spi byte (3 * bit + 2)
        (shifted byte spi.spiRxDataReg bit ++
          [(byte.getLsbD (7 - bit), spi.spiMisoSampleReg)])

theorem Sends.transfers (sends : spi.Sends byte cycle bits) :
    spi.Transfers := by
  cases sends <;> assumption

/-- The clock is high in the second of three cycles. -/
theorem Sends.sck_eq (sends : spi.Sends byte cycle bits) :
    spi.spiCskReg = decide (cycle % 3 = 1) := by
  cases sends with
  | posFlank _ _ sck | negFlank _ _ sck | next _ _ sck =>
      rw [sck]
      symm
      simp only [decide_eq_true_eq, decide_eq_false_iff_not]
      omega

/-- The bit of the byte is out before and after the rising edge. -/
theorem Sends.mosi_eq
    (sends : spi.Sends byte cycle bits)
    (around : cycle % 3 ≠ 2) :
    spi.spiTxDataReg.getLsbD 7 = byte.getLsbD (7 - cycle / 3) := by
  cases sends with
  | posFlank _ _ _ bitCtr ahead =>
      have small := spi.spiBitCtrReg.isLt
      rw [ahead.top (by omega), Nat.mul_div_cancel_left _ (by decide)]
  | negFlank _ _ _ bitCtr ahead =>
      have small := spi.spiBitCtrReg.isLt
      rw [ahead.top (by omega), Nat.mul_add_div (by decide)]
      rfl
  | next => omega

/-- One more bit that is shifted in. -/
theorem shifted_succ
    {bit : Nat}
    (inside : bit < 8)
    (byte rxData : BitVec 8)
    (miso : Bool) :
    shifted byte (shiftLeft rxData miso) (bit + 1) =
      shifted byte rxData bit ++ [(byte.getLsbD (7 - bit), miso)] := by
  rw [shifted, highBits_succ, lowBits_shiftLeft inside, List.zip_append]
  · rfl
  · rw [length_highBits, length_lowBits]

/-- A cycle of a transfer but the last one. -/
theorem Sends.clock
    (sends : spi.Sends byte cycle bits)
    (keeps : ports.KeepsSelected)
    (more : cycle < 23) :
    (spi.clock ports).Sends byte (cycle + 1)
      (bits ++ rising (cycle % 3 == 2) (spi.wires ports.spiMiso)) := by
  cases sends with
  | @posFlank bit transfers ctrl sck bitCtr ahead =>
      have noEdge (before : Bool) :
          rising before (spi.wires ports.spiMiso) = [] := by
        rw [rising, wires, sck, Bool.and_false]
        rfl
      rw [noEdge, List.append_nil, clock_posFlank ctrl transfers keeps]
      exact .negFlank ⟨transfers.ready, transfers.ss⟩ rfl rfl bitCtr ahead
  | @negFlank bit transfers ctrl sck bitCtr ahead =>
      have edge :
          rising ((3 * bit + 1) % 3 == 2) (spi.wires ports.spiMiso) =
            [(byte.getLsbD (7 - bit), ports.spiMiso)] := by
        rw [rising, wires, sck, ahead.top (by omega),
          show (3 * bit + 1) % 3 = 1 by omega]
        rfl
      rw [edge, clock_negFlank ctrl transfers keeps]
      exact .next ⟨transfers.ready, transfers.ss⟩ rfl rfl bitCtr
        (ahead.shiftLeft false)
  | @next bit transfers ctrl sck bitCtr ahead =>
      have noEdge (before : Bool) :
          rising before (spi.wires ports.spiMiso) = [] := by
        rw [rising, wires, sck, Bool.and_false]
        rfl
      have notLast : spi.spiBitCtrReg ≠ 7 := by
        intro last
        rw [last] at bitCtr
        have seven : (7 : BitVec 3).toNat = 7 := rfl
        omega
      rw [noEdge, List.append_nil, clock_next ctrl transfers keeps notLast,
        ← shifted_succ (by omega)]
      refine @posFlank _ _ (bit + 1) ⟨transfers.ready, transfers.ss⟩ rfl sck ?_
        ahead
      show (spi.spiBitCtrReg + 1).toNat = bit + 1
      have small : bit < 7 := by omega
      bv_omega

/-- The last cycle of a transfer. -/
theorem Sends.clock_last
    (sends : spi.Sends byte 23 bits)
    (keeps : ports.KeepsSelected) :
    (spi.clock ports).Rests ∧
      (spi.clock ports).spiSsReg = false ∧
      bits =
        (highBits 8 byte).zip (highBits 8 (spi.clock ports).spiRxDataReg) := by
  generalize isLast : 23 = cycle at sends
  cases sends with
  | posFlank | negFlank => omega
  | @next bit transfers ctrl sck bitCtr ahead =>
      obtain rfl : bit = 7 := by omega
      rw [SpiMaster.clock_last ctrl transfers keeps (BitVec.eq_of_toNat_eq bitCtr),
        ← shifted_succ (by decide)]
      exact ⟨⟨rfl, rfl, sck⟩, transfers.ss, rfl⟩

/-- The wires in one more cycle. -/
theorem trace_concat (spi : SpiMaster) (cycles : List Ports) (ports : Ports) :
    spi.trace (cycles ++ [ports]) =
      spi.trace cycles ++ [(cycles.foldl clock spi).wires ports.spiMiso] :=
  Register.outputs_concat ..

/-- Some cycles of a transfer. -/
theorem sends_run
    {cycles : List Ports}
    (sends : spi.Sends byte 0 [])
    (keeps : ∀ ports ∈ cycles, ports.KeepsSelected)
    (more : cycles.length < 24) :
    (cycles.foldl clock spi).Sends byte cycles.length
        (exchanged (spi.trace cycles)) ∧
      lastSck (spi.trace cycles) = (cycles.length % 3 == 2) := by
  induction cycles using List.reverseRecOn with
  | nil => exact ⟨sends, rfl⟩
  | append_singleton cycles ports inductionHypothesis =>
      have keepsBefore : ∀ ports ∈ cycles, ports.KeepsSelected :=
        fun before member => keeps before (List.mem_append_left _ member)
      rw [List.length_append, List.length_singleton] at more ⊢
      obtain ⟨sends', sck⟩ :=
        inductionHypothesis keepsBefore (by omega)
      have sends'' :=
        sends'.clock (keeps ports (List.mem_append_right _ List.mem_cons_self))
          (by omega)
      rw [trace_concat, exchanged_concat, lastSck_concat, sck,
        List.foldl_concat]
      refine ⟨sends'', ?_⟩
      show (cycles.foldl clock spi).spiCskReg = _
      rw [sends'.sck_eq]
      symm
      simp only [decide_eq_decide, Bool.beq_eq_decide_eq]
      omega

/-- What is loaded when a transfer starts. -/
def loaded (spi : SpiMaster) (start : Ports) : BitVec 8 :=
  if start.spiTxDataVld then start.spiTxData else spi.spiTxDataReg

/-- The cycle that starts a transfer. -/
theorem sends_start
    (rests : spi.Rests)
    (selected : spi.spiSsReg = false)
    (keeps : ports.KeepsSelected)
    (start : ports.spiStart = true) :
    (spi.clock ports).Sends (spi.loaded ports) 0 [] := by
  obtain ⟨ctrl, ready, sck, bitCtr⟩ := clock_start rests start
  have ss : (spi.clock ports).spiSsReg = false :=
    ss_of_keepsSelected selected keeps
  have txData : (spi.clock ports).spiTxDataReg = spi.loaded ports := by
    show spi.spiTxDataLogic ports (spi.spiMasterCtrl ports) = _
    rw [spiTxDataLogic, spiMasterCtrl, rests.ctrl, rests.ready, loaded, start,
      Bool.and_true]
    rfl
  refine @Sends.posFlank _ _ 0 ⟨ready, ss⟩ ctrl sck ?_ ?_
  · rw [bitCtr]
    rfl
  · rw [txData]
    exact ahead_zero _

/-- The state after some cycles of a transfer. -/
def during (spi : SpiMaster) (start : Ports) (cycles : List Ports) (count : Nat) :
    SpiMaster :=
  (cycles.take count).foldl clock (spi.clock start)

/-- A byte is transferred in 24 cycles after the start. -/
structure TransfersByte
    (spi : SpiMaster)
    (start : Ports)
    (cycles : List Ports) : Prop where
  /-- There are eight clock pulses. -/
  pulses :
    ∀ cycle < 24,
      (spi.during start cycles cycle).spiCskReg = decide (cycle % 3 = 1)
  /-- The bit that is sent is there before and after the rising edge. -/
  mosi :
    ∀ cycle < 24,
      cycle % 3 ≠ 2 →
      ((spi.during start cycles cycle).wires false).mosi =
        (spi.loaded start).getLsbD (7 - cycle / 3)
  busy :
    ∀ cycle < 24, (spi.during start cycles cycle).spiReadyReg = false
  done : (spi.during start cycles 24).Rests
  /-- The bits at the rising edges are those of the two bytes. -/
  exchange :
    exchanged ((spi.clock start).trace cycles) =
      (highBits 8 (spi.loaded start)).zip
        (highBits 8 (spi.during start cycles 24).spiRxDataReg)

/-- Whatever is asked of the SPI master meanwhile, a byte is transferred. -/
theorem transfersByte
    {start : Ports}
    {cycles : List Ports}
    (rests : spi.Rests)
    (selected : spi.spiSsReg = false)
    (isStart : start.spiStart = true)
    (keeps : ∀ ports ∈ start :: cycles, ports.KeepsSelected)
    (length : cycles.length = 24) :
    spi.TransfersByte start cycles := by
  have first :=
    sends_start rests selected (keeps start List.mem_cons_self) isStart
  have inside {count : Nat} (more : count < 24) :
      (cycles.take count).length = count := by
    rw [List.length_take]
    omega
  have partly {count : Nat} (more : count < 24) :
      (spi.during start cycles count).Sends (spi.loaded start) count
        (exchanged ((spi.clock start).trace (cycles.take count))) := by
    have sends :=
      @sends_run _ _ (cycles.take count) first
        (fun ports member =>
          keeps ports (List.mem_cons_of_mem _ (List.mem_of_mem_take member)))
        (by rw [inside more]; exact more)
    rw [inside more] at sends
    exact sends.1
  have last := partly (show 23 < 24 by decide)
  have whole : cycles.take 24 = cycles := by
    rw [← length, List.take_length]
  have split : cycles = cycles.take 23 ++ [cycles[23]] := by
    rw [List.take_append_getElem]
    exact whole.symm
  have final : spi.during start cycles 24 =
      (spi.during start cycles 23).clock cycles[23] := by
    rw [during, during, whole]
    conv_lhs => rw [split]
    exact List.foldl_concat ..
  obtain ⟨done, -, exchange⟩ :=
    last.clock_last (keeps _ (List.mem_cons_of_mem _ (List.getElem_mem _)))
  rw [← final] at done exchange
  refine ⟨fun cycle more => (partly more).sck_eq,
    fun cycle more around => (partly more).mosi_eq around,
    fun cycle more => (partly more).transfers.ready, done, ?_⟩
  have noEdge (before : Bool) :
      rising before ((spi.during start cycles 23).wires cycles[23].spiMiso) =
        [] := by
    rw [rising, wires, last.sck_eq, show decide (23 % 3 = 1) = false from rfl,
      Bool.and_false]
    rfl
  rw [← exchange]
  conv_lhs => rw [split]
  rw [trace_concat, exchanged_concat]
  exact (congrArg _ (noEdge _)).trans (List.append_nil _)

end SpiMaster

end Transfer

end TKey.Fpga
