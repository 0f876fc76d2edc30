import Mathlib.Data.List.Induction
import TKey.Lib.Register
import TKey.SerialFrames

namespace TKey.Fpga

open SerialLine

/-!
# Flow control from the FPGA to the CH552

`writebyte` polls `TX_STATUS` until it is set and writes a byte to `TX_DATA`,
with pauses of any length.  The UART shows the pin `CH552_CTS` in `TX_STATUS`
two cycles late, so bytes can still be on their way when the CH552 has raised
it.
-/

section Design

/-- The CPU in `writebyte`, the UART, and the line to the CH552. -/
structure SendControl where
  /-- The bytes that are to be written. -/
  toSend : List (BitVec 8)
  /-- `*can_tx` was set, and `*tx` is written next. -/
  canTx : Bool
  uart : UartCore
  /-- What the transmit engine sends. -/
  line : Line

namespace SendControl

/-- What happens in a cycle. -/
structure Pins where
  /-- The CPU makes the next access of `writebyte`. -/
  acts : Bool
  /-- The other pins, and an access of the CPU outside of `writebyte`. -/
  ports : UartCore.Ports

/-- The FPGA comes out of reset and is to send some bytes. -/
def reset (bytes : List (BitVec 8)) (uart : UartCore) : SendControl where
  toSend := bytes
  canTx := false
  uart := uart.reset
  line := .idle

/-- `*can_tx` is read. -/
def polls (flow : SendControl) (pins : Pins) : Bool :=
  pins.acts && !flow.canTx && !flow.toSend.isEmpty

/-- `*tx` is written. -/
def stores (flow : SendControl) (pins : Pins) : Bool :=
  pins.acts && flow.canTx

/-- The pins of the UART; only `writebyte` writes to `TX_DATA`. -/
def uartPorts (flow : SendControl) (pins : Pins) : UartCore.Ports :=
  if flow.stores pins then
    { pins.ports with
      cs := true
      we := true
      address := addrTxData
      writeData := (flow.toSend.headD 0).setWidth 32 }
  else if flow.polls pins then
    { pins.ports with cs := true, we := false, address := addrTxStatus }
  else
    { pins.ports with
      we := pins.ports.we && pins.ports.address != addrTxData }

/-- `TX_STATUS` is read and set. -/
def sees (flow : SendControl) (pins : Pins) : Bool :=
  flow.polls pins && flow.uart.readData (flow.uartPorts pins) != 0

/-- A clock edge. -/
def clock (flow : SendControl) (pins : Pins) : SendControl where
  toSend := if flow.stores pins then flow.toSend.tail else flow.toSend
  canTx := if flow.stores pins then false else flow.canTx || flow.sees pins
  uart := flow.uart.clock (flow.uartPorts pins)
  line := flow.line.send 48 (flow.uart.coreTxd (flow.uartPorts pins))

/-- The byte whose frame starts. -/
def starts (flow : SendControl) (pins : Pins) : List (BitVec 8) :=
  (flow.clock pins).line.started

/-- The byte whose frame ends. -/
def ends (flow : SendControl) : List (BitVec 8) :=
  match flow.line with
  | .frame byte age => if age + 1 = 480 then [byte] else []
  | _ => []

/-- The bytes whose frames have started. -/
def sent (flow : SendControl) (cycles : List Pins) : List (BitVec 8) :=
  Register.outputs clock starts flow cycles

/-- The bytes whose frames have ended. -/
def arrived (flow : SendControl) (cycles : List Pins) : List (BitVec 8) :=
  Register.outputs clock (fun flow _ => flow.ends) flow cycles

/-- For how many cycles `TX_STATUS` may not show yet that CTS is high. -/
def blind (flow : SendControl) : Nat :=
  if flow.uart.ch552CtsReg.getLsbD 0 = false then 2
  else if flow.uart.ch552CtsReg.getLsbD 1 = false then 1
  else 0

/-- For how many cycles `TX_STATUS` may not show yet that CTS is low. -/
def deaf (flow : SendControl) : Nat :=
  if flow.uart.ch552CtsReg.getLsbD 0 then 2
  else if flow.uart.ch552CtsReg.getLsbD 1 then 1
  else 0

/-- The cycles until the line is idle. -/
def idleIn (flow : SendControl) : Nat :=
  match flow.line with
  | .frame _ age => 480 - age
  | _ => 0

/-- How many bytes may be sent when CTS stays high. -/
def budget (flow : SendControl) : Nat :=
  if flow.canTx = true ∨ flow.idleIn < flow.blind then 1 else 0

/-- The CPU makes an access of `writebyte` in every `gap` cycles. -/
def ActsEvery (gap : Nat) (cycles : List Pins) : Prop :=
  ∀ window,
    window <:+: cycles → window.length = gap →
      ∃ pins, pins ∈ window ∧ pins.acts = true

end SendControl

end Design

section Step

namespace SendControl

variable {flow : SendControl} {pins : Pins}

/-- The invariant. -/
structure Sends (flow : SendControl) : Prop where
  drives : flow.uart.tx.Drives flow.line
  /-- Nothing else can have been sent since `*can_tx` was set. -/
  waits : flow.canTx = true → flow.line = .idle ∧ flow.toSend ≠ []

theorem sends_reset (bytes : List (BitVec 8)) (uart : UartCore) :
    (reset bytes uart).Sends where
  drives := TxEngine.drives_reset
  waits := nofun

/-- A cycle of the synchroniser. -/
theorem ctsReg_clock (flow : SendControl) (pins : Pins) :
    (flow.clock pins).uart.ch552CtsReg =
      flow.uart.ch552CtsReg.extractLsb' 0 1 ++
        BitVec.ofBool pins.ports.ch552Cts := by
  have pin : (flow.uartPorts pins).ch552Cts = pins.ports.ch552Cts := by
    rw [uartPorts]
    split
    · rfl
    · split <;> rfl
  rw [← pin]
  rfl

/-- Only `writebyte` hands a byte to the UART. -/
theorem coreTxd_of_not_stores (quiet : flow.stores pins = false) :
    flow.uart.coreTxd (flow.uartPorts pins) = none := by
  rw [uartPorts, if_neg (by rw [quiet]; decide), UartCore.coreTxd]
  split
  · rfl
  · cases isData : pins.ports.address == addrTxData <;> simp [isData, bne]

/-- A byte that is written is taken. -/
theorem Sends.coreTxd_of_stores
    (sends : flow.Sends)
    (stores : flow.stores pins = true) :
    ∃ byte rest,
      flow.toSend = byte :: rest ∧ flow.line = .idle ∧
        flow.uart.coreTxd (flow.uartPorts pins) = some byte := by
  rw [SendControl.stores, Bool.and_eq_true] at stores
  obtain ⟨idle, more⟩ := sends.waits stores.2
  have ready := sends.drives.ready_iff.mpr idle
  obtain ⟨byte, rest, isProgram⟩ := List.exists_cons_of_ne_nil more
  refine ⟨byte, rest, isProgram, idle, ?_⟩
  rw [uartPorts, if_pos (by rw [SendControl.stores, stores.1, stores.2]; rfl),
    UartCore.coreTxd, isProgram]
  rw [if_pos (by simp [ready]), List.headD_cons,
    BitVec.extractLsb'_setWidth_of_le (by decide), BitVec.extractLsb'_eq_self]

/-- `TX_STATUS` is set when the engine is ready and CTS was low. -/
theorem sees_eq (flow : SendControl) (pins : Pins) :
    flow.sees pins =
      (flow.polls pins &&
        (flow.uart.tx.txdReadyReg && !flow.uart.ch552CtsReg.getLsbD 1)) := by
  rw [sees]
  cases polls : flow.polls pins with
  | false => rfl
  | true =>
      have quiet : ¬ flow.stores pins = true := by
        simp only [SendControl.polls, Bool.and_eq_true, Bool.not_eq_true']
          at polls
        rw [stores, polls.1.2, Bool.and_false]
        exact Bool.false_ne_true
      have value :
          flow.uart.readData (flow.uartPorts pins) =
            (BitVec.ofBool
              (flow.uart.tx.txdReadyReg &&
                !flow.uart.ch552CtsReg.getLsbD 1)).setWidth 32 := by
        rw [uartPorts, if_neg quiet, if_pos polls]
        rfl
      rw [value]
      cases flow.uart.tx.txdReadyReg && !flow.uart.ch552CtsReg.getLsbD 1 <;>
        rfl

theorem of_sees (seen : flow.sees pins = true) :
    flow.toSend ≠ [] ∧ flow.uart.tx.txdReadyReg = true ∧
      flow.uart.ch552CtsReg.getLsbD 1 = false := by
  rw [sees_eq, polls] at seen
  simp only [Bool.and_eq_true, Bool.not_eq_true', List.isEmpty_eq_false_iff]
    at seen
  exact ⟨seen.1.2, seen.2⟩

/-- What a cycle does to the bytes, the CPU and the line. -/
inductive Goes (flow : SendControl) (pins : Pins) : Prop
  | store
      {byte : BitVec 8}
      {rest : List (BitVec 8)}
      (acts : pins.acts = true)
      (canTx : flow.canTx = true)
      (idle : flow.line = .idle)
      (isNext : flow.toSend = byte :: rest)
      (toSend : (flow.clock pins).toSend = rest)
      (canTx' : (flow.clock pins).canTx = false)
      (line : (flow.clock pins).line = .frame byte 0)
  | quiet
      (waits : pins.acts = true → flow.canTx = false)
      (toSend : (flow.clock pins).toSend = flow.toSend)
      (canTx' : (flow.clock pins).canTx = (flow.canTx || flow.sees pins))
      (line : (flow.clock pins).line = flow.line.send 48 none)

theorem Sends.goes (sends : flow.Sends) (pins : Pins) : Goes flow pins := by
  cases stores : flow.stores pins with
  | true =>
      obtain ⟨byte, rest, isProgram, idle, taken⟩ :=
        sends.coreTxd_of_stores stores
      have acts := stores
      rw [SendControl.stores, Bool.and_eq_true] at acts
      refine .store acts.1 acts.2 idle isProgram ?_ ?_ ?_
      · rw [clock, if_pos stores, isProgram, List.tail_cons]
      · rw [clock]
        exact if_pos stores
      · rw [clock, taken, idle]
        rfl
  | false =>
      have none := coreTxd_of_not_stores stores
      have different : ¬ flow.stores pins = true := by
        rw [stores]
        exact Bool.false_ne_true
      refine .quiet (fun acts => ?_) ?_ ?_ ?_
      · rwa [SendControl.stores, acts, Bool.true_and] at stores
      · rw [clock, if_neg different]
      · rw [clock]
        exact if_neg different
      · rw [clock, none]

/-- Without a byte no frame starts. -/
theorem started_send_none (line : Line) :
    (line.send 48 none).started = [] := by
  cases line with
  | low | idle => rfl
  | frame byte age => exact started_send_frame

/-- A cycle of all parties. -/
theorem Sends.clock (sends : flow.Sends) (pins : Pins) :
    (flow.clock pins).Sends := by
  refine ⟨sends.drives.clock, fun canTx => ?_⟩
  cases sends.goes pins with
  | store _ _ _ _ _ canTx' _ =>
      rw [canTx'] at canTx
      cases canTx
  | quiet _ toSend canTx' line =>
      have before : flow.line = .idle ∧ flow.toSend ≠ [] := by
        rw [canTx', Bool.or_eq_true] at canTx
        rcases canTx with was | seen
        · exact sends.waits was
        · obtain ⟨more, ready, _⟩ := of_sees seen
          exact ⟨sends.drives.ready_iff.mp ready, more⟩
      rw [line, toSend, before.1]
      exact ⟨rfl, before.2⟩

/-- The bytes are sent in order. -/
theorem Sends.program_clock (sends : flow.Sends) (pins : Pins) :
    flow.starts pins ++ (flow.clock pins).toSend = flow.toSend := by
  rw [starts]
  cases sends.goes pins with
  | store _ _ _ isNext toSend _ line =>
      rw [line, toSend, isNext]
      rfl
  | quiet _ toSend _ line =>
      rw [line, toSend, started_send_none]
      rfl

/-- A frame that has started goes on to its end. -/
theorem Sends.carried_clock (sends : flow.Sends) (pins : Pins) :
    flow.line.carried ++ flow.starts pins =
      flow.ends ++ (flow.clock pins).line.carried := by
  rw [starts, ends]
  cases sends.goes pins with
  | store _ _ idle _ _ _ line =>
      rw [line, idle]
      rfl
  | quiet _ _ _ line =>
      rw [line, started_send_none]
      have driven := sends.drives.driven
      cases now : flow.line with
      | low | idle => rfl
      | frame byte age =>
          rw [now] at driven
          cases driven with
          | frame inside =>
              rw [Line.send]
              by_cases last : age + 1 = 480
              · rw [if_neg (by omega)]
                simp only [if_pos last]
                rfl
              · rw [if_pos (by omega)]
                simp only [if_neg last]
                rfl

end SendControl

end Step

section Stop

namespace SendControl

variable {flow : SendControl} {pins : Pins}

/-- When CTS is high the UART comes to show it. -/
theorem blind_clock
    (flow : SendControl)
    (stopped : pins.ports.ch552Cts = true) :
    (flow.clock pins).blind = flow.blind - 1 := by
  rw [blind, blind, ctsReg_clock, stopped]
  generalize flow.uart.ch552CtsReg = reg
  revert reg
  decide

/-- When CTS is low the UART comes to show it. -/
theorem deaf_clock
    (flow : SendControl)
    (started : pins.ports.ch552Cts = false) :
    (flow.clock pins).deaf = flow.deaf - 1 := by
  rw [deaf, deaf, ctsReg_clock, started]
  generalize flow.uart.ch552CtsReg = reg
  revert reg
  decide

/-- The line comes to be idle. -/
theorem idleIn_send (flow : SendControl) (pins : Pins)
    (line : (flow.clock pins).line = flow.line.send 48 none) :
    (flow.clock pins).idleIn = flow.idleIn - 1 := by
  rw [idleIn, idleIn, line]
  cases flow.line with
  | low | idle => rfl
  | frame byte age =>
      have step : 480 - (age + 1) = 480 - age - 1 := by omega
      rw [Line.send]
      by_cases more : age + 1 < 10 * 48
      · rw [if_pos more]
        exact step
      · have last : 480 - age - 1 = 0 := by omega
        rw [if_neg more]
        exact last.symm

/-- While CTS is high what is sent is taken from the budget. -/
theorem Sends.budget_clock
    (sends : flow.Sends)
    (stopped : pins.ports.ch552Cts = true) :
    (flow.starts pins).length + (flow.clock pins).budget ≤ flow.budget := by
  have blind := flow.blind_clock stopped
  have atMost : flow.blind ≤ 2 := by
    rw [SendControl.blind]
    split
    · exact Nat.le_refl 2
    · split <;> decide
  rw [starts, budget, budget]
  cases sends.goes pins with
  | store _ canTx _ _ _ canTx' line =>
      have busy : (flow.clock pins).idleIn = 480 := by
        rw [idleIn, line]
      have spent : ¬ (false = true ∨ 480 < flow.blind - 1) := by
        rintro (now | soon)
        · cases now
        · omega
      rw [line, canTx', canTx, busy, blind, if_neg spent, if_pos (.inl rfl)]
      exact Nat.le_refl 1
  | quiet _ _ canTx' line =>
      have idle := flow.idleIn_send pins line
      rw [line, started_send_none, canTx', blind, idle]
      by_cases more :
          (flow.canTx || flow.sees pins) = true ∨
            flow.idleIn - 1 < flow.blind - 1
      · have before : flow.canTx = true ∨ flow.idleIn < flow.blind := by
          rcases more with canTx | soon
          · rw [Bool.or_eq_true] at canTx
            rcases canTx with was | seen
            · exact .inl was
            · obtain ⟨_, ready, low⟩ := of_sees seen
              refine .inr ?_
              rw [idleIn, sends.drives.ready_iff.mp ready, SendControl.blind,
                if_pos low]
              by_cases late : flow.uart.ch552CtsReg.getLsbD 0 = false
              · rw [if_pos late]
                decide
              · rw [if_neg late]
                decide
          · exact .inr (by omega)
        rw [if_pos more, if_pos before]
        exact Nat.le_refl 1
      · rw [if_neg more]
        exact Nat.zero_le _

/-- A poll finds the engine ready when the line is idle and CTS has been low. -/
theorem Sends.sees_of_ready
    (sends : flow.Sends)
    (idle : flow.idleIn = 0)
    (low : flow.deaf = 0)
    (polls : flow.polls pins = true) :
    flow.sees pins = true := by
  have isIdle : flow.line = .idle := by
    have driven := sends.drives.driven
    rw [idleIn] at idle
    cases now : flow.line with
    | low =>
        rw [now] at driven
        cases driven
    | idle => rfl
    | frame byte age =>
        rw [now] at driven idle
        cases driven with
        | frame inside => exact absurd idle (Nat.sub_ne_zero_of_lt inside)
  have shown : flow.uart.ch552CtsReg.getLsbD 1 = false := by
    rw [deaf] at low
    by_contra high
    rw [Bool.not_eq_false] at high
    rw [if_pos high] at low
    split at low <;> cases low
  rw [sees_eq, polls, sends.drives.ready_iff.mpr isIdle, shown]
  rfl

end SendControl

end Stop

section Run

namespace SendControl

variable {flow : SendControl}

/-- What holds after a run. -/
theorem run_sends
    (sends : flow.Sends)
    (cycles : List Pins) :
    (cycles.foldl clock flow).Sends ∧
      flow.sent cycles ++ (cycles.foldl clock flow).toSend = flow.toSend ∧
        flow.line.carried ++ flow.sent cycles =
          flow.arrived cycles ++ (cycles.foldl clock flow).line.carried := by
  induction cycles using List.reverseRecOn with
  | nil => exact ⟨sends, rfl, List.append_nil _⟩
  | append_singleton cycles pins inductionHypothesis =>
      obtain ⟨sendsSoFar, program, carried⟩ := inductionHypothesis
      have more : flow.sent (cycles ++ [pins]) =
          flow.sent cycles ++ (cycles.foldl clock flow).starts pins :=
        Register.outputs_concat ..
      have ended : flow.arrived (cycles ++ [pins]) =
          flow.arrived cycles ++ (cycles.foldl clock flow).ends :=
        Register.outputs_concat ..
      rw [List.foldl_concat, more, ended]
      refine ⟨sendsSoFar.clock pins, ?_, ?_⟩
      · rw [List.append_assoc, sendsSoFar.program_clock, program]
      · rw [← List.append_assoc, carried, List.append_assoc,
          sendsSoFar.carried_clock, List.append_assoc]

/-- While CTS stays high the budget is enough for what is sent. -/
theorem Sends.budget_run
    (sends : flow.Sends)
    {cycles : List Pins}
    (stopped : ∀ pins, pins ∈ cycles → pins.ports.ch552Cts = true) :
    (flow.sent cycles).length ≤ flow.budget := by
  induction cycles generalizing flow with
  | nil => exact Nat.zero_le _
  | cons pins cycles inductionHypothesis =>
      have now := sends.budget_clock (stopped pins (List.mem_cons_self ..))
      have later :=
        inductionHypothesis (sends.clock pins) fun pins member =>
          stopped pins (List.mem_cons_of_mem _ member)
      have split : (flow.sent (pins :: cycles)).length =
          (flow.starts pins).length + ((flow.clock pins).sent cycles).length :=
        List.length_append
      omega

/-- What changes while CTS stays low and no byte is sent. -/
theorem Sends.quiet_run
    (sends : flow.Sends)
    {cycles : List Pins}
    (low : ∀ pins, pins ∈ cycles → pins.ports.ch552Cts = false)
    (quiet : flow.sent cycles = []) :
    (cycles.foldl SendControl.clock flow).toSend = flow.toSend ∧
      (cycles.foldl SendControl.clock flow).idleIn = flow.idleIn - cycles.length ∧
      (cycles.foldl SendControl.clock flow).deaf = flow.deaf - cycles.length := by
  induction cycles generalizing flow with
  | nil => exact ⟨rfl, rfl, rfl⟩
  | cons pins cycles inductionHypothesis =>
      obtain ⟨now, quietLater⟩ := List.append_eq_nil_iff.mp quiet
      obtain ⟨toSend, idleIn, deaf⟩ :=
        inductionHypothesis (sends.clock pins)
          (fun pins member => low pins (List.mem_cons_of_mem _ member))
          quietLater
      have started := flow.deaf_clock (low pins (List.mem_cons_self ..))
      rw [starts] at now
      cases sends.goes pins with
      | store _ _ _ _ _ _ line =>
          rw [line] at now
          cases now
      | quiet _ same _ line =>
          rw [flow.idleIn_send pins line, Nat.sub_sub, Nat.add_comm] at idleIn
          rw [started, Nat.sub_sub, Nat.add_comm] at deaf
          exact ⟨toSend.trans same, idleIn, deaf⟩

/-- The CPU does not act while it is to store a byte and none is sent. -/
theorem Sends.silent_of_canTx
    (sends : flow.Sends)
    (canTx : flow.canTx = true)
    {cycles : List Pins}
    (quiet : flow.sent cycles = []) :
    (cycles.foldl SendControl.clock flow).canTx = true ∧
      ∀ pins, pins ∈ cycles → pins.acts = false := by
  induction cycles generalizing flow with
  | nil => exact ⟨canTx, fun _ member => absurd member List.not_mem_nil⟩
  | cons pins cycles inductionHypothesis =>
      obtain ⟨now, quietLater⟩ := List.append_eq_nil_iff.mp quiet
      rw [starts] at now
      cases sends.goes pins with
      | store _ _ _ _ _ _ line =>
          rw [line] at now
          cases now
      | quiet waits _ canTx' _ =>
          obtain ⟨still, silent⟩ :=
            inductionHypothesis (sends.clock pins)
              (by rw [canTx', canTx, Bool.true_or]) quietLater
          refine ⟨still, fun other member => ?_⟩
          rcases List.mem_cons.mp member with rfl | later
          · rw [← Bool.not_eq_true]
            intro acts
            rw [waits acts] at canTx
            cases canTx
          · exact silent other later

/-- An access finds `TX_STATUS` set. -/
theorem Sends.canTx_run
    (sends : flow.Sends)
    (more : flow.toSend ≠ [])
    (idle : flow.idleIn = 0)
    (started : flow.deaf = 0)
    {cycles : List Pins}
    (low : ∀ pins, pins ∈ cycles → pins.ports.ch552Cts = false)
    (acts : ∃ pins, pins ∈ cycles ∧ pins.acts = true)
    (quiet : flow.sent cycles = []) :
    (cycles.foldl SendControl.clock flow).canTx = true := by
  induction cycles generalizing flow with
  | nil =>
      obtain ⟨pins, member, _⟩ := acts
      cases member
  | cons pins cycles inductionHypothesis =>
      obtain ⟨now, quietLater⟩ := List.append_eq_nil_iff.mp quiet
      have lowNow := low pins (List.mem_cons_self ..)
      rw [starts] at now
      cases sends.goes pins with
      | store _ _ _ _ _ _ line =>
          rw [line] at now
          cases now
      | quiet waits same canTx' line =>
          by_cases canTx : (flow.clock pins).canTx = true
          · exact ((sends.clock pins).silent_of_canTx canTx quietLater).1
          -- it was not seen, so the CPU has not polled
          rw [canTx', Bool.not_eq_true, Bool.or_eq_false_iff] at canTx
          have idleNow : pins.acts = false := by
            rw [← Bool.not_eq_true]
            intro act
            have polls : flow.polls pins = true := by
              rw [SendControl.polls, act, canTx.1,
                List.isEmpty_eq_false_iff.mpr more]
              rfl
            rw [sends.sees_of_ready idle started polls] at canTx
            cases canTx.2
          obtain ⟨other, member, act⟩ := acts
          have later : other ∈ cycles := by
            rcases List.mem_cons.mp member with rfl | later
            · rw [idleNow] at act
              cases act
            · exact later
          exact
            inductionHypothesis (sends.clock pins) (same.symm ▸ more)
              (by rw [flow.idleIn_send pins line, idle])
              (by rw [flow.deaf_clock lowNow, started])
              (fun pins member => low pins (List.mem_cons_of_mem _ member))
              ⟨other, later, act⟩ quietLater

/-- The bytes of a run in two parts. -/
theorem sent_append (flow : SendControl) (first second : List Pins) :
    flow.sent (first ++ second) =
      flow.sent first ++ (first.foldl clock flow).sent second :=
  Register.outputs_append ..

/-- While CTS stays low a byte is sent in time. -/
theorem Sends.sends_in_time
    (sends : flow.Sends)
    (more : flow.toSend ≠ [])
    {gap : Nat}
    {cycles : List Pins}
    (low : ∀ pins, pins ∈ cycles → pins.ports.ch552Cts = false)
    (acts : ActsEvery gap cycles)
    {shown : Nat}
    (idle : flow.idleIn ≤ shown)
    (started : flow.deaf ≤ shown)
    (enough : cycles.length = shown + gap + gap) :
    flow.sent cycles ≠ [] := by
  intro nothing
  -- the line becomes idle, a poll finds it so, and the byte is stored
  obtain ⟨waiting, rest, rfl, isWaiting⟩ :
      ∃ waiting rest, cycles = waiting ++ rest ∧ waiting.length = shown :=
    ⟨cycles.take shown, cycles.drop shown, (List.take_append_drop ..).symm,
      by rw [List.length_take]; omega⟩
  obtain ⟨polling, storing, rfl, isPolling⟩ :
      ∃ polling storing, rest = polling ++ storing ∧ polling.length = gap := by
    rw [List.length_append] at enough
    exact
      ⟨rest.take gap, rest.drop gap, (List.take_append_drop ..).symm,
        by rw [List.length_take]; omega⟩
  rw [sent_append, sent_append, List.append_eq_nil_iff,
    List.append_eq_nil_iff] at nothing
  obtain ⟨quiet, quietPolling, quietStoring⟩ := nothing
  obtain ⟨toSend, idleIn, deaf⟩ :=
    sends.quiet_run
      (fun pins member => low pins (List.mem_append_left _ member)) quiet
  have waited := (run_sends sends waiting).1
  have canTx :=
    waited.canTx_run (toSend.symm ▸ more) (by omega) (by omega)
      (fun pins member =>
        low pins
          (List.mem_append_right _ (List.mem_append_left _ member)))
      (acts polling ⟨waiting, storing, List.append_assoc ..⟩ isPolling)
      quietPolling
  obtain ⟨pins, member, act⟩ :=
    acts storing ⟨waiting ++ polling, [], by simp⟩
      (by simp only [List.length_append] at enough; omega)
  have silent :=
    ((run_sends waited polling).1.silent_of_canTx canTx quietStoring).2 pins
      member
  rw [silent] at act
  cases act

/-- What holds of the bytes that are sent, and of the pin. -/
structure InOrder
    (bytes : List (BitVec 8))
    (flow : SendControl)
    (sent arrived : List (BitVec 8)) : Prop where
  program : sent ++ flow.toSend = bytes
  carried : sent = arrived ++ flow.line.carried
  pin : flow.uart.tx.txdReg = flow.line.level 48

/--
The bytes are sent in order, each in a whole frame.  Whenever CTS has been high
for any number of cycles, at most one frame has started since then, and at most
two bytes have arrived.
-/
theorem cts_stops_writebyte
    (bytes : List (BitVec 8))
    (uart : UartCore)
    (before : List Pins)
    {after : List Pins}
    (stopped : ∀ pins, pins ∈ after → pins.ports.ch552Cts = true) :
    let start := reset bytes uart
    let flow := before.foldl clock start
    InOrder bytes (after.foldl clock flow) (start.sent (before ++ after))
        (start.arrived (before ++ after)) ∧
      (flow.sent after).length ≤ 1 ∧ (flow.arrived after).length ≤ 2 := by
  intro start flow
  have sends : flow.Sends := (run_sends (sends_reset bytes uart) before).1
  obtain ⟨all, program, carried⟩ :=
    run_sends (sends_reset bytes uart) (before ++ after)
  rw [List.foldl_append] at all program carried
  have few : flow.budget ≤ 1 := by
    rw [budget]
    split
    · exact Nat.le_refl 1
    · exact Nat.zero_le 1
  have started := sends.budget_run stopped
  have arrives := congrArg List.length (run_sends sends after).2.2
  have one : flow.line.carried.length ≤ 1 := by
    cases flow.line with
    | low | idle => exact Nat.zero_le 1
    | frame => exact Nat.le_refl 1
  rw [List.length_append, List.length_append] at arrives
  exact
    ⟨⟨program, carried, all.drives.level⟩, Nat.le_trans started few,
      by omega⟩

/-- A cycle of `writebyte`. -/
def writing (cts : Bool) : Pins where
  acts := true
  ports :=
    { rxd := true
      ch552Cts := cts
      cs := false
      we := false
      address := 0
      writeData := 0 }

def uartSample : UartCore where
  rx := .reset
  tx := .reset
  fifo :=
    { fifoMem := fun _ => 0
      inPtrReg := 0
      outPtrReg := 0
      byteCtrReg := 0
      inAckReg := false
      fpgaCtsReg := false }
  ch552CtsReg := 0

theorem cts_stops_writebyte_sample :
    let flow := (reset [0x55, 0xaa] uartSample).clock (writing false)
    flow.canTx = true ∧
      (flow.sent (List.replicate 1000 (writing true))).length ≤ 1 :=
  ⟨by decide,
    (cts_stops_writebyte [0x55, 0xaa] uartSample [writing false]
      fun _ member => (List.eq_of_mem_replicate member).symm ▸ rfl).2.1⟩

/--
While CTS stays low and the CPU stays in `writebyte`, where it makes an access
in every `gap` cycles, a byte is sent within the time of a byte and two such
gaps, whatever happened before.
-/
theorem writebyte_sends
    (bytes : List (BitVec 8))
    (uart : UartCore)
    (before : List Pins)
    {gap : Nat}
    {after : List Pins}
    (low : ∀ pins, pins ∈ after → pins.ports.ch552Cts = false)
    (acts : ActsEvery gap after)
    (enough : 480 + 2 * gap ≤ after.length) :
    let flow := before.foldl clock (reset bytes uart)
    (flow.toSend ≠ [] → flow.sent after ≠ []) := by
  intro flow more
  have sends : flow.Sends := (run_sends (sends_reset bytes uart) before).1
  have busy : flow.idleIn ≤ 480 := by
    rw [idleIn]
    split
    · exact Nat.sub_le _ _
    · exact Nat.zero_le _
  have late : flow.deaf ≤ 2 := by
    rw [deaf]
    split
    · exact Nat.le_refl 2
    · split <;> decide
  have inTime :=
    sends.sends_in_time more
      (fun pins member => low pins (List.mem_of_mem_take member))
      (fun window inside =>
        acts window (inside.trans (List.take_prefix _ after).isInfix))
      busy (Nat.le_trans late (by decide))
      (by rw [List.length_take]; omega : (after.take (480 + gap + gap)).length = _)
  intro nothing
  rw [← List.take_append_drop (480 + gap + gap) after, sent_append] at nothing
  exact inTime (List.append_eq_nil_iff.mp nothing).1

/-- A cycle in which the CPU fetches an instruction. -/
def fetching : Pins :=
  { writing false with acts := false }

/-- Between two accesses of `writebyte` the CPU fetches its instructions. -/
def pollingSample : List Pins :=
  (List.range 500).map fun cycle =>
    if cycle % 10 = 9 then writing false else fetching

theorem length_pollingSample : pollingSample.length = 500 := by
  rw [pollingSample, List.length_map, List.length_range]

theorem actsEvery_pollingSample : ActsEvery 10 pollingSample := by
  rintro window ⟨before, after, split⟩ length
  have total := congrArg List.length split
  have inside : 9 - before.length % 10 < window.length := by omega
  refine ⟨window.get ⟨9 - before.length % 10, inside⟩, List.get_mem .., ?_⟩
  have place : pollingSample[before.length + (9 - before.length % 10)]? =
      some (window.get ⟨9 - before.length % 10, inside⟩) := by
    rw [← split, List.append_assoc, List.getElem?_append_right (by omega),
      Nat.add_sub_cancel_left, List.getElem?_append_left inside]
    exact List.getElem?_eq_getElem inside
  rw [length_pollingSample, List.length_append, List.length_append] at total
  rw [pollingSample, List.getElem?_map, List.getElem?_range (by omega),
    Option.map_some, if_pos (by omega)] at place
  rw [← Option.some.inj place]
  rfl

theorem writebyte_sends_sample :
    ((reset [0x55, 0xaa] uartSample).clock (writing true)).sent
        pollingSample ≠ [] :=
  writebyte_sends [0x55, 0xaa] uartSample [writing true]
    (fun pins member => by
      obtain ⟨cycle, _, rfl⟩ := List.mem_map.mp member
      split <;> rfl)
    actsEvery_pollingSample
    (Nat.le_of_eq length_pollingSample.symm)
    (by decide)

end SendControl

end Run

end TKey.Fpga
