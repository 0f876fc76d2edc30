import TKey.BusMemory
import TKey.TimerDuration

namespace TKey.Fpga

open HandshakePort

/-!
# Programs on the bus

Runs in which the CPU makes one access after the other, and waits in between.
The TRNG has a new word after a while, and so a program that waits for it goes
on.
-/

section Trng

namespace Trng

/-- The registers of the TRNG that decide about the next word fit together. -/
structure Sane (trng : Trng) : Prop where
  cycles : trng.cycleCtrReg.toNat ≤ 0x1000
  collects : trng.trngCtrlReg = .dataReady → trng.cycleCtrReg = 0
  bits : trng.dataReadyReg = true ∨ trng.bitCtrReg.toNat ≤ 32

theorem sane_reset : reset.Sane where
  cycles := by decide
  collects := nofun
  bits := .inr (by decide)

variable {trng : Trng}
variable {xorF xorG : Bool}
variable {ports : CorePorts}

theorem cycleCtrDone_iff :
    trng.cycleCtrDone = true ↔ trng.cycleCtrReg.toNat = 0x1000 := by
  rw [cycleCtrDone, beq_iff_eq, ← BitVec.toNat_inj]
  rfl

/-- The counter of the cycles after a cycle. -/
theorem toNat_cycleCtrReg_clock (sane : trng.Sane) :
    (trng.clock xorF xorG ports).cycleCtrReg.toNat =
      if trng.sampleWe then 0 else trng.cycleCtrReg.toNat + 1 := by
  have small := sane.cycles
  rw [clock]
  dsimp only
  split
  · rfl
  · rw [BitVec.toNat_add, show (1 : BitVec 16).toNat = 1 from rfl]
    omega

/-- The counter of the bits after a cycle in which no word is read. -/
theorem toNat_bitCtrReg_clock
    (few : trng.bitCtrReg.toNat ≤ 32)
    (quiet : bitCtrRst ports = false) :
    (trng.clock xorF xorG ports).bitCtrReg.toNat =
      if trng.bitCtrInc then
        trng.bitCtrReg.toNat + 1
      else
        trng.bitCtrReg.toNat := by
  rw [clock]
  dsimp only
  rw [if_neg (by rw [quiet]; exact Bool.false_ne_true)]
  split
  · rw [BitVec.toNat_add, show (1 : BitVec 8).toNat = 1 from rfl]
    omega
  · rfl

theorem sane_clock (sane : trng.Sane) :
    (trng.clock xorF xorG ports).Sane := by
  have cycles := @toNat_cycleCtrReg_clock trng xorF xorG ports sane
  have small := sane.cycles
  refine ⟨?_, ?_, ?_⟩
  · rw [cycles]
    split
    · omega
    · next noSample =>
        cases ctrl : trng.trngCtrlReg with
        | dataReady =>
            rw [sane.collects ctrl]
            decide
        | sample1 | sample2 =>
            have running : trng.cycleCtrReg.toNat ≠ 0x1000 := by
              intro done
              rw [sampleWe, cycleCtrDone_iff.mpr done, ctrl] at noSample
              exact noSample rfl
            omega
  · intro collects
    apply BitVec.eq_of_toNat_eq
    rw [cycles, if_pos]
    · rfl
    · rw [clock] at collects
      dsimp only at collects
      rw [sampleWe]
      cases ctrl : trng.trngCtrlReg <;> rw [ctrl] at collects <;>
        cases done : trng.cycleCtrDone <;> simp_all
  · cases rst : bitCtrRst ports with
    | true =>
        refine .inr ?_
        rw [clock]
        dsimp only
        rw [if_pos rst]
        decide
    | false =>
        have ready :
            (trng.clock xorF xorG ports).dataReadyReg =
              ((trng.bitCtrInc && trng.bitCtrReg == skipBits) ||
                trng.dataReadyReg) :=
          if_neg (by rw [rst]; exact Bool.false_ne_true)
        rcases sane.bits with isReady | few
        · refine .inl ?_
          rw [ready, isReady, Bool.or_true]
        · by_cases last : trng.bitCtrInc = true ∧ trng.bitCtrReg.toNat = 32
          · refine .inl ?_
            have isLast : (trng.bitCtrReg == skipBits) = true :=
              beq_iff_eq.mpr (BitVec.eq_of_toNat_eq last.2)
            rw [ready, last.1, isLast]
            rfl
          · refine .inr ?_
            rw [toNat_bitCtrReg_clock few rst]
            split
            · next counts =>
                have short : trng.bitCtrReg.toNat ≠ 32 := fun all =>
                  last ⟨counts, all⟩
                omega
            · exact few

/-- A bound on the cycles until a word is ready. -/
def remaining (trng : Trng) : Nat :=
  8196 * (32 - trng.bitCtrReg.toNat) +
    match trng.trngCtrlReg with
    | .sample1 => 4096 - trng.cycleCtrReg.toNat + 4099
    | .sample2 => 4096 - trng.cycleCtrReg.toNat + 1
    | .dataReady => 0

/-- Without a read the next word comes closer in every cycle. -/
theorem remaining_clock
    (sane : trng.Sane)
    (notReady : trng.dataReadyReg = false)
    (quiet : bitCtrRst ports = false) :
    (trng.clock xorF xorG ports).dataReadyReg = true ∨
      (trng.clock xorF xorG ports).remaining < trng.remaining := by
  have few : trng.bitCtrReg.toNat ≤ 32 := by
    rcases sane.bits with ready | few
    · rw [ready] at notReady
      cases notReady
    · exact few
  have cycles := @toNat_cycleCtrReg_clock trng xorF xorG ports sane
  have bits := @toNat_bitCtrReg_clock trng xorF xorG ports few quiet
  have small := sane.cycles
  have done := @cycleCtrDone_iff trng
  have next :
      (trng.clock xorF xorG ports).trngCtrlReg =
        match trng.trngCtrlReg with
        | .sample1 => if trng.cycleCtrDone then .sample2 else .sample1
        | .sample2 => if trng.cycleCtrDone then .dataReady else .sample2
        | .dataReady => .sample1 :=
    rfl
  rw [sampleWe] at cycles
  rw [bitCtrInc] at bits
  cases ctrl : trng.trngCtrlReg with
  | sample1 | sample2 =>
      -- the next sample is taken, or the counter goes on
      right
      rw [ctrl] at next cycles bits
      rw [remaining, remaining, next, bits, cycles, ctrl]
      cases isDone : trng.cycleCtrDone with
      | true =>
          simp
      | false =>
          have running : trng.cycleCtrReg.toNat ≠ 0x1000 := fun isLast => by
            rw [done.mpr isLast] at isDone
            cases isDone
          simp
          omega
  | dataReady =>
      -- a bit is collected; with the last one the word is ready
      by_cases last : trng.bitCtrReg.toNat = 32
      · left
        have isLast : (trng.bitCtrReg == skipBits) = true :=
          beq_iff_eq.mpr (BitVec.eq_of_toNat_eq last)
        rw [clock]
        dsimp only
        rw [if_neg (by rw [quiet]; exact Bool.false_ne_true), bitCtrInc, ctrl,
          isLast]
        rfl
      · right
        have start : trng.cycleCtrReg.toNat = 0 := by
          rw [sane.collects ctrl]
          rfl
        rw [ctrl] at next cycles bits
        rw [remaining, remaining, next, bits, cycles, ctrl]
        simp
        omega

end Trng

end Trng

section Programs

variable {bram : BlockRam} {spram : Spram}
variable {bits : WholeBitstream}
variable {whole between next : WholeFpga bram spram}
variable {first later : List BusEntry}
variable {request : BusRequest}

/-- The bus is ready for an access. -/
structure WholeFpga.Idle (whole : WholeFpga bram spram) : Prop where
  rested : whole.Rested
  notTrapped : ¬ whole.Trapped
  trng : whole.trng.Sane

/-- A run in which the CPU makes some accesses and takes the responses. -/
structure Completed
    (bits : WholeBitstream)
    (whole : WholeFpga bram spram)
    (inputs : List Pins)
    (entries : List BusEntry)
    (next : WholeFpga bram spram) : Prop where
  held : (memoryBus bram spram bits).Held whole inputs
  settled : (memoryBus bram spram bits).Settled whole inputs
  delivered : (memoryBus bram spram bits).deliveries whole inputs = entries
  run : whole.run bits inputs = next
  idle : next.Idle

/-- Some accesses can be made. -/
def Completes
    (bits : WholeBitstream)
    (whole : WholeFpga bram spram)
    (entries : List BusEntry)
    (next : WholeFpga bram spram) : Prop :=
  ∃ inputs, Completed bits whole inputs entries next

theorem Completes.append
    (completes : Completes bits whole first between)
    (completesLater : Completes bits between later next) :
    Completes bits whole (first ++ later) next := by
  obtain ⟨inputs, completed⟩ := completes
  obtain ⟨inputsLater, completedLater⟩ := completesLater
  have reached := completed.run
  subst reached
  refine ⟨inputs ++ inputsLater, ?_, ?_, ?_, ?_, completedLater.idle⟩
  · exact completed.held.append completed.settled completedLater.held
  · exact completed.settled.append completedLater.settled
  · rw [deliveries_append, completed.delivered]
    exact congrArg (first ++ ·) completedLater.delivered
  · rw [← completedLater.run]
    exact List.foldl_append ..

/-- The CPU makes an access; the other pins are at rest. -/
def BusRequest.pins (request : BusRequest) : Pins :=
  { Pins.of request.access with irq31Eoi := request.syscall }

theorem busRequest_pins (request : BusRequest) :
    request.pins.busRequest = some request :=
  rfl

/-- An access to data in the memory map does not trap. -/
theorem notTrapped_clock
    (bits : WholeBitstream)
    (notTrapped : ¬ whole.Trapped)
    (data : request.access.cpuInstr = false)
    (inside : Tk1.outsideMemory request.access.cpuAddr = false) :
    ¬ (whole.clock bits request.pins).Trapped := by
  have quiet :
      whole.bus.tk1.securityMonitor
          (whole.bus.tk1Ports (whole.cycle bits request.pins)) =
        false := by
    show (true && (Tk1.outsideMemory request.access.cpuAddr ||
      request.access.cpuInstr && _)) = false
    rw [data, inside]
    rfl
  rw [WholeFpga.Trapped, forceTrapReg_clock, quiet, Bool.false_or]
  exact notTrapped

theorem trng_clock
    (bits : WholeBitstream)
    (pins : Pins)
    (sane : whole.trng.Sane) :
    (whole.clock bits pins).trng.Sane :=
  Trng.sane_clock sane

/-- Any access to data in the memory map can be made. -/
theorem completes_access
    (documented : bram.Documented)
    (bits : WholeBitstream)
    (idle : whole.Idle)
    (data : request.access.cpuInstr = false)
    (inside : Tk1.outsideMemory request.access.cpuAddr = false) :
    ∃ response next,
      Completes bits whole [(request, response)] next ∧
        next.memories = whole.memories.after request ∧
        (decodeAddr request.access.cpuAddr = .other .trng →
          response = whole.trng.readData (request.access.corePorts true)) ∧
        (decodeAddr request.access.cpuAddr = .other .timer →
          response =
            whole.timer.readData (request.access.corePorts true)) := by
  have requested := busRequest_pins request
  have notTrapped
      {whole : WholeFpga bram spram}
      (notTrapped : ¬ whole.Trapped) :=
    notTrapped_clock bits notTrapped data inside
  have first := notTrapped idle.notTrapped
  by_cases isMemory : CodeMemory (decodeAddr request.access.cpuAddr)
  · have opened :=
      @opened_clock bram spram whole request.pins request bits documented
        idle.rested idle.notTrapped requested isMemory
    obtain ⟨-, answered⟩ := opened.clock documented requested first
    obtain ⟨rested, holds⟩ :=
      @Answered.clock bram spram _ request.pins request _ bits _ answered
        requested
    refine ⟨((whole.clock bits request.pins).answerTo bits
      request.pins).readData, _, ⟨List.replicate 3 request.pins, ?_⟩, holds,
      ?_, ?_⟩
    · refine ⟨⟨fun _ _ => rfl, fun _ _ => rfl, trivial⟩, ?_, ?_, rfl, rested,
        notTrapped (notTrapped first),
        trng_clock bits _ (trng_clock bits _ (trng_clock bits _ idle.trng))⟩
      · intro earlier last isLast
        right
        obtain ⟨rfl, -⟩ :=
          List.append_inj' (show [_, _] ++ [_] = _ from isLast) rfl
        exact answered.ready
      · refine (deliveries_of_not_ready idle.rested.bus).trans ?_
        refine (deliveries_of_not_ready opened.notReady).trans ?_
        refine (deliveries_of_ready answered.ready requested).trans ?_
        exact congrArg (fun response => [(request, response)])
          answered.response
    all_goals
      intro isCore
      rw [isCore] at isMemory
      cases isMemory
  · obtain ⟨-, answered⟩ :=
      @answered_of_not_memory bram spram whole request.pins request bits
        documented idle.rested requested idle.notTrapped isMemory
    obtain ⟨rested, holds⟩ :=
      @Answered.clock bram spram _ request.pins request _ bits _ answered
        requested
    refine ⟨(whole.answerTo bits request.pins).readData, _,
      ⟨List.replicate 2 request.pins, ?_⟩, holds, ?_, ?_⟩
    · refine ⟨⟨fun _ _ => rfl, trivial⟩, ?_, ?_, rfl, rested,
        notTrapped first, trng_clock bits _ (trng_clock bits _ idle.trng)⟩
      · intro earlier last isLast
        right
        obtain ⟨rfl, -⟩ :=
          List.append_inj' (show [_] ++ [_] = _ from isLast) rfl
        exact answered.ready
      · refine (deliveries_of_not_ready idle.rested.bus).trans ?_
        refine (deliveries_of_ready answered.ready requested).trans ?_
        exact congrArg (fun response => [(request, response)])
          answered.response
    all_goals
      intro isCore
      have selected :=
        selected_of_busRequest requested idle.rested.bus idle.notTrapped
      rw [isCore] at selected
      rw [WholeFpga.answerTo, ApplicationFpga.muxedNew,
        WholeFpga.selected_cycle, selected]
    · have cs : whole.cs request.pins .trng = true :=
        beq_iff_eq.mpr selected
      show whole.trng.readData
        (request.access.corePorts (whole.cs request.pins .trng)) = _
      rw [cs]
    · have cs : whole.cs request.pins .timer = true :=
        beq_iff_eq.mpr selected
      show whole.timer.readData
        (request.access.corePorts (whole.cs request.pins .timer)) = _
      rw [cs]

theorem Completes.nil (idle : whole.Idle) : Completes bits whole [] whole := by
  refine ⟨[], trivial, ?_, rfl, rfl, idle⟩
  intro earlier last isLast
  exact absurd isLast.symm (List.append_ne_nil_of_right_ne_nil _ nofun)

/-- Accesses to data in the memory map can be made one after the other. -/
theorem completes_accesses
    (documented : bram.Documented)
    (bits : WholeBitstream)
    (requests : List BusRequest)
    (idle : whole.Idle)
    (data : ∀ request ∈ requests, request.access.cpuInstr = false)
    (inside :
      ∀ request ∈ requests,
        Tk1.outsideMemory request.access.cpuAddr = false) :
    ∃ entries next,
      entries.map Prod.fst = requests ∧ Completes bits whole entries next := by
  induction requests generalizing whole with
  | nil => exact ⟨[], whole, rfl, .nil idle⟩
  | cons request requests inductionHypothesis =>
      obtain ⟨response, between, completes, -⟩ :=
        completes_access documented bits idle
          (data request List.mem_cons_self)
          (inside request List.mem_cons_self)
      obtain ⟨entries, next, isRequests, completesLater⟩ :=
        inductionHypothesis completes.choose_spec.idle
          (fun later member => data later (List.mem_cons_of_mem _ member))
          (fun later member => inside later (List.mem_cons_of_mem _ member))
      exact
        ⟨(request, response) :: entries, next,
          congrArg (request :: ·) isRequests, completes.append completesLater⟩

/-- A cycle in which the CPU makes no access. -/
def Pins.resting : Pins :=
  (Pins.of (.load 0)).quiet

/-- The CPU can wait for a cycle. -/
theorem completes_resting (bits : WholeBitstream) (idle : whole.Idle) :
    Completes bits whole [] (whole.clock bits .resting) := by
  refine ⟨[.resting], trivial, ?_, ?_, rfl,
    rested_clock bits (.inl rfl), ?_, trng_clock bits _ idle.trng⟩
  · intro earlier last isLast
    left
    obtain ⟨-, single⟩ :=
      List.append_inj' (show [] ++ [_] = _ from isLast) rfl
    rw [← List.singleton_inj.mp single]
    rfl
  · exact deliveries_of_not_ready idle.rested.bus
  · have quiet :
        whole.bus.tk1.securityMonitor
            (whole.bus.tk1Ports (whole.cycle bits .resting)) =
          false :=
      Bool.false_and _
    rw [WholeFpga.Trapped, forceTrapReg_clock, quiet, Bool.false_or]
    exact idle.notTrapped

/-- The CPU can wait until the TRNG has a word. -/
theorem completes_until_ready (bits : WholeBitstream) (idle : whole.Idle) :
    ∃ next : WholeFpga bram spram,
      Completes bits whole [] next ∧ next.trng.dataReadyReg = true := by
  induction remaining : whole.trng.remaining using Nat.strongRecOn
    generalizing whole with
  | _ cycles inductionHypothesis =>
      cases ready : whole.trng.dataReadyReg with
      | true => exact ⟨whole, .nil idle, ready⟩
      | false =>
          have completes := completes_resting bits idle
          have quiet :
              Trng.bitCtrRst
                  (Pins.resting.access.corePorts (whole.cs .resting .trng)) =
                false := by
            have cs : whole.cs .resting .trng = false :=
              WholeFpga.cs_of_selected_ne
                (by rw [WholeFpga.selected_eq_none (.inl rfl)]; nofun)
            rw [cs]
            rfl
          rcases Trng.remaining_clock idle.trng ready quiet with isReady | less
          · exact ⟨_, completes, isReady⟩
          · obtain ⟨next, completesLater, isReady⟩ :=
              inductionHypothesis _ (remaining ▸ less)
                completes.choose_spec.idle rfl
            exact ⟨next, completes.append completesLater, isReady⟩

/-- The CPU can wait until the timer has stopped. -/
theorem completes_until_stopped (bits : WholeBitstream) (idle : whole.Idle) :
    ∃ next : WholeFpga bram spram,
      Completes bits whole [] next ∧ next.timer.core.running = false := by
  have noWrite
      {whole : WholeFpga bram spram}
      (address : BitVec 8) :
      (Pins.resting.access.corePorts (whole.cs .resting .timer)).writes
          address =
        false := by
    have cs : whole.cs .resting .timer = false :=
      WholeFpga.cs_of_selected_ne
        (by rw [WholeFpga.selected_eq_none (.inl rfl)]; nofun)
    rw [cs]
    rfl
  have started
      (whole : WholeFpga bram spram) :
      (whole.clock bits .resting).timer.startReg = false := by
    show (whole.timer.clock (Pins.resting.access.corePorts
      (whole.cs .resting .timer))).startReg = false
    rw [Timer.clock]
    dsimp only
    rw [noWrite, Bool.false_and]
  -- a start that was asked for takes a cycle to take effect
  suffices counts :
      ∀ (cycles : Nat) (whole : WholeFpga bram spram),
        whole.Idle →
          whole.timer.startReg = false →
            whole.timer.core.left whole.timer.prescalerReg = cycles →
              ∃ next : WholeFpga bram spram,
                Completes bits whole [] next ∧
                  next.timer.core.running = false by
    have completes := completes_resting bits idle
    obtain ⟨next, completesLater, stopped⟩ :=
      counts _ _ completes.choose_spec.idle (started whole) rfl
    exact ⟨next, completes.append completesLater, stopped⟩
  intro cycles
  induction cycles with
  | zero =>
      intro whole idle _ left
      exact ⟨whole, .nil idle, (TimerCore.left_eq_zero _ _).mp left⟩
  | succ cycles inductionHypothesis =>
      intro whole idle notStarted left
      have completes := completes_resting bits idle
      have prescaler :
          (whole.clock bits .resting).timer.prescalerReg =
            whole.timer.prescalerReg := by
        show (whole.timer.clock (Pins.resting.access.corePorts
          (whole.cs .resting .timer))).prescalerReg = _
        rw [Timer.clock]
        dsimp only
        rw [noWrite, Bool.false_and, if_neg Bool.false_ne_true]
      have counted :=
        TimerCore.left_clock whole.timer.core whole.timer.prescalerReg
          whole.timer.timerReg whole.timer.startReg whole.timer.stopReg
      rw [left, if_neg (Nat.succ_ne_zero cycles)] at counted
      cases stop : whole.timer.stopReg with
      | true =>
          rw [stop, if_pos rfl] at counted
          refine ⟨_, completes, ?_⟩
          refine (TimerCore.left_eq_zero _ whole.timer.prescalerReg).mp ?_
          show (whole.timer.core.clock whole.timer.prescalerReg
            whole.timer.timerReg whole.timer.startReg
            whole.timer.stopReg).left _ = 0
          rw [stop]
          exact counted
      | false =>
          rw [stop, if_neg Bool.false_ne_true, Nat.add_sub_cancel] at counted
          obtain ⟨next, completesLater, stopped⟩ :=
            inductionHypothesis _ completes.choose_spec.idle (started whole)
              (by
                rw [prescaler]
                show (whole.timer.core.clock whole.timer.prescalerReg
                  whole.timer.timerReg whole.timer.startReg
                  whole.timer.stopReg).left _ = cycles
                rw [stop]
                exact counted)
          exact ⟨next, completes.append completesLater, stopped⟩

end Programs

end TKey.Fpga
