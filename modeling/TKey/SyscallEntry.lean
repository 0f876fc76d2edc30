import TKey.Assembly

namespace TKey

open Rv32

/-!
# The way into the firmware and back

An app enters the firmware through an interrupt: `irq_handler` keeps the
stack pointer and the return address of the app in `FW_RAM`, calls
`syscall_handler`, checks that it returns to app RAM and clears the registers
that the firmware has used.  `syscall`, which the app calls, saves its
registers below its stack pointer.
-/

section Definitions

variable {World : Type}

/-- What `syscall_handler` is called with, from an interrupted app. -/
structure Entered
    (program : Program Symbol World)
    (hart : Hart World)
    (before : Arch World) : Prop where
  /-- The number and the arguments of the call. -/
  args : ∀ reg, reg ∈ ([10, 11, 12, 13] : List Reg) →
    before.get reg = hart.arch.get reg
  stack : before.get sp = program.symbol .estack
  mem :
    ∀ word,
      word ≠ wordAddr (program.symbol .irqRetAddr) →
        word ≠ wordAddr (program.symbol .appSp) →
          before.mem word = hart.arch.mem word
  irqRetAddr :
    before.mem (wordAddr (program.symbol .irqRetAddr)) = hart.returnAddress
  appSp :
    before.mem (wordAddr (program.symbol .appSp)) = hart.arch.get sp
  irqMask : before.irqMask = hart.arch.irqMask
  irqPending : before.irqPending = false
  irqActive : before.irqActive = true
  world : before.world = hart.arch.world

/-- What `irq_handler` relies on of a function in C. -/
structure ServesCall
    (program : Program Symbol World)
    (before after : Arch World) : Prop where
  irqRetAddr :
    after.mem (wordAddr (program.symbol .irqRetAddr)) =
      before.mem (wordAddr (program.symbol .irqRetAddr))
  appSp :
    after.mem (wordAddr (program.symbol .appSp)) =
      before.mem (wordAddr (program.symbol .appSp))
  irqMask : after.irqMask = before.irqMask
  irqPending : after.irqPending = before.irqPending
  irqActive : after.irqActive = before.irqActive

/-- An interrupted app goes on after the call. -/
structure Resumed
    (hart : Hart World)
    (after : Arch World)
    (hart' : Hart World) : Prop where
  pc : hart'.pc = hart.pc
  stack : hart'.arch.get sp = hart.arch.get sp
  returnAddress : hart'.arch.get 3 = hart.returnAddress
  result : hart'.arch.get a0 = after.get a0
  cleared :
    ∀ reg, reg ∉ ([sp, 3, a0] : List Reg) → hart'.arch.get reg = 0
  mem : hart'.arch.mem = after.mem
  world : hart'.arch.world = after.world
  irqMask : hart'.arch.irqMask = hart.arch.irqMask
  irqPending : hart'.arch.irqPending = false
  irqActive : hart'.arch.irqActive = false

end Definitions

section Handler

variable {World : Type} {program : Program Symbol World}

/-- The variables of `start.S` are memory. -/
structure VariableCells (program : Program Symbol World) : Prop where
  irqRetAddr :
    program.trigger (wordAddr (program.symbol .irqRetAddr)) = false
  appSp : program.trigger (wordAddr (program.symbol .appSp)) = false

theorem LinkedFirmware.variableCells (linked : LinkedFirmware program) :
    VariableCells program where
  irqRetAddr := linked.trigger ▸ not_isTrigger_of_inFwRam linked.irqRetAddr
  appSp := linked.trigger ▸ not_isTrigger_of_inFwRam linked.appSp

/-- The stack pointer and the return address are kept in `FW_RAM`. -/
theorem effects_irqEnterInstrs
    (cells : VariableCells program)
    (arch : Arch World) :
    effects program irqEnterInstrs arch =
      { arch with
        regs := fun reg =>
          if reg = sp then
            program.symbol .estack
          else if reg = t0 then
            program.symbol .appSp
          else
            arch.regs reg
        mem := fun word =>
          if word = wordAddr (program.symbol .appSp) then
            arch.get sp
          else if word = wordAddr (program.symbol .irqRetAddr) then
            arch.get 3
          else
            arch.mem word } := by
  simp [irqEnterInstrs, Instr.effect, Arch.store_of_memory, cells.irqRetAddr,
    cells.appSp, Arch.set, Arch.get, t0, sp]
  funext reg
  by_cases isT0 : reg = 5 <;> simp [isT0]

/-- Where `irq_source_ok` is, cut behind the call. -/
theorem LinkedFirmware.sourceOk (linked : LinkedFirmware program) :
    program.Placed (program.symbol .irqSourceOk)
      ((lines irqEnterInstrs ++ [.instr (.call .syscallHandler)]) ++
        (lines irqLeaveInstrs ++ x3CheckText)) :=
  Program.Placed.label
    (lines irqSourceInstrs ++
      [.instr (.beq 4 t4 .irqSourceOk), .label .unexpectedIrqSource,
        .instr .illegal, .instr (.j .unexpectedIrqSource)])
    linked.irqHandler

/-- The interrupt is taken, and `syscall_handler` is called. -/
theorem runs_entered
    (linked : LinkedFirmware program)
    {hart : Hart World}
    (interrupted : hart.Interrupted program) :
    ∃ called,
      Runs program hart called ∧
        called.pc = program.symbol .syscallHandler ∧
          Entered program hart called.arch ∧
            called.arch.get ra =
              program.after (program.symbol .irqSourceOk)
                (lines irqEnterInstrs ++
                  [.instr (.call .syscallHandler)]) := by
  have first : hart.step program = some (hart.interrupt program) :=
    if_pos interrupted
  have text :
      program.Placed (hart.interrupt program).pc
        (lines irqSourceInstrs ++ .instr (.beq 4 t4 .irqSourceOk) :: _) :=
    linked.vector.symm ▸ linked.irqHandler
  -- The source of the interrupt is line 31.
  obtain ⟨sourceOk, toSourceOk, sourceOkArch, sourceOkPc⟩ :=
    runs_block text (by simp [irqSourceInstrs, Instr.straight]) (.inl rfl)
      (by simp)
  have isSource :
      (effects program irqSourceInstrs (hart.interrupt program).arch).get 4 =
        (effects program irqSourceInstrs (hart.interrupt program).arch).get
          t4 := by
    simp [irqSourceInstrs, Instr.effect, Hart.interrupt, linked.line,
      Arch.get, Arch.set, t4]
  rw [Instr.goes, if_pos isSource] at sourceOkPc
  have enterText :
      program.Placed sourceOk.pc
        (lines irqEnterInstrs ++ .instr (.call .syscallHandler) :: _) :=
    sourceOkPc ▸ linked.sourceOk
  have sourceOkIs :
      sourceOk.arch =
        (hart.interrupt program).arch.set t4 (1#32 <<< 31) := by
    rw [sourceOkArch]
    rfl
  have enteredQuiet :
      (effects program irqEnterInstrs sourceOk.arch).Quiet := by
    rw [effects_irqEnterInstrs linked.variableCells, sourceOkIs]
    exact .inl rfl
  obtain ⟨called, toCalled, calledArch, calledPc⟩ :=
    runs_block enterText (by simp [irqEnterInstrs, Instr.straight])
      enteredQuiet (by simp)
  rw [effects_irqEnterInstrs linked.variableCells, sourceOkIs] at calledArch
  refine
    ⟨called, .head first (toSourceOk.trans toCalled), calledPc, ?_, ?_⟩
  · rw [calledArch]
    constructor
    case args =>
      intro reg isArg
      simp only [List.mem_cons, List.not_mem_nil, or_false] at isArg
      rcases isArg with rfl | rfl | rfl | rfl <;>
        simp [Instr.effect, Hart.interrupt, Arch.get, Arch.set, sp, t0, t4]
    case mem =>
      intro word notRet notSp
      simp [Instr.effect, Hart.interrupt, Arch.set, notRet, notSp]
    case irqRetAddr =>
      simp [Instr.effect, Hart.interrupt, Arch.get, Arch.set, linked.apart,
        t4]
    case stack =>
      simp [Instr.effect, Hart.interrupt, Arch.get, Arch.set, sp]
    case appSp =>
      simp [Instr.effect, Hart.interrupt, Arch.get, Arch.set, sp, t4]
    all_goals rfl
  · rw [calledArch, ← sourceOkPc]
    exact Arch.get_set_self _ (by decide) _

/-- The stack pointer and the return address of the app come back. -/
theorem effects_irqLeaveInstrs (arch : Arch World) :
    effects program irqLeaveInstrs arch =
      { arch with
        regs := fun reg =>
          if reg = t0 then
            tk1RamBase
          else if reg = 3 then
            arch.mem (wordAddr (program.symbol .irqRetAddr))
          else if reg = sp then
            arch.mem (wordAddr (program.symbol .appSp))
          else
            arch.regs reg } := by
  simp [irqLeaveInstrs, Instr.effect, Arch.set, Arch.get, Arch.load, t0, sp]
  funext reg
  by_cases isT0 : reg = 5 <;> simp [isT0]

/-- The checks of the return address are signed comparisons. -/
theorem slt_iff_inAppRam (address : Word) :
    (¬ address.slt tk1RamBase = true ∧ address.slt tk1RamEnd = true) ↔
      InAppRam address := by
  have below := address.isLt
  have base : tk1RamBase.toInt = 0x40000000 := rfl
  have limit : tk1RamEnd.toInt = 0x40020000 := rfl
  rw [BitVec.slt_iff_toInt_lt, BitVec.slt_iff_toInt_lt, base, limit,
    BitVec.toInt_eq_toNat_cond, InAppRam]
  split <;> omega

/-- Only a return address in app RAM passes the checks. -/
theorem runs_checked
    {hart : Hart World}
    (text : program.Placed hart.pc x3CheckText)
    (active : hart.arch.irqActive = true)
    (atBase : hart.arch.get t0 = tk1RamBase) :
    ∃ checked value,
      Runs program hart checked ∧
        checked.arch = hart.arch.set t0 value ∧
          checked.pc =
            program.symbol
              (if InAppRam (hart.arch.get 3) then .x3Valid else .x3Invalid) := by
  have range := slt_iff_inAppRam (hart.arch.get 3)
  obtain ⟨low, toLow, lowArch, lowPc⟩ := text.runs (.inl active) (by simp)
  simp only [Instr.goes, atBase] at lowPc
  by_cases below : (hart.arch.get 3).slt tk1RamBase = true
  · have outside : ¬ InAppRam (hart.arch.get 3) :=
      fun inside => (range.mpr inside).1 below
    rw [if_pos below] at lowPc
    refine ⟨low, tk1RamBase, toLow, ?_, ?_⟩
    · rw [lowArch, ← atBase, Arch.set_get_self _ (by decide)]
      rfl
    · rw [lowPc, if_neg outside]
  · rw [if_neg below] at lowPc
    have limitText :
        program.Placed low.pc
          (lines [.li t0 tk1RamEnd] ++ .instr (.bge 3 t0 .x3Invalid) :: _) :=
      lowPc ▸ Program.Placed.append text
    have lowActive : low.arch.irqActive = true := by
      rw [lowArch]
      exact active
    obtain ⟨limit, toLimit, limitArch, limitPc, _⟩ :=
      runs_straight limitText (by simp [Instr.straight]) (.inl lowActive)
    have limitIs : limit.arch = hart.arch.set t0 tk1RamEnd := by
      rw [limitArch, lowArch]
      rfl
    have highText := limitText.append
    rw [← limitPc] at highText
    obtain ⟨high, toHigh, highArch, highPc⟩ :=
      highText.runs (.inl (limitIs ▸ active)) (by simp)
    have atLimit : limit.arch.get t0 = tk1RamEnd := by
      rw [limitIs, Arch.get_set_self _ (by decide)]
    have address : limit.arch.get 3 = hart.arch.get 3 := by
      rw [limitIs, Arch.get_set_of_ne _ (by decide)]
    simp only [Instr.goes, atLimit, address] at highPc
    by_cases inside : InAppRam (hart.arch.get 3)
    · rw [if_pos (range.mpr inside).2] at highPc
      have jumpText :
          program.Placed high.pc (.instr (.j .x3Valid) :: x3Text) :=
        highPc ▸ Program.Placed.append highText
      obtain ⟨valid, toValid, validArch, validPc⟩ :=
        jumpText.runs (.inl (by rw [highArch, limitIs]; exact active))
          (by simp)
      refine
        ⟨valid, tk1RamEnd,
          ((toLow.trans toLimit).trans toHigh).trans toValid, ?_, ?_⟩
      · rw [validArch, highArch, limitIs]
        rfl
      · rw [validPc, if_pos inside]
        rfl
    · have above : ¬ (hart.arch.get 3).slt tk1RamEnd = true :=
        fun less => inside (range.mp ⟨below, less⟩)
      rw [if_neg above] at highPc
      refine
        ⟨high, tk1RamEnd, (toLow.trans toLimit).trans toHigh, ?_, ?_⟩
      · rw [highArch, limitIs]
        rfl
      · rw [highPc, if_neg inside]

/-- The registers that `irq_handler` clears are all but three. -/
theorem mem_clearedRegs (reg : Reg) :
    reg ∈ clearedRegs ↔ reg ≠ 0 ∧ reg ∉ ([sp, 3, a0] : List Reg) := by
  revert reg
  decide

/-- After the call the return address is checked. -/
theorem runs_left
    (linked : LinkedFirmware program)
    {hart : Hart World}
    {before after : Arch World}
    (entered : Entered program hart before)
    (serves : ServesCall program before after)
    {returned : Hart World}
    (atReturn :
      returned.pc =
        program.after (program.symbol .irqSourceOk)
          (lines irqEnterInstrs ++ [.instr (.call .syscallHandler)]))
    (isAfter : returned.arch = after) :
    ∃ checked value,
      Runs program returned checked ∧
        checked.arch =
            ((after.set sp (hart.arch.get sp)).set 3
              hart.returnAddress).set t0 value ∧
          checked.pc =
            program.symbol
              (if InAppRam hart.returnAddress then .x3Valid else .x3Invalid) := by
  have leaveText := linked.sourceOk.append
  rw [← atReturn] at leaveText
  have active : after.irqActive = true :=
    serves.irqActive.trans entered.irqActive
  have leaves : effects program irqLeaveInstrs returned.arch =
      ((after.set sp (hart.arch.get sp)).set 3 hart.returnAddress).set t0
        tk1RamBase := by
    rw [isAfter, effects_irqLeaveInstrs, serves.irqRetAddr, serves.appSp,
      entered.irqRetAddr, entered.appSp]
    rfl
  obtain ⟨left, toLeft, leftArch, leftPc, _⟩ :=
    runs_straight leaveText (by simp [irqLeaveInstrs, Instr.straight])
      (by rw [leaves]; exact .inl active)
  have checkText := leaveText.append
  rw [← leftPc] at checkText
  rw [leaves] at leftArch
  have atAddress : left.arch.get 3 = hart.returnAddress := by
    rw [leftArch, Arch.get_set_of_ne _ (by decide),
      Arch.get_set_self _ (by decide)]
  obtain ⟨checked, value, toChecked, checkedArch, checkedPc⟩ :=
    runs_checked checkText (by rw [leftArch]; exact active)
      (by rw [leftArch, Arch.get_set_self _ (by decide)])
  refine ⟨checked, value, toLeft.trans toChecked, ?_, ?_⟩
  · rw [checkedArch, leftArch, Arch.set_set]
  · rw [checkedPc, atAddress]

/-- The text before `x3_invalid`. -/
private def beforeX3 : List (Line Symbol) :=
  lines irqSourceInstrs ++
    [.instr (.beq 4 t4 .irqSourceOk), .label .unexpectedIrqSource,
      .instr .illegal, .instr (.j .unexpectedIrqSource),
      .label .irqSourceOk] ++
    lines irqEnterInstrs ++ [.instr (.call .syscallHandler)] ++
    lines irqLeaveInstrs ++
    [.instr (.blt 3 t0 .x3Invalid), .instr (.li t0 tk1RamEnd),
      .instr (.bge 3 t0 .x3Invalid), .instr (.j .x3Valid)]

theorem LinkedFirmware.x3Invalid (linked : LinkedFirmware program) :
    program.Placed (program.symbol .x3Invalid) x3Text.tail :=
  Program.Placed.label beforeX3 linked.irqHandler

theorem LinkedFirmware.x3Valid (linked : LinkedFirmware program) :
    program.Placed (program.symbol .x3Valid)
      (lines (clearedRegs.map fun reg => .mv reg 0) ++ [.instr .retirq]) :=
  Program.Placed.label
    (beforeX3 ++
      [.label .x3Invalid, .instr .illegal, .instr (.j .x3Invalid)])
    linked.irqHandler

/-- The registers are cleared, and the app goes on. -/
theorem runs_resumed
    (linked : LinkedFirmware program)
    {hart : Hart World}
    (atEven : even hart.pc = hart.pc)
    {before after : Arch World}
    (entered : Entered program hart before)
    (serves : ServesCall program before after)
    {checked : Hart World}
    (atValid : checked.pc = program.symbol .x3Valid)
    {value : Word}
    (checkedArch :
      checked.arch =
        ((after.set sp (hart.arch.get sp)).set 3 hart.returnAddress).set t0
          value) :
    ∃ hart', Runs program checked hart' ∧ Resumed hart after hart' := by
  have text := linked.x3Valid
  rw [← atValid] at text
  have active : checked.arch.irqActive = true := by
    rw [checkedArch]
    exact serves.irqActive.trans entered.irqActive
  have clears :
      effects program (clearedRegs.map fun reg => .mv reg 0) checked.arch =
        { checked.arch with
          regs := fun reg =>
            if reg ∈ clearedRegs then 0 else checked.arch.regs reg } :=
    effects_zero (fun _ _ => rfl) checked.arch
  obtain ⟨cleared, toCleared, clearedArch, clearedPc, _⟩ :=
    runs_straight text (by simp [Instr.straight])
      (by rw [clears]; exact .inl active)
  rw [clears] at clearedArch
  have retirqText := text.append
  rw [← clearedPc] at retirqText
  obtain ⟨hart', toHart', arch, pc⟩ :=
    retirqText.runs (by rw [clearedArch]; exact .inl active) (by simp)
  have values (reg : Reg) :
      hart'.arch.get reg =
        if reg = 0 ∨ reg ∈ clearedRegs then 0 else checked.arch.get reg := by
    rw [arch, clearedArch]
    simp only [Instr.effect, Arch.get]
    by_cases isZero : reg = 0
    · rw [if_pos isZero, if_pos (.inl isZero)]
    · simp only [isZero, if_false, false_or]
  have kept {reg : Reg} (notZero : reg ≠ 0) (isKept : reg ∉ clearedRegs) :
      hart'.arch.get reg = checked.arch.get reg := by
    rw [values, if_neg (by simp [notZero, isKept])]
  refine ⟨hart', toCleared.trans toHart', ?_⟩
  constructor
  case pc =>
    rw [pc, clearedArch]
    have address : checked.arch.get 3 = hart.returnAddress := by
      rw [checkedArch, Arch.get_set_of_ne _ (by decide),
        Arch.get_set_self _ (by decide)]
    have unchanged : checked.arch.regs 3 = checked.arch.get 3 := rfl
    simp only [Instr.goes, Arch.get]
    rw [if_neg (by decide), if_neg (by decide), unchanged, address,
      even_returnAddress atEven]
  case stack =>
    rw [kept (by decide) (by decide), checkedArch,
      Arch.get_set_of_ne _ (by decide), Arch.get_set_of_ne _ (by decide),
      Arch.get_set_self _ (by decide)]
  case returnAddress =>
    rw [kept (by decide) (by decide), checkedArch,
      Arch.get_set_of_ne _ (by decide), Arch.get_set_self _ (by decide)]
  case result =>
    rw [kept (by decide) (by decide), checkedArch,
      Arch.get_set_of_ne _ (by decide), Arch.get_set_of_ne _ (by decide),
      Arch.get_set_of_ne _ (by decide)]
  case cleared =>
    intro reg isCleared
    rw [values, if_pos]
    by_cases isZero : reg = 0
    · exact .inl isZero
    · exact .inr ((mem_clearedRegs reg).mpr ⟨isZero, isCleared⟩)
  case mem =>
    rw [arch, clearedArch, checkedArch]
    rfl
  case world =>
    rw [arch, clearedArch, checkedArch]
    rfl
  case irqMask =>
    rw [arch, clearedArch, checkedArch]
    exact serves.irqMask.trans entered.irqMask
  case irqPending =>
    rw [arch, clearedArch, checkedArch]
    exact serves.irqPending.trans entered.irqPending
  case irqActive =>
    rw [arch, clearedArch]
    rfl

/-- `syscall_handler` returns, and the return address is checked. -/
theorem runs_called
    (linked : LinkedFirmware program)
    {function : Arch World → Option (Arch World)}
    (isHandler :
      program.foreign (program.symbol .syscallHandler) = some function)
    {hart called : Hart World}
    (calledPc : called.pc = program.symbol .syscallHandler)
    (entered : Entered program hart called.arch)
    (retAddress :
      called.arch.get ra =
        program.after (program.symbol .irqSourceOk)
          (lines irqEnterInstrs ++ [.instr (.call .syscallHandler)]))
    {after : Arch World}
    (returns : function called.arch = some after)
    (serves : ServesCall program called.arch after) :
    ∃ checked value,
      Runs program called checked ∧
        checked.arch =
            ((after.set sp (hart.arch.get sp)).set 3
              hart.returnAddress).set t0 value ∧
          checked.pc =
            program.symbol
              (if InAppRam hart.returnAddress then .x3Valid else .x3Invalid) := by
  obtain ⟨returned, toReturned, isAfter, atReturn⟩ :=
    runs_foreign (calledPc ▸ isHandler) (.inl entered.irqActive) returns
  have isEven := linked.sourceOk.append.even
  rw [retAddress, isEven] at atReturn
  obtain ⟨checked, value, toChecked, checkedArch, checkedPc⟩ :=
    runs_left linked entered serves atReturn isAfter
  exact
    ⟨checked, value, toReturned.trans toChecked, checkedArch, checkedPc⟩

end Handler

section Results

variable {World : Type} {program : Program Symbol World}

theorem inAppRam_returnAddress
    {hart : Hart World}
    (atEven : even hart.pc = hart.pc) :
    InAppRam hart.returnAddress ↔ InAppRam hart.pc := by
  have noBit : hart.pc &&& 1#32 = 0#32 := by
    rw [← atEven, even, BitVec.and_assoc]
    exact BitVec.and_zero
  have parity : hart.pc.toNat % 2 = 0 := by
    have value := congrArg BitVec.toNat noBit
    rwa [BitVec.toNat_and, BitVec.toNat_ofNat, Nat.one_mod_two_pow (by decide),
      Nat.and_one_is_mod, BitVec.toNat_ofNat] at value
  have below := hart.pc.isLt
  rw [Hart.returnAddress]
  cases hart.latchedCompr with
  | false => rw [if_neg Bool.false_ne_true, BitVec.or_zero]
  | true =>
      rw [if_pos rfl, ← BitVec.add_eq_or_of_and_eq_zero _ _ noBit, InAppRam,
        InAppRam, BitVec.toNat_add, BitVec.toNat_ofNat]
      omega

/-- The app does not get control back; the hart ends at an illegal instruction. -/
structure Trapped
    (program : Program Symbol World)
    (hart stopped : Hart World) : Prop where
  runs : Runs program hart stopped
  stuck : stopped.step program = none
  irqActive : stopped.arch.irqActive = true
  /-- There is no other way to go. -/
  always : ∀ later, Runs program hart later → Runs program later stopped

/-- Code in app RAM goes on when the handler has returned. -/
theorem runs_goesOn
    (linked : LinkedFirmware program)
    {function : Arch World → Option (Arch World)}
    (isHandler :
      program.foreign (program.symbol .syscallHandler) = some function)
    {hart called : Hart World}
    (atEven : even hart.pc = hart.pc)
    (inside : InAppRam hart.pc)
    (calledPc : called.pc = program.symbol .syscallHandler)
    (entered : Entered program hart called.arch)
    (retAddress :
      called.arch.get ra =
        program.after (program.symbol .irqSourceOk)
          (lines irqEnterInstrs ++ [.instr (.call .syscallHandler)]))
    {after : Arch World}
    (returns : function called.arch = some after)
    (serves : ServesCall program called.arch after) :
    ∃ hart', Runs program called hart' ∧ Resumed hart after hart' := by
  obtain ⟨checked, value, toChecked, checkedArch, checkedPc⟩ :=
    runs_called linked isHandler calledPc entered retAddress returns serves
  rw [if_pos ((inAppRam_returnAddress atEven).mpr inside)] at checkedPc
  obtain ⟨hart', toHart', resumed⟩ :=
    runs_resumed linked atEven entered serves checkedPc checkedArch
  exact ⟨hart', toChecked.trans toHart', resumed⟩

/-- Code anywhere else has come to its end then. -/
theorem runs_trapped
    (linked : LinkedFirmware program)
    {function : Arch World → Option (Arch World)}
    (isHandler :
      program.foreign (program.symbol .syscallHandler) = some function)
    {hart called : Hart World}
    (atEven : even hart.pc = hart.pc)
    (outside : ¬ InAppRam hart.pc)
    (toCalled : Runs program hart called)
    (calledPc : called.pc = program.symbol .syscallHandler)
    (entered : Entered program hart called.arch)
    (retAddress :
      called.arch.get ra =
        program.after (program.symbol .irqSourceOk)
          (lines irqEnterInstrs ++ [.instr (.call .syscallHandler)]))
    {after : Arch World}
    (returns : function called.arch = some after)
    (serves : ServesCall program called.arch after) :
    ∃ stopped, Trapped program hart stopped := by
  obtain ⟨checked, value, toChecked, checkedArch, checkedPc⟩ :=
    runs_called linked isHandler calledPc entered retAddress returns serves
  rw [if_neg (mt (inAppRam_returnAddress atEven).mp outside)] at checkedPc
  have runs := toCalled.trans toChecked
  have active : checked.arch.irqActive = true := by
    rw [checkedArch]
    exact serves.irqActive.trans entered.irqActive
  have text : program.Placed checked.pc (.instr .illegal :: _) :=
    checkedPc ▸ linked.x3Invalid
  have stuck :=
    text.step_illegal (Arch.Quiet.not_interrupted (.inl active))
  exact
    ⟨checked, runs, stuck, active, fun _ later => Runs.to_stopped runs stuck later⟩

/--
Whatever code raises the interrupt, `syscall_handler` is called with its
arguments.  When that returns, code in app RAM goes on with the result, its
stack pointer and its return address, and zero in all other registers; other
code never goes on.
-/
theorem irq_confined
    (linked : LinkedFirmware program)
    {function : Arch World → Option (Arch World)}
    (isHandler :
      program.foreign (program.symbol .syscallHandler) = some function)
    {hart : Hart World}
    (interrupted : hart.Interrupted program)
    (atEven : even hart.pc = hart.pc) :
    ∃ before,
      Entered program hart before ∧
        ∀ after,
          function before = some after →
            ServesCall program before after →
              if InAppRam hart.pc then
                ∃ hart', Runs program hart hart' ∧ Resumed hart after hart'
              else
                ∃ stopped, Trapped program hart stopped := by
  obtain ⟨called, toCalled, calledPc, entered, retAddress⟩ :=
    runs_entered linked interrupted
  refine ⟨called.arch, entered, fun after returns serves => ?_⟩
  by_cases inside : InAppRam hart.pc
  · rw [if_pos inside]
    obtain ⟨hart', toHart', resumed⟩ :=
      runs_goesOn linked isHandler atEven inside calledPc entered retAddress
        returns serves
    exact ⟨hart', toCalled.trans toHart', resumed⟩
  · rw [if_neg inside]
    exact
      runs_trapped linked isHandler atEven inside toCalled calledPc entered
        retAddress returns serves

end Results

section Apps

variable {World : Type} {program : Program Symbol World}

/-- The stack has room for the registers of the app. -/
def HasFrame (stack : Word) : Prop :=
  0x40000080 ≤ stack.toNat ∧ stack.toNat ≤ 0x40020000

instance (stack : Word) : Decidable (HasFrame stack) :=
  inferInstanceAs (Decidable (_ ∧ _))

/-- An app that can call `syscall`. -/
structure Running (program : Program Symbol World) (hart : Hart World) :
    Prop where
  pc : hart.pc = program.symbol .syscall
  stack : HasFrame (hart.arch.get sp)
  irqMask : hart.arch.irqMask.getLsbD 31 = false
  irqPending : hart.arch.irqPending = false
  irqActive : hart.arch.irqActive = false

/-- What `syscall_handler` is called with when the app calls `syscall`. -/
structure CalledBy
    (program : Program Symbol World)
    (hart : Hart World)
    (before : Arch World) : Prop where
  args : ∀ reg, reg ∈ ([10, 11, 12, 13] : List Reg) →
    before.get reg = hart.arch.get reg
  mem :
    ∀ word,
      word ≠ wordAddr (program.symbol .irqRetAddr) →
        word ≠ wordAddr (program.symbol .appSp) →
          before.mem word =
            framed (hart.arch.get sp - 128) savedRegs hart.arch.get
              hart.arch.mem word
  world : before.world = hart.arch.world

/-- The app goes on behind the call of `syscall`. -/
structure Returned
    (hart : Hart World)
    (after : Arch World)
    (hart' : Hart World) : Prop where
  pc : hart'.pc = even (hart.arch.get ra)
  result : hart'.arch.get a0 = after.get a0
  regs : ∀ reg, reg ≠ a0 → hart'.arch.get reg = hart.arch.get reg
  mem : hart'.arch.mem = after.mem
  world : hart'.arch.world = after.world
  irqMask : hart'.arch.irqMask = hart.arch.irqMask
  irqPending : hart'.arch.irqPending = false
  irqActive : hart'.arch.irqActive = false

/-- A slot of the frame is in app RAM. -/
theorem slot_inAppRam
    {stack : Word}
    (frame : HasFrame stack)
    (reg : Reg) :
    InAppRam (stack - 128 + words reg.val) := by
  obtain ⟨low, high⟩ := frame
  have small := reg.isLt
  have below := stack.isLt
  have room : (128 : Word).toNat = 128 := rfl
  rw [InAppRam, words, BitVec.toNat_add, BitVec.toNat_sub, BitVec.toNat_ofNat,
    room]
  omega

/-- Words of app RAM are none of `FW_RAM`. -/
theorem wordAddr_ne
    {address cell : Word}
    (inside : InAppRam address)
    (isVariable : InFwRam cell) :
    wordAddr address ≠ wordAddr cell := by
  obtain ⟨low, high⟩ := inside
  obtain ⟨low', high'⟩ := isVariable
  intro same
  have value := congrArg BitVec.toNat same
  simp only [wordAddr, BitVec.extractLsb'_toNat, Nat.shiftRight_eq_div_pow]
    at value
  omega

/-- The registers are saved. -/
theorem effects_syscallEnterInstrs
    (linked : LinkedFirmware program)
    {arch : Arch World}
    (frame : HasFrame (arch.get sp)) :
    effects program syscallEnterInstrs arch =
      { (arch.set sp (arch.get sp - 128)).set t1 0xe1000000 with
        mem :=
          framed (arch.get sp - 128) savedRegs
            (arch.set sp (arch.get sp - 128)).get arch.mem } := by
  have base : (arch.set sp (arch.get sp - 128)).get sp = arch.get sp - 128 :=
    Arch.get_set_self _ (by decide) _
  have memory (reg : Reg) :
      program.trigger
          (slot ((arch.set sp (arch.get sp - 128)).get sp) reg) = false := by
    rw [base, linked.trigger]
    exact not_isTrigger_of_inAppRam (slot_inAppRam frame reg)
  rw [syscallEnterInstrs, effects_cons, effects_append, Instr.effect,
    ← BitVec.sub_eq_add_neg, effects_saveText fun reg _ => memory reg, base]
  rfl

/-- The registers come back. -/
theorem effects_syscallLeaveInstrs (arch : Arch World) :
    effects program syscallLeaveInstrs arch =
      { arch with
        regs := fun reg =>
          if reg = sp then
            arch.get sp + 128
          else if reg ∈ savedRegs then
            arch.mem (slot (arch.get sp) reg)
          else
            arch.regs reg } := by
  rw [syscallLeaveInstrs, effects_append, effects_loadText (by decide)]
  rfl

/-- All registers are saved but the stack pointer and the one for the result. -/
theorem mem_savedRegs (reg : Reg) :
    reg ∈ savedRegs ↔ reg ≠ sp ∧ reg ≠ a0 := by
  revert reg
  decide

/-- The app saves its registers and triggers the interrupt. -/
theorem runs_triggered
    (linked : LinkedFirmware program)
    (app : LinkedSyscall program)
    {hart : Hart World}
    (running : Running program hart) :
    ∃ triggered,
      Runs program hart triggered ∧
        triggered.Interrupted program ∧
          triggered.pc =
              program.after (program.symbol .syscall)
                (lines syscallEnterInstrs ++ [.instr (.sw 0 0 t1)]) ∧
            triggered.arch =
              { (hart.arch.set sp (hart.arch.get sp - 128)).set t1
                  0xe1000000 with
                irqPending := true
                mem :=
                  framed (hart.arch.get sp - 128) savedRegs
                    (hart.arch.set sp (hart.arch.get sp - 128)).get
                    hart.arch.mem } := by
  have saves := effects_syscallEnterInstrs linked running.stack
  have text :
      program.Placed hart.pc
        (lines syscallEnterInstrs ++ .instr (.sw 0 0 t1) :: _) :=
    running.pc.symm ▸ app.syscall
  have straight :
      ∀ instr, instr ∈ syscallEnterInstrs → instr.straight = true := by
    decide
  obtain ⟨saved, toSaved, savedArch, savedPc, _⟩ :=
    runs_straight text straight (by rw [saves]; exact .inr running.irqPending)
  rw [saves] at savedArch
  have storeText := text.append
  rw [← savedPc] at storeText
  have quiet : saved.arch.Quiet := by
    rw [savedArch]
    exact .inr running.irqPending
  obtain ⟨compressed, steps⟩ :=
    storeText.step quiet.not_interrupted (by simp)
  have address : saved.arch.get t1 + 0 = 0xe1000000 := by
    rw [savedArch]
    rfl
  have triggers :
      saved.arch.store program (saved.arch.get t1 + 0) (saved.arch.get 0) =
        { saved.arch with irqPending := true } := by
    rw [address]
    exact Arch.store_of_trigger _ _ (by rw [linked.trigger]; decide) _
  refine ⟨_, .tail toSaved steps, ?_, ?_, ?_⟩
  · simp only [Hart.Interrupted, Instr.effect, triggers, linked.line]
    rw [savedArch]
    exact
      ⟨trivial, running.irqActive, running.irqActive, running.irqMask⟩
  · rw [Program.after_append, ← running.pc, ← savedPc]
    rfl
  · simp only [Instr.effect, triggers]
    rw [savedArch]

/-- The text behind the trigger. -/
theorem LinkedSyscall.leaveText (app : LinkedSyscall program) :
    program.Placed
      (program.after (program.symbol .syscall)
        (lines syscallEnterInstrs ++ [.instr (.sw 0 0 t1)]))
      (lines syscallLeaveInstrs ++ [.instr (.jr ra)]) :=
  Program.Placed.append
    (List.append_assoc (lines syscallEnterInstrs) _ _ ▸ app.syscall)

/-- The registers come back, and `syscall` returns. -/
theorem runs_returned
    (app : LinkedSyscall program)
    {hart resumed : Hart World}
    (atResume :
      resumed.pc =
        program.after (program.symbol .syscall)
          (lines syscallEnterInstrs ++ [.instr (.sw 0 0 t1)]))
    (notPending : resumed.arch.irqPending = false)
    (stack : resumed.arch.get sp = hart.arch.get sp - 128)
    (frame :
      ∀ reg, reg ∈ savedRegs →
        resumed.arch.mem (slot (hart.arch.get sp - 128) reg) =
          hart.arch.get reg) :
    ∃ hart',
      Runs program resumed hart' ∧
        hart'.pc = even (hart.arch.get ra) ∧
          hart'.arch.get a0 = resumed.arch.get a0 ∧
            (∀ reg, reg ≠ a0 → hart'.arch.get reg = hart.arch.get reg) ∧
              hart'.arch =
                { resumed.arch with regs := hart'.arch.regs } := by
  have text :
      program.Placed resumed.pc
        (lines syscallLeaveInstrs ++ .instr (.jr ra) :: []) :=
    atResume ▸ app.leaveText
  have straight :
      ∀ instr, instr ∈ syscallLeaveInstrs → instr.straight = true := by
    decide
  have loads := @effects_syscallLeaveInstrs _ program resumed.arch
  obtain ⟨hart', toHart', arch, pc⟩ :=
    runs_block text straight (by rw [loads]; exact .inr notPending) (by simp)
  have unchanged :
      hart'.arch = effects program syscallLeaveInstrs resumed.arch :=
    arch
  have values (reg : Reg) :
      (effects program syscallLeaveInstrs resumed.arch).get reg =
        if reg = 0 then
          0
        else if reg = sp then
          resumed.arch.get sp + 128
        else if reg ∈ savedRegs then
          resumed.arch.mem (slot (resumed.arch.get sp) reg)
        else
          resumed.arch.regs reg := by
    rw [loads]
    rfl
  have regs (reg : Reg) (other : reg ≠ a0) :
      (effects program syscallLeaveInstrs resumed.arch).get reg =
        hart.arch.get reg := by
    rw [values, stack]
    by_cases isZero : reg = 0
    · rw [if_pos isZero, isZero, Arch.get_zero]
    · rw [if_neg isZero]
      by_cases isSp : reg = sp
      · rw [if_pos isSp, isSp, BitVec.sub_add_cancel]
      · have isSaved := (mem_savedRegs reg).mpr ⟨isSp, other⟩
        rw [if_neg isSp, if_pos isSaved, frame reg isSaved]
  refine ⟨hart', toHart', ?_, ?_, ?_, ?_⟩
  · rw [pc, Instr.goes, regs ra (by decide)]
  · rw [unchanged, values]
    rfl
  · intro reg other
    rw [unchanged, regs reg other]
  · rw [unchanged, loads]

/--
An app calls `syscall`: the handler is called with the arguments of the app,
and when it returns, the app goes on with the result and with all its other
registers as they were.
-/
theorem syscall_returns
    (linked : LinkedFirmware program)
    (app : LinkedSyscall program)
    {function : Arch World → Option (Arch World)}
    (isHandler :
      program.foreign (program.symbol .syscallHandler) = some function)
    {hart : Hart World}
    (running : Running program hart) :
    ∃ before,
      CalledBy program hart before ∧
        ∀ after,
          function before = some after →
            ServesCall program before after →
              (∀ reg, reg ∈ savedRegs →
                after.mem (slot (hart.arch.get sp - 128) reg) =
                  before.mem (slot (hart.arch.get sp - 128) reg)) →
                ∃ hart', Runs program hart hart' ∧ Returned hart after hart' := by
  obtain ⟨triggered, toTriggered, interrupted, atResume, isTriggered⟩ :=
    runs_triggered linked app running
  have atEven : even triggered.pc = triggered.pc :=
    atResume ▸ app.leaveText.even
  obtain ⟨called, toCalled, calledPc, entered, retAddress⟩ :=
    runs_entered linked interrupted
  have inside : InAppRam triggered.pc := atResume ▸ app.resumes
  have others {reg : Reg} (notSp : reg ≠ sp) (notT1 : reg ≠ t1) :
      triggered.arch.get reg = hart.arch.get reg := by
    rw [isTriggered]
    exact
      (Arch.get_set_of_ne _ notT1 _).trans (Arch.get_set_of_ne _ notSp _)
  have saved :
      triggered.arch.mem =
        framed (hart.arch.get sp - 128) savedRegs hart.arch.get
          hart.arch.mem := by
    rw [isTriggered]
    refine framed_congr (fun reg isSaved => ?_) _
    exact Arch.get_set_of_ne _ ((mem_savedRegs reg).mp isSaved).1 _
  refine
    ⟨called.arch, ⟨?_, ?_, ?_⟩, fun after returns isServed framedAfter => ?_⟩
  · intro reg isArg
    have notSp : reg ≠ sp := by
      rintro rfl
      exact absurd isArg (by decide)
    have notT1 : reg ≠ t1 := by
      rintro rfl
      exact absurd isArg (by decide)
    rw [entered.args reg isArg, others notSp notT1]
  · intro word notRet notSp
    rw [entered.mem word notRet notSp, saved]
  · rw [entered.world, isTriggered]
    rfl
  · obtain ⟨resumed, toResumed, isResumed⟩ :=
      runs_goesOn linked isHandler atEven inside calledPc entered retAddress
        returns isServed
    have stack : triggered.arch.get sp = hart.arch.get sp - 128 := by
      rw [isTriggered]
      rfl
    have frame (reg : Reg) (isSaved : reg ∈ savedRegs) :
        resumed.arch.mem (slot (hart.arch.get sp - 128) reg) =
          hart.arch.get reg := by
      have inside := slot_inAppRam running.stack reg
      have notSaved :=
        entered.mem (slot (hart.arch.get sp - 128) reg)
          (wordAddr_ne inside linked.irqRetAddr)
          (wordAddr_ne inside linked.appSp)
      rw [isResumed.mem, framedAfter reg isSaved, notSaved, saved,
        framed_slot isSaved]
    obtain ⟨hart', toHart', pc, result, regs, rest⟩ :=
      runs_returned app (isResumed.pc.trans atResume) isResumed.irqPending
        (isResumed.stack.trans stack) frame
    have mask : triggered.arch.irqMask = hart.arch.irqMask := by
      rw [isTriggered]
      rfl
    refine
      ⟨hart', toTriggered.trans (toCalled.trans (toResumed.trans toHart')), ?_⟩
    constructor
    case pc => exact pc
    case result => rw [result, isResumed.result]
    case regs => exact regs
    case mem => rw [rest, ← isResumed.mem]
    case world => rw [rest, ← isResumed.world]
    case irqMask => rw [rest, ← mask, ← isResumed.irqMask]
    case irqPending => rw [rest, ← isResumed.irqPending]
    case irqActive => rw [rest, ← isResumed.irqActive]

end Apps

end TKey
