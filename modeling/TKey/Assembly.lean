import TKey.Lib.Rv32

namespace TKey

open Rv32

/-!
# Assembly texts

`start.S` and `syscall_enable.S` of the firmware, the assembly in
`jump_to_app`, and `crt0.S` and `syscall.S` that apps are linked with.  Sizes
of instructions and the addresses of symbols are left to the linker; what
`firmware.lds` and `app.lds` promise about them is stated here.
-/

section Texts

/-- The symbols of the firmware and of an app. -/
inductive Symbol where
  -- `start.S`
  | irqHandler
  | unexpectedIrqSource
  | irqSourceOk
  | x3Invalid
  | x3Valid
  | init
  | clear
  | loop
  | irqRetAddr
  | appSp
  -- `syscall_enable.S` and the label in `jump_to_app`
  | syscallEnable
  | clearStack
  -- `firmware.lds`
  | sstack
  | estack
  | sfwram
  | efwram
  -- functions in C
  | syscallHandler
  | main
  -- the app
  | syscall
  | appStart
  | loopInitBss
  | endInitBss
  | sbss
  | ebss
  | appMain
  deriving Repr, DecidableEq

/-- The names of registers. -/
abbrev ra : Reg := 1

abbrev sp : Reg := 2

abbrev t0 : Reg := 5

abbrev t1 : Reg := 6

abbrev a0 : Reg := 10

abbrev a1 : Reg := 11

abbrev t4 : Reg := 29

/-- `TK1_RAM_BASE` and the end of app RAM. -/
def tk1RamBase : Word := 0x40000000

def tk1RamEnd : Word := 0x40020000

/-- Instructions, a line each. -/
abbrev lines (instrs : List (Instr Symbol)) : List (Line Symbol) :=
  instrs.map .instr

/-- `irq_handler` up to the check of the interrupt source. -/
def irqSourceInstrs : List (Instr Symbol) :=
  [.li t4 (1#32 <<< 31)]

/-- `irq_source_ok` up to the call. -/
def irqEnterInstrs : List (Instr Symbol) :=
  [.la t0 .irqRetAddr, .sw 3 0 t0, .la t0 .appSp, .sw sp 0 t0, .la sp .estack]

/-- From the call to the checks of the return address. -/
def irqLeaveInstrs : List (Instr Symbol) :=
  [.la t0 .appSp, .lw sp 0 t0, .la t0 .irqRetAddr, .lw 3 0 t0,
    .li t0 tk1RamBase]

/-- The registers that are cleared before the app goes on. -/
def clearedRegs : List Reg :=
  [1, 4, 5, 6, 7, 8, 9, 11, 12, 13, 14, 15, 16, 17, 18, 19, 20, 21, 22, 23, 24,
    25, 26, 27, 28, 29, 30, 31]

/-- `x3_invalid` and what is behind it. -/
def x3Text : List (Line Symbol) :=
  .label .x3Invalid ::
    .instr .illegal ::
    .instr (.j .x3Invalid) ::
  .label .x3Valid ::
    (lines (clearedRegs.map fun reg => .mv reg 0) ++ [.instr .retirq])

/-- The checks of the return address. -/
def x3CheckText : List (Line Symbol) :=
  .instr (.blt 3 t0 .x3Invalid) ::
    .instr (.li t0 tk1RamEnd) ::
    .instr (.bge 3 t0 .x3Invalid) ::
    .instr (.j .x3Valid) ::
    x3Text

/-- `irq_source_ok`. -/
def irqSourceOkText : List (Line Symbol) :=
  lines irqEnterInstrs ++ .instr (.call .syscallHandler) ::
    (lines irqLeaveInstrs ++ x3CheckText)

/-- `irq_handler`. -/
def irqHandlerText : List (Line Symbol) :=
  lines irqSourceInstrs ++
    .instr (.beq 4 t4 .irqSourceOk) ::
    .label .unexpectedIrqSource ::
      .instr .illegal ::
      .instr (.j .unexpectedIrqSource) ::
    .label .irqSourceOk ::
      irqSourceOkText

/-- The reset vector. -/
def resetText : List (Line Symbol) :=
  [.instr (.j .init)]

/-- `init` of `start.S`. -/
def initText : List (Line Symbol) :=
  lines ((List.finRange 32).tail.map fun reg => .li reg 0) ++
    lines [.la a0 .sfwram, .la a1 .efwram] ++
    .label .clear :: (clearText .clear a0 a1 ++
      (lines [.la sp .estack] ++
        [.instr (.call .main), .label .loop, .instr (.j .loop)]))

/-- The assembly in `jump_to_app`, with the call of `syscall_enable`. -/
def jumpToAppText : List (Line Symbol) :=
  lines [.la a0 .sstack, .la a1 .estack] ++
    .label .clearStack :: (clearText .clearStack a0 a1 ++
      .instr (.call .syscallEnable) ::
        (lines [.li a0 0xff000000, .lw a0 0x030 a0] ++ [.instr (.jr a0)]))

/-- `syscall_enable`. -/
def syscallEnableText : List (Line Symbol) :=
  lines [.li t0 0x7fffffff, .maskirq 0 t0] ++ [.instr (.jr ra)]

/-- `_start` of `crt0.S`. -/
def crt0Text : List (Line Symbol) :=
  lines ((List.finRange 32).tail.map fun reg => .li reg 0) ++
    lines [.li sp 0x4001fff0, .la a0 .sbss, .la a1 .ebss] ++
    .instr (.bge a0 a1 .endInitBss) ::
      .label .loopInitBss :: (clearText .loopInitBss a0 a1 ++
        [.label .endInitBss, .instr (.call .appMain)])

/-- The registers that `syscall` saves. -/
def savedRegs : List Reg :=
  [0, 1, 3, 4, 5, 6, 7, 8, 9, 11, 12, 13, 14, 15, 16, 17, 18, 19, 20, 21, 22,
    23, 24, 25, 26, 27, 28, 29, 30, 31]

/-- `syscall` up to the store that triggers the interrupt. -/
def syscallEnterInstrs : List (Instr Symbol) :=
  .addi sp sp (-128) :: (saveText sp savedRegs ++ [.li t1 0xe1000000])

/-- `syscall` from there on. -/
def syscallLeaveInstrs : List (Instr Symbol) :=
  loadText sp savedRegs ++ [.addi sp sp 128]

/-- `syscall`. -/
def syscallText : List (Line Symbol) :=
  lines syscallEnterInstrs ++ .instr (.sw 0 0 t1) ::
    (lines syscallLeaveInstrs ++ [.instr (.jr ra)])

end Texts

section Platform

variable {World : Type}

/-- An address in app RAM. -/
def InAppRam (address : Word) : Prop :=
  0x40000000 ≤ address.toNat ∧ address.toNat < 0x40020000

/-- An address in the part of `FW_RAM` that the firmware is linked to. -/
def InFwRam (address : Word) : Prop :=
  0xd0000000 ≤ address.toNat ∧ address.toNat < 0xd0000f00

instance (address : Word) : Decidable (InAppRam address) :=
  inferInstanceAs (Decidable (_ ∧ _))

instance (address : Word) : Decidable (InFwRam address) :=
  inferInstanceAs (Decidable (_ ∧ _))

/-- A word of the syscall core. -/
def isTrigger (word : BitVec 30) : Bool :=
  word.extractLsb' 22 8 = 0xe1

/-- The firmware on the platform. -/
structure LinkedFirmware (program : Program Symbol World) : Prop where
  /-- `IRQ31_IRQ_MASK`. -/
  line : program.line = 31
  /-- `PROGADDR_IRQ`. -/
  vector : program.vector = 0x10
  trigger : program.trigger = isTrigger
  irqHandler : program.Placed 0x10 irqHandlerText
  irqRetAddr : InFwRam (program.symbol .irqRetAddr)
  appSp : InFwRam (program.symbol .appSp)
  apart :
    wordAddr (program.symbol .irqRetAddr) ≠
      wordAddr (program.symbol .appSp)

/-- An app that is linked with `syscall.S`. -/
structure LinkedSyscall (program : Program Symbol World) : Prop where
  syscall : program.Placed (program.symbol .syscall) syscallText
  /-- The instruction behind the trigger is in app RAM. -/
  resumes :
    InAppRam
      (program.after (program.symbol .syscall)
        (lines syscallEnterInstrs ++ [.instr (.sw 0 0 t1)]))

/-- Memory is no word of the syscall core. -/
theorem not_isTrigger_of_inFwRam
    {address : Word}
    (inside : InFwRam address) :
    isTrigger (wordAddr address) = false := by
  obtain ⟨low, high⟩ := inside
  rw [isTrigger, decide_eq_false_iff_not]
  intro same
  have value := congrArg BitVec.toNat same
  simp only [wordAddr, BitVec.extractLsb'_toNat, Nat.shiftRight_eq_div_pow]
    at value
  have isTop : (0xe1 : BitVec 8).toNat = 0xe1 := rfl
  omega

theorem not_isTrigger_of_inAppRam
    {address : Word}
    (inside : InAppRam address) :
    isTrigger (wordAddr address) = false := by
  obtain ⟨low, high⟩ := inside
  rw [isTrigger, decide_eq_false_iff_not]
  intro same
  have value := congrArg BitVec.toNat same
  simp only [wordAddr, BitVec.extractLsb'_toNat, Nat.shiftRight_eq_div_pow]
    at value
  have isTop : (0xe1 : BitVec 8).toNat = 0xe1 := rfl
  omega

end Platform

end TKey
