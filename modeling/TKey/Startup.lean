import TKey.SyscallCall
import TKey.Main

namespace TKey

open Rv32 ByteMemory

/-!
# From reset to the app

After a reset `start.S` clears the registers and the memory of the firmware
and calls `main`.  When `main` is done, `jump_to_app` clears the stack of the
firmware, lets system calls through and jumps to the app, where `crt0.S`
clears the registers and `.bss` and calls the app.
-/

section Definitions

variable {World : Type}

/-- `start.S`, `syscall_enable.S` and `firmware.lds`. -/
structure LinkedStart (program : Program Symbol World) : Prop where
  line : program.line = 31
  trigger : program.trigger = isTrigger
  /-- `PROGADDR_RESET`. -/
  reset : program.Placed 0 resetText
  init : program.Placed (program.symbol .init) initText
  syscallEnable :
    program.Placed (program.symbol .syscallEnable) syscallEnableText
  sfwram : program.symbol .sfwram = 0xd0000000
  efwram : program.symbol .efwram = 0xd0000f00
  /-- `STACK_SIZE` is 3000, and the end is aligned to 16 bytes. -/
  sstack : program.symbol .sstack = 0xd0000000
  estack : program.symbol .estack = 0xd0000bc0

/-- An app that is linked with `crt0.S` and `app.lds`. -/
structure LinkedCrt0
    (bssWords : Nat)
    (program : Program Symbol World) : Prop where
  start : program.Placed 0x40000000 crt0Text
  sbss : 0x40000000 ≤ (program.symbol .sbss).toNat
  ebss :
    program.symbol .ebss = program.symbol .sbss + words bssWords
  fits : (program.symbol .sbss).toNat + 4 * bssWords ≤ 0x40020000

/-- The hart when `main` of the firmware is called. -/
structure AtMain
    (program : Program Symbol World)
    (hart hart' : Hart World) : Prop where
  pc : hart'.pc = program.symbol .main
  stack : hart'.arch.get sp = 0xd0000bc0
  regs :
    ∀ reg, reg ∉ ([ra, sp, a0, a1] : List Reg) → hart'.arch.get reg = 0
  mem :
    ∀ word,
      hart'.arch.mem word =
        if Among 0xd0000000 960 word then 0 else hart.arch.mem word
  world : hart'.arch.world = hart.arch.world
  irqMask : hart'.arch.irqMask = hart.arch.irqMask
  irqPending : hart'.arch.irqPending = hart.arch.irqPending
  irqActive : hart'.arch.irqActive = hart.arch.irqActive

/-- The hart when `main` of the app is called. -/
structure AtAppMain
    (bssWords : Nat)
    (program : Program Symbol World)
    (hart hart' : Hart World) : Prop where
  pc : hart'.pc = program.symbol .appMain
  stack : hart'.arch.get sp = 0x4001fff0
  regs :
    ∀ reg, reg ∉ ([ra, sp, a0, a1] : List Reg) → hart'.arch.get reg = 0
  mem :
    ∀ word,
      hart'.arch.mem word =
        if Among 0xd0000000 752 word ∨
            Among (program.symbol .sbss) bssWords word then
          0
        else
          hart.arch.mem word
  world : hart'.arch.world = hart.arch.world
  /-- Only system calls get through. -/
  irqMask : hart'.arch.irqMask = 0x7fffffff
  irqPending : hart'.arch.irqPending = false
  irqActive : hart'.arch.irqActive = false

end Definitions

section Registers

variable {World : Type} {program : Program Symbol World}

/-- The instructions that clear all registers. -/
abbrev clearRegs : List (Instr Symbol) :=
  (List.finRange 32).tail.map fun reg => .li reg 0

theorem mem_finRange_tail {reg : Reg} :
    reg ∈ (List.finRange 32).tail ↔ reg ≠ 0 := by
  revert reg
  decide

theorem effects_clearRegs (arch : Arch World) :
    effects program clearRegs arch =
      { arch with
        regs := fun reg => if reg = 0 then arch.regs 0 else 0 } := by
  rw [clearRegs, effects_zero fun _ _ => rfl]
  congr
  funext reg
  by_cases isZero : reg = 0
  · rw [if_neg (mt mem_finRange_tail.mp (not_not.mpr isZero)), if_pos isZero,
      isZero]
  · rw [if_pos (mem_finRange_tail.mpr isZero), if_neg isZero]

theorem straight_clearRegs
    (instr : Instr Symbol)
    (member : instr ∈ clearRegs) :
    instr.straight = true := by
  obtain ⟨reg, _, rfl⟩ := List.mem_map.mp member
  rfl

end Registers

section Memory

/-- A word of the firmware's part of `FW_RAM` is no trigger. -/
theorem not_isTrigger_of_among
    {base : Word}
    {count : Nat}
    (inside : base.toNat + 4 * count ≤ 0xe1000000)
    {word : BitVec 30}
    (among : Among base count word) :
    isTrigger word = false := by
  rw [Among, wordAddr, BitVec.toNat_sub, BitVec.extractLsb'_toNat,
    Nat.shiftRight_eq_div_pow] at among
  rw [isTrigger, decide_eq_false_iff_not]
  intro same
  have value := congrArg BitVec.toNat same
  simp only [BitVec.extractLsb'_toNat, Nat.shiftRight_eq_div_pow] at value
  have isTop : (0xe1 : BitVec 8).toNat = 0xe1 := rfl
  have below := word.isLt
  omega

end Memory

section Firmware

variable {World : Type} {program : Program Symbol World}

/-- Up to the loop of `init`. -/
def initInstrs : List (Instr Symbol) :=
  clearRegs ++ [.la a0 .sfwram, .la a1 .efwram]

theorem initText_eq :
    initText =
      initInstrs.map .instr ++
        .label .clear :: (clearText .clear a0 a1 ++
          .instr (.la sp .estack) :: .instr (.call .main) ::
            [.label .loop, .instr (.j .loop)]) := by
  rw [initInstrs, List.map_append]
  rfl

theorem effects_initInstrs
    (linked : LinkedStart program)
    (arch : Arch World) :
    effects program initInstrs arch =
      { arch with
        regs := fun reg =>
          if reg = a1 then
            0xd0000f00
          else if reg = a0 then
            0xd0000000
          else if reg = 0 then
            arch.regs 0
          else
            0 } := by
  rw [initInstrs, effects_append, effects_clearRegs]
  simp only [effects_cons, effects_nil, Instr.effect, Arch.set, linked.sfwram,
    linked.efwram]

/-- The registers and the memory of the firmware are cleared. -/
theorem runs_init
    (linked : LinkedStart program)
    {hart : Hart World}
    (atReset : hart.pc = 0)
    (quiet : hart.arch.Quiet) :
    ∃ hart', Runs program hart hart' ∧ AtMain program hart hart' := by
  have vector : program.Placed hart.pc resetText := atReset ▸ linked.reset
  obtain ⟨begun, toBegun, begunArch, begunPc⟩ := vector.runs quiet (by simp)
  change begun.arch = hart.arch at begunArch
  change begun.pc = program.symbol .init at begunPc
  have text := linked.init
  rw [initText_eq, ← begunPc] at text
  have loaded := effects_initInstrs linked begun.arch
  have straight (instr : Instr Symbol) (member : instr ∈ initInstrs) :
      instr.straight = true := by
    rcases List.mem_append.mp member with zero | address
    · exact straight_clearRegs instr zero
    · simp only [List.mem_cons, List.not_mem_nil, or_false] at address
      rcases address with rfl | rfl <;> rfl
  have loadedQuiet : (effects program initInstrs begun.arch).Quiet := by
    rw [loaded, begunArch]
    exact quiet
  obtain ⟨cleared, toCleared, isCleared, rest⟩ :=
    @runs_clearing _ _ program .clear a0 a1 0xd0000000 960 _ initInstrs begun
      text straight loadedQuiet (by decide) (by decide) (by rw [loaded]; rfl)
      (by rw [loaded]; rfl) (by decide) (by decide) (by decide)
      fun word among => by
        rw [linked.trigger]
        exact not_isTrigger_of_among (by decide) among
  have clearedQuiet := isCleared.quiet loadedQuiet
  obtain ⟨hart', toHart', arch, pc⟩ :=
    @runs_block _ _ program [.la sp .estack] (.call .main) _ cleared rest
      (by simp [Instr.straight]) clearedQuiet (by simp)
  refine
    ⟨hart', ((Relation.ReflTransGen.trans toBegun toCleared).trans toHart'),
      ?_⟩
  simp only [effects_cons, effects_nil, Instr.effect, linked.estack] at arch
  have others (reg : Reg) (notRa : reg ≠ ra) (notSp : reg ≠ sp) :
      hart'.arch.get reg = cleared.arch.get reg := by
    rw [arch, Arch.get_set_of_ne _ notRa, Arch.get_set_of_ne _ notSp]
  constructor
  case pc => exact pc
  case stack => rw [arch]; rfl
  case regs =>
    intro reg isOther
    simp only [List.mem_cons, List.not_mem_nil, or_false, not_or] at isOther
    obtain ⟨notRa, notSp, notA0, notA1⟩ := isOther
    rw [others reg notRa notSp, isCleared.regs reg notA0, loaded, Arch.get]
    by_cases isZero : reg = 0
    · rw [if_pos isZero]
    · rw [if_neg isZero]
      simp only [if_neg notA1, if_neg notA0, if_neg isZero]
  case mem =>
    intro word
    rw [arch, Arch.mem_set, Arch.mem_set, isCleared.mem, loaded, begunArch]
  case world => rw [arch, Arch.world_set, Arch.world_set, isCleared.world,
    loaded, begunArch]
  case irqMask => rw [arch, Arch.irqMask_set, Arch.irqMask_set,
    isCleared.irqMask, loaded, begunArch]
  case irqPending => rw [arch, Arch.irqPending_set, Arch.irqPending_set,
    isCleared.irqPending, loaded, begunArch]
  case irqActive => rw [arch, Arch.irqActive_set, Arch.irqActive_set,
    isCleared.irqActive, loaded, begunArch]

end Firmware

section Jump

variable {World : Type} {program : Program Symbol World}

/-- `jump_to_app` has written the address of the app and goes on to its assembly. -/
structure Jumping (program : Program Symbol World) (hart : Hart World) :
    Prop where
  text : program.Placed hart.pc jumpToAppText
  /-- `TK1_MMIO_TK1_APP_ADDR`. -/
  appAddr : hart.arch.load 0xff000030 = tk1RamBase
  irqPending : hart.arch.irqPending = false
  irqActive : hart.arch.irqActive = false

/-- The hart at the first instruction of the app. -/
structure AtApp (hart hart' : Hart World) : Prop where
  pc : hart'.pc = 0x40000000
  mem :
    ∀ word,
      hart'.arch.mem word =
        if Among 0xd0000000 752 word then 0 else hart.arch.mem word
  world : hart'.arch.world = hart.arch.world
  irqMask : hart'.arch.irqMask = 0x7fffffff
  irqPending : hart'.arch.irqPending = false
  irqActive : hart'.arch.irqActive = false

/-- Interrupt 31 is let through, all others are not. -/
structure Enabled (hart hart' : Hart World) : Prop where
  pc : hart'.pc = even (hart.arch.get ra)
  mem : hart'.arch.mem = hart.arch.mem
  world : hart'.arch.world = hart.arch.world
  irqMask : hart'.arch.irqMask = 0x7fffffff
  irqPending : hart'.arch.irqPending = hart.arch.irqPending
  irqActive : hart'.arch.irqActive = hart.arch.irqActive

theorem runs_syscallEnable
    (linked : LinkedStart program)
    {hart : Hart World}
    (atEnable : hart.pc = program.symbol .syscallEnable)
    (quiet : hart.arch.Quiet) :
    ∃ hart', Runs program hart hart' ∧ Enabled hart hart' := by
  have text :
      program.Placed hart.pc
        (lines [.li t0 0x7fffffff, .maskirq 0 t0] ++ .instr (.jr ra) :: []) :=
    atEnable ▸ linked.syscallEnable
  obtain ⟨hart', runs, arch, pc⟩ :=
    runs_block text (by simp [Instr.straight]) quiet (by simp)
  simp only [effects_cons, effects_nil, Instr.effect, Instr.goes, linked.line]
    at arch pc
  refine ⟨hart', runs, pc, ?_, ?_, ?_, ?_, ?_⟩
  case refine_3 =>
    rw [arch, Arch.get_set_self _ (by decide)]
    exact (by decide : (0x7fffffff ||| ~~~(1#32 <<< 31) : Word) = 0x7fffffff)
  all_goals
    rw [arch]
    rfl

/-- The stack of the firmware is cleared, and the app is jumped to. -/
theorem runs_jump
    (linked : LinkedStart program)
    {hart : Hart World}
    (jumping : Jumping program hart) :
    ∃ hart', Runs program hart hart' ∧ AtApp hart hart' := by
  obtain ⟨cleared, toCleared, isCleared, rest⟩ :=
    @runs_clearing _ _ program .clearStack a0 a1 0xd0000000 752 _
      [.la a0 .sstack, .la a1 .estack] hart jumping.text
      (by simp [Instr.straight]) (.inr jumping.irqPending) (by decide)
      (by decide) linked.sstack linked.estack (by decide) (by decide)
      (by decide)
      fun word among => by
        rw [linked.trigger]
        exact not_isTrigger_of_among (by decide) among
  have notPending : cleared.arch.irqPending = false :=
    isCleared.irqPending.trans jumping.irqPending
  obtain ⟨called, toCalled, calledArch, calledPc⟩ :=
    rest.runs (.inr notPending) (by simp)
  have back := rest.next
  obtain ⟨enabled, toEnabled, isEnabled⟩ :=
    runs_syscallEnable linked calledPc (.inr (calledArch ▸ notPending))
  have atBack :
      enabled.pc = program.after cleared.pc [.instr (.call .syscallEnable)] := by
    rw [isEnabled.pc, calledArch, Instr.effect,
      Arch.get_set_self _ (by decide)]
    exact back.even
  rw [← atBack] at back
  obtain ⟨hart', toHart', arch, pc⟩ :=
    @runs_block _ _ program [.li a0 0xff000000, .lw a0 0x030 a0] (.jr a0) _ _
      back (by simp [Instr.straight])
      (.inr (isEnabled.irqPending.trans (calledArch ▸ notPending))) (by simp)
  simp only [effects_cons, effects_nil, Instr.effect, Instr.goes] at arch pc
  have mem : enabled.arch.mem = cleared.arch.mem := by
    rw [isEnabled.mem, calledArch]
    rfl
  have appAddr :
      cleared.arch.load 0xff000030 = tk1RamBase := by
    rw [Arch.load, isCleared.mem, if_neg (by decide)]
    exact jumping.appAddr
  refine
    ⟨hart', ((toCleared.trans toCalled).trans toEnabled).trans toHart', ?_⟩
  constructor
  case pc =>
    rw [pc, Arch.get_set_self _ (by decide), Arch.get_set_self _ (by decide),
      Arch.load, Arch.mem_set, mem, ← Arch.load]
    exact congrArg even appAddr
  case mem =>
    intro word
    rw [arch, Arch.mem_set, Arch.mem_set, mem, isCleared.mem]
    rfl
  case world =>
    rw [arch, Arch.world_set, Arch.world_set, isEnabled.world, calledArch]
    exact isCleared.world
  case irqMask => rw [arch]; exact isEnabled.irqMask
  case irqPending =>
    rw [arch, Arch.irqPending_set, Arch.irqPending_set, isEnabled.irqPending,
      calledArch]
    exact notPending
  case irqActive =>
    rw [arch, Arch.irqActive_set, Arch.irqActive_set, isEnabled.irqActive,
      calledArch]
    exact isCleared.irqActive.trans jumping.irqActive

/-- Up to the comparison that skips an empty `.bss`. -/
def crt0Instrs : List (Instr Symbol) :=
  clearRegs ++ [.li sp 0x4001fff0, .la a0 .sbss, .la a1 .ebss]

theorem crt0Text_eq :
    crt0Text =
      crt0Instrs.map .instr ++
        .instr (.bge a0 a1 .endInitBss) ::
          .label .loopInitBss :: (clearText .loopInitBss a0 a1 ++
            [.label .endInitBss, .instr (.call .appMain)]) := by
  rw [crt0Instrs, List.map_append]
  rfl

theorem effects_crt0Instrs (arch : Arch World) :
    effects program crt0Instrs arch =
      { arch with
        regs := fun reg =>
          if reg = a1 then
            program.symbol .ebss
          else if reg = a0 then
            program.symbol .sbss
          else if reg = sp then
            0x4001fff0
          else if reg = 0 then
            arch.regs 0
          else
            0 } := by
  rw [crt0Instrs, effects_append, effects_clearRegs]
  rfl

theorem LinkedCrt0.bssRange
    {bssWords : Nat}
    (app : LinkedCrt0 bssWords program) :
    (program.symbol .sbss).toInt + 4 * bssWords < 2 ^ 31 := by
  have low := app.sbss
  have fits := app.fits
  rw [BitVec.toInt_eq_toNat_of_lt (by omega)]
  omega

/-- `.bss` is cleared, also when it is empty. -/
theorem runs_bss
    {bssWords : Nat}
    (linked : LinkedStart program)
    (app : LinkedCrt0 bssWords program)
    {hart : Hart World}
    (atStart : hart.pc = 0x40000000)
    (quiet : hart.arch.Quiet) :
    ∃ hart',
      Runs program hart hart' ∧
        Cleared a0 (program.symbol .sbss) bssWords
            (effects program crt0Instrs hart.arch) hart'.arch ∧
          program.Placed hart'.pc [.instr (.call .appMain)] := by
  have text := app.start
  rw [crt0Text_eq, ← atStart] at text
  have loaded := @effects_crt0Instrs _ program hart.arch
  have straight (instr : Instr Symbol) (member : instr ∈ crt0Instrs) :
      instr.straight = true := by
    rcases List.mem_append.mp member with zero | address
    · exact straight_clearRegs instr zero
    · simp only [List.mem_cons, List.not_mem_nil, or_false] at address
      rcases address with rfl | rfl | rfl <;> rfl
  have loadedQuiet : (effects program crt0Instrs hart.arch).Quiet := by
    rw [loaded]
    exact quiet
  have atBase :
      (effects program crt0Instrs hart.arch).get a0 =
        program.symbol .sbss := by
    rw [loaded]
    rfl
  have atBound :
      (effects program crt0Instrs hart.arch).get a1 =
        program.symbol .sbss + words bssWords := by
    rw [loaded, ← app.ebss]
    rfl
  obtain ⟨compared, toCompared, comparedArch, comparedPc⟩ :=
    runs_block text straight loadedQuiet (by simp)
  have compares := slt_add app.bssRange (Nat.zero_le bssWords)
  have isBase : program.symbol .sbss + words 0 = program.symbol .sbss :=
    BitVec.add_zero _
  rw [isBase, ← atBound, ← atBase] at compares
  change compared.arch = effects program crt0Instrs hart.arch at comparedArch
  rw [Instr.goes] at comparedPc
  rcases Nat.eq_zero_or_pos bssWords with isEmpty | isFilled
  · subst isEmpty
    rw [if_neg (mt compares.mp (Nat.lt_irrefl 0))] at comparedPc
    refine ⟨compared, toCompared, ?_, ?_⟩
    · rw [comparedArch, ← atBase]
      exact cleared_zero a0 _
    · rw [comparedPc]
      exact
        Program.Placed.label
          (crt0Instrs.map .instr ++
            .instr (.bge a0 a1 .endInitBss) :: .label .loopInitBss ::
              clearText .loopInitBss a0 a1)
          (by simpa using text)
  · rw [if_pos (compares.mpr isFilled), Program.after_append] at comparedPc
    have loop := text.append.next
    rw [← comparedPc] at loop
    have low := app.sbss
    have fits := app.fits
    obtain ⟨hart', toHart', isCleared, rest⟩ :=
      @runs_clearing _ _ program .loopInitBss a0 a1 (program.symbol .sbss)
        bssWords _ [] compared loop (by simp) (comparedArch ▸ loadedQuiet)
        (by decide) (by decide) (comparedArch ▸ atBase)
        (comparedArch ▸ atBound) app.bssRange (by omega) isFilled
        fun word among => by
          rw [linked.trigger]
          exact not_isTrigger_of_among (by omega) among
    rw [effects_nil, comparedArch] at isCleared
    exact ⟨hart', toCompared.trans toHart', isCleared, rest.2⟩

/-- An app clears its registers and `.bss` and calls its `main`. -/
theorem runs_crt0
    {bssWords : Nat}
    (linked : LinkedStart program)
    (app : LinkedCrt0 bssWords program)
    {hart middle : Hart World}
    (atApp : AtApp hart middle) :
    ∃ hart',
      Runs program middle hart' ∧ AtAppMain bssWords program hart hart' := by
  have quiet : middle.arch.Quiet := .inr atApp.irqPending
  obtain ⟨cleared, toCleared, isCleared, rest⟩ :=
    runs_bss linked app atApp.pc quiet
  have loaded := @effects_crt0Instrs _ program middle.arch
  have notPending : cleared.arch.irqPending = false := by
    rw [isCleared.irqPending, loaded]
    exact atApp.irqPending
  obtain ⟨hart', toHart', arch, pc⟩ := rest.runs (.inr notPending) (by simp)
  rw [Instr.effect] at arch
  refine ⟨hart', toCleared.trans toHart', ?_⟩
  constructor
  case pc => exact pc
  case stack =>
    rw [arch, Arch.get_set_of_ne _ (by decide),
      isCleared.regs sp (by decide), loaded]
    rfl
  case regs =>
    intro reg isOther
    simp only [List.mem_cons, List.not_mem_nil, or_false, not_or] at isOther
    obtain ⟨notRa, notSp, notA0, notA1⟩ := isOther
    rw [arch, Arch.get_set_of_ne _ notRa, isCleared.regs reg notA0, loaded,
      Arch.get]
    by_cases isZero : reg = 0
    · rw [if_pos isZero]
    · rw [if_neg isZero]
      simp only [if_neg notA1, if_neg notA0, if_neg notSp, if_neg isZero]
  case mem =>
    intro word
    rw [arch, Arch.mem_set, isCleared.mem, loaded]
    by_cases isBss : Among (program.symbol .sbss) bssWords word
    · rw [if_pos isBss, if_pos (.inr isBss)]
    · simp only [isBss, if_false, or_false]
      exact atApp.mem word
  case world => rw [arch, Arch.world_set, isCleared.world, loaded, atApp.world]
  case irqMask =>
    rw [arch, Arch.irqMask_set, isCleared.irqMask, loaded, atApp.irqMask]
  case irqPending => rw [arch, Arch.irqPending_set, notPending]
  case irqActive =>
    rw [arch, Arch.irqActive_set, isCleared.irqActive, loaded,
      atApp.irqActive]

/--
`jump_to_app` and `crt0.S` together: the app is called with nothing of the
firmware in its registers or on the firmware's stack and with its `.bss`
cleared; the rest of memory is as it was, and system calls get through.
-/
theorem jump_enters_app
    {bssWords : Nat}
    (linked : LinkedStart program)
    (app : LinkedCrt0 bssWords program)
    {hart : Hart World}
    (jumping : Jumping program hart) :
    ∃ hart',
      Runs program hart hart' ∧ AtAppMain bssWords program hart hart' := by
  obtain ⟨middle, toMiddle, atApp⟩ := runs_jump linked jumping
  obtain ⟨hart', toHart', atMain⟩ := runs_crt0 linked app atApp
  exact ⟨hart', toMiddle.trans toHart', atMain⟩

end Jump

section EnteredMachine

/-- Where the linker puts the variables of the firmware. -/
structure Statics where
  partTableStorage : Nat
  partStatus : Nat
  currentAppDigest : Nat

/-- Bytes that lie in the firmware's part of `FW_RAM`. -/
def FitsFwRam (address size : Nat) : Prop :=
  0xd0000000 ≤ address ∧ address + size ≤ 0xd0000f00

instance (address size : Nat) : Decidable (FitsFwRam address size) :=
  inferInstanceAs (Decidable (_ ∧ _))

structure Statics.Linked (statics : Statics) : Prop where
  partTableStorage :
    FitsFwRam statics.partTableStorage sizePartitionTableStorage
  partStatus : FitsFwRam statics.partStatus 4
  currentAppDigest : FitsFwRam statics.currentAppDigest 32

/-- Layout of `struct reset`. -/
def Reset.layout : PackedLayout Reset 253 :=
  PackedLayout.record
    { toFun := fun reset =>
        (reset.type, reset.mask, reset.appDigest, reset.measuredId,
          reset.nextAppData)
      invFun := fun fields =>
        ⟨fields.1, fields.2.1, fields.2.2.1, fields.2.2.2.1,
          fields.2.2.2.2⟩ }
    (PackedLayout.word.pair
      (PackedLayout.byte.pair
        ((PackedLayout.bytes 32).pair
          ((PackedLayout.bytes 32).pair (PackedLayout.bytes 184)))))

/-- Bytes of memory. -/
def bytesAt (mem : BitVec 30 → Word) (address size : Nat) :
    Vector UInt8 size :=
  Vector.ofFn fun index => byteAt mem (address + index)

/-- The machine with its variables in memory. -/
def machineIn (statics : Statics) (arch : Arch Machine) : Machine :=
  { machineOf arch with
    partTableStorage :=
      PartitionTableStorage.layout.symm
        (bytesAt arch.mem statics.partTableStorage _)
    partStatus :=
      PackedLayout.word.symm (bytesAt arch.mem statics.partStatus 4)
    currentAppDigest := bytesAt arch.mem statics.currentAppDigest 32
    -- `TK1_MMIO_RESETINFO_BASE`
    resetinfo := Reset.layout.symm (bytesAt arch.mem 0xd0000f00 253) }

/-- The core has reset its registers. -/
structure CoreReset (m : Machine) : Prop where
  cdi : m.cdi = Vector.replicate 32 0
  appSize : m.appSize = 0
  appAddr : m.appAddr = 0
  replies : m.replies = []

theorem among_byte
    {base : Word}
    {count address : Nat}
    (aligned : base.toNat % 4 = 0)
    (inRange : base.toNat + 4 * count ≤ 2 ^ 32)
    (isAddress : address < 2 ^ 32) :
    Among base count (BitVec.ofNat 30 (address / 4)) ↔
      base.toNat ≤ address ∧ address < base.toNat + 4 * count := by
  have below := base.isLt
  rw [Among, wordAddr, BitVec.toNat_sub, BitVec.extractLsb'_toNat,
    BitVec.toNat_ofNat, Nat.shiftRight_eq_div_pow]
  omega

variable
  {program : Program Symbol Machine}
  {hart hart' : Hart Machine}

/-- What is in the firmware's part of `FW_RAM` is zero. -/
theorem AtMain.byteAt_eq
    (atMain : AtMain program hart hart')
    {address : Nat}
    (isAddress : address < 2 ^ 32) :
    byteAt hart'.arch.mem address =
      if 0xd0000000 ≤ address ∧ address < 0xd0000f00 then
        0
      else
        byteAt hart.arch.mem address := by
  have among :
      Among 0xd0000000 960 (BitVec.ofNat 30 (address / 4)) ↔
        0xd0000000 ≤ address ∧ address < 0xd0000f00 :=
    among_byte (by decide) (by decide) isAddress
  rw [byteAt, atMain.mem]
  by_cases inside : 0xd0000000 ≤ address ∧ address < 0xd0000f00
  · rw [if_pos (among.mpr inside), if_pos inside, byteOf]
    simp
  · rw [if_neg (mt among.mp inside), if_neg inside, byteAt]

theorem AtMain.bytesAt_cleared
    (atMain : AtMain program hart hart')
    {address size : Nat}
    (fits : FitsFwRam address size) :
    bytesAt hart'.arch.mem address size = Vector.replicate size 0 := by
  obtain ⟨low, high⟩ := fits
  ext index inside
  rw [bytesAt, Vector.getElem_ofFn, Vector.getElem_replicate,
    atMain.byteAt_eq (by omega), if_pos (by omega)]

theorem AtMain.bytesAt_kept
    (atMain : AtMain program hart hart')
    {address size : Nat}
    (outside : address + size ≤ 0xd0000000 ∨ 0xd0000f00 ≤ address)
    (isAddress : address + size ≤ 2 ^ 32) :
    bytesAt hart'.arch.mem address size = bytesAt hart.arch.mem address size := by
  ext index inside
  rw [bytesAt, bytesAt, Vector.getElem_ofFn, Vector.getElem_ofFn,
    atMain.byteAt_eq (by omega), if_neg (by omega)]

theorem AtMain.appRam_eq (atMain : AtMain program hart hart') :
    appRam hart'.arch.mem = appRam hart.arch.mem := by
  funext address
  rw [appRam, appRam]
  split
  case isTrue inside =>
    obtain ⟨low, high⟩ := isAppRam_iff.mp inside
    rw [atMain.byteAt_eq (by omega), if_neg (by omega)]
  case isFalse => rfl

/--
Whatever the registers and the memory of the firmware hold at a reset, `main`
is called with its stack on the machine that the model starts from: the flash,
app RAM and the reset record are as they were, everything else is cleared.
-/
theorem reset_enters_main
    (linked : LinkedStart program)
    {statics : Statics}
    (isLinked : statics.Linked)
    (coreReset : CoreReset hart.arch.world)
    (atReset : hart.pc = 0)
    (quiet : hart.arch.Quiet) :
    ∃ hart',
      Runs program hart hart' ∧
        AtMain program hart hart' ∧
          machineIn statics hart'.arch =
            .entered (machineIn statics hart.arch).flash
              (machineIn statics hart.arch).ram
              (machineIn statics hart.arch).resetinfo := by
  obtain ⟨hart', runs, atMain⟩ := runs_init linked atReset quiet
  refine ⟨hart', runs, atMain, ?_⟩
  rw [machineIn, machineOf, atMain.bytesAt_cleared isLinked.partTableStorage,
    atMain.bytesAt_cleared isLinked.partStatus,
    atMain.bytesAt_cleared isLinked.currentAppDigest,
    atMain.bytesAt_kept (.inr (by decide)) (by decide), atMain.world,
    atMain.appRam_eq]
  simp only [Machine.entered, machineIn, machineOf, coreReset.cdi,
    coreReset.appSize, coreReset.appAddr, coreReset.replies]
  rfl

end EnteredMachine

section Linked

/-- The firmware and an app as a linker may place them. -/
def startProgram : Program Symbol Machine where
  fetch := fun address =>
    if address.toNat < 0x10 then
      sampleFetch 0 resetText address
    else if address.toNat < 0x400 then
      sampleFetch 0xb4 initText address
    else if address.toNat < 0x500 then
      sampleFetch 0x400 jumpToAppText address
    else if address.toNat < 0x1000 then
      sampleFetch 0x500 syscallEnableText address
    else
      sampleFetch 0x40000000 crt0Text address
  symbol := fun symbol =>
    match symbol with
    | .init => 0xb4
    | .clear => 0x138
    | .loop => 0x14c
    | .clearStack => 0x408
    | .syscallEnable => 0x500
    | .main => 0x800
    | .sstack => 0xd0000000
    | .estack => 0xd0000bc0
    | .sfwram => 0xd0000000
    | .efwram => 0xd0000f00
    | .loopInitBss => 0x4000008c
    | .endInitBss => 0x40000098
    | .appMain => 0x40000200
    | .sbss => 0x40000300
    | .ebss => 0x40000310
    | _ => 0
  foreign := fun _ => none
  trigger := isTrigger
  line := 31
  vector := 0x10

theorem startProgram_linked : LinkedStart startProgram where
  line := rfl
  trigger := rfl
  reset := by decide +kernel
  init := by decide +kernel
  syscallEnable := by decide +kernel
  sfwram := rfl
  efwram := rfl
  sstack := rfl
  estack := rfl

theorem startProgram_crt0 : LinkedCrt0 4 startProgram where
  start := by decide +kernel
  sbss := by decide
  ebss := by decide
  fits := by decide

/-- A hart with the same word everywhere but in the register of the app address. -/
def startHart (pc : Word) : Hart Machine where
  arch :=
    { regs := fun _ => 0xdeadbeef
      mem := fun word =>
        if word = wordAddr 0xff000030 then tk1RamBase else 0xdeadbeef
      irqMask := 0xffffffff
      irqPending := false
      irqActive := false
      world :=
        .entered (Machine.provisioned .sample).flash (fun _ => 0) .zero }
  pc := pc
  irqDelay := false
  latchedCompr := false

theorem reset_enters_main_sample :
    ∃ hart', Runs startProgram (startHart 0) hart' ∧ hart'.pc = 0x800 := by
  obtain ⟨hart', runs, atMain, _⟩ :=
    @reset_enters_main startProgram (startHart 0) startProgram_linked
      ⟨0xd0000bc0, 0xd0000d70, 0xd0000d74⟩
      ⟨by decide, by decide, by decide⟩ ⟨rfl, rfl, rfl, rfl⟩ rfl (.inr rfl)
  exact ⟨hart', runs, atMain.pc⟩

theorem jump_enters_app_sample :
    ∃ hart',
      Runs startProgram (startHart 0x400) hart' ∧ hart'.pc = 0x40000200 := by
  obtain ⟨hart', runs, atMain⟩ :=
    @jump_enters_app _ startProgram 4 startProgram_linked startProgram_crt0
      (startHart 0x400) ⟨by decide +kernel, rfl, rfl, rfl⟩
  exact ⟨hart', runs, atMain.pc⟩

end Linked

end TKey
