import TKey.SyscallEntry
import TKey.PointerConfinement

namespace TKey

open Rv32 ByteMemory

/-!
# System calls of an app

What an app sees of a system call: `syscall`, the interrupt, `irq_handler` and
the C function `syscall_handler` together are the run of `syscallHandler` on
app RAM and on the rest of the machine.
-/

section Bytes

/-- A byte of a word. -/
def byteOf (word : Word) (index : Nat) : UInt8 :=
  .ofBitVec (word.extractLsb' (8 * index) 8)

/-- The word that bytes make up. -/
def wordOf (byte : Nat → UInt8) : Word :=
  BitVec.ofNat 32
    ((byte 0).toNat + 2 ^ 8 * (byte 1).toNat + 2 ^ 16 * (byte 2).toNat +
      2 ^ 24 * (byte 3).toNat)

theorem byteOf_wordOf
    (byte : Nat → UInt8)
    {index : Nat}
    (inside : index < 4) :
    byteOf (wordOf byte) index = byte index := by
  have small (index : Nat) := (byte index).toNat_lt
  have bounds := And.intro (small 0) (And.intro (small 1) (And.intro (small 2) (small 3)))
  apply UInt8.toNat_inj.mp
  rw [byteOf, wordOf, UInt8.toNat_ofBitVec, BitVec.extractLsb'_toNat,
    BitVec.toNat_ofNat, Nat.shiftRight_eq_div_pow]
  obtain rfl | rfl | rfl | rfl : index = 0 ∨ index = 1 ∨ index = 2 ∨ index = 3 := by
    omega
  all_goals omega

/-- A word is known by its bytes. -/
theorem eq_of_byteOf
    {word word' : Word}
    (same : ∀ index, index < 4 → byteOf word index = byteOf word' index) :
    word = word' := by
  apply BitVec.eq_of_getLsbD_eq
  intro bit inside
  have bytes := congrArg UInt8.toBitVec (same (bit / 8) (by omega))
  have bits := congrArg (fun byte => byte.getLsbD (bit % 8)) bytes
  have small : bit % 8 < 8 := Nat.mod_lt _ (by decide)
  simpa [byteOf, small, Nat.div_add_mod] using bits

end Bytes

section Definitions

theorem isAppRam_iff {address : Nat} :
    IsAppRam address ↔ 0x40000000 ≤ address ∧ address < 0x40020000 :=
  Iff.rfl

/-- A byte of memory. -/
def byteAt (mem : BitVec 30 → Word) (address : Nat) : UInt8 :=
  byteOf (mem (BitVec.ofNat 30 (address / 4))) (address % 4)

/-- App RAM, byte by byte. -/
def appRam (mem : BitVec 30 → Word) : Memory := fun address =>
  if IsAppRam address then byteAt mem address else 0

/-- Memory with other bytes in app RAM. -/
def withAppRam (ram : Memory) (mem : BitVec 30 → Word) : BitVec 30 → Word :=
  fun word =>
    if IsAppRam (4 * word.toNat) then
      wordOf fun index => ram (4 * word.toNat + index)
    else
      mem word

/-- The number and the arguments of a call, as the registers hold them. -/
def callOf {World : Type} (words : Vector UInt32 4) (arch : Arch World) :
    Call where
  number := .ofBitVec (arch.get 10)
  arg1 := .ofBitVec (arch.get 11)
  arg2 := .ofBitVec (arch.get 12)
  arg3 := .ofBitVec (arch.get 13)
  words := words

/-- The machine that a function in C sees. -/
def machineOf (arch : Arch Machine) : Machine :=
  { arch.world with ram := appRam arch.mem }

/--
What the compiler makes of `syscall_handler`: when the function returns, its
result is in `a0` and app RAM and the machine are as it left them; it may have
used other registers and its stack.
-/
def Handles
    (device : Device)
    (words : Vector UInt32 4)
    (program : Program Symbol Machine)
    (function : Arch Machine → Option (Arch Machine)) : Prop :=
  ∀ before value m,
    (syscallHandler device (callOf words before)).run (machineOf before) =
        .ok value m →
      ∃ after,
        function before = some after ∧
          ServesCall program before after ∧
            after.get a0 = BitVec.ofInt 32 value ∧
              (∀ address,
                IsAppRam address →
                  appRam after.mem address = m.ram address) ∧
                after.world = m

/-- The machine when the registers of the app have been saved. -/
def savedMachine (hart : Hart Machine) : Machine :=
  { hart.arch.world with
    ram :=
      appRam
        (framed (hart.arch.get sp - 128) savedRegs hart.arch.get
          hart.arch.mem) }

/-- The address of a byte in the frame below a stack pointer. -/
def InFrame (stack : Word) (address : Nat) : Prop :=
  4 * ((stack - 128).toNat / 4) ≤ address ∧
    address < 4 * ((stack - 128).toNat / 4) + 128

end Definitions

section Agreement

/-- App RAM does not contain the variables of `start.S`. -/
theorem appRam_congr
    {mem mem' : BitVec 30 → Word}
    (same :
      ∀ word : BitVec 30,
        IsAppRam (4 * word.toNat) → mem word = mem' word) :
    appRam mem = appRam mem' := by
  funext address
  rw [appRam, appRam]
  split
  case isTrue inside =>
    obtain ⟨low, high⟩ := isAppRam_iff.mp inside
    rw [byteAt, byteAt, same]
    rw [isAppRam_iff, BitVec.toNat_ofNat]
    omega
  case isFalse => rfl

theorem isAppRam_ne
    {word : BitVec 30}
    {cell : Word}
    (inside : IsAppRam (4 * word.toNat))
    (isVariable : InFwRam cell) :
    word ≠ wordAddr cell := by
  obtain ⟨low, high⟩ := isAppRam_iff.mp inside
  obtain ⟨low', high'⟩ := isVariable
  rintro rfl
  simp only [wordAddr, BitVec.extractLsb'_toNat, Nat.shiftRight_eq_div_pow]
    at low high
  omega

/-- A word of app RAM is known by its bytes. -/
theorem eq_of_appRam
    {mem mem' : BitVec 30 → Word}
    {word : BitVec 30}
    (inside : IsAppRam (4 * word.toNat))
    (same :
      ∀ index, index < 4 →
        appRam mem (4 * word.toNat + index) =
          appRam mem' (4 * word.toNat + index)) :
    mem word = mem' word := by
  apply eq_of_byteOf
  intro index isIndex
  have bytes := same index isIndex
  obtain ⟨low, high⟩ := isAppRam_iff.mp inside
  have byteInside : IsAppRam (4 * word.toNat + index) := by
    rw [isAppRam_iff]
    omega
  have quotient : (4 * word.toNat + index) / 4 = word.toNat := by
    omega
  have remainder : (4 * word.toNat + index) % 4 = index := by
    omega
  rwa [appRam, appRam, if_pos byteInside, if_pos byteInside, byteAt, byteAt,
    quotient, remainder, BitVec.ofNat_toNat, BitVec.setWidth_eq] at bytes

/-- What `syscall_handler` sees when the app calls `syscall`. -/
theorem CalledBy.machineOf
    {program : Program Symbol Machine}
    (linked : LinkedFirmware program)
    {hart : Hart Machine}
    {before : Arch Machine}
    (calls : CalledBy program hart before) :
    machineOf before = savedMachine hart := by
  have ram :
      appRam before.mem =
        appRam
          (framed (hart.arch.get sp - 128) savedRegs hart.arch.get
            hart.arch.mem) :=
    appRam_congr fun word inside =>
      calls.mem word (isAppRam_ne inside linked.irqRetAddr)
        (isAppRam_ne inside linked.appSp)
  rw [TKey.machineOf, savedMachine, calls.world, ram]

theorem CalledBy.callOf
    {program : Program Symbol Machine}
    {hart : Hart Machine}
    {before : Arch Machine}
    (calls : CalledBy program hart before)
    (words : Vector UInt32 4) :
    callOf words before = callOf words hart.arch := by
  rw [TKey.callOf, TKey.callOf, calls.args 10 (by decide),
    calls.args 11 (by decide), calls.args 12 (by decide),
    calls.args 13 (by decide)]

/-- The words of the frame. -/
theorem slot_toNat
    {stack : Word}
    (frame : HasFrame stack)
    (reg : Reg) :
    (slot (stack - 128) reg).toNat = (stack - 128).toNat / 4 + reg.val := by
  obtain ⟨low, high⟩ := frame
  have small := reg.isLt
  have below := stack.isLt
  have room : (128 : Word).toNat = 128 := rfl
  rw [slot, wordAddr, words, BitVec.extractLsb'_toNat, BitVec.toNat_add,
    BitVec.toNat_sub, BitVec.toNat_ofNat, room, Nat.shiftRight_eq_div_pow]
  omega

/--
An app calls `syscall` with the number and the arguments of a call.  If
`syscallHandler` returns and does not write to the frame below the stack
pointer, the app goes on behind the call with the value in `a0`, all its other
registers as they were, and app RAM and the machine as `syscallHandler` left
them.
-/
theorem syscall_runs_handler
    {device : Device}
    {words : Vector UInt32 4}
    {program : Program Symbol Machine}
    (linked : LinkedFirmware program)
    (app : LinkedSyscall program)
    {function : Arch Machine → Option (Arch Machine)}
    (isHandler :
      program.foreign (program.symbol .syscallHandler) = some function)
    (handles : Handles device words program function)
    {hart : Hart Machine}
    (running : Running program hart)
    {value : Int}
    {m : Machine}
    (returns :
      (syscallHandler device (TKey.callOf words hart.arch)).run
          (savedMachine hart) =
        .ok value m)
    (frameKept :
      ∀ address,
        InFrame (hart.arch.get sp) address →
          m.ram address = (savedMachine hart).ram address) :
    ∃ hart',
      Runs program hart hart' ∧
        hart'.pc = even (hart.arch.get ra) ∧
          hart'.arch.get a0 = BitVec.ofInt 32 value ∧
            (∀ reg, reg ≠ a0 → hart'.arch.get reg = hart.arch.get reg) ∧
              (∀ address,
                IsAppRam address →
                  appRam hart'.arch.mem address = m.ram address) ∧
                hart'.arch.world = m ∧
                  hart'.arch.irqActive = false := by
  obtain ⟨before, calls, serves⟩ :=
    syscall_returns linked app isHandler running
  rw [← calls.machineOf linked, ← calls.callOf words] at returns
  obtain ⟨after, isAfter, served, result, ram, world⟩ :=
    handles before value m returns
  have kept (reg : Reg) (isSaved : reg ∈ savedRegs) :
      after.mem (slot (hart.arch.get sp - 128) reg) =
        before.mem (slot (hart.arch.get sp - 128) reg) := by
    have isSlot := slot_toNat running.stack reg
    obtain ⟨low, high⟩ := running.stack
    have small := reg.isLt
    have below := (hart.arch.get sp).isLt
    have base :
        (hart.arch.get sp - 128).toNat = (hart.arch.get sp).toNat - 128 := by
      rw [BitVec.toNat_sub, show (128 : Word).toNat = 128 from rfl]
      omega
    have inside :
        IsAppRam (4 * (slot (hart.arch.get sp - 128) reg).toNat) := by
      rw [isSlot, base, isAppRam_iff]
      omega
    refine eq_of_appRam inside fun index isIndex => ?_
    have inFrame :
        InFrame (hart.arch.get sp)
          (4 * (slot (hart.arch.get sp - 128) reg).toNat + index) := by
      rw [isSlot, InFrame]
      omega
    have isRam :
        IsAppRam
          (4 * (slot (hart.arch.get sp - 128) reg).toNat + index) := by
      rw [isSlot, base, isAppRam_iff]
      omega
    rw [ram _ isRam, frameKept _ inFrame, ← calls.machineOf linked]
    rfl
  obtain ⟨hart', runs, returned⟩ := serves after isAfter served kept
  refine
    ⟨hart', runs, returned.pc, returned.result.trans result, returned.regs,
      fun address inside => ?_, returned.world.trans world,
      returned.irqActive⟩
  rw [returned.mem, ram address inside]

end Agreement

section Compiled

/-- `syscall_handler` as a function that uses no other registers. -/
def compiledHandler (device : Device) (words : Vector UInt32 4) :
    Arch Machine → Option (Arch Machine) := fun before =>
  match (syscallHandler device (callOf words before)).run
      (machineOf before) with
  | .ok value m =>
      some
        { before.set a0 (BitVec.ofInt 32 value) with
          mem := withAppRam m.ram before.mem
          world := m }
  | .error _ _ => none

theorem appRam_withAppRam
    (ram : Memory)
    (mem : BitVec 30 → Word)
    {address : Nat}
    (inside : IsAppRam address) :
    appRam (withAppRam ram mem) address = ram address := by
  obtain ⟨low, high⟩ := isAppRam_iff.mp inside
  have index : (BitVec.ofNat 30 (address / 4)).toNat = address / 4 := by
    rw [BitVec.toNat_ofNat]
    omega
  have isWord : IsAppRam (4 * (address / 4)) := by
    rw [isAppRam_iff]
    omega
  rw [appRam, if_pos ⟨low, high⟩, byteAt, withAppRam, index, if_pos isWord,
    byteOf_wordOf _ (Nat.mod_lt _ (by decide)), Nat.div_add_mod]

theorem compiledHandler_handles
    (device : Device)
    (words : Vector UInt32 4)
    {program : Program Symbol Machine}
    (linked : LinkedFirmware program) :
    Handles device words program (compiledHandler device words) := by
  intro before value m returns
  have keeps (cell : Word) (isVariable : InFwRam cell) :
      withAppRam m.ram before.mem (wordAddr cell) =
        before.mem (wordAddr cell) :=
    if_neg fun inside => isAppRam_ne inside isVariable rfl
  refine
    ⟨{ before.set a0 (BitVec.ofInt 32 value) with
        mem := withAppRam m.ram before.mem
        world := m }, ?_, ?_, ?_, ?_, rfl⟩
  · rw [compiledHandler, returns]
  · exact
      { irqRetAddr := keeps _ linked.irqRetAddr
        appSp := keeps _ linked.appSp
        irqMask := rfl
        irqPending := rfl
        irqActive := rfl }
  · exact Arch.get_set_self before (by decide) _
  · intro address inside
    exact appRam_withAppRam m.ram before.mem inside

/-- Text as a linker may place it, with instructions of four bytes. -/
def sampleFetch (base : Nat) (text : List (Line Symbol)) (address : Word) :
    Option (Fetched Symbol) :=
  let instrs :=
    text.filterMap fun line =>
      match line with
      | .instr instr => some instr
      | .label _ => none
  (instrs[(address.toNat - base) / 4]?).map fun instr =>
    { instr := instr, size := 4, compressed := false }

def sampleProgram : Program Symbol Machine where
  fetch := fun address =>
    if address.toNat < 0x1000 then
      sampleFetch 0x10 irqHandlerText address
    else
      sampleFetch 0x40001000 syscallText address
  symbol := fun symbol =>
    match symbol with
    | .unexpectedIrqSource => 0x18
    | .irqSourceOk => 0x20
    | .x3Invalid => 0x5c
    | .x3Valid => 0x64
    | .irqRetAddr => 0xd0000bd0
    | .appSp => 0xd0000bd4
    | .estack => 0xd0000bc0
    | .syscallHandler => 0x1000
    | .syscall => 0x40001000
    | _ => 0
  foreign := fun address =>
    if address = 0x1000 then
      some (compiledHandler .sample plainWords)
    else
      none
  trigger := isTrigger
  line := 31
  vector := 0x10

/-- An app that calls `syscall` for the vendor and the product. -/
def sampleHart : Hart Machine where
  arch :=
    { regs := fun reg =>
        if reg = ra then 0x40000100
        else if reg = sp then 0x4001f000
        else if reg = a0 then 7
        else 0
      mem := fun _ => 0
      irqMask := 0x7fffffff
      irqPending := false
      irqActive := false
      world := .provisioned .sample }
  pc := 0x40001000
  irqDelay := false
  latchedCompr := false

theorem sampleProgram_firmware : LinkedFirmware sampleProgram where
  line := rfl
  vector := rfl
  trigger := rfl
  irqHandler := by decide +kernel
  irqRetAddr := by decide
  appSp := by decide
  apart := by decide

theorem sampleProgram_syscall : LinkedSyscall sampleProgram where
  syscall := by decide +kernel
  resumes := by decide +kernel

theorem syscall_runs_handler_sample :
    ∃ hart',
      Runs sampleProgram sampleHart hart' ∧
        hart'.pc = 0x40000100 ∧
          hart'.arch.get a0 = 0x01337080 ∧
            hart'.arch.irqActive = false := by
  have running : Running sampleProgram sampleHart :=
    { pc := rfl
      stack := by decide
      irqMask := by decide
      irqPending := rfl
      irqActive := rfl }
  have returns :
      (syscallHandler .sample (callOf plainWords sampleHart.arch)).run
          (savedMachine sampleHart) =
        .ok 0x01337080 (savedMachine sampleHart) :=
    rfl
  obtain ⟨hart', runs, pc, result, _, _, _, active⟩ :=
    syscall_runs_handler sampleProgram_firmware sampleProgram_syscall rfl
      (compiledHandler_handles .sample plainWords sampleProgram_firmware)
      running returns fun _ _ => rfl
  exact ⟨hart', runs, pc, result, active⟩

/-- Code in `FW_RAM` that has raised the interrupt. -/
def straySample : Hart Machine :=
  { sampleHart with
    arch := { sampleHart.arch with irqPending := true }
    pc := 0xd0000c00 }

theorem irq_confined_sample :
    ∃ stopped, Trapped sampleProgram straySample stopped := by
  obtain ⟨before, entered, serves⟩ :=
    @irq_confined _ _ sampleProgram_firmware (compiledHandler .sample plainWords)
      rfl straySample (by decide)
      (by decide)
  have isCall :
      callOf plainWords before = callOf plainWords straySample.arch := by
    rw [callOf, callOf, entered.args 10 (by decide),
      entered.args 11 (by decide), entered.args 12 (by decide),
      entered.args 13 (by decide)]
  obtain ⟨after, isAfter, served, _⟩ :=
    compiledHandler_handles .sample plainWords sampleProgram_firmware before
      0x01337080 (machineOf before) (by rw [isCall]; rfl)
  exact serves after isAfter served

end Compiled

end TKey
