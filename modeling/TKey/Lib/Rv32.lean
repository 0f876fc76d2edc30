import Mathlib

namespace Rv32

/-!
# A small RV32 hart

The instructions that hand-written start-up and trap code is made of, on a
core that drops the low bits of addresses: an access to memory is an access to
the word around its address, and jumps go to even addresses.  There is one
interrupt line.  A store to a trigger address raises it, and the hart then
leaves the return address in `x3` and the pending lines in `x4`.

Code is given as assembly text, placed at an address.  Functions that are
written in another language are steps of their own.
-/

section Machine

abbrev Word := BitVec 32

abbrev Reg := Fin 32

/-- There are registers, and so numbers for them. -/
scoped instance neZeroRegs : NeZero 32 :=
  ⟨by decide⟩

/-- The word of memory at an address. -/
def wordAddr (address : Word) : BitVec 30 :=
  address.extractLsb' 2 30

/-- An address without its lowest bit. -/
def even (address : Word) : Word :=
  address &&& ~~~1#32

/-- The instructions, with symbols for addresses. -/
inductive Instr (Symbol : Type) where
  | li (rd : Reg) (value : Word)
  | la (rd : Reg) (symbol : Symbol)
  | mv (rd rs : Reg)
  | addi (rd rs : Reg) (imm : Word)
  | lw (rd : Reg) (offset : Word) (base : Reg)
  | sw (rs : Reg) (offset : Word) (base : Reg)
  | beq (rs1 rs2 : Reg) (target : Symbol)
  | blt (rs1 rs2 : Reg) (target : Symbol)
  | bge (rs1 rs2 : Reg) (target : Symbol)
  | j (target : Symbol)
  | call (target : Symbol)
  | jr (rs : Reg)
  /-- Return from the interrupt. -/
  | retirq
  /-- Swap the mask of the interrupts. -/
  | maskirq (rd rs : Reg)
  | illegal
  deriving DecidableEq

/-- A line of assembly text. -/
inductive Line (Symbol : Type) where
  | label (symbol : Symbol)
  | instr (instr : Instr Symbol)
  deriving DecidableEq

/-- What instructions work on. -/
structure Arch (World : Type) where
  /-- The registers; the first one is not used. -/
  regs : Reg → Word
  mem : BitVec 30 → Word
  irqMask : Word
  /-- The interrupt line has been raised. -/
  irqPending : Bool
  /-- An interrupt is being handled. -/
  irqActive : Bool
  /-- Everything that only functions in another language see. -/
  world : World

/-- The state of a hart. -/
structure Hart (World : Type) where
  arch : Arch World
  pc : Word
  /-- No interrupt is taken before the next instruction. -/
  irqDelay : Bool
  /-- The last instruction was a compressed one. -/
  latchedCompr : Bool

/-- An instruction in memory. -/
structure Fetched (Symbol : Type) where
  instr : Instr Symbol
  size : Word
  compressed : Bool

/-- A linked program on its platform. -/
structure Program (Symbol World : Type) where
  fetch : Word → Option (Fetched Symbol)
  symbol : Symbol → Word
  /-- Functions in another language, by the address of their entry. -/
  foreign : Word → Option (Arch World → Option (Arch World))
  /-- The words where a store raises the interrupt line. -/
  trigger : BitVec 30 → Bool
  /-- The number of the interrupt line. -/
  line : Nat
  /-- Where interrupts are handled. -/
  vector : Word

variable {Symbol World : Type}

namespace Arch

/-- A register; `x0` is zero. -/
def get (arch : Arch World) (reg : Reg) : Word :=
  if reg = 0 then 0 else arch.regs reg

def set (arch : Arch World) (rd : Reg) (value : Word) : Arch World :=
  { arch with
    regs := fun reg => if reg = rd then value else arch.regs reg }

def load (arch : Arch World) (address : Word) : Word :=
  arch.mem (wordAddr address)

/-- A store writes a word or raises the interrupt line. -/
def store
    (program : Program Symbol World)
    (arch : Arch World)
    (address value : Word) : Arch World :=
  if program.trigger (wordAddr address) then
    { arch with irqPending := true }
  else
    { arch with
      mem := fun word =>
        if word = wordAddr address then value else arch.mem word }

end Arch

/-- What an instruction does, apart from where it goes. -/
def Instr.effect
    (program : Program Symbol World)
    (next : Word)
    (arch : Arch World) : Instr Symbol → Arch World
  | .li rd value => arch.set rd value
  | .la rd symbol => arch.set rd (program.symbol symbol)
  | .mv rd rs => arch.set rd (arch.get rs)
  | .addi rd rs imm => arch.set rd (arch.get rs + imm)
  | .lw rd offset base => arch.set rd (arch.load (arch.get base + offset))
  | .sw rs offset base =>
      arch.store program (arch.get base + offset) (arch.get rs)
  | .call _ => arch.set 1 next
  | .retirq => { arch with irqActive := false }
  | .maskirq rd rs =>
      -- Lines other than the one there is stay masked.
      { arch.set rd arch.irqMask with
        irqMask := arch.get rs ||| ~~~(1#32 <<< program.line) }
  | _ => arch

/-- Where an instruction goes. -/
def Instr.goes
    (program : Program Symbol World)
    (next : Word)
    (arch : Arch World) : Instr Symbol → Word
  | .beq rs1 rs2 target =>
      if arch.get rs1 = arch.get rs2 then program.symbol target else next
  | .blt rs1 rs2 target =>
      if (arch.get rs1).slt (arch.get rs2) then
        program.symbol target
      else
        next
  | .bge rs1 rs2 target =>
      if (arch.get rs1).slt (arch.get rs2) then
        next
      else
        program.symbol target
  | .j target => program.symbol target
  | .call target => program.symbol target
  | .jr rs => even (arch.get rs)
  | .retirq => even (arch.get 3)
  | _ => next

namespace Hart

/-- The interrupt is taken before the next instruction. -/
def Interrupted (program : Program Symbol World) (hart : Hart World) : Prop :=
  hart.arch.irqPending = true ∧ hart.arch.irqActive = false ∧
    hart.irqDelay = false ∧ hart.arch.irqMask.getLsbD program.line = false

instance (program : Program Symbol World) (hart : Hart World) :
    Decidable (hart.Interrupted program) :=
  inferInstanceAs (Decidable (_ ∧ _ ∧ _ ∧ _))

/-- What an interrupt leaves in `x3`. -/
def returnAddress (hart : Hart World) : Word :=
  hart.pc ||| if hart.latchedCompr then 1#32 else 0#32

/-- The hart after it has taken the interrupt. -/
def interrupt (program : Program Symbol World) (hart : Hart World) :
    Hart World :=
  { hart with
    arch :=
      { (hart.arch.set 3 hart.returnAddress).set 4
          (1#32 <<< program.line) with
        irqPending := false
        irqActive := true }
    pc := program.vector }

/-- The hart after an instruction; an illegal one stops it. -/
def exec
    (program : Program Symbol World)
    (hart : Hart World)
    (fetched : Fetched Symbol) : Option (Hart World) :=
  match fetched.instr with
  | .illegal => none
  | instr =>
      let next := hart.pc + fetched.size
      some
        { arch := instr.effect program next hart.arch
          pc := instr.goes program next hart.arch
          irqDelay := hart.arch.irqActive
          latchedCompr := fetched.compressed }

/-- One step; `none` when the hart does not go on. -/
def step (program : Program Symbol World) (hart : Hart World) :
    Option (Hart World) :=
  if hart.Interrupted program then
    some (hart.interrupt program)
  else
    match program.foreign hart.pc with
    | some function =>
        (function hart.arch).map fun arch =>
          { hart with
            arch := arch
            pc := even (hart.arch.get 1)
            irqDelay := hart.arch.irqActive }
    | none =>
        match program.fetch hart.pc with
        | some fetched => hart.exec program fetched
        | none => none

end Hart

/-- Steps one after the other. -/
abbrev Runs (program : Program Symbol World) :
    Hart World → Hart World → Prop :=
  Relation.ReflTransGen fun hart hart' => hart.step program = some hart'

/-- The size of the instruction at an address. -/
def Program.sizeAt (program : Program Symbol World) (address : Word) : Word :=
  ((program.fetch address).map Fetched.size).getD 0

/-- Assembly text is in memory from an address on. -/
def Program.Placed (program : Program Symbol World) :
    Word → List (Line Symbol) → Prop
  | _, [] => True
  | address, .label symbol :: text =>
      program.symbol symbol = address ∧ program.Placed address text
  | address, .instr instr :: text =>
      even address = address ∧
        (program.foreign address).isNone = true ∧
          (program.fetch address).map Fetched.instr = some instr ∧
            program.Placed (address + program.sizeAt address) text

instance Program.decidablePlaced
    [DecidableEq Symbol]
    (program : Program Symbol World) :
    (address : Word) → (text : List (Line Symbol)) →
      Decidable (program.Placed address text)
  | _, [] => .isTrue trivial
  | address, .label _ :: text =>
      have := program.decidablePlaced address text
      inferInstanceAs (Decidable (_ ∧ _))
  | address, .instr _ :: text =>
      have :=
        program.decidablePlaced (address + program.sizeAt address) text
      inferInstanceAs (Decidable (_ ∧ _ ∧ _ ∧ _))

/-- The address behind assembly text. -/
def Program.after (program : Program Symbol World) :
    Word → List (Line Symbol) → Word
  | address, [] => address
  | address, .label _ :: text => program.after address text
  | address, .instr _ :: text =>
      program.after (address + program.sizeAt address) text

end Machine

section Registers

variable {Symbol World : Type} (program : Program Symbol World)

namespace Arch

variable (arch : Arch World)

@[simp] theorem get_zero : arch.get 0 = 0 :=
  rfl

theorem get_set (rd reg : Reg) (value : Word) :
    (arch.set rd value).get reg =
      if reg = 0 then 0 else if reg = rd then value else arch.get reg := by
  rw [get, set, get]
  split <;> rfl

theorem get_set_self {rd : Reg} (stored : rd ≠ 0) (value : Word) :
    (arch.set rd value).get rd = value := by
  rw [get_set, if_neg stored, if_pos rfl]

theorem get_set_of_ne {rd reg : Reg} (other : reg ≠ rd) (value : Word) :
    (arch.set rd value).get reg = arch.get reg := by
  rw [get_set, if_neg other]
  by_cases isZero : reg = 0
  · rw [if_pos isZero, isZero, get_zero]
  · rw [if_neg isZero]

theorem set_get_self {rd : Reg} (stored : rd ≠ 0) :
    arch.set rd (arch.get rd) = arch := by
  have same :
      (fun reg => if reg = rd then arch.get rd else arch.regs reg) =
        arch.regs := by
    funext reg
    by_cases isReg : reg = rd
    · rw [if_pos isReg, isReg, get, if_neg stored]
    · rw [if_neg isReg]
  rw [set, same]

theorem set_set (rd : Reg) (first second : Word) :
    (arch.set rd first).set rd second = arch.set rd second := by
  simp only [set, mk.injEq, and_true]
  funext reg
  by_cases isReg : reg = rd
  · rw [if_pos isReg, if_pos isReg]
  · rw [if_neg isReg, if_neg isReg, if_neg isReg]

@[simp] theorem mem_set (rd : Reg) (value : Word) :
    (arch.set rd value).mem = arch.mem :=
  rfl

@[simp] theorem world_set (rd : Reg) (value : Word) :
    (arch.set rd value).world = arch.world :=
  rfl

@[simp] theorem irqActive_set (rd : Reg) (value : Word) :
    (arch.set rd value).irqActive = arch.irqActive :=
  rfl

@[simp] theorem irqPending_set (rd : Reg) (value : Word) :
    (arch.set rd value).irqPending = arch.irqPending :=
  rfl

@[simp] theorem irqMask_set (rd : Reg) (value : Word) :
    (arch.set rd value).irqMask = arch.irqMask :=
  rfl

/-- A store to memory writes a word. -/
theorem store_of_memory
    {address : Word}
    (memory : program.trigger (wordAddr address) = false)
    (value : Word) :
    arch.store program address value =
      { arch with
        mem := fun word =>
          if word = wordAddr address then value else arch.mem word } := by
  rw [store, memory]
  rfl

/-- A store to a trigger raises the interrupt line. -/
theorem store_of_trigger
    {address : Word}
    (triggers : program.trigger (wordAddr address) = true)
    (value : Word) :
    arch.store program address value = { arch with irqPending := true } := by
  rw [store, triggers]
  rfl

@[simp] theorem get_store (address value : Word) (reg : Reg) :
    (arch.store program address value).get reg = arch.get reg := by
  rw [store]
  split <;> rfl

@[simp] theorem irqActive_store (address value : Word) :
    (arch.store program address value).irqActive = arch.irqActive := by
  rw [store]
  split <;> rfl

@[simp] theorem irqMask_store (address value : Word) :
    (arch.store program address value).irqMask = arch.irqMask := by
  rw [store]
  split <;> rfl

@[simp] theorem world_store (address value : Word) :
    (arch.store program address value).world = arch.world := by
  rw [store]
  split <;> rfl

end Arch

end Registers

section Runs

variable {Symbol World : Type} {program : Program Symbol World}

/-- An instruction that is followed by the next one. -/
def Instr.straight : Instr Symbol → Bool
  | .li .. | .la .. | .mv .. | .addi .. | .lw .. | .sw .. | .maskirq .. => true
  | _ => false

theorem Instr.goes_of_straight
    {instr : Instr Symbol}
    (straight : instr.straight = true)
    (next : Word)
    (arch : Arch World) :
    instr.goes program next arch = next := by
  cases instr <;> first | rfl | exact Bool.noConfusion straight

theorem Instr.effect_of_straight
    {instr : Instr Symbol}
    (straight : instr.straight = true)
    (next : Word)
    (arch : Arch World) :
    instr.effect program next arch = instr.effect program 0 arch := by
  cases instr <;> first | rfl | exact Bool.noConfusion straight

/-- What instructions that follow each other do. -/
def effects
    (program : Program Symbol World)
    (instrs : List (Instr Symbol))
    (arch : Arch World) : Arch World :=
  instrs.foldl (fun arch instr => instr.effect program 0 arch) arch

@[simp] theorem effects_nil (arch : Arch World) :
    effects program [] arch = arch :=
  rfl

@[simp] theorem effects_cons
    (instr : Instr Symbol)
    (instrs : List (Instr Symbol))
    (arch : Arch World) :
    effects program (instr :: instrs) arch =
      effects program instrs (instr.effect program 0 arch) :=
  rfl

theorem effects_append
    (first second : List (Instr Symbol))
    (arch : Arch World) :
    effects program (first ++ second) arch =
      effects program second (effects program first arch) :=
  List.foldl_append

/-- No interrupt can be taken. -/
def Arch.Quiet (arch : Arch World) : Prop :=
  arch.irqActive = true ∨ arch.irqPending = false

theorem Arch.Quiet.not_interrupted
    {hart : Hart World}
    (quiet : hart.arch.Quiet) :
    ¬ hart.Interrupted program := by
  rintro ⟨pending, active, _⟩
  rcases quiet with isActive | notPending
  · rw [isActive] at active
    cases active
  · rw [notPending] at pending
    cases pending

/-- Instructions that follow each other do not lower the interrupt line. -/
theorem Arch.Quiet.of_effect
    {instr : Instr Symbol}
    {arch : Arch World}
    (straight : instr.straight = true)
    (quiet : (instr.effect program 0 arch).Quiet) :
    arch.Quiet := by
  cases instr with
  | sw rs offset base =>
      rcases quiet with active | notPending
      · exact .inl (by simpa [Instr.effect] using active)
      · rw [Instr.effect, Arch.store] at notPending
        split at notPending
        · cases notPending
        · exact .inr notPending
  | li | la | mv | addi | lw | maskirq => exact quiet
  | _ => cases straight

theorem Arch.Quiet.of_effects
    {instrs : List (Instr Symbol)}
    {arch : Arch World}
    (straight : ∀ instr, instr ∈ instrs → instr.straight = true)
    (quiet : (effects program instrs arch).Quiet) :
    arch.Quiet := by
  induction instrs generalizing arch with
  | nil =>
      exact quiet
  | cons instr instrs inductionHypothesis =>
      have later :=
        inductionHypothesis
          (fun later member => straight later (List.mem_cons_of_mem _ member))
          quiet
      exact .of_effect (straight instr (List.mem_cons_self ..)) later

/-- An instruction in memory is carried out. -/
theorem Program.Placed.step
    {hart : Hart World}
    {instr : Instr Symbol}
    {text : List (Line Symbol)}
    (placed : program.Placed hart.pc (.instr instr :: text))
    (calm : ¬ hart.Interrupted program)
    (legal : instr ≠ .illegal) :
    ∃ compressed,
      hart.step program =
        some
          { arch :=
              instr.effect program
                (program.after hart.pc [.instr instr]) hart.arch
            pc :=
              instr.goes program (program.after hart.pc [.instr instr])
                hart.arch
            irqDelay := hart.arch.irqActive
            latchedCompr := compressed } := by
  obtain ⟨_, inside, fetches, _⟩ := placed
  obtain ⟨fetched, isFetched, isInstr⟩ := Option.map_eq_some_iff.mp fetches
  refine ⟨fetched.compressed, ?_⟩
  rw [Hart.step, if_neg calm, Option.isNone_iff_eq_none.mp inside,
    Program.after, Program.sizeAt, isFetched]
  simp only [Hart.exec, isInstr, Program.after]
  rfl

/-- A hart that can stop does so, however far it has gone. -/
theorem Runs.to_stopped
    {hart later stopped : Hart World}
    (stops : Runs program hart stopped)
    (stuck : stopped.step program = none)
    (runs : Runs program hart later) :
    Runs program later stopped := by
  have unique :
      Relator.RightUnique fun hart hart' : Hart World =>
        hart.step program = some hart' :=
    fun _ _ _ left right => Option.some.inj (left.symm.trans right)
  rcases runs.total_of_right_unique unique stops with onWay | beyond
  · exact onWay
  · rcases beyond.cases_head with same | ⟨_, steps, _⟩
    · exact same ▸ .refl
    · rw [stuck] at steps
      cases steps

/-- An instruction is carried out when no interrupt can be taken. -/
theorem Program.Placed.runs
    {hart : Hart World}
    {instr : Instr Symbol}
    {text : List (Line Symbol)}
    (placed : program.Placed hart.pc (.instr instr :: text))
    (quiet : hart.arch.Quiet)
    (legal : instr ≠ .illegal) :
    ∃ hart',
      Runs program hart hart' ∧
        hart'.arch =
            instr.effect program (program.after hart.pc [.instr instr])
              hart.arch ∧
          hart'.pc =
            instr.goes program (program.after hart.pc [.instr instr])
              hart.arch := by
  obtain ⟨_, steps⟩ := placed.step quiet.not_interrupted legal
  exact ⟨_, .single steps, rfl, rfl⟩

/-- A function in another language is carried out and returns. -/
theorem runs_foreign
    {hart : Hart World}
    {function : Arch World → Option (Arch World)}
    (isForeign : program.foreign hart.pc = some function)
    (quiet : hart.arch.Quiet)
    {arch : Arch World}
    (returns : function hart.arch = some arch) :
    ∃ hart',
      Runs program hart hart' ∧
        hart'.arch = arch ∧ hart'.pc = even (hart.arch.get 1) := by
  have steps :
      hart.step program =
        some
          { hart with
            arch := arch
            pc := even (hart.arch.get 1)
            irqDelay := hart.arch.irqActive } := by
    rw [Hart.step, if_neg quiet.not_interrupted, isForeign]
    simp only [returns, Option.map_some]
  exact ⟨_, .single steps, rfl, rfl⟩

/-- An illegal instruction stops the hart. -/
theorem Program.Placed.step_illegal
    {hart : Hart World}
    {text : List (Line Symbol)}
    (placed : program.Placed hart.pc (.instr .illegal :: text))
    (calm : ¬ hart.Interrupted program) :
    hart.step program = none := by
  obtain ⟨_, inside, fetches, _⟩ := placed
  obtain ⟨fetched, isFetched, isInstr⟩ := Option.map_eq_some_iff.mp fetches
  rw [Hart.step, if_neg calm, Option.isNone_iff_eq_none.mp inside, isFetched]
  simp only [Hart.exec, isInstr]

/-- The rest of a text is behind the first part. -/
theorem Program.Placed.append
    {address : Word}
    {first rest : List (Line Symbol)}
    (placed : program.Placed address (first ++ rest)) :
    program.Placed (program.after address first) rest := by
  induction first generalizing address with
  | nil =>
      exact placed
  | cons line first inductionHypothesis =>
      cases line with
      | label => exact inductionHypothesis placed.2
      | instr => exact inductionHypothesis placed.2.2.2

/-- The rest of a text is behind the first instruction. -/
theorem Program.Placed.next
    {address : Word}
    {instr : Instr Symbol}
    {text : List (Line Symbol)}
    (placed : program.Placed address (.instr instr :: text)) :
    program.Placed (program.after address [.instr instr]) text :=
  placed.2.2.2

/-- The text behind a label is where the label points. -/
theorem Program.Placed.label
    {address : Word}
    {symbol : Symbol}
    {text : List (Line Symbol)}
    (before : List (Line Symbol))
    (placed : program.Placed address (before ++ .label symbol :: text)) :
    program.Placed (program.symbol symbol) text := by
  obtain ⟨isHere, rest⟩ := placed.append
  rwa [isHere]

theorem Program.after_append
    (address : Word)
    (first rest : List (Line Symbol)) :
    program.after address (first ++ rest) =
      program.after (program.after address first) rest := by
  induction first generalizing address with
  | nil =>
      rfl
  | cons line first inductionHypothesis =>
      cases line with
      | label => exact inductionHypothesis address
      | instr => exact inductionHypothesis _

theorem Program.Placed.even
    {address : Word}
    {instr : Instr Symbol}
    {text : List (Line Symbol)}
    (placed : program.Placed address (.instr instr :: text)) :
    even address = address :=
  placed.1

/-- Instructions that follow each other are carried out one by one. -/
theorem runs_straight
    {instrs : List (Instr Symbol)}
    {text : List (Line Symbol)}
    {hart : Hart World}
    (placed : program.Placed hart.pc (instrs.map .instr ++ text))
    (straight : ∀ instr, instr ∈ instrs → instr.straight = true)
    (quiet : (effects program instrs hart.arch).Quiet) :
    ∃ hart',
      Runs program hart hart' ∧
        hart'.arch = effects program instrs hart.arch ∧
          hart'.pc = program.after hart.pc (instrs.map .instr) ∧
            (hart.irqDelay = false → hart.arch.irqActive = false →
              hart'.irqDelay = false ∧ hart'.arch.irqActive = false) := by
  induction instrs generalizing hart with
  | nil =>
      exact ⟨hart, .refl, rfl, rfl, fun delay active => ⟨delay, active⟩⟩
  | cons instr instrs inductionHypothesis =>
      have isStraight := straight instr (List.mem_cons_self ..)
      have later (instr : Instr Symbol) (member : instr ∈ instrs) :=
        straight instr (List.mem_cons_of_mem _ member)
      have calm : ¬ hart.Interrupted program :=
        (Arch.Quiet.of_effects straight quiet).not_interrupted
      obtain ⟨compressed, steps⟩ :=
        placed.step calm (by rintro rfl; cases isStraight)
      have rest :
          program.Placed (program.after hart.pc [.instr instr])
            (instrs.map .instr ++ text) :=
        Program.Placed.append placed
      rw [Instr.goes_of_straight isStraight,
        Instr.effect_of_straight isStraight] at steps
      obtain ⟨hart', runs, arch, after, delay⟩ :=
        @inductionHypothesis
          ⟨instr.effect program 0 hart.arch,
            program.after hart.pc [.instr instr], hart.arch.irqActive,
            compressed⟩
          rest later quiet
      have active :
          (instr.effect program 0 hart.arch).irqActive =
            hart.arch.irqActive := by
        cases instr <;> first | rfl | exact Arch.irqActive_store .. | cases isStraight
      refine
        ⟨hart', .head steps runs, arch, ?_,
          fun _ isActive => delay isActive (active.trans isActive)⟩
      rw [after, ← Program.after_append]
      rfl

/-- Instructions that follow each other, and one more that may go elsewhere. -/
theorem runs_block
    {instrs : List (Instr Symbol)}
    {last : Instr Symbol}
    {text : List (Line Symbol)}
    {hart : Hart World}
    (placed :
      program.Placed hart.pc (instrs.map .instr ++ .instr last :: text))
    (straight : ∀ instr, instr ∈ instrs → instr.straight = true)
    (quiet : (effects program instrs hart.arch).Quiet)
    (legal : last ≠ .illegal) :
    ∃ hart',
      Runs program hart hart' ∧
        hart'.arch =
            last.effect program
              (program.after hart.pc (instrs.map .instr ++ [.instr last]))
              (effects program instrs hart.arch) ∧
          hart'.pc =
            last.goes program
              (program.after hart.pc (instrs.map .instr ++ [.instr last]))
              (effects program instrs hart.arch) := by
  obtain ⟨middle, toMiddle, middleArch, middlePc, _⟩ :=
    runs_straight placed straight quiet
  have lastText := placed.append
  rw [← middlePc] at lastText
  rw [← middleArch] at quiet
  obtain ⟨hart', toHart', arch, pc⟩ := lastText.runs quiet legal
  rw [middlePc, middleArch, ← Program.after_append] at arch pc
  exact ⟨hart', toMiddle.trans toHart', arch, pc⟩

end Runs

section Interrupts

/-- The return address leads back to where the interrupt was taken. -/
theorem even_returnAddress
    {World : Type}
    {hart : Hart World}
    (atEven : even hart.pc = hart.pc) :
    even hart.returnAddress = hart.pc := by
  have split (bit : Word) : even (hart.pc ||| bit) = hart.pc ||| even bit := by
    rw [even, BitVec.and_or_distrib_right, ← even, ← even, atEven]
  rw [Hart.returnAddress, split]
  cases hart.latchedCompr <;> exact BitVec.or_zero

end Interrupts

section Frames

/-! Registers that are saved to consecutive words and loaded again. -/

variable {Symbol World : Type} {program : Program Symbol World}

/-- The distance between an address and the one some words later. -/
def words (count : Nat) : Word :=
  BitVec.ofNat 32 (4 * count)

theorem words_succ (count : Nat) : words (count + 1) = words count + 4 := by
  rw [words, Nat.mul_add, BitVec.ofNat_add, ← words]
  rfl

/-- The word of a register in a frame. -/
def slot (base : Word) (reg : Reg) : BitVec 30 :=
  wordAddr (base + words reg.val)

/-- Save registers to a frame. -/
def saveText (base : Reg) (regs : List Reg) : List (Instr Symbol) :=
  regs.map fun reg => .sw reg (words reg.val) base

/-- Load registers from a frame. -/
def loadText (base : Reg) (regs : List Reg) : List (Instr Symbol) :=
  regs.map fun reg => .lw reg (words reg.val) base

/-- Words follow each other. -/
theorem wordAddr_add (base : Word) {index : Nat} (small : index < 2 ^ 30) :
    wordAddr (base + words index) = wordAddr base + BitVec.ofNat 30 index := by
  apply BitVec.eq_of_toNat_eq
  have below := base.isLt
  simp only [wordAddr, words, BitVec.extractLsb'_toNat, BitVec.toNat_add,
    BitVec.toNat_ofNat, Nat.shiftRight_eq_div_pow]
  omega

theorem slot_injective {base : Word} {reg reg' : Reg} :
    slot base reg = slot base reg' ↔ reg = reg' := by
  have size (reg : Reg) : reg.val < 2 ^ 30 :=
    Nat.lt_trans reg.isLt (by decide)
  refine ⟨fun same => ?_, fun same => same ▸ rfl⟩
  rw [slot, slot, wordAddr_add base (size reg), wordAddr_add base (size reg'),
    BitVec.add_right_inj] at same
  have values := congrArg BitVec.toNat same
  rw [BitVec.toNat_ofNat, BitVec.toNat_ofNat, Nat.mod_eq_of_lt (size reg),
    Nat.mod_eq_of_lt (size reg')] at values
  exact Fin.ext values

/-- Memory with registers in a frame. -/
def framed
    (base : Word)
    (regs : List Reg)
    (value : Reg → Word)
    (mem : BitVec 30 → Word) : BitVec 30 → Word :=
  regs.foldl
    (fun mem reg word => if word = slot base reg then value reg else mem word)
    mem

theorem framed_of_not_mem
    {base : Word}
    {regs : List Reg}
    {word : BitVec 30}
    (outside : ∀ reg, reg ∈ regs → word ≠ slot base reg)
    (value : Reg → Word)
    (mem : BitVec 30 → Word) :
    framed base regs value mem word = mem word := by
  induction regs generalizing mem with
  | nil =>
      rfl
  | cons reg regs inductionHypothesis =>
      rw [framed, List.foldl_cons, ← framed,
        inductionHypothesis fun later member =>
          outside later (List.mem_cons_of_mem _ member),
        if_neg (outside reg (List.mem_cons_self ..))]

theorem framed_slot
    {base : Word}
    {regs : List Reg}
    {reg : Reg}
    (member : reg ∈ regs)
    (value : Reg → Word)
    (mem : BitVec 30 → Word) :
    framed base regs value mem (slot base reg) = value reg := by
  induction regs generalizing mem with
  | nil =>
      cases member
  | cons first regs inductionHypothesis =>
      rw [framed, List.foldl_cons, ← framed]
      by_cases later : reg ∈ regs
      · exact inductionHypothesis later _
      · have isFirst : reg = first :=
          (List.mem_cons.mp member).resolve_right later
        rw [framed_of_not_mem, if_pos (congrArg _ isFirst), isFirst]
        intro other inside same
        rw [slot_injective] at same
        exact later (same ▸ inside)

theorem framed_congr
    {base : Word}
    {regs : List Reg}
    {value value' : Reg → Word}
    (same : ∀ reg, reg ∈ regs → value reg = value' reg)
    (mem : BitVec 30 → Word) :
    framed base regs value mem = framed base regs value' mem := by
  induction regs generalizing mem with
  | nil =>
      rfl
  | cons reg regs inductionHypothesis =>
      rw [framed, framed, List.foldl_cons, List.foldl_cons, ← framed, ← framed,
        same reg (List.mem_cons_self ..),
        inductionHypothesis fun later member =>
          same later (List.mem_cons_of_mem _ member)]

/-- Saving registers writes the frame. -/
theorem effects_saveText
    {base : Reg}
    {regs : List Reg}
    {arch : Arch World}
    (memory :
      ∀ reg, reg ∈ regs →
        program.trigger (slot (arch.get base) reg) = false) :
    effects program (saveText base regs) arch =
      { arch with mem := framed (arch.get base) regs arch.get arch.mem } := by
  induction regs generalizing arch with
  | nil =>
      rfl
  | cons reg regs inductionHypothesis =>
      have stored :=
        arch.store_of_memory program (memory reg (List.mem_cons_self ..))
          (arch.get reg)
      have later :=
        @inductionHypothesis
          (arch.store program (arch.get base + words reg.val) (arch.get reg))
      rw [arch.get_store, stored] at later
      rw [saveText, List.map_cons, effects_cons, ← saveText, Instr.effect,
        stored,
        later fun later member => memory later (List.mem_cons_of_mem _ member)]
      rfl

/-- Loading registers reads the frame. -/
theorem effects_loadText
    {base : Reg}
    {regs : List Reg}
    (kept : base ∉ regs)
    (arch : Arch World) :
    effects program (loadText base regs) arch =
      { arch with
        regs := fun reg =>
          if reg ∈ regs then
            arch.mem (slot (arch.get base) reg)
          else
            arch.regs reg } := by
  induction regs generalizing arch with
  | nil =>
      simp [loadText]
  | cons first regs inductionHypothesis =>
      have otherBase : base ≠ first :=
        fun same => kept (same ▸ List.mem_cons_self ..)
      have keptLater : base ∉ regs :=
        fun member => kept (List.mem_cons_of_mem _ member)
      rw [loadText, List.map_cons, effects_cons, ← loadText, Instr.effect,
        inductionHypothesis keptLater, arch.get_set_of_ne otherBase]
      simp only [Arch.set, Arch.load, Arch.mk.injEq, and_true]
      funext reg
      by_cases later : reg ∈ regs
      · rw [if_pos later, if_pos (List.mem_cons_of_mem _ later)]
      · by_cases isFirst : reg = first
        · rw [if_neg later, if_pos isFirst,
            if_pos (isFirst ▸ List.mem_cons_self ..), isFirst, slot]
        · rw [if_neg later, if_neg isFirst, if_neg]
          rw [List.mem_cons]
          rintro (same | member)
          · exact isFirst same
          · exact later member

/-- Instructions that each put zero into a register. -/
theorem effects_zero
    {regs : List Reg}
    {zero : Reg → Instr Symbol}
    (zeroes :
      ∀ reg (arch : Arch World),
        (zero reg).effect program 0 arch = arch.set reg 0)
    (arch : Arch World) :
    effects program (regs.map zero) arch =
      { arch with
        regs := fun reg => if reg ∈ regs then 0 else arch.regs reg } := by
  induction regs generalizing arch with
  | nil =>
      simp
  | cons first regs inductionHypothesis =>
      rw [List.map_cons, effects_cons, zeroes, inductionHypothesis]
      simp only [Arch.set, Arch.mk.injEq, and_true]
      funext reg
      by_cases later : reg ∈ regs
      · rw [if_pos later, if_pos (List.mem_cons_of_mem _ later)]
      · by_cases isFirst : reg = first
        · rw [if_neg later, if_pos isFirst,
            if_pos (isFirst ▸ List.mem_cons_self ..)]
        · rw [if_neg later, if_neg isFirst, if_neg]
          rw [List.mem_cons]
          rintro (same | member)
          · exact isFirst same
          · exact later member

end Frames

section Loops

/-! A loop that clears memory. -/

variable {Symbol World : Type} {program : Program Symbol World}

/-- The body of the loop, from the label on. -/
def clearText (start : Symbol) (pointer bound : Reg) : List (Line Symbol) :=
  [.instr (.sw 0 0 pointer),
    .instr (.addi pointer pointer 4),
    .instr (.blt pointer bound start)]

/-- A word is one of the first words from an address on. -/
def Among (base : Word) (count : Nat) (word : BitVec 30) : Prop :=
  (word - wordAddr base).toNat < count

instance (base : Word) (count : Nat) (word : BitVec 30) :
    Decidable (Among base count word) :=
  inferInstanceAs (Decidable (_ < _))

theorem among_succ
    {base : Word}
    {count : Nat}
    (small : count < 2 ^ 30)
    (word : BitVec 30) :
    Among base (count + 1) word ↔
      word = wordAddr (base + words count) ∨ Among base count word := by
  rw [Among, Among, wordAddr_add base small, Nat.lt_succ_iff_lt_or_eq]
  have isLast :
      (word - wordAddr base).toNat = count ↔
        word = wordAddr base + BitVec.ofNat 30 count := by
    constructor
    · intro same
      rw [← same, BitVec.ofNat_toNat, BitVec.setWidth_eq, BitVec.add_comm,
        BitVec.sub_add_cancel]
    · rintro rfl
      rw [BitVec.add_comm, BitVec.add_sub_cancel, BitVec.toNat_ofNat,
        Nat.mod_eq_of_lt small]
  rw [isLast]
  exact or_comm

/-- What is left of a hart after words have been cleared. -/
structure Cleared
    (pointer : Reg)
    (base : Word)
    (count : Nat)
    (arch arch' : Arch World) : Prop where
  mem :
    ∀ word,
      arch'.mem word = if Among base count word then 0 else arch.mem word
  reached : arch'.get pointer = base + words count
  regs : ∀ reg, reg ≠ pointer → arch'.get reg = arch.get reg
  irqMask : arch'.irqMask = arch.irqMask
  irqPending : arch'.irqPending = arch.irqPending
  irqActive : arch'.irqActive = arch.irqActive
  world : arch'.world = arch.world

theorem cleared_zero
    (pointer : Reg)
    (arch : Arch World) :
    Cleared pointer (arch.get pointer) 0 arch arch where
  mem := fun _ => rfl
  reached := (BitVec.add_zero _).symm
  regs := fun _ _ => rfl
  irqMask := rfl
  irqPending := rfl
  irqActive := rfl
  world := rfl

theorem Cleared.quiet
    {pointer : Reg}
    {base : Word}
    {count : Nat}
    {arch arch' : Arch World}
    (cleared : Cleared pointer base count arch arch')
    (quiet : arch.Quiet) :
    arch'.Quiet := by
  rwa [Arch.Quiet, cleared.irqActive, cleared.irqPending]

/-- The body of the loop clears one more word. -/
theorem Cleared.next
    {pointer : Reg}
    {base : Word}
    {count : Nat}
    {arch arch' : Arch World}
    (cleared : Cleared pointer base count arch arch')
    (notZero : pointer ≠ 0)
    (small : count < 2 ^ 30)
    (memory : program.trigger (wordAddr (base + words count)) = false) :
    Cleared pointer base (count + 1) arch
      (effects program [.sw 0 0 pointer, .addi pointer pointer 4] arch') := by
  have stored := arch'.store_of_memory program memory 0
  have after :
      effects program [.sw 0 0 pointer, .addi pointer pointer 4] arch' =
        (arch'.store program (base + words count) 0).set pointer
          (base + words count + 4) := by
    have here : base + words count + 0 = base + words count :=
      BitVec.add_zero _
    simp only [effects_cons, effects_nil, Instr.effect, Arch.get_zero,
      Arch.get_store, cleared.reached, here]
  rw [after]
  constructor
  · intro word
    rw [Arch.mem_set, stored]
    simp only [among_succ small]
    by_cases isLast : word = wordAddr (base + words count)
    · rw [if_pos isLast, if_pos (.inl isLast)]
    · rw [if_neg isLast, cleared.mem]
      simp only [isLast, false_or]
  · rw [Arch.get_set_self _ notZero, words_succ, BitVec.add_assoc]
  · intro reg other
    rw [Arch.get_set_of_ne _ other, Arch.get_store, cleared.regs reg other]
  · rw [Arch.irqMask_set, Arch.irqMask_store, cleared.irqMask]
  · rw [Arch.irqPending_set, stored, cleared.irqPending]
  · rw [Arch.irqActive_set, Arch.irqActive_store, cleared.irqActive]
  · rw [Arch.world_set, Arch.world_store, cleared.world]

/-- Addresses that do not wrap around are compared as their distances. -/
theorem slt_add
    {base : Word}
    {count index : Nat}
    (inRange : base.toInt + 4 * count < 2 ^ 31)
    (inside : index ≤ count) :
    (base + words index).slt (base + words count) = true ↔ index < count := by
  have value {distance : Nat} (atMost : distance ≤ count) :
      (base + words distance).toInt = base.toInt + 4 * distance := by
    have low := BitVec.le_toInt base
    rw [words, ← BitVec.ofInt_natCast, BitVec.toInt_add, BitVec.toInt_ofInt,
      Int.add_bmod_bmod, Int.bmod_eq_of_le] <;> omega
  rw [BitVec.slt_iff_toInt_lt, value inside, value (Nat.le_refl _)]
  omega

variable
  {start : Symbol}
  {pointer bound : Reg}
  {base : Word}
  {count : Nat}
  {text : List (Line Symbol)}
  {arch : Arch World}

/-- A word is cleared, and the loop goes on as long as there are more. -/
theorem Cleared.iteration
    {done : Nat}
    {hart : Hart World}
    (cleared : Cleared pointer base done arch hart.arch)
    (placed :
      program.Placed (program.symbol start)
        (clearText start pointer bound ++ text))
    (notZero : pointer ≠ 0)
    (others : bound ≠ pointer)
    (inRange : base.toInt + 4 * count < 2 ^ 31)
    (small : count < 2 ^ 30)
    (memory :
      ∀ word, Among base count word → program.trigger word = false)
    (quiet : arch.Quiet)
    (atBound : arch.get bound = base + words count)
    (more : done < count)
    (atStart : hart.pc = program.symbol start) :
    ∃ hart',
      Runs program hart hart' ∧
        Cleared pointer base (done + 1) arch hart'.arch ∧
          hart'.pc =
            if done + 1 < count then
              program.symbol start
            else
              program.after (program.symbol start)
                (clearText start pointer bound) := by
  have among : Among base count (wordAddr (base + words done)) := by
    have size : done < 2 ^ 30 := Nat.lt_trans more small
    rw [Among, wordAddr_add base size, BitVec.add_comm,
      BitVec.add_sub_cancel, BitVec.toNat_ofNat, Nat.mod_eq_of_lt size]
    exact more
  have next :=
    cleared.next notZero (Nat.lt_trans more small) (memory _ among)
  have body :
      program.Placed hart.pc
        (([.sw 0 0 pointer, .addi pointer pointer 4] :
            List (Instr Symbol)).map .instr ++
          .instr (.blt pointer bound start) :: text) :=
    atStart ▸ placed
  obtain ⟨middle, runs, isMiddle, here, _⟩ :=
    runs_straight body (by simp [Instr.straight]) (next.quiet quiet)
  have branch := body.append
  rw [← isMiddle] at next
  rw [← here] at branch
  obtain ⟨compressed, steps⟩ :=
    branch.step (next.quiet quiet).not_interrupted (by simp)
  refine
    ⟨_, .tail runs steps, ⟨next.mem, next.reached, next.regs, next.irqMask,
      next.irqPending, next.irqActive, next.world⟩, ?_⟩
  have compares :
      (middle.arch.get pointer).slt (middle.arch.get bound) = true ↔
        done + 1 < count := by
    rw [next.reached, next.regs bound others, atBound]
    exact slt_add inRange more
  have behind :
      program.after middle.pc [.instr (.blt pointer bound start)] =
        program.after (program.symbol start)
          (clearText start pointer bound) := by
    rw [here, ← Program.after_append, atStart]
    rfl
  rw [behind]
  by_cases again : done + 1 < count
  · rw [if_pos again]
    exact if_pos (compares.mpr again)
  · rw [if_neg again]
    exact if_neg (mt compares.mp again)

/-- The loop clears all words between the pointer and the bound. -/
theorem runs_clear
    (placed :
      program.Placed (program.symbol start)
        (clearText start pointer bound ++ text))
    (notZero : pointer ≠ 0)
    (others : bound ≠ pointer)
    (inRange : base.toInt + 4 * count < 2 ^ 31)
    (small : count < 2 ^ 30)
    (memory :
      ∀ word, Among base count word → program.trigger word = false)
    (quiet : arch.Quiet)
    (atBound : arch.get bound = base + words count)
    {done : Nat}
    (more : done < count)
    {hart : Hart World}
    (atStart : hart.pc = program.symbol start)
    (cleared : Cleared pointer base done arch hart.arch) :
    ∃ hart',
      Runs program hart hart' ∧
        Cleared pointer base count arch hart'.arch ∧
          hart'.pc =
            program.after (program.symbol start)
              (clearText start pointer bound) := by
  induction left : count - done generalizing done hart with
  | zero =>
      omega
  | succ left inductionHypothesis =>
      obtain ⟨middle, runs, after, goes⟩ :=
        cleared.iteration placed notZero others inRange small memory quiet
          atBound more atStart
      by_cases again : done + 1 < count
      · rw [if_pos again] at goes
        obtain ⟨hart', later, done⟩ :=
          inductionHypothesis again goes after (by omega)
        exact ⟨hart', runs.trans later, done⟩
      · rw [if_neg again] at goes
        have all : done + 1 = count := by omega
        exact ⟨middle, runs, all ▸ after, goes⟩

/-- Text that sets up the registers of the loop, and the loop. -/
theorem runs_clearing
    {instrs : List (Instr Symbol)}
    {hart : Hart World}
    (placed :
      program.Placed hart.pc
        (instrs.map .instr ++
          .label start :: (clearText start pointer bound ++ text)))
    (straight : ∀ instr, instr ∈ instrs → instr.straight = true)
    (quiet : (effects program instrs hart.arch).Quiet)
    (notZero : pointer ≠ 0)
    (others : bound ≠ pointer)
    (atBase : (effects program instrs hart.arch).get pointer = base)
    (atBound :
      (effects program instrs hart.arch).get bound = base + words count)
    (inRange : base.toInt + 4 * count < 2 ^ 31)
    (small : count < 2 ^ 30)
    (some : 0 < count)
    (memory :
      ∀ word, Among base count word → program.trigger word = false) :
    ∃ hart',
      Runs program hart hart' ∧
        Cleared pointer base count (effects program instrs hart.arch)
            hart'.arch ∧
          program.Placed hart'.pc text := by
  obtain ⟨atStart, loop⟩ := placed.append
  obtain ⟨begun, toBegun, begunArch, begunPc, _⟩ :=
    runs_straight placed straight quiet
  rw [← atStart] at loop begunPc
  have cleared :
      Cleared pointer base 0 (effects program instrs hart.arch)
        begun.arch := by
    rw [begunArch, ← atBase]
    exact cleared_zero pointer _
  obtain ⟨hart', toHart', isCleared, isBehind⟩ :=
    runs_clear loop notZero others inRange small memory quiet atBound some
      begunPc cleared
  exact ⟨hart', toBegun.trans toHart', isCleared, isBehind ▸ loop.append⟩

end Loops

end Rv32
