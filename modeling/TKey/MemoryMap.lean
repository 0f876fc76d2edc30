import Mathlib.Algebra.Group.Nat.Defs
import TKey.ApplicationFpga

namespace TKey.Fpga

/-!
# The memory map

The security monitor flags accesses by address, and the decoder selects cores by
address.  Both are compared with the memory map: the decoder selects by the
highest bits and passes some lower bits on, and the monitor leaves just the
addresses for which nothing else matters.
-/

section Map

/-- The select signals of `cpu_mem_ctrl`. -/
inductive CoreSelect where
  | romCs
  | ramCs
  | trngCs
  | timerCs
  | udsCs
  | uartCs
  | touchSenseCs
  | fwRamCs
  | irq31Cs
  | tk1Cs
  deriving Repr, DecidableEq

/-- The select signal that is set, if there is one. -/
def Selection.coreSelect : Selection → Option CoreSelect
  | .other .rom => some .romCs
  | .other .ram => some .ramCs
  | .other .trng => some .trngCs
  | .other .timer => some .timerCs
  | .other .uart => some .uartCs
  | .other .touchSense => some .touchSenseCs
  | .uds => some .udsCs
  | .fwRam => some .fwRamCs
  | .syscall => some .irq31Cs
  | .tk1 => some .tk1Cs
  | .zero => none

/-- `rom_cs` and so on in a cycle. -/
def ApplicationFpga.cs
    {bram : BlockRam}
    (fpga : ApplicationFpga bram)
    (cycle : Cycle)
    (core : CoreSelect) : Bool :=
  (fpga.selected cycle).bind Selection.coreSelect == some core

/-- The width of the address that a core gets. -/
def CoreSelect.addressWidth : CoreSelect → Nat
  | .romCs => 11
  | .ramCs => 15
  | .trngCs => 8
  | .timerCs => 8
  | .udsCs => 3
  | .uartCs => 8
  | .touchSenseCs => 8
  | .fwRamCs => 10
  | .irq31Cs => 0
  | .tk1Cs => 8

/-- The address that a core gets, as a number. -/
def CoreSelect.localAddress (core : CoreSelect) (cpuAddr : BitVec 32) : Nat :=
  (cpuAddr.extractLsb' 2 core.addressWidth).toNat

/-- The addresses of a core. -/
structure Region where
  core : CoreSelect
  first : Nat
  size : Nat
  deriving Repr, DecidableEq

/-- The memories and registers that can be addressed. -/
def memoryMap : List Region :=
  [{ core := .romCs, first := 0x00000000, size := 0x2000 },
    { core := .ramCs, first := 0x40000000, size := 0x20000 },
    { core := .trngCs, first := 0xc0000000, size := 0x400 },
    { core := .timerCs, first := 0xc1000000, size := 0x400 },
    { core := .udsCs, first := 0xc2000000, size := 0x20 },
    { core := .uartCs, first := 0xc3000000, size := 0x400 },
    { core := .touchSenseCs, first := 0xc4000000, size := 0x400 },
    { core := .fwRamCs, first := 0xd0000000, size := 0x1000 },
    { core := .irq31Cs, first := 0xe1000000, size := 0x4 },
    { core := .tk1Cs, first := 0xff000000, size := 0x400 }]

/-- An address lies in a region. -/
def Region.Contains (region : Region) (cpuAddr : BitVec 32) : Prop :=
  region.first ≤ cpuAddr.toNat ∧ cpuAddr.toNat < region.first + region.size

end Map

section Bits

/-- Some bits of an address, as a number. -/
theorem toNat_extract (cpuAddr : BitVec 32) (start count : Nat) :
    (cpuAddr.extractLsb' start count).toNat =
      cpuAddr.toNat / 2 ^ start % 2 ^ count := by
  rw [BitVec.extractLsb'_toNat, Nat.shiftRight_eq_div_pow]

/-- The monitor flags just the addresses outside the memory map. -/
theorem outsideMemory_iff (cpuAddr : BitVec 32) :
    Tk1.outsideMemory cpuAddr = false ↔
      ∃ region, region ∈ memoryMap ∧ region.Contains cpuAddr := by
  have inside : cpuAddr.toNat < 4294967296 := cpuAddr.isLt
  rw [← Bool.not_eq_true]
  simp only [Tk1.outsideMemory, Bool.or_eq_true, Bool.and_eq_true, beq_iff_eq,
    bne_iff_ne, ne_eq, decide_eq_true_eq, ← BitVec.toNat_inj, toNat_extract,
    BitVec.lt_def, BitVec.reduceToNat, Nat.reducePow, memoryMap,
    List.mem_cons, List.not_mem_nil, or_false, exists_eq_or_imp,
    exists_eq_left, Region.Contains]
  generalize cpuAddr.toNat = addr at inside
  -- The first byte of an address is its area and its core.
  have area : addr / 1073741824 % 4 = addr / 16777216 / 64 := by omega
  rw [area]
  have areas :
      addr / 16777216 / 64 = 0 ∨ addr / 16777216 / 64 = 1 ∨
        addr / 16777216 / 64 = 2 ∨ addr / 16777216 / 64 = 3 := by
    omega
  rcases areas with rom | ram | reserved | mmio
  · simp [rom]
    omega
  · simp [ram]
    omega
  · simp [reserved]
    omega
  · have cores :
        addr / 16777216 = 192 ∨ addr / 16777216 = 193 ∨
          addr / 16777216 = 194 ∨ addr / 16777216 = 195 ∨
          addr / 16777216 = 196 ∨ addr / 16777216 = 208 ∨
          addr / 16777216 = 225 ∨ addr / 16777216 = 255 ∨
          (197 ≤ addr / 16777216 ∧ addr / 16777216 < 208) ∨
          (209 ≤ addr / 16777216 ∧ addr / 16777216 < 225) ∨
          (226 ≤ addr / 16777216 ∧ addr / 16777216 < 255) := by
      omega
    rcases cores with
      trng | timer | uds | uart | touchSense | fwRam | syscall | tk1 | unused
    · simp [trng]
      omega
    · simp [timer]
      omega
    · simp [uds]
      omega
    · simp [uart]
      omega
    · simp [touchSense]
      omega
    · simp [fwRam]
      omega
    · simp [syscall]
      omega
    · simp [tk1]
      omega
    · simp [mmio]
      omega

/-- The decoder only looks at the first byte of an address. -/
theorem decodeAddr_congr
    {cpuAddr cpuAddr' : BitVec 32}
    (same : cpuAddr.toNat / 2 ^ 24 = cpuAddr'.toNat / 2 ^ 24) :
    decodeAddr cpuAddr = decodeAddr cpuAddr' := by
  have area : cpuAddr.extractLsb' 30 2 = cpuAddr'.extractLsb' 30 2 := by
    apply BitVec.eq_of_toNat_eq
    rw [toNat_extract, toNat_extract]
    omega
  have core : cpuAddr.extractLsb' 24 6 = cpuAddr'.extractLsb' 24 6 := by
    apply BitVec.eq_of_toNat_eq
    rw [toNat_extract, toNat_extract, same]
  rw [decodeAddr, decodeAddr, area, core]

end Bits

section Agreement

/-- The size of a region is given by the address that its core gets. -/
structure Region.Aligned (region : Region) : Prop where
  size : region.size = 4 * 2 ^ region.core.addressWidth
  first : region.first % region.size = 0
  short : region.first % 2 ^ 24 = 0 ∧ region.size ≤ 2 ^ 24
  decoded :
    (decodeAddr (.ofNat 32 region.first)).coreSelect = some region.core
  inside : region.first < 2 ^ 32

instance (region : Region) : Decidable region.Aligned :=
  decidable_of_iff
    (region.size = 4 * 2 ^ region.core.addressWidth ∧
      region.first % region.size = 0 ∧
      (region.first % 2 ^ 24 = 0 ∧ region.size ≤ 2 ^ 24) ∧
      (decodeAddr (.ofNat 32 region.first)).coreSelect = some region.core ∧
      region.first < 2 ^ 32)
    ⟨fun ⟨size, first, short, decoded, inside⟩ =>
      ⟨size, first, short, decoded, inside⟩,
      fun aligned =>
        ⟨aligned.size, aligned.first, aligned.short, aligned.decoded,
          aligned.inside⟩⟩

theorem aligned_of_mem :
    ∀ region, region ∈ memoryMap → region.Aligned := by
  decide

theorem eq_of_core_eq :
    ∀ region, region ∈ memoryMap →
      ∀ region', region' ∈ memoryMap →
        region.core = region'.core → region = region' := by
  decide

/-- The decoder selects the core of the region of an address. -/
theorem Region.Aligned.coreSelect
    {region : Region}
    (aligned : region.Aligned)
    {cpuAddr : BitVec 32}
    (contains : region.Contains cpuAddr) :
    (decodeAddr cpuAddr).coreSelect = some region.core := by
  obtain ⟨low, high⟩ := contains
  obtain ⟨first, short⟩ := aligned.short
  rw [← aligned.decoded]
  apply congrArg
  apply decodeAddr_congr
  rw [BitVec.toNat_ofNat, Nat.mod_eq_of_lt aligned.inside]
  omega

/-- The core gets the distance from the start of its region, in words. -/
theorem Region.Aligned.localAddress
    {region : Region}
    (aligned : region.Aligned)
    {cpuAddr : BitVec 32}
    (contains : region.Contains cpuAddr) :
    region.core.localAddress cpuAddr = (cpuAddr.toNat - region.first) / 4 := by
  obtain ⟨low, high⟩ := contains
  obtain ⟨count, first⟩ := Nat.dvd_of_mod_eq_zero aligned.first
  obtain ⟨offset, split⟩ := Nat.exists_eq_add_of_le low
  rw [split] at high
  have inside : offset < 4 * 2 ^ region.core.addressWidth := by
    rw [← aligned.size]
    exact Nat.lt_of_add_lt_add_left high
  have word :
      cpuAddr.toNat / 4 =
        2 ^ region.core.addressWidth * count + offset / 4 := by
    rw [split, first, aligned.size, Nat.mul_assoc,
      Nat.mul_add_div (by decide)]
  rw [CoreSelect.localAddress, toNat_extract]
  show cpuAddr.toNat / 4 % _ = _
  rw [word, Nat.mul_add_mod,
    Nat.mod_eq_of_lt (Nat.div_lt_of_lt_mul inside), split,
    Nat.add_sub_cancel_left]

/-- An address that the monitor does not flag as a data access. -/
def Unflagged (cpuAddr : BitVec 32) : Prop :=
  Tk1.outsideMemory cpuAddr = false

/-- A data access that waits for an answer, while the monitor has not trapped. -/
structure DataAccess
    {bram : BlockRam}
    (fpga : ApplicationFpga bram)
    (cycle : Cycle) : Prop where
  valid : cycle.cpuValid = true
  notReady : fpga.muxedReadyReg = false
  notTrapped : fpga.tk1.forceTrapReg = false
  data : cycle.access.cpuInstr = false

/-- The monitor flags a data access by its address alone. -/
theorem DataAccess.securityMonitor
    {bram : BlockRam}
    {fpga : ApplicationFpga bram}
    {cycle : Cycle}
    (access : DataAccess fpga cycle) :
    fpga.tk1.securityMonitor (fpga.tk1Ports cycle) =
      Tk1.outsideMemory cycle.access.cpuAddr := by
  simp [Tk1.securityMonitor, ApplicationFpga.tk1Ports, access.valid,
    access.data]

/-- A data access selects the core that its address belongs to. -/
theorem DataAccess.selected
    {bram : BlockRam}
    {fpga : ApplicationFpga bram}
    {cycle : Cycle}
    (access : DataAccess fpga cycle) :
    fpga.selected cycle = some (decodeAddr cycle.access.cpuAddr) := by
  simp [ApplicationFpga.selected, access.valid, access.notReady,
    access.notTrapped]

/-- Unflagged addresses of one core with one local address share a word. -/
theorem sameWord_of_localAddress
    {cpuAddr cpuAddr' : BitVec 32}
    (unflagged : Unflagged cpuAddr)
    (unflagged' : Unflagged cpuAddr')
    {core : CoreSelect}
    (selects : (decodeAddr cpuAddr).coreSelect = some core)
    (selects' : (decodeAddr cpuAddr').coreSelect = some core)
    (same : core.localAddress cpuAddr = core.localAddress cpuAddr') :
    cpuAddr.extractLsb' 2 30 = cpuAddr'.extractLsb' 2 30 := by
  obtain ⟨region, inMap, contains⟩ := (outsideMemory_iff _).mp unflagged
  obtain ⟨region', inMap', contains'⟩ := (outsideMemory_iff _).mp unflagged'
  have aligned := aligned_of_mem region inMap
  have aligned' := aligned_of_mem region' inMap'
  have isCore : region.core = core :=
    Option.some.inj ((aligned.coreSelect contains).symm.trans selects)
  have isCore' : region'.core = core :=
    Option.some.inj ((aligned'.coreSelect contains').symm.trans selects')
  obtain rfl :=
    eq_of_core_eq region inMap region' inMap' (isCore.trans isCore'.symm)
  rw [← isCore, aligned.localAddress contains,
    aligned.localAddress contains'] at same
  have words : region.first % 4 = 0 := by
    have first := aligned.first
    rw [aligned.size, Nat.mod_mul] at first
    omega
  have start := contains.1
  have start' := contains'.1
  apply BitVec.eq_of_toNat_eq
  rw [toNat_extract, toNat_extract]
  omega

/--
The security monitor and the decoder agree: for a data access at an address
that the monitor does not flag the decoder selects exactly one core, and no two
such addresses in different words reach a core with the same local address.
The monitor flags just the addresses outside the memory map.
-/
theorem monitor_decoder_agree :
    (∀ (bram : BlockRam) (fpga : ApplicationFpga bram) (cycle : Cycle),
      DataAccess fpga cycle →
      fpga.tk1.securityMonitor (fpga.tk1Ports cycle) = false →
      ∃! core, fpga.cs cycle core = true) ∧
    (∀ (bram : BlockRam) (fpga fpga' : ApplicationFpga bram)
        (cycle cycle' : Cycle) (core : CoreSelect),
      DataAccess fpga cycle →
      DataAccess fpga' cycle' →
      fpga.tk1.securityMonitor (fpga.tk1Ports cycle) = false →
      fpga'.tk1.securityMonitor (fpga'.tk1Ports cycle') = false →
      fpga.cs cycle core = true →
      fpga'.cs cycle' core = true →
      core.localAddress cycle.access.cpuAddr =
        core.localAddress cycle'.access.cpuAddr →
      cycle.access.cpuAddr.extractLsb' 2 30 =
        cycle'.access.cpuAddr.extractLsb' 2 30) ∧
    ∀ cpuAddr,
      Unflagged cpuAddr ↔
        ∃ region, region ∈ memoryMap ∧ region.Contains cpuAddr := by
  refine ⟨?_, ?_, outsideMemory_iff⟩
  · intro bram fpga cycle access unflagged
    rw [access.securityMonitor] at unflagged
    obtain ⟨region, inMap, contains⟩ := (outsideMemory_iff _).mp unflagged
    have coreSelect := (aligned_of_mem region inMap).coreSelect contains
    refine ⟨region.core, ?_, ?_⟩
    · simp [ApplicationFpga.cs, access.selected, coreSelect]
    · intro core selects
      simp only [ApplicationFpga.cs, access.selected, Option.bind_some,
        coreSelect, beq_iff_eq, Option.some.injEq] at selects
      exact selects.symm
  · intro bram fpga fpga' cycle cycle' core access access' unflagged unflagged'
      selects selects' same
    rw [access.securityMonitor] at unflagged
    rw [access'.securityMonitor] at unflagged'
    simp only [ApplicationFpga.cs, access.selected, access'.selected,
      Option.bind_some, beq_iff_eq] at selects selects'
    exact sameWord_of_localAddress unflagged unflagged' selects selects' same

end Agreement

end TKey.Fpga
