import TKey.Lib.ScrambledMemory
import Mathlib.Logic.Function.Basic

namespace TKey.Fpga

open ScrambledMemory

/-!
# App RAM

`ram.v`: four `SPRAM` blocks behind a scrambling of the addresses and of the
data.  Seen through the scrambling they are a memory of 32768 words with byte
enables.
-/

section Spram

/-- The input ports of `SB_SPRAM256KA`. -/
structure SpramPorts where
  address : BitVec 14
  dataIn : BitVec 16
  maskWrEn : BitVec 4
  wrEn : Bool
  chipSelect : Bool

/-- Each bit of a write mask stands for four bits of the word. -/
def nibbleMask (maskWrEn : BitVec 4) : BitVec 16 :=
  (BitVec.ofBool (maskWrEn.getLsbD 3)).replicate 4 ++
    (BitVec.ofBool (maskWrEn.getLsbD 2)).replicate 4 ++
    (BitVec.ofBool (maskWrEn.getLsbD 1)).replicate 4 ++
    (BitVec.ofBool (maskWrEn.getLsbD 0)).replicate 4

/--
The RAM block `SB_SPRAM256KA` of the FPGA, which is not part of the design.  It
stores the nibbles whose mask bit is set, or reads a word.
-/
structure Spram where
  State : Type
  /-- The stored words. -/
  word : State → BitVec 14 → BitVec 16
  /-- The output port `DATAOUT`. -/
  dataOut : State → BitVec 16
  clock : State → SpramPorts → State
  word_clock :
    ∀ state ports,
      word (clock state ports) =
        if ports.chipSelect && ports.wrEn then
          Function.update (word state) ports.address
            (merge (nibbleMask ports.maskWrEn) (word state ports.address)
              ports.dataIn)
        else
          word state
  dataOut_clock :
    ∀ state ports,
      ports.chipSelect = true → ports.wrEn = false →
        dataOut (clock state ports) = word state ports.address

/-- A RAM block that keeps its output when it does not read. -/
def Spram.holding : Spram where
  State := (BitVec 14 → BitVec 16) × BitVec 16
  word state := state.1
  dataOut state := state.2
  clock state ports :=
    (if ports.chipSelect && ports.wrEn then
        Function.update state.1 ports.address
          (merge (nibbleMask ports.maskWrEn) (state.1 ports.address)
            ports.dataIn)
      else
        state.1,
      if ports.chipSelect && !ports.wrEn then
        state.1 ports.address
      else
        state.2)
  word_clock _ _ := rfl
  dataOut_clock state ports selected reads := by
    rw [selected, reads]
    rfl

end Spram

section Ram

/--
The blocks with the lower halves of the words, `spram0` and `spram2`, those with
the upper halves, `spram1` and `spram3`, and `ready_reg`.
-/
structure Ram (spram : Spram) where
  low : Bool → spram.State
  high : Bool → spram.State
  readyReg : Bool

namespace Ram

variable {spram : Spram}

/-- The input ports of `ram`. -/
structure Ports where
  ramAddrRand : BitVec 15
  ramDataRand : BitVec 32
  cs : Bool
  we : BitVec 4
  address : BitVec 16
  writeData : BitVec 32

/-- `scrambled_ram_addr`. -/
def Ports.scrambledRamAddr (ports : Ports) : BitVec 15 :=
  ports.address.extractLsb' 0 15 ^^^ ports.ramAddrRand

/-- `scrambled_write_data`. -/
def Ports.scrambledWriteData (ports : Ports) : BitVec 32 :=
  ports.writeData ^^^ ports.ramDataRand ^^^ (ports.address ++ ports.address)

/-- `cs0` and `cs1`. -/
def Ports.bankCs (ports : Ports) (bank : Bool) : Bool :=
  (ports.scrambledRamAddr.getLsbD 14 == bank) && ports.cs

/-- The write mask made of the enables of two bytes. -/
def maskWrEn (we0 we1 : Bool) : BitVec 4 :=
  BitVec.ofBool we1 ++ BitVec.ofBool we1 ++ BitVec.ofBool we0 ++
    BitVec.ofBool we0

/-- The ports of `spram0` and `spram2`. -/
def Ports.lowPorts (ports : Ports) (bank : Bool) : SpramPorts where
  address := ports.scrambledRamAddr.extractLsb' 0 14
  dataIn := ports.scrambledWriteData.extractLsb' 0 16
  maskWrEn := maskWrEn (ports.we.getLsbD 0) (ports.we.getLsbD 1)
  wrEn := ports.we.getLsbD 1 || ports.we.getLsbD 0
  chipSelect := ports.bankCs bank

/-- The ports of `spram1` and `spram3`. -/
def Ports.highPorts (ports : Ports) (bank : Bool) : SpramPorts where
  address := ports.scrambledRamAddr.extractLsb' 0 14
  dataIn := ports.scrambledWriteData.extractLsb' 16 16
  maskWrEn := maskWrEn (ports.we.getLsbD 2) (ports.we.getLsbD 3)
  wrEn := ports.we.getLsbD 3 || ports.we.getLsbD 2
  chipSelect := ports.bankCs bank

/-- `mem_mux`: `muxed_read_data`. -/
def muxedReadData (ram : Ram spram) (ports : Ports) : BitVec 32 :=
  let bank := ports.scrambledRamAddr.getLsbD 14
  spram.dataOut (ram.high bank) ++ spram.dataOut (ram.low bank)

/-- `descrambled_read_data`, the output port `read_data`. -/
def readData (ram : Ram spram) (ports : Ports) : BitVec 32 :=
  ram.muxedReadData ports ^^^ ports.ramDataRand ^^^
    (ports.address ++ ports.address)

/-- The RAM blocks at a clock edge, and `reg_update`. -/
def clock (ram : Ram spram) (ports : Ports) : Ram spram where
  low bank := spram.clock (ram.low bank) (ports.lowPorts bank)
  high bank := spram.clock (ram.high bank) (ports.highPorts bank)
  readyReg := ports.cs

/-- The stored word at a scrambled address. -/
def stored (ram : Ram spram) (address : BitVec 15) : BitVec 32 :=
  let bank := address.getLsbD 14
  let row := address.extractLsb' 0 14
  spram.word (ram.high bank) row ++ spram.word (ram.low bank) row

end Ram

end Ram

section Blocks

/-- The bits of two bytes that are written: eight for each byte that is enabled. -/
def enabledBits (we0 we1 : Bool) : BitVec 16 :=
  (BitVec.ofBool we1).replicate 8 ++ (BitVec.ofBool we0).replicate 8

/-- The bits of a word that are written under byte enables. -/
def byteMask (we : BitVec 4) : BitVec 32 :=
  enabledBits (we.getLsbD 2) (we.getLsbD 3) ++
    enabledBits (we.getLsbD 0) (we.getLsbD 1)

/-- A bit is written if and only if its byte is enabled. -/
theorem getLsbD_byteMask (we : BitVec 4) (bit : Fin 32) :
    (byteMask we).getLsbD bit.val = we.getLsbD (bit.val / 8) := by
  revert we bit
  decide +kernel

/-- The nibbles that the design enables are those of the enabled bytes. -/
theorem nibbleMask_maskWrEn (we0 we1 : Bool) :
    nibbleMask (Ram.maskWrEn we0 we1) = enabledBits we0 we1 := by
  revert we0 we1
  decide

/-- What a block stores whose write enable follows from its mask. -/
theorem Spram.word_clock_of_mask
    {spram : Spram}
    (state : spram.State)
    (ports : SpramPorts)
    {mask : BitVec 16}
    (isMask : nibbleMask ports.maskWrEn = mask)
    (enabled : ports.wrEn = false → mask = 0)
    {row : BitVec 14}
    {hit : Prop}
    [Decidable hit]
    (selects : ports.chipSelect = true ∧ row = ports.address ↔ hit) :
    spram.word (spram.clock state ports) row =
      if hit then
        merge mask (spram.word state row) ports.dataIn
      else
        spram.word state row := by
  rw [spram.word_clock, isMask, ← if_congr selects rfl rfl]
  by_cases here : row = ports.address
  · subst here
    cases ports.chipSelect with
    | false =>
        simp
    | true =>
        cases writes : ports.wrEn with
        | true =>
            simp
        | false =>
            -- nothing is merged
            simp [enabled writes]
  · have missed : ¬ (ports.chipSelect = true ∧ row = ports.address) :=
      fun both => here both.2
    rw [if_neg missed]
    split
    · rw [Function.update_of_ne here]
    · rfl

/-- Nothing is written to two bytes that are not enabled. -/
theorem enabledBits_none {we0 we1 : Bool} :
    (we1 || we0) = false → enabledBits we0 we1 = 0 := by
  revert we0 we1
  decide

/-- An address is its bank and its row. -/
theorem address_ext
    {left right : BitVec 15}
    (bank : left.getLsbD 14 = right.getLsbD 14)
    (row : left.extractLsb' 0 14 = right.extractLsb' 0 14) :
    left = right := by
  apply BitVec.eq_of_getLsbD_eq
  intro index inside
  by_cases inRow : index < 14
  · have bits := congrArg (fun row => row.getLsbD index) row
    simpa [BitVec.getLsbD_extractLsb', inRow] using bits
  · have top : index = 14 := by omega
    rw [top]
    exact bank

/-- The two halves of a word. -/
theorem append_halves (word : BitVec 32) :
    word.extractLsb' 16 16 ++ word.extractLsb' 0 16 = word := by
  apply BitVec.eq_of_getLsbD_eq
  intro index inside
  rw [BitVec.getLsbD_append]
  by_cases low : index < 16
  · simp [low]
  · have high : index - 16 < 16 := by omega
    have whole : 16 + (index - 16) = index := by omega
    simp [low, high, whole]

namespace Ram

variable {spram : Spram}

/-- The row of the selected bank is the scrambled address. -/
theorem Ports.bankCs_and_row
    (ports : Ports)
    (address : BitVec 15) :
    ports.bankCs (address.getLsbD 14) = true ∧
        address.extractLsb' 0 14 =
          ports.scrambledRamAddr.extractLsb' 0 14 ↔
      ports.cs = true ∧ address = ports.scrambledRamAddr := by
  rw [Ports.bankCs, Bool.and_eq_true, beq_iff_eq]
  constructor
  · rintro ⟨⟨bank, selected⟩, row⟩
    exact ⟨selected, address_ext bank.symm row⟩
  · rintro ⟨selected, rfl⟩
    exact ⟨⟨rfl, selected⟩, rfl⟩

/-- A selected RAM merges a word into what it stores. -/
theorem stored_clock (ram : Ram spram) (ports : Ports) :
    (ram.clock ports).stored =
      if ports.cs then
        Function.update ram.stored ports.scrambledRamAddr
          (merge (byteMask ports.we) (ram.stored ports.scrambledRamAddr)
            ports.scrambledWriteData)
      else
        ram.stored := by
  funext address
  have hit := ports.bankCs_and_row address
  have low :=
    Spram.word_clock_of_mask (ram.low (address.getLsbD 14))
      (ports.lowPorts (address.getLsbD 14)) (nibbleMask_maskWrEn ..)
      enabledBits_none hit
  have high :=
    Spram.word_clock_of_mask (ram.high (address.getLsbD 14))
      (ports.highPorts (address.getLsbD 14)) (nibbleMask_maskWrEn ..)
      enabledBits_none hit
  have word :
      (ram.clock ports).stored address =
        spram.word
            (spram.clock (ram.high (address.getLsbD 14))
              (ports.highPorts (address.getLsbD 14)))
            (address.extractLsb' 0 14) ++
          spram.word
            (spram.clock (ram.low (address.getLsbD 14))
              (ports.lowPorts (address.getLsbD 14)))
            (address.extractLsb' 0 14) :=
    rfl
  rw [word, low, high]
  by_cases hit : ports.cs = true ∧ address = ports.scrambledRamAddr
  · obtain ⟨selected, rfl⟩ := hit
    rw [if_pos ⟨selected, rfl⟩, if_pos ⟨selected, rfl⟩, if_pos selected,
      Function.update_self, ← append_halves ports.scrambledWriteData]
    exact (merge_append ..).symm
  · rw [if_neg hit, if_neg hit]
    split
    · next selected =>
        rw [Function.update_of_ne fun here => hit ⟨selected, here⟩]
        rfl
    · rfl

end Ram

end Blocks

section Memory

/-- The seeds of the scrambling. -/
structure Seeds where
  ramAddrRand : BitVec 15
  ramDataRand : BitVec 32

/-- The port `address` of a word; the bus leaves its highest bit clear. -/
def wordAddress (index : BitVec 15) : BitVec 16 :=
  0#1 ++ index

/-- How the words are scrambled. -/
def Seeds.scrambling (seeds : Seeds) :
    Scrambling (BitVec 15) (BitVec 32) where
  address := xorKey seeds.ramAddrRand
  word index :=
    xorKey (seeds.ramDataRand ^^^ (wordAddress index ++ wordAddress index))

/-- A word access, and the cycles before it without one. -/
structure WordAccess where
  gap : List Ram.Ports
  spaced : gap ≠ []
  index : BitVec 15
  we : BitVec 4
  writeData : BitVec 32

/-- The ports in a cycle without an access. -/
def Ram.Ports.unselected (ports : Ram.Ports) (seeds : Seeds) : Ram.Ports :=
  { ports with
    ramAddrRand := seeds.ramAddrRand
    ramDataRand := seeds.ramDataRand
    cs := false }

/-- The ports during the access. -/
def WordAccess.ports (access : WordAccess) (seeds : Seeds) : Ram.Ports where
  ramAddrRand := seeds.ramAddrRand
  ramDataRand := seeds.ramDataRand
  cs := true
  we := access.we
  address := wordAddress access.index
  writeData := access.writeData

namespace Ram

variable {spram : Spram}

/-- What the RAM holds for somebody who knows the seeds. -/
def contents (seeds : Seeds) (ram : Ram spram) : BitVec 15 → BitVec 32 :=
  seeds.scrambling.view ram.stored

/-- The cycles before an access. -/
def pass (seeds : Seeds) (ram : Ram spram) (gap : List Ports) : Ram spram :=
  gap.foldl (fun ram ports => ram.clock (ports.unselected seeds)) ram

/-- Hold an access until the RAM is ready; the data is taken in that cycle. -/
def hold (ports : Ports) :
    Nat → Ram spram → Option (BitVec 32 × Ram spram)
  | 0, _ => none
  | cycles + 1, ram =>
      if ram.readyReg then
        some (ram.readData ports, ram.clock ports)
      else
        hold ports cycles (ram.clock ports)

/-- An access, which takes two cycles. -/
def access
    (seeds : Seeds)
    (ram : Ram spram)
    (access : WordAccess) : Option (BitVec 32 × Ram spram) :=
  (ram.pass seeds access.gap).hold (access.ports seeds) 2

/-- What is read in accesses one after the other, and the RAM after them. -/
def serve
    (seeds : Seeds) :
    Ram spram → List WordAccess → Option (List (BitVec 32) × Ram spram)
  | ram, [] => some ([], ram)
  | ram, first :: later => do
      let (data, ram) ← ram.access seeds first
      let (reads, ram) ← ram.serve seeds later
      return (if first.we = 0 then data :: reads else reads, ram)

end Ram

/-- A plain memory of 32768 words after an access. -/
def plainAccess
    (memory : BitVec 15 → BitVec 32)
    (access : WordAccess) : BitVec 15 → BitVec 32 :=
  Function.update memory access.index
    (merge (byteMask access.we) (memory access.index) access.writeData)

/-- What accesses read from a plain memory, and the memory after them. -/
def plainServe :
    (BitVec 15 → BitVec 32) → List WordAccess →
      List (BitVec 32) × (BitVec 15 → BitVec 32)
  | memory, [] => ([], memory)
  | memory, access :: later =>
      let served := plainServe (plainAccess memory access) later
      (if access.we = 0 then memory access.index :: served.1 else served.1,
        served.2)

namespace Ram

variable {spram : Spram}

/-- The address without its highest bit is the index of the word. -/
theorem extractLsb'_wordAddress (index : BitVec 15) :
    (wordAddress index).extractLsb' 0 15 = index := by
  rw [wordAddress, BitVec.extractLsb'_append_eq_right]

/-- A word access is one to a plain memory, in every cycle. -/
theorem contents_clock
    (seeds : Seeds)
    (ram : Ram spram)
    (access : WordAccess) :
    (ram.clock (access.ports seeds)).contents seeds =
      plainAccess (ram.contents seeds) access := by
  have address :
      (access.ports seeds).scrambledRamAddr =
        seeds.scrambling.address access.index := by
    rw [Ports.scrambledRamAddr]
    exact congrArg (· ^^^ _) (extractLsb'_wordAddress access.index)
  have word :
      merge (byteMask access.we)
          (ram.stored (seeds.scrambling.address access.index))
          (access.ports seeds).scrambledWriteData =
        seeds.scrambling.word access.index
          (merge (byteMask access.we) (ram.contents seeds access.index)
            access.writeData) := by
    have held :
        ram.stored (seeds.scrambling.address access.index) =
          seeds.scrambling.word access.index
            (ram.contents seeds access.index) :=
      ((seeds.scrambling.word access.index).apply_symm_apply _).symm
    rw [held, Ports.scrambledWriteData, BitVec.xor_assoc]
    exact merge_xor ..
  have stores :=
    (stored_clock ram (access.ports seeds)).trans (if_pos rfl)
  rw [address] at stores
  rw [contents, stores]
  exact (congrArg (fun word => seeds.scrambling.view
    (Function.update ram.stored _ word)) word).trans
    (seeds.scrambling.view_update ..)

/-- A RAM that is not selected keeps what it holds. -/
theorem contents_pass
    (seeds : Seeds)
    (ram : Ram spram)
    (gap : List Ports) :
    (ram.pass seeds gap).contents seeds = ram.contents seeds := by
  induction gap generalizing ram with
  | nil =>
      rfl
  | cons ports gap inductionHypothesis =>
      have keeps :=
        (stored_clock ram (ports.unselected seeds)).trans
          (if_neg Bool.false_ne_true)
      refine (inductionHypothesis _).trans ?_
      rw [contents, contents, keeps]

/-- After a cycle without an access the RAM is not ready. -/
theorem readyReg_pass
    (seeds : Seeds)
    (ram : Ram spram)
    {gap : List Ports}
    (spaced : gap ≠ []) :
    (ram.pass seeds gap).readyReg = false := by
  rw [← List.dropLast_concat_getLast spaced, pass, List.foldl_append]
  rfl

/-- The word that was read is descrambled. -/
theorem readData_clock
    (seeds : Seeds)
    (ram : Ram spram)
    {access : WordAccess}
    (reads : access.we = 0) :
    (ram.clock (access.ports seeds)).readData (access.ports seeds) =
      ram.contents seeds access.index := by
  have address :
      (access.ports seeds).scrambledRamAddr =
        seeds.scrambling.address access.index := by
    rw [Ports.scrambledRamAddr]
    exact congrArg (· ^^^ _) (extractLsb'_wordAddress access.index)
  have selected :
      (access.ports seeds).bankCs
          ((access.ports seeds).scrambledRamAddr.getLsbD 14) = true := by
    rw [Ports.bankCs, beq_self_eq_true]
    rfl
  have data :
      (ram.clock (access.ports seeds)).muxedReadData (access.ports seeds) =
        ram.stored (seeds.scrambling.address access.index) := by
    have strobes : (access.ports seeds).we = 0 := reads
    have noLow
        (bank : Bool) :
        ((access.ports seeds).lowPorts bank).wrEn = false := by
      rw [Ports.lowPorts, strobes]
      rfl
    have noHigh
        (bank : Bool) :
        ((access.ports seeds).highPorts bank).wrEn = false := by
      rw [Ports.highPorts, strobes]
      rfl
    rw [← address, muxedReadData, clock]
    dsimp only
    rw [spram.dataOut_clock _ _ selected (noHigh _),
      spram.dataOut_clock _ _ selected (noLow _)]
    rfl
  rw [readData, data, BitVec.xor_assoc]
  rfl

/-- An access reads from, and writes to, a plain memory. -/
theorem access_eq
    (seeds : Seeds)
    (ram : Ram spram)
    (access : WordAccess) :
    ∃ data ram',
      ram.access seeds access = some (data, ram') ∧
        (access.we = 0 → data = ram.contents seeds access.index) ∧
        ram'.contents seeds =
          plainAccess (ram.contents seeds) access := by
  have unready := readyReg_pass seeds ram access.spaced
  have same := contents_pass seeds ram access.gap
  have first := contents_clock seeds (ram.pass seeds access.gap) access
  have second :=
    contents_clock seeds
      ((ram.pass seeds access.gap).clock (access.ports seeds)) access
  have serves :
      ram.access seeds access =
        some
          (((ram.pass seeds access.gap).clock (access.ports seeds)).readData
              (access.ports seeds),
            ((ram.pass seeds access.gap).clock (access.ports seeds)).clock
              (access.ports seeds)) := by
    rw [Ram.access, hold, if_neg (by rw [unready]; exact Bool.false_ne_true),
      hold]
    exact if_pos rfl
  refine ⟨_, _, serves, ?_, ?_⟩
  · intro reads
    rw [readData_clock seeds _ reads, same]
  · -- the second cycle writes the same bytes again
    rw [second, first, same, plainAccess, plainAccess,
      Function.update_self, Function.update_idem, merge_merge]

/-- Accesses that only read find, in any order, what the RAM holds. -/
theorem serve_reads
    (seeds : Seeds)
    (ram : Ram spram)
    (accesses : List WordAccess)
    (reads : ∀ access ∈ accesses, access.we = 0) :
    ∃ ram',
      ram.serve seeds accesses =
        some (accesses.map fun access => ram.contents seeds access.index,
          ram') := by
  induction accesses generalizing ram with
  | nil =>
      exact ⟨ram, rfl⟩
  | cons access later inductionHypothesis =>
      have read := reads access List.mem_cons_self
      obtain ⟨data, ram', serves, isData, contents⟩ :=
        access_eq seeds ram access
      have same : ram'.contents seeds = ram.contents seeds := by
        have empty : byteMask 0 = BitVec.ofNat 32 0 := by
          decide
        rw [contents, plainAccess, read, empty, merge_zero,
          Function.update_eq_self]
      obtain ⟨final, servesLater⟩ :=
        inductionHypothesis ram' fun other member =>
          reads other (List.mem_cons_of_mem _ member)
      refine ⟨final, ?_⟩
      rw [serve, serves]
      dsimp only [Option.bind_eq_bind, Option.bind_some]
      rw [servesLater, same, isData read]
      simp only [if_pos read]
      rfl

/--
Accesses to the RAM read what they read from a plain memory with byte enables,
whatever the seeds are, and leave the same contents.
-/
theorem serves_as_memory
    (spram : Spram)
    (seeds : Seeds)
    (ram : Ram spram)
    (accesses : List WordAccess) :
    (ram.serve seeds accesses).map
        (fun served => (served.1, served.2.contents seeds)) =
      some (plainServe (ram.contents seeds) accesses) := by
  induction accesses generalizing ram with
  | nil =>
      rfl
  | cons access later inductionHypothesis =>
      obtain ⟨data, ram', serves, reads, contents⟩ :=
        access_eq seeds ram access
      have rest := inductionHypothesis ram'
      rw [contents] at rest
      obtain ⟨served, servesLater, same⟩ := Option.map_eq_some_iff.mp rest
      rw [serve, serves]
      dsimp only [Option.bind_eq_bind, Option.bind_some]
      rw [servesLater, plainServe, ← same]
      by_cases read : access.we = 0
      · simp only [if_pos read, reads read]
        rfl
      · simp only [if_neg read]
        rfl

end Ram

end Memory

end TKey.Fpga
