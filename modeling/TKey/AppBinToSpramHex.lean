import TKey.Lib.HexFile
import TKey.Lib.LittleEndian
import TKey.ScrambledRam

namespace TKey.AppBinToSpramHex

open Fpga HexFile LittleEndian ScrambledMemory

/-!
# The SPRAM images of a simulation

`app_bin_to_spram_hex.py` turns an app into one file for each SPRAM block.  A
testbench loads them into the blocks of the app RAM, as if the firmware had
stored the app through the scrambling of the RAM.
-/

section Python

/-- How the script ends without having written its files. -/
inductive Failure where
  | abort (msg : String) (exitcode : Int)
  | indexError
  | overflowError

/-- `range(0, stop, step)`. -/
def range (stop step : Nat) : List Nat :=
  (List.range ((stop + step - 1) / step)).map (step * ·)

/-- `number.to_bytes(length, byteorder="little", signed=False)`. -/
def toBytes (number length : Nat) : Except Failure (List UInt8) :=
  if number < 256 ^ length then
    .ok (bytes length number)
  else
    .error .overflowError

/-- `data[index]`. -/
def getItem (data : List UInt8) (index : Nat) : Except Failure UInt8 :=
  match data[index]? with
  | some byte => .ok byte
  | none => .error .indexError

/-- `rows[index] = row`. -/
def setItem
    {Row : Type}
    {rows : Nat}
    (ram : Vector Row rows)
    (index : Nat)
    (row : Row) : Except Failure (Vector Row rows) :=
  if inside : index < rows then
    .ok (ram.set index row)
  else
    .error .indexError

end Python

section Script

def spramSizeBytes : Nat := 256 * 1024 / 8

def ramSizeBytes : Nat := spramSizeBytes * 4

def rows : Nat := spramSizeBytes / 2

/-- The words of a block as pairs of bytes, the lower one first. -/
abbrev Rows :=
  Vector (UInt8 × UInt8) rows

structure Rams where
  ram0 : Rows
  ram1 : Rows
  ram2 : Rows
  ram3 : Rows

/-- All rows are zero. -/
def Rams.initial : Rams where
  ram0 := Vector.replicate rows (0, 0)
  ram1 := Vector.replicate rows (0, 0)
  ram2 := Vector.replicate rows (0, 0)
  ram3 := Vector.replicate rows (0, 0)

def ramAddrRand : Nat := 0xDEADBEEF

def ramDataRand : Nat := 0xBD5B7DDE

/-- The body of the loop over the addresses. -/
def convertWord
    (cpuAddrDataLe : List UInt8)
    (rams : Rams)
    (cpuAddr : Nat) : Except Failure Rams := do
  let wordDataLe := (cpuAddrDataLe.drop cpuAddr).take 4
  let ramAddr := cpuAddr >>> 2
  let ramAddrLe ← toBytes ramAddr 4
  let ramDataRandLe ← toBytes ramDataRand 4
  let ramAddrDouble :=
    ((ramAddr <<< 16) &&& 0xFFFF0000) ||| (ramAddr &&& 0x0000FFFF)
  let ramAddrDoubleLe ← toBytes ramAddrDouble 4
  let scrambledWordDataLe :=
    List.zipWith (· ^^^ ·)
      (List.zipWith (· ^^^ ·) wordDataLe ramDataRandLe)
      ramAddrDoubleLe
  let ramAddrRandLe ← toBytes ramAddrRand 4
  let scrambledRamAddrLe :=
    List.zipWith (· ^^^ ·) ramAddrLe ramAddrRandLe
  let scrambledRamAddr := value scrambledRamAddrLe
  let scrambledRamAddr := scrambledRamAddr &&& 0x7FFF
  let byte0 ← getItem scrambledWordDataLe 0
  let byte1 ← getItem scrambledWordDataLe 1
  let byte2 ← getItem scrambledWordDataLe 2
  let byte3 ← getItem scrambledWordDataLe 3
  if scrambledRamAddr &&& 0x4000 = 0 then
    let ram0 ← setItem rams.ram0 scrambledRamAddr (byte0, byte1)
    let ram1 ← setItem rams.ram1 scrambledRamAddr (byte2, byte3)
    return { rams with
      ram0 := ram0
      ram1 := ram1 }
  else
    let ram2 ← setItem rams.ram2 scrambledRamAddr (byte0, byte1)
    let ram3 ← setItem rams.ram3 scrambledRamAddr (byte2, byte3)
    return { rams with
      ram2 := ram2
      ram3 := ram3 }

/-- The lines of a file: the upper byte of a row and the lower one. -/
def lines (ram : Rows) : List Char :=
  ram.toList.flatMap fun row =>
    hexDigits 2 row.2.toNat ++ hexDigits 2 row.1.toNat ++ ['\n']

/-- The files that the script writes. -/
structure Images where
  spram0 : List Char
  spram1 : List Char
  spram2 : List Char
  spram3 : List Char

/-- The script. -/
def main (app : List UInt8) : Except Failure Images :=
  if app.length % 2 ≠ 0 then
    .error (.abort "Error: File size not a multiple of 2 bytes" (-1))
  else if app.length > ramSizeBytes then
    .error (.abort "Error: File does not fit in RAM" (-1))
  else do
    let inputDataLe :=
      app ++ List.replicate (ramSizeBytes - app.length) 0
    let cpuAddrDataLe := inputDataLe.take ramSizeBytes
    -- the bound is a number of words, the addresses are those of bytes
    let rams ←
      (range (ramSizeBytes / 4) 4).foldlM (convertWord cpuAddrDataLe)
        Rams.initial
    return {
      spram0 := lines rams.ram0
      spram1 := lines rams.ram1
      spram2 := lines rams.ram2
      spram3 := lines rams.ram3 }

end Script

section Definitions

/-- The seeds that the script assumes, in the registers of the FPGA. -/
def seeds : Seeds where
  ramAddrRand := BitVec.ofNat 15 ramAddrRand
  ramDataRand := BitVec.ofNat 32 ramDataRand

/-- A block after `$readmemh` of a file that has a word for each row. -/
def Loaded
    (spram : Spram)
    (state : spram.State)
    (image : List Char) : Prop :=
  (readWords image).map (List.map (BitVec.ofNat 16)) =
    some
      (List.ofFn fun row : Fin (2 ^ 14) => spram.word state (.ofFin row))

/-- The RAM after a testbench has loaded the images into its blocks. -/
structure Images.LoadedInto
    {spram : Spram}
    (images : Images)
    (ram : Ram spram) : Prop where
  spram0 : Loaded spram (ram.low false) images.spram0
  spram1 : Loaded spram (ram.high false) images.spram1
  spram2 : Loaded spram (ram.low true) images.spram2
  spram3 : Loaded spram (ram.high true) images.spram3

/-- A word of the app, whose bytes are followed by zeros. -/
def appWord (app : List UInt8) (index : BitVec 15) : BitVec 32 :=
  BitVec.ofNat 32
    (value ((List.range 4).map fun k => app.getD (4 * index.toNat + k) 0))

/--
The script writes images that can be loaded, and whatever is read from a RAM
into which they have been loaded is the app.
-/
def AgreesWithRam (app : List UInt8) : Prop :=
  ∃ images,
    main app = .ok images ∧
      (∃ ram : Ram Spram.holding, images.LoadedInto ram) ∧
      ∀ (spram : Spram) (ram : Ram spram),
        images.LoadedInto ram →
          ∀ accesses : List WordAccess,
            (∀ access ∈ accesses, access.we = 0) →
              ∃ ram',
                ram.serve seeds accesses =
                  some
                    (accesses.map fun access => appWord app access.index,
                      ram')

/-- What a row that the script has not written is read as. -/
def unwritten (index : BitVec 15) : BitVec 32 :=
  seeds.ramDataRand ^^^ (wordAddress index ++ wordAddress index)

/--
The app fills the RAM, and from word 8192 on it is what rows that have not been
written are read as.
-/
def EndsAsUnwritten (app : List UInt8) : Prop :=
  app.length = ramSizeBytes ∧
    ∀ index : BitVec 15,
      8192 ≤ index.toNat → appWord app index = unwritten index

end Definitions

section Numbers

theorem ramSizeBytes_eq : ramSizeBytes = 4 * 2 ^ 15 :=
  rfl

theorem toNat_index {i : Nat} (below : i < 2 ^ 15) :
    (BitVec.ofNat 15 i).toNat = i :=
  Nat.mod_eq_of_lt below

/-- The script scrambles addresses as the RAM does. -/
theorem scrambledRamAddr_eq (i : Nat) :
    (i ^^^ ramAddrRand) &&& 0x7FFF =
      (seeds.scrambling.address (BitVec.ofNat 15 i)).toNat := by
  have mask : (i ^^^ ramAddrRand) &&& 0x7FFF =
      (i ^^^ ramAddrRand) % 2 ^ 15 :=
    Nat.and_two_pow_sub_one_eq_mod _ 15
  have scrambled : seeds.scrambling.address (BitVec.ofNat 15 i) =
      BitVec.ofNat 15 i ^^^ BitVec.ofNat 15 ramAddrRand :=
    rfl
  rw [mask, scrambled, ← BitVec.ofNat_xor, BitVec.toNat_ofNat]

/-- The two copies of the address that the data is scrambled with. -/
theorem ramAddrDouble_eq {i : Nat} (below : i < 2 ^ 15) :
    ((i <<< 16) &&& 0xFFFF0000) ||| (i &&& 0x0000FFFF) =
      (wordAddress (BitVec.ofNat 15 i) ++
        wordAddress (BitVec.ofNat 15 i)).toNat := by
  have short : i < 2 ^ 16 := Nat.lt_trans below (by decide)
  have low : i &&& 0x0000FFFF = i :=
    Nat.and_two_pow_sub_one_of_lt_two_pow short
  have high : (i <<< 16) &&& 0xFFFF0000 = i <<< 16 := by
    have mask : 0xFFFF0000 = 0x0000FFFF <<< 16 := by
      decide
    rw [mask, ← Nat.shiftLeft_and_distrib, low]
  have port : (wordAddress (BitVec.ofNat 15 i)).toNat = i := by
    rw [wordAddress, BitVec.toNat_append, toNat_index below]
    exact Nat.zero_or i
  rw [low, high, BitVec.toNat_append, port]

theorem toBytes_of_lt {number : Nat} (fits : number < 2 ^ 32) :
    toBytes number 4 = .ok (bytes 4 number) :=
  if_pos fits

/-- The scrambled bytes of a word. -/
theorem scrambledWord_eq
    (word : List UInt8)
    (isWord : word.length = 4)
    (dataRand double : Nat) :
    List.zipWith (· ^^^ ·)
        (List.zipWith (· ^^^ ·) word (bytes 4 dataRand))
        (bytes 4 double) =
      bytes 4 (value word ^^^ dataRand ^^^ double) := by
  have given : word = bytes 4 (value word) := by
    rw [← isWord]
    exact (bytes_value word).symm
  conv_lhs => rw [given]
  rw [zipWith_xor_bytes, zipWith_xor_bytes]

end Numbers

section Rows

/-- A row as a word of a block. -/
def rowWord (row : UInt8 × UInt8) : BitVec 16 :=
  BitVec.ofNat 16 (256 * row.2.toNat + row.1.toNat)

/-- The word in a row. -/
def wordAt (ram : Rows) (row : BitVec 14) : BitVec 16 :=
  rowWord (ram.get (row.toFin.cast rfl))

/-- The words of the four blocks as the words of the RAM. -/
def Rams.stored (rams : Rams) (address : BitVec 15) : BitVec 32 :=
  let row := address.extractLsb' 0 14
  if address.getLsbD 14 then
    wordAt rams.ram3 row ++ wordAt rams.ram2 row
  else
    wordAt rams.ram1 row ++ wordAt rams.ram0 row

theorem wordAt_set
    (ram : Rows)
    {index : Nat}
    (inside : index < rows)
    (pair : UInt8 × UInt8)
    (row : BitVec 14) :
    wordAt (ram.set index pair) row =
      if row.toNat = index then rowWord pair else wordAt ram row := by
  have set :
      wordAt (ram.set index pair) row =
        rowWord (if index = row.toNat then pair else ram.get (row.toFin.cast rfl)) :=
    congrArg rowWord (Vector.getElem_set inside _)
  rw [set]
  by_cases here : row.toNat = index
  · rw [if_pos here, if_pos here.symm]
  · rw [if_neg here, if_neg (Ne.symm here)]
    rfl

/-- A row of the lower banks is a word of the RAM. -/
theorem Rams.stored_set
    (rams : Rams)
    {address : BitVec 15}
    (lower : address.toNat < 2 ^ 14)
    (row : address.toNat < rows)
    (low high : UInt8 × UInt8) :
    Rams.stored
        { rams with
          ram0 := rams.ram0.set address.toNat low
          ram1 := rams.ram1.set address.toNat high } =
      Function.update rams.stored address (rowWord high ++ rowWord low) := by
  have bank : address.getLsbD 14 = false :=
    Nat.testBit_lt_two_pow lower
  have whole : (address.extractLsb' 0 14).toNat = address.toNat := by
    rw [BitVec.extractLsb'_toNat]
    exact Nat.mod_eq_of_lt lower
  funext other
  by_cases here : other = address
  · rw [here, Function.update_self, Rams.stored]
    simp only [bank, Bool.false_eq_true, if_false]
    rw [wordAt_set _ row, wordAt_set _ row, if_pos whole, if_pos whole]
  · rw [Function.update_of_ne here, Rams.stored, Rams.stored]
    simp only
    cases isBank : other.getLsbD 14 with
    | true =>
        simp only [if_true]
    | false =>
        have otherRow :
            (other.extractLsb' 0 14).toNat ≠ address.toNat := by
          intro same
          have sameRow : other.extractLsb' 0 14 =
              address.extractLsb' 0 14 :=
            BitVec.eq_of_toNat_eq (same.trans whole.symm)
          exact here (address_ext (isBank.trans bank.symm) sameRow)
        simp only [Bool.false_eq_true, if_false]
        rw [wordAt_set _ row, wordAt_set _ row, if_neg otherRow,
          if_neg otherRow]

/-- The bytes of a number as the words of two blocks. -/
theorem rowWord_append (number : Nat) :
    rowWord
          (UInt8.ofNat (number / 256 / 256),
            UInt8.ofNat (number / 256 / 256 / 256)) ++
        rowWord (UInt8.ofNat number, UInt8.ofNat (number / 256)) =
      BitVec.ofNat 32 number := by
  apply BitVec.eq_of_toNat_eq
  rw [BitVec.toNat_append, ← Nat.shiftLeft_add_eq_or_of_lt (BitVec.isLt _),
    Nat.shiftLeft_eq]
  simp only [rowWord, UInt8.toNat_ofNat', BitVec.toNat_ofNat]
  omega

end Rows

section Step

variable {data : List UInt8} {i : Nat}

theorem ok_bind
    {α β : Type}
    (result : α)
    (next : α → Except Failure β) :
    (Except.ok result >>= next) = next result :=
  rfl

/-- The number whose bytes are stored for a word. -/
def storedNumber (data : List UInt8) (i : Nat) : Nat :=
  value ((data.drop (4 * i)).take 4) ^^^ ramDataRand ^^^
    (wordAddress (BitVec.ofNat 15 i) ++
      wordAddress (BitVec.ofNat 15 i)).toNat

/-- Where a word is stored. -/
def storedAddress (i : Nat) : BitVec 15 :=
  seeds.scrambling.address (BitVec.ofNat 15 i)

/-- Nothing but the row can be out of range. -/
theorem convertWord_eq
    (below : i < 2 ^ 15)
    (inside : 4 * i + 4 ≤ data.length)
    (rams : Rams) :
    convertWord data rams (4 * i) =
      let number := storedNumber data i
      let address := (storedAddress i).toNat
      let lower := (UInt8.ofNat number, UInt8.ofNat (number / 256))
      let upper :=
        (UInt8.ofNat (number / 256 / 256),
          UInt8.ofNat (number / 256 / 256 / 256))
      if address &&& 0x4000 = 0 then do
        let ram0 ← setItem rams.ram0 address lower
        let ram1 ← setItem rams.ram1 address upper
        return { rams with
          ram0 := ram0
          ram1 := ram1 }
      else do
        let ram2 ← setItem rams.ram2 address lower
        let ram3 ← setItem rams.ram3 address upper
        return { rams with
          ram2 := ram2
          ram3 := ram3 } := by
  have shift : (4 * i) >>> 2 = i := by
    rw [Nat.shiftRight_eq_div_pow]
    omega
  have address : i < 2 ^ 32 := Nat.lt_trans below (by decide)
  have dataRand : ramDataRand < 2 ^ 32 := by
    decide
  have addrRand : ramAddrRand < 2 ^ 32 := by
    decide
  have isWord : ((data.drop (4 * i)).take 4).length = 4 := by
    rw [List.length_take, List.length_drop]
    omega
  have both : i ^^^ ramAddrRand < 256 ^ 4 :=
    Nat.xor_lt_two_pow (n := 32) address addrRand
  have scrambled :
      value
            (List.zipWith (· ^^^ ·) (bytes 4 i) (bytes 4 ramAddrRand)) &&&
          0x7FFF =
        (storedAddress i).toNat := by
    rw [zipWith_xor_bytes, value_bytes both, scrambledRamAddr_eq]
    rfl
  unfold convertWord
  simp only [shift, ramAddrDouble_eq below, toBytes_of_lt address,
    toBytes_of_lt dataRand, toBytes_of_lt addrRand,
    toBytes_of_lt (BitVec.isLt _), ok_bind, scrambledWord_eq _ isWord,
    scrambled]
  rfl

/-- The bank of an address is its highest bit. -/
theorem bank_eq_zero_iff (address : BitVec 15) :
    address.toNat &&& 0x4000 = 0 ↔ address.toNat < 2 ^ 14 := by
  constructor
  · intro zero
    by_contra above
    have upper : address.toNat.testBit 14 = true :=
      Nat.testBit_of_two_pow_le_and_two_pow_add_one_gt
        (Nat.le_of_not_lt above) address.isLt
    have bit := congrArg (fun number => number.testBit 14) zero
    rw [Nat.testBit_and, upper, Nat.zero_testBit] at bit
    exact absurd bit (by decide)
  · intro below
    apply Nat.eq_of_testBit_eq
    intro index
    have bank : (0x4000).testBit index = decide (14 = index) :=
      Nat.testBit_two_pow (n := 14)
    rw [Nat.testBit_and, bank, Nat.zero_testBit]
    by_cases highest : 14 = index
    · rw [← highest, Nat.testBit_lt_two_pow below, Bool.false_and]
    · rw [decide_eq_false highest, Bool.and_false]

/-- The scrambling of the addresses does not change the bank. -/
theorem storedAddress_lt_iff (below : i < 2 ^ 15) :
    (storedAddress i).toNat < 2 ^ 14 ↔ i < 2 ^ 14 := by
  have address : (storedAddress i).toNat = i ^^^ 0x3EEF := by
    have scrambled : storedAddress i = BitVec.ofNat 15 i ^^^ 0x3EEF#15 :=
      rfl
    rw [scrambled, BitVec.toNat_xor, toNat_index below]
    rfl
  have key : 0x3EEF < 2 ^ 14 := by
    decide
  rw [address]
  constructor
  · intro scrambled
    have back := Nat.xor_lt_two_pow scrambled key
    rw [Nat.xor_assoc, Nat.xor_self, Nat.xor_zero] at back
    exact back
  · intro lower
    exact Nat.xor_lt_two_pow lower key

/-- A word of the lower half of the RAM is stored as the RAM would store it. -/
theorem convertWord_lower
    (below : i < 2 ^ 14)
    (inside : 4 * i + 4 ≤ data.length)
    (rams : Rams) :
    ∃ rams',
      convertWord data rams (4 * i) = .ok rams' ∧
        rams'.stored =
          Function.update rams.stored (storedAddress i)
            (BitVec.ofNat 32 (storedNumber data i)) := by
  have short : i < 2 ^ 15 := Nat.lt_trans below (by decide)
  have lower : (storedAddress i).toNat < 2 ^ 14 :=
    (storedAddress_lt_iff short).mpr below
  have row : (storedAddress i).toNat < rows := lower
  rw [convertWord_eq short inside]
  simp only
  rw [if_pos ((bank_eq_zero_iff _).mpr lower), setItem, setItem,
    dif_pos row, dif_pos row]
  refine ⟨_, rfl, ?_⟩
  rw [Rams.stored_set rams lower row, rowWord_append]

end Step

section Run

variable {app : List UInt8}

/-- The data that the loop goes through. -/
def padded (app : List UInt8) : List UInt8 :=
  (app ++ List.replicate (ramSizeBytes - app.length) 0).take ramSizeBytes

theorem length_padded (fits : app.length ≤ ramSizeBytes) :
    (padded app).length = ramSizeBytes := by
  rw [padded, List.length_take, List.length_append, List.length_replicate,
    Nat.add_sub_cancel' fits, Nat.min_self]

theorem getElem?_padded
    {place : Nat}
    (inside : place < ramSizeBytes) :
    (padded app)[place]? = some (app.getD place 0) := by
  rw [padded, List.getElem?_take_of_lt inside, List.getElem?_append,
    List.getD_eq_getElem?_getD]
  by_cases inApp : place < app.length
  · rw [if_pos inApp, List.getElem?_eq_getElem inApp, Option.getD_some]
  · have behind : place - app.length < ramSizeBytes - app.length := by
      omega
    rw [if_neg inApp, List.getElem?_replicate_of_lt behind,
      List.getElem?_eq_none (Nat.le_of_not_lt inApp), Option.getD_none]

theorem word_inside
    (fits : app.length ≤ ramSizeBytes)
    {i : Nat}
    (below : i < 2 ^ 15) :
    4 * i + 4 ≤ (padded app).length := by
  rw [length_padded fits, ramSizeBytes_eq]
  omega

/-- A word of the data is the bytes of the app, followed by zeros. -/
theorem take_drop_padded
    {i : Nat}
    (below : i < 2 ^ 15) :
    ((padded app).drop (4 * i)).take 4 =
      (List.range 4).map fun k => app.getD (4 * i + k) 0 := by
  have size := ramSizeBytes_eq
  apply List.ext_getElem?
  intro k
  by_cases inWord : k < 4
  · rw [List.getElem?_take_of_lt inWord, List.getElem?_drop,
      getElem?_padded (by omega), List.getElem?_map,
      List.getElem?_range inWord, Option.map_some]
  · have behind := Nat.le_of_not_lt inWord
    rw [List.getElem?_take_eq_none behind, List.getElem?_map,
      List.getElem?_eq_none (by simpa using behind), Option.map_none]

/-- The script scrambles words as the RAM does. -/
theorem storedNumber_padded
    {i : Nat}
    (below : i < 2 ^ 15) :
    BitVec.ofNat 32 (storedNumber (padded app) i) =
      seeds.scrambling.word (BitVec.ofNat 15 i)
        (appWord app (BitVec.ofNat 15 i)) := by
  rw [storedNumber, take_drop_padded below, BitVec.ofNat_xor,
    BitVec.ofNat_xor, BitVec.ofNat_toNat, BitVec.setWidth_eq,
    BitVec.xor_assoc, appWord, toNat_index below]
  rfl

/-- Rows that have not been written, seen through the scrambling. -/
theorem view_initial :
    seeds.scrambling.view Rams.initial.stored = unwritten := by
  funext index
  have zero (row : BitVec 14) :
      wordAt (Vector.replicate rows (0, 0)) row = 0 :=
    congrArg rowWord (Vector.getElem_replicate _)
  have stored : Rams.initial.stored (seeds.scrambling.address index) = 0 := by
    rw [Rams.stored]
    simp only [Rams.initial, zero]
    split <;> rfl
  rw [Scrambling.view, stored]
  exact BitVec.zero_xor

/--
After the first words, as far as they are in the lower half of the RAM, these
are the app's and the others have not been written.
-/
theorem convertWords
    (fits : app.length ≤ ramSizeBytes)
    {count : Nat}
    (lower : count ≤ 2 ^ 14) :
    ∃ rams,
      ((List.range count).map (4 * ·)).foldlM (convertWord (padded app))
          Rams.initial =
        .ok rams ∧
      seeds.scrambling.view rams.stored = fun index =>
        if index.toNat < count then appWord app index
        else unwritten index := by
  induction count with
  | zero =>
      refine ⟨Rams.initial, rfl, ?_⟩
      rw [view_initial]
      funext index
      exact (if_neg (Nat.not_lt_zero _)).symm
  | succ count inductionHypothesis =>
      obtain ⟨rams, runs, view⟩ :=
        inductionHypothesis (Nat.le_of_succ_le lower)
      have short : count < 2 ^ 15 := by
        omega
      obtain ⟨rams', converts, stored⟩ :=
        convertWord_lower lower (word_inside fits short) rams
      refine ⟨rams', ?_, ?_⟩
      · rw [List.range_succ, List.map_append, List.foldlM_append, runs,
          ok_bind]
        simp only [List.map_cons, List.map_nil, List.foldlM_cons,
          List.foldlM_nil, converts]
        rfl
      · rw [stored, storedNumber_padded short, storedAddress,
          Scrambling.view_update, view]
        funext index
        by_cases here : index = BitVec.ofNat 15 count
        · have isCount : index.toNat < count + 1 := by
            rw [here, toNat_index short]
            exact Nat.lt_succ_self count
          rw [if_pos isCount, here, Function.update_self]
        · have other : index.toNat ≠ count := fun same =>
            here (BitVec.eq_of_toNat_eq
              (same.trans (toNat_index short).symm))
          rw [Function.update_of_ne here]
          exact if_congr (by omega) rfl rfl

end Run

section Files

/-- A file has the words of its rows. -/
theorem readWords_of_lines (ram : Rows) :
    readWords (lines ram) =
      some
        (ram.toList.map fun row => 256 * row.2.toNat + row.1.toNat) := by
  apply readWords_lines
  · intro row
    have high : row.2.toNat < 16 ^ 2 := row.2.toNat_lt
    have low : row.1.toNat < 16 ^ 2 := row.1.toNat_lt
    rw [numberFrom_append, numberFrom_hexDigits (by decide) high,
      Option.bind_some, numberFrom_hexDigits (by decide) low, Nat.mul_zero,
      Nat.zero_add]
    rfl
  · intro row digit member
    rcases List.mem_append.mp member with inHigh | inLow
    · exact isWhitespace_of_mem_hexDigits inHigh
    · exact isWhitespace_of_mem_hexDigits inLow
  · intro row
    exact List.append_ne_nil_of_left_ne_nil (hexDigits_ne_nil _ _) _

/-- A block into which a file has been loaded holds its rows. -/
theorem loaded_iff
    {spram : Spram}
    (state : spram.State)
    (ram : Rows) :
    Loaded spram state (lines ram) ↔
      ∀ row, spram.word state row = wordAt ram row := by
  have words :
      ((readWords (lines ram)).map (List.map (BitVec.ofNat 16))) =
        some (List.ofFn fun row : Fin (2 ^ 14) => wordAt ram (.ofFin row)) := by
    rw [readWords_of_lines, Option.map_some, List.map_map]
    refine congrArg some (List.ext_getElem ?_ ?_)
    · rw [List.length_map, Vector.length_toList, List.length_ofFn]
      decide
    · intro index inRam inBlock
      rw [List.getElem_map, List.getElem_ofFn, Vector.getElem_toList]
      rfl
  rw [Loaded, words, Option.some_inj, List.ofFn_inj]
  constructor
  · intro same row
    exact (congrFun same row.toFin).symm
  · intro same
    funext row
    exact (same (.ofFin row)).symm

/-- The files of four blocks. -/
def Rams.images (rams : Rams) : Images where
  spram0 := lines rams.ram0
  spram1 := lines rams.ram1
  spram2 := lines rams.ram2
  spram3 := lines rams.ram3

/-- A loaded RAM stores the words of the four blocks. -/
theorem Images.LoadedInto.stored
    {rams : Rams}
    {spram : Spram}
    {ram : Ram spram}
    (loaded : rams.images.LoadedInto ram) :
    ram.stored = rams.stored := by
  have spram0 := (loaded_iff _ _).mp loaded.spram0
  have spram1 := (loaded_iff _ _).mp loaded.spram1
  have spram2 := (loaded_iff _ _).mp loaded.spram2
  have spram3 := (loaded_iff _ _).mp loaded.spram3
  funext address
  rw [Ram.stored, Rams.stored]
  cases address.getLsbD 14 with
  | true =>
      rw [if_pos rfl, spram2, spram3]
  | false =>
      rw [if_neg Bool.false_ne_true, spram0, spram1]

/-- The files can be loaded. -/
theorem exists_loaded (rams : Rams) :
    ∃ ram : Ram Spram.holding, rams.images.LoadedInto ram := by
  let low (bank : Bool) : Spram.holding.State :=
    (wordAt (if bank then rams.ram2 else rams.ram0), 0)
  let high (bank : Bool) : Spram.holding.State :=
    (wordAt (if bank then rams.ram3 else rams.ram1), 0)
  refine ⟨⟨low, high, false⟩, ?_, ?_, ?_, ?_⟩
  all_goals exact (loaded_iff _ _).mpr fun _ => rfl

end Files

section Agreement

variable {app : List UInt8}

/--
The script writes images of the first 8192 words of the app; all other words
are read as rows that have not been written.
-/
theorem main_contents
    (even : app.length % 2 = 0)
    (fits : app.length ≤ ramSizeBytes) :
    ∃ images,
      main app = .ok images ∧
        (∃ ram : Ram Spram.holding, images.LoadedInto ram) ∧
        ∀ (spram : Spram) (ram : Ram spram),
          images.LoadedInto ram →
            ram.contents seeds = fun index =>
              if index.toNat < 8192 then appWord app index
              else unwritten index := by
  obtain ⟨rams, runs, view⟩ :=
    convertWords fits (by decide : 8192 ≤ 2 ^ 14)
  refine ⟨rams.images, ?_, exists_loaded rams, ?_⟩
  · have words :
        range (ramSizeBytes / 4) 4 = (List.range 8192).map (4 * ·) :=
      rfl
    rw [main, if_neg (not_not.mpr even), if_neg (Nat.not_lt.mpr fits), words]
    change (List.foldlM (convertWord (padded app)) _ _ >>= _) = _
    rw [runs]
    rfl
  · intro spram ram loaded
    rw [Ram.contents, loaded.stored, view]

/-- What is read of an app that the RAM is said to hold. -/
theorem AgreesWithRam.beyond
    (agrees : AgreesWithRam app)
    (even : app.length % 2 = 0)
    (fits : app.length ≤ ramSizeBytes)
    {index : BitVec 15}
    (above : 8192 ≤ index.toNat) :
    appWord app index = unwritten index := by
  obtain ⟨images, writes, ⟨ram, loaded⟩, reads⟩ := agrees
  obtain ⟨images', writes', -, contents⟩ := main_contents even fits
  have same : images' = images :=
    Except.ok.inj (writes'.symm.trans writes)
  subst same
  -- a single access to the word
  let pause : Ram.Ports := ⟨0, 0, false, 0, 0, 0⟩
  let access : WordAccess := ⟨[pause], List.cons_ne_nil _ _, index, 0, 0⟩
  have isRead : ∀ other ∈ [access], other.we = 0 := by
    intro other member
    rw [List.mem_singleton.mp member]
  obtain ⟨ram', gives⟩ := reads _ ram loaded [access] isRead
  obtain ⟨ram'', finds⟩ := ram.serve_reads seeds [access] isRead
  have both := congrArg Prod.fst (Option.some.inj (gives.symm.trans finds))
  have word : appWord app index = ram.contents seeds index :=
    List.head_eq_of_cons_eq both
  rw [word, contents _ ram loaded]
  exact if_neg (Nat.not_lt.mpr above)

/-- The last byte that a row reads as is not zero, so the app has it. -/
theorem length_of_unwritten
    (fits : app.length ≤ ramSizeBytes)
    (last : appWord app 32767 = unwritten 32767) :
    app.length = ramSizeBytes := by
  by_contra shorter
  have size := ramSizeBytes_eq
  have missing : app.getD (4 * 32767 + 3) 0 = 0 := by
    rw [List.getD_eq_getElem?_getD, List.getElem?_eq_none (by omega),
      Option.getD_none]
  have word : (appWord app 32767).toNat < 2 ^ 24 := by
    have low := (app.getD (4 * 32767) 0).toNat_lt
    have middle := (app.getD (4 * 32767 + 1) 0).toNat_lt
    have high := (app.getD (4 * 32767 + 2) 0).toNat_lt
    calc
      (appWord app 32767).toNat
      _ ≤ value
            [app.getD (4 * 32767) 0, app.getD (4 * 32767 + 1) 0,
              app.getD (4 * 32767 + 2) 0, app.getD (4 * 32767 + 3) 0] :=
          Nat.mod_le _ _
      _ = (app.getD (4 * 32767) 0).toNat +
            256 *
              ((app.getD (4 * 32767 + 1) 0).toNat +
                256 * (app.getD (4 * 32767 + 2) 0).toNat) := by
          rw [missing]
          simp only [value_cons, value_nil, UInt8.toNat_zero, Nat.mul_zero,
            Nat.add_zero]
      _ < 2 ^ 24 := by
          omega
  rw [last] at word
  exact absurd word (by decide)

/--
The images hold the app in the RAM if and only if the app ends as rows that have
not been written.
-/
theorem images_agree_iff
    (app : List UInt8)
    (even : app.length % 2 = 0)
    (fits : app.length ≤ ramSizeBytes) :
    AgreesWithRam app ↔ EndsAsUnwritten app := by
  constructor
  · intro agrees
    have words (index : BitVec 15) (above : 8192 ≤ index.toNat) :
        appWord app index = unwritten index :=
      agrees.beyond even fits above
    exact ⟨length_of_unwritten fits (words 32767 (by decide)), words⟩
  · rintro ⟨-, words⟩
    obtain ⟨images, writes, loadable, contents⟩ := main_contents even fits
    refine ⟨images, writes, loadable, ?_⟩
    intro spram ram loaded accesses reads
    have holds : ram.contents seeds = appWord app := by
      rw [contents spram ram loaded]
      funext index
      by_cases written : index.toNat < 8192
      · exact if_pos written
      · rw [if_neg written, words index (Nat.le_of_not_lt written)]
    obtain ⟨ram', serves⟩ := ram.serve_reads seeds accesses reads
    rw [holds] at serves
    exact ⟨ram', serves⟩

/-- An app whose words are what rows that have not been written are read as. -/
def unwrittenApp : List UInt8 :=
  List.ofFn fun place : Fin ramSizeBytes =>
    (bytes 4 (unwritten (BitVec.ofNat 15 (place / 4))).toNat).getD
      (place % 4) 0

theorem appWord_unwrittenApp (index : BitVec 15) :
    appWord unwrittenApp index = unwritten index := by
  have size := ramSizeBytes_eq
  have below := index.isLt
  have word :
      ((List.range 4).map fun k =>
          unwrittenApp.getD (4 * index.toNat + k) 0) =
        (List.range 4).map fun k =>
          (bytes 4 (unwritten index).toNat).getD k 0 := by
    apply List.map_congr_left
    intro k member
    have inWord := List.mem_range.mp member
    have inside : 4 * index.toNat + k < ramSizeBytes := by
      omega
    have quotient : (4 * index.toNat + k) / 4 = index.toNat := by
      omega
    have remainder : (4 * index.toNat + k) % 4 = k := by
      omega
    rw [unwrittenApp, List.getD_eq_getElem?_getD, List.getElem?_ofFn,
      dif_pos inside, Option.getD_some]
    simp only [quotient, remainder]
    rw [BitVec.ofNat_toNat, BitVec.setWidth_eq]
  have whole : (unwritten index).toNat < 256 ^ 4 :=
    (unwritten index).isLt
  rw [appWord, word]
  change BitVec.ofNat 32 (value (bytes 4 (unwritten index).toNat)) = _
  rw [value_bytes whole, BitVec.ofNat_toNat, BitVec.setWidth_eq]

theorem images_agree_iff_sample : AgreesWithRam unwrittenApp :=
  (images_agree_iff unwrittenApp
    (by rw [unwrittenApp, List.length_ofFn]; decide)
    (by rw [unwrittenApp, List.length_ofFn])).mpr
    ⟨by rw [unwrittenApp, List.length_ofFn],
      fun index _ => appWord_unwrittenApp index⟩

/-- An app of one instruction, a jump to itself. -/
def idleApp : List UInt8 :=
  [0x6F, 0x00, 0x00, 0x00]

/-- Word 8192 of the RAM is not read as zero. -/
theorem images_agree_counterexample :
    idleApp.length % 2 = 0 ∧
      idleApp.length ≤ ramSizeBytes ∧
      ¬ AgreesWithRam idleApp := by
  refine ⟨by decide, by decide, ?_⟩
  intro agrees
  have word : appWord idleApp 8192 = unwritten 8192 :=
    agrees.beyond (by decide) (by decide) (by decide)
  exact absurd word (by decide)

end Agreement

end TKey.AppBinToSpramHex
