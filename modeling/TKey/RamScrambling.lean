import TKey.BusPrograms

namespace TKey.Fpga

open HandshakePort ScrambledMemory

/-!
# Scrambling the RAM

`scramble_ram` in `main.c` fills app RAM with a pseudorandom sequence and sets
new seeds.  What earlier programs left in app RAM is gone then.  The firmware is
seen through its accesses to the bus.
-/

section Program

/-- An access outside of a system call. -/
def Access.plain (access : Access) : BusRequest where
  access := access
  syscall := false

def trngStatus : BitVec 32 := 0xc0000024

def trngEntropy : BitVec 32 := 0xc0000080

def ramAddrRand : BitVec 32 := 0xff000100

def ramDataRand : BitVec 32 := 0xff000104

/-- The accesses of `rnd_word`, which returns a word. -/
inductive RndWord (word : BitVec 32) : List BusEntry → Prop where
  | poll
      {status : BitVec 32}
      {later : List BusEntry}
      (notReady : status &&& 1 = 0)
      (again : RndWord word later) :
      RndWord word (((Access.load trngStatus).plain, status) :: later)
  | take
      {status : BitVec 32}
      (ready : status &&& 1 ≠ 0) :
      RndWord word
        [((Access.load trngStatus).plain, status),
          ((Access.load trngEntropy).plain, word)]

def xorwow (state acc : BitVec 32) : BitVec 32 :=
  let state := state ^^^ state <<< 13
  let state := state ^^^ state >>> 17
  let state := state ^^^ state <<< 5
  state + acc

/-- The stores of the loop in `scramble_ram`, from the word `w` on. -/
def fillRam : Nat → Nat → BitVec 32 → BitVec 32 → List BusRequest
  | 0, _, _, _ => []
  | words + 1, w, dataState, dataAcc =>
      let dataState := xorwow dataState dataAcc
      (Access.store (BitVec.ofNat 32 (0x40000000 + 4 * w)) dataState).plain ::
        fillRam words (w + 1) dataState dataAcc

/-- What `scramble_ram` takes from the TRNG. -/
structure ScrambleWords where
  dataState : BitVec 32
  dataAcc : BitVec 32
  ramAddrRand : BitVec 32
  ramDataRand : BitVec 32

/-- The accesses of `scramble_ram`. -/
inductive ScrambleRam (words : ScrambleWords) : List BusEntry → Prop where
  | mk
      {state acc addr data fill : List BusEntry}
      {addrGiven dataGiven : BitVec 32}
      (dataState : RndWord words.dataState state)
      (dataAcc : RndWord words.dataAcc acc)
      (fills :
        fill.map Prod.fst = fillRam 32768 0 words.dataState words.dataAcc)
      (addrRand : RndWord words.ramAddrRand addr)
      (dataRand : RndWord words.ramDataRand data) :
      ScrambleRam words
        (state ++ acc ++ fill ++ addr ++
          [((Access.store ramAddrRand words.ramAddrRand).plain, addrGiven)] ++
          data ++
          [((Access.store ramDataRand words.ramDataRand).plain, dataGiven)])

/--
What the CPU does besides: it fetches from ROM, and reads data there, and it has
its stack in `FW_RAM`.
-/
def BusRequest.incidental (request : BusRequest) : Bool :=
  decide (request.access.cpuAddr ≤ fwRomLast) ||
    (decodeAddr request.access.cpuAddr == .fwRam && !request.access.cpuInstr)

end Program

section Outside

/-- Memories that agree, but for `FW_RAM`. -/
structure Memories.Agree (memories memories' : Memories) : Prop where
  ram : memories.ram = memories'.ram
  seeds : memories.seeds = memories'.seeds
  fwStartupDone : memories.fwStartupDone = memories'.fwStartupDone

variable {memories memories' : Memories}

theorem Memories.Agree.trans
    {memories'' : Memories}
    (agree : memories.Agree memories')
    (agree' : memories'.Agree memories'') :
    memories.Agree memories'' :=
  ⟨agree.ram.trans agree'.ram, agree.seeds.trans agree'.seeds,
    agree.fwStartupDone.trans agree'.fwStartupDone⟩

/-- They agree after an access. -/
theorem Memories.Agree.after
    (agree : memories.Agree memories')
    (request : BusRequest) :
    (memories.after request).Agree (memories'.after request) := by
  obtain ⟨ram, fwRam, seeds, fwStartupDone⟩ := memories
  obtain ⟨ram', fwRam', seeds', fwStartupDone'⟩ := memories'
  obtain ⟨rfl, rfl, rfl⟩ := agree
  exact ⟨rfl, rfl, rfl⟩

/-- The memories after accesses. -/
def Memories.afterAll (memories : Memories) (entries : List BusEntry) :
    Memories :=
  entries.foldl (fun memories entry => memories.after entry.1) memories

theorem Memories.afterAll_append
    (memories : Memories)
    (first later : List BusEntry) :
    memories.afterAll (first ++ later) =
      (memories.afterAll first).afterAll later :=
  List.foldl_append ..

theorem afterAll_of_serves
    {bits : WholeBitstream}
    {entries : List BusEntry}
    {after : Memories}
    (serves : Serves (Memories.Serve bits) memories entries after) :
    after = memories.afterAll entries := by
  induction serves with
  | nil _ => rfl
  | cons served _ inductionHypothesis =>
      rw [inductionHypothesis, served.1]
      rfl

/-- An access that touches neither app RAM nor the seeds nor the mode. -/
theorem agree_after
    {request : BusRequest}
    (notRam : decodeAddr request.access.cpuAddr ≠ .other .ram)
    (notTk1 : decodeAddr request.access.cpuAddr ≠ .tk1)
    (noFetch : Memories.fetchesAboveRom request = false) :
    (memories.after request).Agree memories := by
  have none
      (register : BitVec 8) :
      memories.sets request register = false := by
    rw [Memories.sets, beq_false_of_ne notTk1]
    rfl
  have seeds : memories.seedsAfter request = memories.seeds := by
    rw [Memories.seedsAfter, none, none]
    rfl
  refine ⟨?_, seeds, ?_⟩
  · rw [Memories.after, if_neg notRam, seeds, Scrambling.view_hide]
  · rw [Memories.after, noFetch, Bool.false_or]

/-- The ROM is at the lowest addresses. -/
theorem decodeAddr_rom
    {cpuAddr : BitVec 32}
    (inRom : cpuAddr ≤ fwRomLast) :
    decodeAddr cpuAddr = .other .rom := by
  have area : cpuAddr.extractLsb' 30 2 = 0 := by
    rw [BitVec.le_def, show fwRomLast.toNat = 0x1fff from rfl] at inRom
    apply BitVec.eq_of_toNat_eq
    rw [toNat_extract]
    show _ = 0
    omega
  rw [decodeAddr, area]
  rfl

/-- What is incidental is in ROM or in `FW_RAM`, and starts nothing. -/
theorem core_of_incidental
    {request : BusRequest}
    (incidental : request.incidental = true) :
    (decodeAddr request.access.cpuAddr = .other .rom ∨
        decodeAddr request.access.cpuAddr = .fwRam) ∧
      Memories.fetchesAboveRom request = false := by
  rw [BusRequest.incidental, Bool.or_eq_true, Bool.and_eq_true,
    decide_eq_true_eq, beq_iff_eq, Bool.not_eq_true'] at incidental
  rcases incidental with inRom | ⟨inFwRam, data⟩
  · refine ⟨.inl (decodeAddr_rom inRom), ?_⟩
    rw [Memories.fetchesAboveRom,
      decide_eq_false (by rw [BitVec.not_lt]; exact inRom), Bool.and_false]
  · refine ⟨.inr inFwRam, ?_⟩
    rw [Memories.fetchesAboveRom, data, Bool.false_and]

theorem agree_of_incidental
    {request : BusRequest}
    (incidental : request.incidental = true) :
    (memories.after request).Agree memories := by
  obtain ⟨core, noFetch⟩ := core_of_incidental incidental
  refine agree_after ?_ ?_ noFetch
  all_goals
    intro same
    rw [same] at core
    rcases core with rom | fwRam
  · cases rom
  · cases fwRam
  · cases rom
  · cases fwRam

/-- What is incidental can be left out. -/
theorem agree_afterAll_filter
    (entries : List BusEntry)
    (agree : memories.Agree memories') :
    (memories.afterAll entries).Agree
      (memories'.afterAll
        (entries.filter fun entry => !entry.1.incidental)) := by
  induction entries generalizing memories memories' with
  | nil => exact agree
  | cons entry entries inductionHypothesis =>
      rw [List.filter_cons]
      cases incidental : entry.1.incidental with
      | true =>
          exact
            inductionHypothesis ((agree_of_incidental incidental).trans agree)
      | false => exact inductionHypothesis (agree.after entry.1)

end Outside

section Fill

variable {memories : Memories}

/-- The state of `xorwow` after some words. -/
def xorwowAfter (dataState dataAcc : BitVec 32) : Nat → BitVec 32
  | 0 => dataState
  | words + 1 => xorwow (xorwowAfter dataState dataAcc words) dataAcc

/-- A step of `xorwow` at the beginning is one at the end. -/
theorem xorwowAfter_succ (dataState dataAcc : BitVec 32) (words : Nat) :
    xorwowAfter (xorwow dataState dataAcc) dataAcc words =
      xorwowAfter dataState dataAcc (words + 1) := by
  induction words with
  | zero => rfl
  | succ words inductionHypothesis =>
      rw [xorwowAfter, inductionHypothesis]
      rfl

/-- A word of app RAM is decoded as such. -/
theorem decodeAddr_ram {w : Nat} (inside : w < 32768) :
    decodeAddr (BitVec.ofNat 32 (0x40000000 + 4 * w)) = .other .ram := by
  have area :
      (BitVec.ofNat 32 (0x40000000 + 4 * w)).extractLsb' 30 2 = 1 := by
    apply BitVec.eq_of_toNat_eq
    rw [toNat_extract, BitVec.toNat_ofNat]
    show _ = 1
    omega
  rw [decodeAddr, area]
  rfl

theorem ramIndex_store {w : Nat} (data : BitVec 32) (inside : w < 32768) :
    (Access.store (BitVec.ofNat 32 (0x40000000 + 4 * w)) data).ramIndex.toNat =
      w := by
  rw [Access.ramIndex, toNat_extract]
  show BitVec.toNat (BitVec.ofNat 32 (0x40000000 + 4 * w)) / _ % _ = w
  rw [BitVec.toNat_ofNat]
  omega

/-- All bytes of a word are written. -/
theorem merge_byteMask_all (old new : BitVec 32) :
    merge (byteMask 0xf) old new = new := by
  apply BitVec.eq_of_getLsbD_eq
  intro bit inside
  have isByte : bit / 8 < 4 := by omega
  have enabled : (byteMask 0xf).getLsbD bit = true :=
    (getLsbD_byteMask 0xf ⟨bit, inside⟩).trans
      ((BitVec.getLsbD_allOnes (v := 4)).trans (decide_eq_true isByte))
  rw [getLsbD_merge, if_pos enabled]

/-- A word is stored in app RAM. -/
theorem after_store
    (memories : Memories)
    {w : Nat}
    (data : BitVec 32)
    (inside : w < 32768) :
    (memories.after
        (Access.store (BitVec.ofNat 32 (0x40000000 + 4 * w)) data).plain).Agree
      { memories with
        ram := Function.update memories.ram (BitVec.ofNat 15 w) data } := by
  have isRam := decodeAddr_ram inside
  have index :
      (Access.store (BitVec.ofNat 32 (0x40000000 + 4 * w)) data).ramIndex =
        BitVec.ofNat 15 w := by
    apply BitVec.eq_of_toNat_eq
    rw [ramIndex_store data inside, BitVec.toNat_ofNat, Nat.mod_eq_of_lt inside]
  refine ⟨?_, memories.seedsAfter_of_memory ?_, rfl⟩
  · refine (if_pos isRam).trans ?_
    rw [← index]
    exact congrArg (Function.update memories.ram _) (merge_byteMask_all ..)
  · show CodeMemory (decodeAddr (BitVec.ofNat 32 (0x40000000 + 4 * w)))
    rw [isRam]
    exact .ram

/-- App RAM with words from `w` on that follow a state of `xorwow`. -/
def filled
    (ram : BitVec 15 → BitVec 32)
    (words w : Nat)
    (dataState dataAcc : BitVec 32) : BitVec 15 → BitVec 32 := fun index =>
  if w ≤ index.toNat ∧ index.toNat < w + words then
    xorwowAfter dataState dataAcc (index.toNat - w + 1)
  else
    ram index

/-- The first word can be filled before the others. -/
theorem filled_succ
    (ram : BitVec 15 → BitVec 32)
    (words w : Nat)
    (dataState dataAcc : BitVec 32)
    (inside : w < 32768) :
    filled (Function.update ram (BitVec.ofNat 15 w) (xorwow dataState dataAcc))
        words (w + 1) (xorwow dataState dataAcc) dataAcc =
      filled ram (words + 1) w dataState dataAcc := by
  funext index
  unfold filled
  rw [xorwowAfter_succ]
  by_cases here : index.toNat = w
  · have isHere : index = BitVec.ofNat 15 w := by
      apply BitVec.eq_of_toNat_eq
      rw [here, BitVec.toNat_ofNat, Nat.mod_eq_of_lt inside]
    rw [if_neg (by omega), if_pos (by omega), isHere, Function.update_self,
      ← isHere, here, Nat.sub_self]
    rfl
  · have apart : index ≠ BitVec.ofNat 15 w := fun same => here (by
      rw [same, BitVec.toNat_ofNat, Nat.mod_eq_of_lt inside])
    rw [Function.update_of_ne apart]
    apply ite_congr
    · apply propext
      omega
    · rintro ⟨later, -⟩
      have next : index.toNat - (w + 1) + 1 + 1 = index.toNat - w + 1 := by
        omega
      rw [next]
    · exact fun _ => rfl

/-- The loop fills the words of app RAM from `w` on. -/
theorem agree_fillRam
    (words w : Nat)
    (dataState dataAcc : BitVec 32)
    (entries : List BusEntry)
    (inside : w + words ≤ 32768)
    (fills : entries.map Prod.fst = fillRam words w dataState dataAcc) :
    (memories.afterAll entries).Agree
      { memories with
        ram := filled memories.ram words w dataState dataAcc } := by
  induction words generalizing w dataState memories entries with
  | zero =>
      obtain rfl := List.map_eq_nil_iff.mp fills
      refine ⟨funext fun index => ?_, rfl, rfl⟩
      exact (if_neg (by omega)).symm
  | succ words inductionHypothesis =>
      cases entries with
      | nil => cases fills
      | cons entry entries =>
          obtain ⟨first, later⟩ := List.cons.inj fills
          have here : w < 32768 := by
            omega
          have stored := after_store memories (xorwow dataState dataAcc) here
          rw [← first] at stored
          have filled :=
            @inductionHypothesis
              (memories.after entry.1) (w + 1)
              (xorwow dataState dataAcc) entries (by omega) later
          refine ⟨filled.ram.trans ?_, filled.seeds.trans stored.seeds,
            filled.fwStartupDone.trans stored.fwStartupDone⟩
          dsimp only
          rw [stored.ram]
          exact filled_succ memories.ram words w dataState dataAcc here

end Fill

section Noise

variable {memories memories' memories'' : Memories}
variable {words : ScrambleWords}

theorem Memories.Agree.afterAll
    (agree : memories.Agree memories')
    (entries : List BusEntry) :
    (memories.afterAll entries).Agree (memories'.afterAll entries) := by
  induction entries generalizing memories memories' with
  | nil => exact agree
  | cons entry entries inductionHypothesis =>
      exact inductionHypothesis (agree.after entry.1)

/-- Accesses after one another. -/
theorem Memories.Agree.append
    {first later : List BusEntry}
    (agree : (memories.afterAll first).Agree memories')
    (agree' : (memories'.afterAll later).Agree memories'') :
    (memories.afterAll (first ++ later)).Agree memories'' := by
  rw [afterAll_append]
  exact (agree.afterAll later).trans agree'

/-- `rnd_word` changes nothing. -/
theorem agree_rndWord
    {word : BitVec 32}
    {entries : List BusEntry}
    (rndWord : RndWord word entries) :
    (memories.afterAll entries).Agree memories := by
  have nothing
      {address : BitVec 32}
      (isTrng : decodeAddr address = .other .trng)
      (memories : Memories) :
      (memories.after (Access.load address).plain).Agree memories := by
    have decoded :
        decodeAddr (Access.load address).plain.access.cpuAddr = .other .trng :=
      isTrng
    apply agree_after
    · rw [decoded]
      nofun
    · rw [decoded]
      nofun
    · rfl
  induction rndWord generalizing memories with
  | poll _ _ inductionHypothesis =>
      exact inductionHypothesis.trans (nothing rfl memories)
  | take _ => exact (nothing rfl _).trans (nothing rfl memories)

/-- The seeds that `scramble_ram` sets. -/
def ScrambleWords.seeds (words : ScrambleWords) : Seeds where
  ramAddrRand := words.ramAddrRand.extractLsb' 0 15
  ramDataRand := words.ramDataRand

/-- What the CPU finds in app RAM after `scramble_ram`. -/
def ScrambleWords.noise (words : ScrambleWords) (seeds : Seeds) :
    BitVec 15 → BitVec 32 :=
  words.seeds.scrambling.view
    (seeds.scrambling.hide fun index =>
      xorwowAfter words.dataState words.dataAcc (index.toNat + 1))

/-- Memories in which only the seeds are new: app RAM is seen differently. -/
def Memories.reseeded (memories : Memories) (seeds : Seeds) : Memories :=
  { memories with
    ram := seeds.scrambling.view (memories.seeds.scrambling.hide memories.ram)
    seeds := seeds }

/-- The last seeds decide. -/
theorem reseeded_reseeded (memories : Memories) (seeds seeds' : Seeds) :
    (memories.reseeded seeds).reseeded seeds' = memories.reseeded seeds' := by
  rw [Memories.reseeded, Memories.reseeded]
  dsimp only
  rw [Scrambling.hide_view]
  rfl

/-- A store to TK1 changes nothing but the seeds. -/
theorem after_storeTk1
    {address data : BitVec 32}
    (isTk1 : decodeAddr address = .tk1) :
    (memories.after (Access.store address data).plain).Agree
      (memories.reseeded
        (memories.seedsAfter (Access.store address data).plain)) := by
  have notRam :
      decodeAddr (Access.store address data).plain.access.cpuAddr ≠
        .other .ram := by
    show decodeAddr address ≠ _
    rw [isTk1]
    nofun
  exact ⟨if_neg notRam, rfl, rfl⟩

/-- The firmware sets the register that it stores to. -/
theorem sets_store
    {address data : BitVec 32}
    (firmware : memories.fwStartupDone = false)
    (isTk1 : decodeAddr address = .tk1)
    (register : BitVec 8) :
    memories.sets (Access.store address data).plain register =
      (address.extractLsb' 2 8 == register) := by
  show (decodeAddr address == .tk1 && (0xf : BitVec 4) != 0 &&
    address.extractLsb' 2 8 == register && !(memories.fwStartupDone && _)) = _
  rw [isTk1, firmware]
  simp

/-- The firmware sets the seed of the addresses. -/
theorem agree_storeAddrRand
    (firmware : memories.fwStartupDone = false)
    (data given : BitVec 32) :
    (memories.afterAll [((Access.store ramAddrRand data).plain, given)]).Agree
      (memories.reseeded
        { memories.seeds with ramAddrRand := data.extractLsb' 0 15 }) := by
  have isTk1 : decodeAddr ramAddrRand = .tk1 := by
    decide
  have seeds :
      memories.seedsAfter (Access.store ramAddrRand data).plain =
        { memories.seeds with ramAddrRand := data.extractLsb' 0 15 } := by
    rw [Memories.seedsAfter, sets_store firmware isTk1,
      sets_store firmware isTk1]
    rfl
  rw [← seeds]
  exact after_storeTk1 isTk1

/-- The firmware sets the seed of the data. -/
theorem agree_storeDataRand
    (firmware : memories.fwStartupDone = false)
    (data given : BitVec 32) :
    (memories.afterAll [((Access.store ramDataRand data).plain, given)]).Agree
      (memories.reseeded { memories.seeds with ramDataRand := data }) := by
  have isTk1 : decodeAddr ramDataRand = .tk1 := by
    decide
  have seeds :
      memories.seedsAfter (Access.store ramDataRand data).plain =
        { memories.seeds with ramDataRand := data } := by
    rw [Memories.seedsAfter, sets_store firmware isTk1,
      sets_store firmware isTk1]
    rfl
  rw [← seeds]
  exact after_storeTk1 isTk1

/-- `scramble_ram` leaves nothing of what was in app RAM. -/
theorem agree_scrambleRam
    (firmware : memories.fwStartupDone = false)
    {entries : List BusEntry}
    (scrambles : ScrambleRam words entries) :
    (memories.afterAll entries).Agree
      { memories with
        ram := words.noise memories.seeds
        seeds := words.seeds } := by
  obtain @⟨_, _, _, _, _, addrGiven, dataGiven, dataState, dataAcc, fills,
    addrRand, dataRand⟩ := scrambles
  have all :
      filled memories.ram 32768 0 words.dataState words.dataAcc =
        fun index =>
          xorwowAfter words.dataState words.dataAcc (index.toNat + 1) :=
    funext fun index => if_pos ⟨Nat.zero_le _, by omega⟩
  have fill :=
    @agree_fillRam memories 32768 0 words.dataState words.dataAcc _
      (Nat.le_of_eq (Nat.zero_add _)) fills
  rw [all] at fill
  -- app RAM is filled, and then the seeds are set one after the other
  have drawn :=
    (((agree_rndWord dataState).append (agree_rndWord dataAcc)).append
      fill).append (agree_rndWord addrRand)
  generalize isFilled : Memories.mk _ _ _ _ = filled at drawn
  have firmwareFilled : filled.fwStartupDone = false := by
    rw [← isFilled]
    exact firmware
  have addressed :=
    drawn.append (agree_storeAddrRand firmwareFilled words.ramAddrRand addrGiven)
  generalize isAddressed : filled.reseeded _ = addressedMemories at addressed
  have firmwareAddressed : addressedMemories.fwStartupDone = false := by
    rw [← isAddressed]
    exact firmwareFilled
  have done :=
    (addressed.append (agree_rndWord dataRand)).append
      (agree_storeDataRand firmwareAddressed words.ramDataRand dataGiven)
  rw [← isAddressed, reseeded_reseeded, ← isFilled] at done
  exact done

end Noise

section Boot

variable {bram : BlockRam} {spram : Spram}
variable {bits : WholeBitstream}
variable {whole : WholeFpga bram spram}

/-- `rnd_word` returns: the TRNG has a word after a while. -/
theorem completes_rndWord
    (documented : bram.Documented)
    (bits : WholeBitstream)
    (idle : whole.Idle) :
    ∃ (word : BitVec 32) (entries : List BusEntry)
        (next : WholeFpga bram spram),
      RndWord word entries ∧ Completes bits whole entries next := by
  obtain ⟨waited, waits, ready⟩ := completes_until_ready bits idle
  obtain ⟨status, polled, polls, -, isStatus, -⟩ :=
    @completes_access _ _ _ (Access.load trngStatus).plain documented bits
      waits.choose_spec.idle rfl (by decide)
  obtain ⟨word, next, reads, -⟩ :=
    @completes_access _ _ _ (Access.load trngEntropy).plain documented bits
      polls.choose_spec.idle rfl (by decide)
  refine ⟨word, _, next, .take ?_, (waits.append polls).append reads⟩
  rw [isStatus (by decide)]
  show (BitVec.ofBool waited.trng.dataReadyReg).setWidth 32 &&& 1 ≠ 0
  rw [ready]
  decide

/-- The stores of the loop are stores to app RAM. -/
theorem mem_fillRam
    {words w : Nat}
    {dataState dataAcc : BitVec 32}
    (inside : w + words ≤ 32768)
    {request : BusRequest}
    (member : request ∈ fillRam words w dataState dataAcc) :
    ∃ index data,
      index < 32768 ∧
        request =
          (Access.store (BitVec.ofNat 32 (0x40000000 + 4 * index))
            data).plain := by
  induction words generalizing w dataState with
  | zero => cases member
  | succ words inductionHypothesis =>
      rcases List.mem_cons.mp member with rfl | later
      · exact ⟨w, _, by omega, rfl⟩
      · exact inductionHypothesis (by omega) later

/-- A word of app RAM is in the memory map. -/
theorem outsideMemory_ram {index : Nat} (inside : index < 32768) :
    Tk1.outsideMemory (BitVec.ofNat 32 (0x40000000 + 4 * index)) = false := by
  refine (outsideMemory_iff _).mpr ⟨⟨.ramCs, 0x40000000, 0x20000⟩, ?_, ?_⟩
  · decide
  · rw [Region.Contains, BitVec.toNat_ofNat]
    dsimp only
    omega

/-- `scramble_ram` returns. -/
theorem completes_scrambleRam
    (documented : bram.Documented)
    (bits : WholeBitstream)
    (idle : whole.Idle) :
    ∃ (words : ScrambleWords) (entries : List BusEntry)
        (next : WholeFpga bram spram),
      ScrambleRam words entries ∧ Completes bits whole entries next := by
  obtain ⟨dataState, stateEntries, afterState, isState, completesState⟩ :=
    completes_rndWord documented bits idle
  obtain ⟨dataAcc, accEntries, afterAcc, isAcc, completesAcc⟩ :=
    completes_rndWord documented bits completesState.choose_spec.idle
  have stores
      {request : BusRequest}
      (member : request ∈ fillRam 32768 0 dataState dataAcc) :=
    mem_fillRam (Nat.le_of_eq (Nat.zero_add _)) member
  obtain ⟨fillEntries, afterFill, isFill, completesFill⟩ :=
    completes_accesses documented bits (fillRam 32768 0 dataState dataAcc)
      completesAcc.choose_spec.idle
      (fun request member => by
        obtain ⟨_, _, -, rfl⟩ := stores member
        rfl)
      (fun request member => by
        obtain ⟨_, _, inside, rfl⟩ := stores member
        exact outsideMemory_ram inside)
  obtain ⟨addrRand, addrEntries, afterAddr, isAddr, completesAddr⟩ :=
    completes_rndWord documented bits completesFill.choose_spec.idle
  obtain ⟨addrGiven, addressed, setsAddr, -⟩ :=
    @completes_access _ _ _ (Access.store ramAddrRand addrRand).plain documented
      bits completesAddr.choose_spec.idle rfl
      (by show Tk1.outsideMemory ramAddrRand = false; decide)
  obtain ⟨dataRand, dataEntries, afterData, isData, completesData⟩ :=
    completes_rndWord documented bits setsAddr.choose_spec.idle
  obtain ⟨dataGiven, next, setsData, -⟩ :=
    @completes_access _ _ _ (Access.store ramDataRand dataRand).plain documented
      bits completesData.choose_spec.idle rfl
      (by show Tk1.outsideMemory ramDataRand = false; decide)
  exact
    ⟨⟨dataState, dataAcc, addrRand, dataRand⟩, _, next,
      @ScrambleRam.mk ⟨dataState, dataAcc, addrRand, dataRand⟩ _ _ _ _ _
        addrGiven dataGiven isState isAcc isFill isAddr isData,
      (((((completesState.append completesAcc).append completesFill).append
        completesAddr).append setsAddr).append completesData).append setsData⟩

/--
`scramble_ram` can run to its end.  Whenever it did, the CPU finds in app RAM
what the four words from the TRNG decide, and not what was there before.
-/
theorem scramble_ram_hides
    (documented : bram.Documented)
    (bits : WholeBitstream)
    (whole : WholeFpga bram spram)
    (idle : whole.Idle)
    (firmware : whole.bus.tk1.fwStartupDoneReg = false) :
    (∃ (words : ScrambleWords) (entries : List BusEntry)
        (next : WholeFpga bram spram),
      ScrambleRam words entries ∧ Completes bits whole entries next) ∧
    ∀ (inputs : List Pins) (words : ScrambleWords)
        (first later : List BusEntry),
      (memoryBus bram spram bits).Held whole inputs →
      ¬ (whole.run bits inputs).Trapped →
      (memoryBus bram spram bits).deliveries whole inputs = first ++ later →
      ScrambleRam words (first.filter fun entry => !entry.1.incidental) →
      ∃ fwRam after,
        Serves (Memories.Serve bits)
          { ram := words.noise whole.seeds
            fwRam := fwRam
            seeds := words.seeds
            fwStartupDone := false }
          later after := by
  refine ⟨completes_scrambleRam documented bits idle, ?_⟩
  intro inputs words first later held notTrapped delivered scrambles
  obtain ⟨after, serves⟩ :=
    Stage.run
      (.waiting ⟨idle.rested, rfl⟩ :
        Stage (memoryBus_services documented bits) ..)
      held notTrapped
  rw [delivered] at serves
  obtain ⟨between, servesFirst, servesLater⟩ := serves.split
  have isBetween := afterAll_of_serves servesFirst
  have agree :=
    (agree_afterAll_filter first
      (⟨rfl, rfl, rfl⟩ : whole.memories.Agree whole.memories)).trans
      (agree_scrambleRam firmware scrambles)
  rw [← isBetween] at agree
  refine ⟨between.fwRam, after, ?_⟩
  obtain ⟨ram, fwRam, seeds, fwStartupDone⟩ := between
  obtain ⟨rfl, rfl, rfl⟩ := agree
  rw [show whole.memories.fwStartupDone = false from firmware] at servesLater
  exact servesLater

/-- The device after its configuration. -/
theorem scramble_ram_hides_sample :
    ∃ (words : ScrambleWords) (entries : List BusEntry)
        (next : WholeFpga .masked .holding),
      ScrambleRam words entries ∧
        Completes .counting WholeFpga.blank entries next :=
  (scramble_ram_hides documented_masked .counting .blank
    ⟨⟨rfl, rfl, rfl, rfl⟩, Bool.false_ne_true, Trng.sane_reset⟩ rfl).1

end Boot

end TKey.Fpga
