import TKey.KeyRegisters
import TKey.Lib.LittleEndian
import TKey.Main
import TKey.RamScrambling
import TKey.System

namespace TKey.Fpga

open ByteMemory HandshakePort

/-!
# Computing the CDI

`compute_cdi` in `main.c` waits for a random time, reads the UDS and writes the
CDI.  The firmware is seen through its accesses to the bus, and what it computes
between them is that of `Main`.
-/

section Program

def timerCtrl : BitVec 32 := 0xc1000020

def timerStatus : BitVec 32 := 0xc1000024

def timerPrescaler : BitVec 32 := 0xc1000028

def timerTimer : BitVec 32 := 0xc100002c

/-- The wait until the timer has stopped. -/
inductive AwaitTimer : List BusEntry → Prop where
  | poll
      {status : BitVec 32}
      {later : List BusEntry}
      (running : status &&& 1 ≠ 0)
      (again : AwaitTimer later) :
      AwaitTimer (((Access.load timerStatus).plain, status) :: later)
  | done
      {status : BitVec 32}
      (stopped : status &&& 1 = 0) :
      AwaitTimer [((Access.load timerStatus).plain, status)]

/-- Up to 65536 cycles. -/
def rndSleep (word : BitVec 32) : BitVec 32 :=
  let rndSleep := word &&& 0xffff
  if rndSleep = 0 then 1 else rndSleep

/-- `wordcpy_s` from the UDS: words from `w` on. -/
def udsLoads : Nat → Nat → List BusRequest
  | 0, _ => []
  | count + 1, w =>
      (Access.load (BitVec.ofNat 32 (0xc2000000 + 4 * w))).plain ::
        udsLoads count (w + 1)

/-- The bytes of words, each least significant byte first. -/
def wordsBytes (words : List (BitVec 32)) : Vector UInt8 32 :=
  toVector 32 (words.flatMap fun word => LittleEndian.bytes 4 word.toNat)

/-- A word of some bytes, least significant byte first. -/
def wordOf (bytes : Vector UInt8 32) (w : Nat) : BitVec 32 :=
  BitVec.ofNat 32 (LittleEndian.value ((bytes.toList.drop (4 * w)).take 4))

/-- `wordcpy_s` to the CDI: words from `w` on. -/
def cdiStores (cdi : Vector UInt8 32) : Nat → Nat → List BusRequest
  | 0, _ => []
  | count + 1, w =>
      (Access.store (BitVec.ofNat 32 (0xff000080 + 4 * w))
          (wordOf cdi w)).plain ::
        cdiStores cdi count (w + 1)

/-- The accesses with which `compute_cdi` sleeps for a random time. -/
inductive RandomSleep : List BusEntry → Prop where
  | mk
      {rnd polls : List BusEntry}
      {prescalerGiven timerGiven ctrlGiven word : BitVec 32}
      (random : RndWord word rnd)
      (waits : AwaitTimer polls) :
      RandomSleep
        ([((Access.store timerPrescaler 1).plain, prescalerGiven)] ++ rnd ++
          [((Access.store timerTimer (rndSleep word)).plain, timerGiven)] ++
          [((Access.store timerCtrl 1).plain, ctrlGiven)] ++ polls)

/--
The accesses of `compute_cdi`, which computes on the firmware's machine with
the UDS that it has read.
-/
inductive ComputeCdi
    (device : Device)
    (domain : UInt8)
    (digest : Vector UInt8 32)
    (useUss : Bool)
    (uss : Vector UInt8 32)
    (m m' : Machine) :
    List BusEntry → Prop where
  | mk
      {sleep loads stores : List BusEntry}
      (sleeps : RandomSleep sleep)
      (reads : loads.map Prod.fst = udsLoads 8 0)
      (computes :
        (computeCdi { device with uds := wordsBytes (loads.map Prod.snd) }
            domain digest useUss uss).run m =
          .ok () m')
      (writes : stores.map Prod.fst = cdiStores m'.cdi 8 0) :
      ComputeCdi device domain digest useUss uss m m' (sleep ++ loads ++ stores)

end Program

section Outside

variable {bits : WholeBitstream}
variable {registers after : KeyRegisters}
variable {request : BusRequest}

/-- An access to data elsewhere. -/
theorem KeyRegisters.after_elsewhere
    (notUds : decodeAddr request.access.cpuAddr ≠ .uds)
    (notTk1 : decodeAddr request.access.cpuAddr ≠ .tk1)
    (noFetch : Memories.fetchesAboveRom request = false)
    (registers : KeyRegisters) :
    registers.after request = registers := by
  rw [KeyRegisters.after, if_neg fun both => notUds both.1,
    if_neg fun both => notTk1 both.1.1.1, noFetch, Bool.false_or]

theorem KeyRegisters.after_incidental
    (incidental : request.incidental = true)
    (registers : KeyRegisters) :
    registers.after request = registers := by
  obtain ⟨core, noFetch⟩ := core_of_incidental incidental
  refine after_elsewhere ?_ ?_ noFetch registers
  all_goals
    intro same
    rw [same] at core
    rcases core with rom | fwRam
  · cases rom
  · cases fwRam
  · cases rom
  · cases fwRam

/-- What is incidental can be left out. -/
theorem serves_filter
    {entries : List BusEntry}
    (serves : Serves (KeyRegisters.Serve bits) registers entries after) :
    Serves (KeyRegisters.Serve bits) registers
      (entries.filter fun entry => !entry.1.incidental) after := by
  induction serves with
  | nil registers => exact .nil registers
  | cons served _ inductionHypothesis =>
      rename_i registers next after request response later _
      rw [List.filter_cons]
      cases incidental : request.incidental with
      | true =>
          have same : next = registers :=
            served.1.trans (KeyRegisters.after_incidental incidental registers)
          rw [same] at inductionHypothesis
          simpa [incidental] using inductionHypothesis
      | false =>
          simpa [incidental] using .cons served inductionHypothesis

/-- Accesses that change nothing. -/
theorem serves_idle
    {entries : List BusEntry}
    (elsewhere :
      ∀ entry, entry ∈ entries →
        ∀ registers : KeyRegisters,
          registers.after entry.1 = registers)
    (serves : Serves (KeyRegisters.Serve bits) registers entries after) :
    after = registers := by
  induction serves with
  | nil registers => rfl
  | cons served _ inductionHypothesis =>
      rw [inductionHypothesis fun entry member =>
        elsewhere entry (List.mem_cons_of_mem _ member)]
      exact served.1.trans (elsewhere _ List.mem_cons_self _)

end Outside

section Words

variable {bits : WholeBitstream}
variable {registers after : KeyRegisters}

/-- A word of the UDS is decoded as such. -/
theorem uds_load {w : Nat} (inside : w < 8) :
    (Access.load (BitVec.ofNat 32 (0xc2000000 + 4 * w))).ToUds ∧
      (Access.load (BitVec.ofNat 32 (0xc2000000 + 4 * w))).udsAddress =
        BitVec.ofNat 3 w := by
  have all :
      ∀ w : Fin 8,
        (Access.load (BitVec.ofNat 32 (0xc2000000 + 4 * w.val))).ToUds ∧
          (Access.load (BitVec.ofNat 32 (0xc2000000 + 4 * w.val))).udsAddress =
            BitVec.ofNat 3 w.val := by
    decide
  exact all ⟨w, inside⟩

/-- A word of the CDI is decoded as such. -/
theorem cdi_store {w : Nat} (data : BitVec 32) (inside : w < 8) :
    (Access.store (BitVec.ofNat 32 (0xff000080 + 4 * w)) data).ToCdi ∧
      (Access.store (BitVec.ofNat 32 (0xff000080 + 4 * w)) data).cdiIndex =
        BitVec.ofNat 3 w := by
  have all :
      ∀ w : Fin 8,
        (Access.load (BitVec.ofNat 32 (0xff000080 + 4 * w.val))).ToCdi ∧
          (Access.load (BitVec.ofNat 32 (0xff000080 + 4 * w.val))).cdiIndex =
            BitVec.ofNat 3 w.val := by
    decide
  exact all ⟨w, inside⟩

/-- An index is that of a word if it is its number. -/
theorem index_eq_iff {w : Nat} (inside : w < 8) (index : BitVec 3) :
    index = BitVec.ofNat 3 w ↔ index.toNat = w := by
  rw [← BitVec.toNat_inj, BitVec.toNat_ofNat, Nat.mod_eq_of_lt inside]

/-- A word of the UDS that has not been read is read. -/
theorem serve_udsLoad
    {w : Nat}
    {response : BitVec 32}
    {next : KeyRegisters}
    (inside : w < 8)
    (firmware : registers.fwStartupDone = false)
    (unread : registers.udsRead (BitVec.ofNat 3 w) = false)
    (served :
      KeyRegisters.Serve bits registers
        (Access.load (BitVec.ofNat 32 (0xc2000000 + 4 * w))).plain response
        next) :
    response = bits.uds (BitVec.ofNat 3 w) ∧
      next =
        { registers with
          udsRead :=
            Function.update registers.udsRead (BitVec.ofNat 3 w) true } := by
  obtain ⟨toUds, index⟩ := uds_load inside
  obtain ⟨isNext, answers⟩ := served
  refine ⟨answers rfl _ ?_, isNext.trans ?_⟩
  · rw [KeyRegisters.answer]
    show (if (Access.load _).ToUds then _ else _ : Option _) = _
    rw [if_pos toUds]
    show (if registers.fwStartupDone = false ∧
      registers.udsRead (Access.load _).udsAddress = false then
        some (bits.uds (Access.load _).udsAddress) else _) = _
    rw [index]
    exact if_pos ⟨firmware, unread⟩
  · apply KeyRegisters.ext
    · show (if (Access.load _).ToUds ∧ registers.fwStartupDone = false then
        Function.update registers.udsRead (Access.load _).udsAddress true
        else _) = _
      rw [index]
      exact if_pos ⟨toUds, firmware⟩
    · exact if_neg fun writes => writes.1.2 rfl
    · exact Bool.false_or _

/-- The words of the UDS are read one after the other. -/
theorem serves_udsLoads
    {count w : Nat}
    {loads : List BusEntry}
    (inside : w + count ≤ 8)
    (firmware : registers.fwStartupDone = false)
    (unread : ∀ index : BitVec 3,
      w ≤ index.toNat → registers.udsRead index = false)
    (reads : loads.map Prod.fst = udsLoads count w)
    (serves : Serves (KeyRegisters.Serve bits) registers loads after) :
    loads.map Prod.snd =
        (List.range' w count).map (fun w => bits.uds (BitVec.ofNat 3 w)) ∧
      after =
        { registers with
          udsRead := fun index =>
            registers.udsRead index ||
              decide (w ≤ index.toNat ∧ index.toNat < w + count) } := by
  induction count generalizing w registers loads with
  | zero =>
      obtain rfl := List.map_eq_nil_iff.mp reads
      cases serves
      refine ⟨rfl, ?_⟩
      apply KeyRegisters.ext <;> try rfl
      funext index
      dsimp only
      rw [decide_eq_false (by omega), Bool.or_false]
  | succ count inductionHypothesis =>
      have here : w < 8 := by omega
      have isIndex := index_eq_iff here
      obtain _ | ⟨⟨request, response⟩, loads⟩ := loads
      · cases reads
      obtain ⟨first, later⟩ := List.cons.inj reads
      cases serves with
      | cons served serves =>
          obtain rfl : request = _ := first
          have firstIndex : (BitVec.ofNat 3 w).toNat = w := (isIndex _).mp rfl
          obtain ⟨isResponse, rfl⟩ :=
            serve_udsLoad here firmware
              (unread _ (Nat.le_of_eq firstIndex.symm)) served
          obtain ⟨words, isAfter⟩ :=
            @inductionHypothesis
              { registers with
                udsRead :=
                  Function.update registers.udsRead (BitVec.ofNat 3 w) true }
              (w + 1) loads (by omega) firmware
              (fun index low => by
                have apart : index ≠ BitVec.ofNat 3 w := fun same => by
                  have := (isIndex index).mp same
                  omega
                exact (Function.update_of_ne apart ..).trans
                  (unread index (by omega)))
              later serves
          refine ⟨?_, isAfter.trans ?_⟩
          · rw [List.map_cons, List.range'_succ, List.map_cons, words,
              ← isResponse]
          · apply KeyRegisters.ext <;> try rfl
            funext index
            dsimp only
            by_cases isFirst : index.toNat = w
            · obtain rfl := (isIndex index).mpr isFirst
              rw [Function.update_self, Bool.true_or,
                decide_eq_true (by omega), Bool.or_true]
            · rw [Function.update_of_ne fun same =>
                isFirst ((isIndex index).mp same)]
              congr 1
              exact decide_eq_decide.mpr (by omega)

/-- The words of the CDI are written one after the other. -/
theorem serves_cdiStores
    {cdi : Vector UInt8 32}
    {count w : Nat}
    {stores : List BusEntry}
    (inside : w + count ≤ 8)
    (firmware : registers.fwStartupDone = false)
    (writes : stores.map Prod.fst = cdiStores cdi count w)
    (serves : Serves (KeyRegisters.Serve bits) registers stores after) :
    after =
      { registers with
        cdi := fun index =>
          if w ≤ index.toNat ∧ index.toNat < w + count then
            wordOf cdi index.toNat
          else
            registers.cdi index } := by
  induction count generalizing w registers stores with
  | zero =>
      obtain rfl := List.map_eq_nil_iff.mp writes
      cases serves
      apply KeyRegisters.ext <;> try rfl
      funext index
      exact (if_neg (by omega)).symm
  | succ count inductionHypothesis =>
      have here : w < 8 := by omega
      have isIndex := index_eq_iff here
      obtain _ | ⟨⟨request, response⟩, stores⟩ := stores
      · cases writes
      obtain ⟨first, later⟩ := List.cons.inj writes
      cases serves with
      | cons served serves =>
          obtain rfl : request = _ := first
          obtain ⟨toCdi, index⟩ := cdi_store (wordOf cdi w) here
          have stored :
              registers.after
                  (Access.store (BitVec.ofNat 32 (0xff000080 + 4 * w))
                    (wordOf cdi w)).plain =
                { registers with
                  cdi :=
                    Function.update registers.cdi (BitVec.ofNat 3 w)
                      (wordOf cdi w) } := by
            apply KeyRegisters.ext
            · refine if_neg fun reads => ?_
              have isUds : decodeAddr _ = .uds := reads.1
              have isTk1 : decodeAddr _ = .tk1 := toCdi.1
              cases isUds.symm.trans isTk1
            · show (if (Access.store _ _).WritesCdi ∧
                (registers.fwStartupDone && _) = false then
                  Function.update registers.cdi (Access.store _ _).cdiIndex _
                else _) = _
              rw [firmware, index]
              exact if_pos ⟨⟨toCdi, (by decide : (0xf : BitVec 4) ≠ 0)⟩, rfl⟩
            · exact Bool.false_or _
          rw [served.1, stored] at serves
          rw [@inductionHypothesis
            { registers with
              cdi :=
                Function.update registers.cdi (BitVec.ofNat 3 w)
                  (wordOf cdi w) }
            (w + 1) stores (by omega) firmware later serves]
          apply KeyRegisters.ext <;> try rfl
          funext index
          dsimp only
          by_cases isFirst : index.toNat = w
          · obtain rfl := (isIndex index).mpr isFirst
            rw [if_neg (by omega), if_pos (by omega), Function.update_self,
              isFirst]
          · rw [Function.update_of_ne fun same =>
              isFirst ((isIndex index).mp same)]
            exact if_congr (by omega) rfl rfl

end Words

section Effect

variable {bits : WholeBitstream}
variable {registers after : KeyRegisters}
variable {device : Device} {domain : UInt8} {useUss : Bool}
variable {digest uss : Vector UInt8 32} {m m' : Machine}

/-- An access to data of the TRNG or the timer. -/
theorem after_otherCore
    {access : Access}
    {core : OtherCore}
    (isCore : decodeAddr access.cpuAddr = .other core)
    (data : access.cpuInstr = false)
    (registers : KeyRegisters) :
    registers.after access.plain = registers := by
  have decoded : decodeAddr access.plain.access.cpuAddr = .other core :=
    isCore
  apply KeyRegisters.after_elsewhere
  · rw [decoded]
    intro same
    cases same
  · rw [decoded]
    intro same
    cases same
  · show (access.cpuInstr && _) = false
    rw [data, Bool.false_and]

theorem after_rndWord
    {word : BitVec 32}
    {entries : List BusEntry}
    (random : RndWord word entries)
    {entry : BusEntry}
    (member : entry ∈ entries)
    (registers : KeyRegisters) :
    registers.after entry.1 = registers := by
  have status :=
    @after_otherCore (.load trngStatus) .trng (by decide) rfl registers
  have entropy :=
    @after_otherCore (.load trngEntropy) .trng (by decide) rfl registers
  induction random with
  | poll _ _ inductionHypothesis =>
      rcases List.mem_cons.mp member with first | later
      · rw [first, status]
      · exact inductionHypothesis later
  | take _ =>
      rcases List.mem_cons.mp member with first | later
      · rw [first, status]
      · rw [List.eq_of_mem_singleton later, entropy]

theorem after_awaitTimer
    {entries : List BusEntry}
    (waits : AwaitTimer entries)
    {entry : BusEntry}
    (member : entry ∈ entries)
    (registers : KeyRegisters) :
    registers.after entry.1 = registers := by
  have status :=
    @after_otherCore (.load timerStatus) .timer (by decide) rfl registers
  induction waits with
  | poll _ _ inductionHypothesis =>
      rcases List.mem_cons.mp member with first | later
      · rw [first, status]
      · exact inductionHypothesis later
  | done _ => rw [List.eq_of_mem_singleton member, status]

/-- A store to a register of the timer. -/
theorem after_storeTimer
    {address data given : BitVec 32}
    (isTimer : decodeAddr address = .other .timer)
    {entry : BusEntry}
    (member : entry ∈ [((Access.store address data).plain, given)])
    (registers : KeyRegisters) :
    registers.after entry.1 = registers := by
  rw [List.eq_of_mem_singleton member]
  exact @after_otherCore (.store address data) .timer isTimer rfl registers

/-- The bytes of the UDS in the bitstream. -/
def WholeBitstream.udsBytes (bits : WholeBitstream) : Vector UInt8 32 :=
  wordsBytes ((List.range 8).map fun w => bits.uds (BitVec.ofNat 3 w))

/-- The registers that `compute_cdi` leaves. -/
def KeyRegisters.sealed (cdi : Vector UInt8 32) : KeyRegisters where
  udsRead _ := true
  cdi index := wordOf cdi index.toNat
  fwStartupDone := false

/-- Nothing happens to the UDS and the CDI during the sleep. -/
theorem serves_randomSleep
    {entries : List BusEntry}
    (sleeps : RandomSleep entries)
    (serves : Serves (KeyRegisters.Serve bits) registers entries after) :
    after = registers := by
  obtain ⟨random, waits⟩ := sleeps
  apply serves_idle _ serves
  intro entry member registers
  simp only [List.mem_append] at member
  rcases member with (((prescaler | rnd) | timer) | ctrl) | polls
  · exact after_storeTimer (by decide) prescaler registers
  · exact after_rndWord random rnd registers
  · exact after_storeTimer (by decide) timer registers
  · exact after_storeTimer (by decide) ctrl registers
  · exact after_awaitTimer waits polls registers

/-- The UDS is read after the sleep. -/
theorem serves_sleepThenLoads
    {sleep loads : List BusEntry}
    (firmware : registers.fwStartupDone = false)
    (unread : ∀ index, registers.udsRead index = false)
    (sleeps : RandomSleep sleep)
    (reads : loads.map Prod.fst = udsLoads 8 0)
    (serves :
      Serves (KeyRegisters.Serve bits) registers (sleep ++ loads) after) :
    wordsBytes (loads.map Prod.snd) = bits.udsBytes ∧
      after = { registers with udsRead := fun _ => true } := by
  obtain ⟨slept, serves, servesLoads⟩ := serves.split
  obtain rfl := serves_randomSleep sleeps serves
  obtain ⟨words, rfl⟩ :=
    serves_udsLoads (by decide) firmware (fun index _ => unread index) reads
      servesLoads
  refine ⟨by rw [words]; rfl, ?_⟩
  apply KeyRegisters.ext <;> try rfl
  funext index
  have small := index.isLt
  show (_ || decide _) = true
  rw [decide_eq_true (by omega), Bool.or_true]

/-- `compute_cdi` reads the UDS, and leaves the CDI. -/
theorem serves_computeCdi
    {entries : List BusEntry}
    (isUds : device.uds = bits.udsBytes)
    (firmware : registers.fwStartupDone = false)
    (unread : ∀ index, registers.udsRead index = false)
    (computes : ComputeCdi device domain digest useUss uss m m' entries)
    (serves : Serves (KeyRegisters.Serve bits) registers entries after) :
    (computeCdi device domain digest useUss uss).run m = .ok () m' ∧
      after = .sealed m'.cdi := by
  obtain ⟨sleeps, reads, computes, writes⟩ := computes
  obtain ⟨afterLoads, serves, servesStores⟩ := serves.split
  obtain ⟨words, rfl⟩ :=
    serves_sleepThenLoads firmware unread sleeps reads serves
  rw [words, ← isUds] at computes
  refine ⟨computes, ?_⟩
  rw [serves_cdiStores (by decide) (by exact firmware) writes servesStores]
  apply KeyRegisters.ext
  · rfl
  · funext index
    have small := index.isLt
    exact if_pos (by omega)
  · exact firmware

/-- No word of the CDI is written, unless by an app outside of system calls. -/
def KeepsCdi : Bool → List BusEntry → Prop
  | _, [] => True
  | started, entry :: later =>
      (entry.1.access.WritesCdi →
          started = true ∧ entry.1.syscall = false) ∧
        KeepsCdi (Memories.fetchesAboveRom entry.1 || started) later

theorem cdi_of_keepsCdi
    {entries : List BusEntry}
    (serves : Serves (KeyRegisters.Serve bits) registers entries after)
    (keeps : KeepsCdi registers.fwStartupDone entries) :
    after.cdi = registers.cdi := by
  induction serves with
  | nil registers => rfl
  | cons served _ inductionHypothesis =>
      obtain ⟨now, later⟩ := keeps
      obtain ⟨rfl, -⟩ := served
      rw [inductionHypothesis later]
      refine if_neg fun writes => ?_
      obtain ⟨started, outside⟩ := now writes.1
      have inApp := writes.2
      rw [KeyRegisters.appMode, started, outside] at inApp
      cases inApp

/-- A word of the UDS that was read stays read. -/
theorem udsRead_of_serves
    {entries : List BusEntry}
    (serves : Serves (KeyRegisters.Serve bits) registers entries after)
    {index : BitVec 3}
    (isRead : registers.udsRead index = true) :
    after.udsRead index = true := by
  induction serves with
  | nil registers => exact isRead
  | cons served _ inductionHypothesis =>
      obtain ⟨rfl, -⟩ := served
      apply inductionHypothesis
      rw [KeyRegisters.after]
      dsimp only
      split
      case isTrue =>
        rw [Function.update_apply]
        split
        case isTrue => rfl
        case isFalse => exact isRead
      case isFalse => exact isRead

/-- What is read after `compute_cdi`. -/
theorem reads_after_computeCdi
    {entries later : List BusEntry}
    {request : BusRequest}
    {response : BitVec 32}
    {cdi : Vector UInt8 32}
    (serves :
      Serves (KeyRegisters.Serve bits) (.sealed cdi)
        (entries ++ (request, response) :: later) after)
    (reads : request.access.cpuWstrb = 0) :
    (request.access.ToUds → response = 0) ∧
      (request.access.ToCdi → KeepsCdi false entries →
        response = wordOf cdi request.access.cdiIndex.toNat) := by
  obtain ⟨between, serves, servesLater⟩ := serves.split
  cases servesLater with
  | cons served _ =>
      refine ⟨fun toUds => ?_, fun toCdi keeps => ?_⟩
      · have isRead :
            between.udsRead request.access.udsAddress = true :=
          udsRead_of_serves serves rfl
        refine served.2 reads 0 ?_
        rw [KeyRegisters.answer, if_pos toUds, isRead]
        exact if_neg fun both => Bool.false_ne_true both.2.symm
      · refine served.2 reads _ ?_
        have notUds : ¬ request.access.ToUds := by
          intro toUds
          cases toUds.symm.trans toCdi.1
        rw [KeyRegisters.answer, if_neg notUds, if_pos toCdi,
          cdi_of_keepsCdi serves keeps]
        rfl

end Effect

section Boot

variable {bram : BlockRam} {spram : Spram}
variable {bits : WholeBitstream}
variable {whole : WholeFpga bram spram}
variable {device : Device} {domain : UInt8} {useUss : Bool}
variable {digest uss : Vector UInt8 32} {m m' : Machine}

/-- The words of the UDS are in the memory map. -/
theorem mem_udsLoads
    {count w : Nat}
    (inside : w + count ≤ 8)
    {request : BusRequest}
    (member : request ∈ udsLoads count w) :
    request.access.cpuInstr = false ∧
      Tk1.outsideMemory request.access.cpuAddr = false := by
  have mapped :
      ∀ w : Fin 8,
        Tk1.outsideMemory (BitVec.ofNat 32 (0xc2000000 + 4 * w.val)) =
          false := by
    decide
  induction count generalizing w with
  | zero => cases member
  | succ count inductionHypothesis =>
      rcases List.mem_cons.mp member with rfl | later
      · exact ⟨rfl, mapped ⟨w, by omega⟩⟩
      · exact inductionHypothesis (by omega) later

/-- The words of the CDI are in the memory map. -/
theorem mem_cdiStores
    {cdi : Vector UInt8 32}
    {count w : Nat}
    (inside : w + count ≤ 8)
    {request : BusRequest}
    (member : request ∈ cdiStores cdi count w) :
    request.access.cpuInstr = false ∧
      Tk1.outsideMemory request.access.cpuAddr = false := by
  have mapped :
      ∀ w : Fin 8,
        Tk1.outsideMemory (BitVec.ofNat 32 (0xff000080 + 4 * w.val)) =
          false := by
    decide
  induction count generalizing w with
  | zero => cases member
  | succ count inductionHypothesis =>
      rcases List.mem_cons.mp member with rfl | later
      · exact ⟨rfl, mapped ⟨w, by omega⟩⟩
      · exact inductionHypothesis (by omega) later

/-- The sleep ends. -/
theorem completes_randomSleep
    (documented : bram.Documented)
    (bits : WholeBitstream)
    (idle : whole.Idle) :
    ∃ (entries : List BusEntry) (next : WholeFpga bram spram),
      RandomSleep entries ∧ Completes bits whole entries next := by
  have store
      {whole : WholeFpga bram spram}
      (idle : whole.Idle)
      {address : BitVec 32}
      (inside : Tk1.outsideMemory address = false)
      (data : BitVec 32) :
      ∃ (given : BitVec 32) (next : WholeFpga bram spram),
        Completes bits whole [((Access.store address data).plain, given)]
          next := by
    obtain ⟨given, next, completes, -⟩ :=
      @completes_access _ _ _ (Access.store address data).plain documented bits
        idle rfl inside
    exact ⟨given, next, completes⟩
  obtain ⟨prescalerGiven, prescaled, setsPrescaler⟩ :=
    @store whole idle timerPrescaler (by decide) 1
  obtain ⟨word, rnd, drawn, random, draws⟩ :=
    completes_rndWord documented bits setsPrescaler.choose_spec.idle
  obtain ⟨timerGiven, timed, setsTimer⟩ :=
    @store drawn draws.choose_spec.idle timerTimer (by decide) (rndSleep word)
  obtain ⟨ctrlGiven, started, starts⟩ :=
    @store timed setsTimer.choose_spec.idle timerCtrl (by decide) 1
  obtain ⟨stopped, waits, isStopped⟩ :=
    completes_until_stopped bits starts.choose_spec.idle
  obtain ⟨status, polled, polls, -, -, isStatus⟩ :=
    @completes_access _ _ _ (Access.load timerStatus).plain documented bits
      waits.choose_spec.idle rfl (by decide)
  have isZero : status &&& 1 = 0 := by
    rw [isStatus (by decide)]
    show (BitVec.ofBool stopped.timer.core.running).setWidth 32 &&& 1 = 0
    rw [isStopped]
    decide
  exact
    ⟨_, polled, .mk random (.done isZero),
      (((setsPrescaler.append draws).append setsTimer).append starts).append
        (waits.append polls)⟩

/-- What a run serves that ends with the bus idle. -/
theorem Completed.serves
    {inputs : List Pins}
    {entries : List BusEntry}
    {next : WholeFpga bram spram}
    (documented : bram.Documented)
    (rested : whole.Rested)
    (completed : Completed bits whole inputs entries next) :
    ∃ after,
      Serves (KeyRegisters.Serve bits) whole.keyRegisters entries after := by
  have reached := completed.run
  subst reached
  rw [← completed.delivered]
  exact
    Stage.run
      (.waiting ⟨rested, rfl⟩ :
        Stage (keyRegisters_services documented bits) ..)
      completed.held completed.idle.notTrapped

/-- The firmware's machine after `compute_cdi`. -/
theorem exists_computeCdi_run
    (device : Device)
    (domain : UInt8)
    (digest : Vector UInt8 32)
    (useUss : Bool)
    (uss : Vector UInt8 32)
    (m : Machine) :
    ∃ m', (computeCdi device domain digest useUss uss).run m = .ok () m' :=
  ⟨_, computeCdi_run device domain digest
    { Context.initial with useUss := useUss, uss := uss } m⟩

/-- `compute_cdi` returns. -/
theorem completes_computeCdi
    (documented : bram.Documented)
    (bits : WholeBitstream)
    (idle : whole.Idle)
    (firmware : whole.bus.tk1.fwStartupDoneReg = false)
    (unread : ∀ index, whole.bus.uds.udsRdReg index = false)
    (isUds : device.uds = bits.udsBytes)
    (computes :
      (computeCdi device domain digest useUss uss).run m = .ok () m') :
    ∃ (entries : List BusEntry) (next : WholeFpga bram spram),
      ComputeCdi device domain digest useUss uss m m' entries ∧
        Completes bits whole entries next := by
  obtain ⟨sleep, slept, sleeps, completesSleep⟩ :=
    completes_randomSleep documented bits idle
  obtain ⟨loads, loaded, reads, completesLoads⟩ :=
    completes_accesses documented bits (udsLoads 8 0)
      completesSleep.choose_spec.idle
      (fun _ member => (mem_udsLoads (by decide) member).1)
      (fun _ member => (mem_udsLoads (by decide) member).2)
  obtain ⟨stores, next, writes, completesStores⟩ :=
    completes_accesses documented bits (cdiStores m'.cdi 8 0)
      completesLoads.choose_spec.idle
      (fun _ member => (mem_cdiStores (by decide) member).1)
      (fun _ member => (mem_cdiStores (by decide) member).2)
  have completes := completesSleep.append completesLoads
  obtain ⟨after, serves⟩ :=
    completes.choose_spec.serves documented idle.rested
  obtain ⟨words, -⟩ :=
    serves_sleepThenLoads firmware unread sleeps reads serves
  refine ⟨_, next, .mk sleeps reads ?_ writes, completes.append completesStores⟩
  rw [words, ← isUds]
  exact computes

/--
`compute_cdi` can run to its end.  Whenever it did, its machine is the one that
the UDS of the device leads to, the CPU finds the CDI of that machine until the
firmware writes another, and it never finds the UDS again.
-/
theorem compute_cdi_seals
    (documented : bram.Documented)
    (bits : WholeBitstream)
    (whole : WholeFpga bram spram)
    (device : Device)
    (domain : UInt8)
    (digest : Vector UInt8 32)
    (useUss : Bool)
    (uss : Vector UInt8 32)
    (m : Machine)
    (isUds : device.uds = bits.udsBytes)
    (idle : whole.Idle)
    (firmware : whole.bus.tk1.fwStartupDoneReg = false)
    (unread : ∀ index, whole.bus.uds.udsRdReg index = false) :
    ∃ m',
      (computeCdi device domain digest useUss uss).run m = .ok () m' ∧
      (∃ (entries : List BusEntry) (next : WholeFpga bram spram),
        ComputeCdi device domain digest useUss uss m m' entries ∧
          Completes bits whole entries next) ∧
      ∀ (inputs : List Pins) (first later : List BusEntry) (left : Machine),
        (memoryBus bram spram bits).Held whole inputs →
        ¬ (whole.run bits inputs).Trapped →
        (memoryBus bram spram bits).deliveries whole inputs = first ++ later →
        ComputeCdi device domain digest useUss uss m left
          (first.filter fun entry => !entry.1.incidental) →
        left = m' ∧
        ∀ (between : List BusEntry) (request : BusRequest)
            (response : BitVec 32) (rest : List BusEntry),
          later = between ++ (request, response) :: rest →
          request.access.cpuWstrb = 0 →
          (request.access.ToUds → response = 0) ∧
          (request.access.ToCdi → KeepsCdi false between →
            response = wordOf m'.cdi request.access.cdiIndex.toNat) := by
  obtain ⟨m', computes⟩ :=
    exists_computeCdi_run device domain digest useUss uss m
  refine ⟨m', computes,
    completes_computeCdi documented bits idle firmware unread isUds computes,
    ?_⟩
  intro inputs first later left held notTrapped delivered computed
  obtain ⟨after, serves⟩ :=
    Stage.run
      (.waiting ⟨idle.rested, rfl⟩ :
        Stage (keyRegisters_services documented bits) ..)
      held notTrapped
  rw [delivered] at serves
  obtain ⟨computedAt, servesFirst, servesLater⟩ := serves.split
  obtain ⟨computesLeft, rfl⟩ :=
    serves_computeCdi isUds firmware unread computed
      (serves_filter servesFirst)
  have same : left = m' := by
    rw [computes] at computesLeft
    cases computesLeft
    rfl
  refine ⟨same, ?_⟩
  rintro between request response rest rfl reads
  rw [← same]
  exact reads_after_computeCdi servesLater reads

/-- The device that a bitstream with counted words makes. -/
def countingDevice : Device :=
  { Device.sample with uds := WholeBitstream.counting.udsBytes }

/-- The device after its configuration. -/
theorem compute_cdi_seals_sample :
    ∃ (m' : Machine) (entries : List BusEntry)
        (next : WholeFpga .masked .holding),
      (computeCdi countingDevice 0 (Vector.replicate 32 1) false
          (Vector.replicate 32 0)).run
        (.entered (.provisioned .sample) (fun _ => 0) .zero) = .ok () m' ∧
        ComputeCdi countingDevice 0 (Vector.replicate 32 1) false
          (Vector.replicate 32 0)
          (.entered (.provisioned .sample) (fun _ => 0) .zero) m' entries ∧
        Completes .counting WholeFpga.blank entries next := by
  obtain ⟨m', run, ⟨entries, next, computes, completes⟩, -⟩ :=
    compute_cdi_seals documented_masked .counting .blank countingDevice 0
      (Vector.replicate 32 1) false (Vector.replicate 32 0)
      (.entered (.provisioned .sample) (fun _ => 0) .zero) rfl
      ⟨⟨rfl, rfl, rfl, rfl⟩, Bool.false_ne_true, Trng.sane_reset⟩ rfl
      fun _ => rfl
  exact ⟨m', entries, next, run, computes, completes⟩

end Boot

end TKey.Fpga
