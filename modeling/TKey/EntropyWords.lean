import TKey.Lib.Register
import TKey.Peripherals
import Mathlib.Data.List.Induction

namespace TKey.Fpga

/-!
# Words of the entropy source

The sampling of `trng.v` runs freely.  Every collected bit is shifted into the
entropy register; the bits of a run are numbered by the order in which they are
collected.  A word that is read when the status says that one is ready holds
only bits that were collected after the read before.
-/

section Collected

/-- The bits of a word, the first one in the highest place. -/
def shiftBits (word : BitVec 32) (bits : List Bool) : BitVec 32 :=
  bits.foldl (fun word bit => word.extractLsb' 0 31 ++ BitVec.ofBool bit) word

theorem getLsbD_shiftBits
    (word : BitVec 32)
    (bits : List Bool)
    {place : Nat}
    (inside : place < 32) :
    (shiftBits word bits).getLsbD place =
      if place < bits.length then
        bits.reverse.getD place false
      else
        word.getLsbD (place - bits.length) := by
  induction bits using List.reverseRecOn generalizing place with
  | nil =>
      rfl
  | append_singleton bits bit inductionHypothesis =>
      rw [shiftBits, List.foldl_append, List.foldl_cons, List.foldl_nil,
        BitVec.getLsbD_append, List.reverse_append, List.reverse_singleton,
        List.singleton_append, List.length_append, List.length_singleton]
      cases place with
      | zero =>
          simp
      | succ place =>
          have before := inductionHypothesis (Nat.lt_of_succ_lt inside)
          rw [if_neg (by omega), BitVec.getLsbD_extractLsb',
            decide_eq_true (by omega), Bool.true_and, Nat.zero_add,
            Nat.add_sub_cancel, List.getD_cons_succ]
          rw [shiftBits] at before
          rw [before]
          simp only [Nat.add_lt_add_iff_right, Nat.add_sub_add_right]

theorem shiftBits_append (word : BitVec 32) (old new : List Bool) :
    shiftBits word (old ++ new) = shiftBits (shiftBits word old) new := by
  exact List.foldl_append

/-- 32 bits are a whole word: nothing of what was before is left. -/
theorem shiftBits_append_word
    (word : BitVec 32)
    (old new : List Bool)
    (whole : new.length = 32) :
    shiftBits word (old ++ new) = shiftBits 0 new := by
  rw [shiftBits_append]
  apply BitVec.eq_of_getLsbD_eq
  intro place inside
  rw [getLsbD_shiftBits _ _ inside, getLsbD_shiftBits _ _ inside, whole,
    if_pos inside, if_pos inside]

namespace Trng

/-- What happens to the core in a cycle. -/
structure Cycle where
  xorF : Bool
  xorG : Bool
  ports : CorePorts

def step (trng : Trng) (cycle : Cycle) : Trng :=
  trng.clock cycle.xorF cycle.xorG cycle.ports

/-- The state after some cycles. -/
def run (cycles : List Cycle) : Trng :=
  cycles.foldl step reset

/-- The bit that is collected in a cycle. -/
def collects (trng : Trng) : List Bool :=
  if trng.bitCtrInc then
    [xorSample trng.sample1Reg ^^ xorSample trng.sample2Reg]
  else
    []

/-- The bits that are collected in a run. -/
def collected (cycles : List Cycle) : List Bool :=
  Register.outputs step (fun trng _ => trng.collects) reset cycles

/-- What a read of the status tells. -/
def reportsReady (trng : Trng) : Bool :=
  (trng.readData
    { cs := true, we := false, address := trngAddrStatus, writeData := 0 }
    ).getLsbD 0

theorem reportsReady_eq (trng : Trng) :
    trng.reportsReady = trng.dataReadyReg := by
  change ((BitVec.ofBool trng.dataReadyReg).setWidth 32).getLsbD 0 = _
  cases trng.dataReadyReg <;> rfl

theorem run_concat (past : List Cycle) (cycle : Cycle) :
    run (past ++ [cycle]) = (run past).step cycle := by
  exact List.foldl_append

theorem collected_concat (past : List Cycle) (cycle : Cycle) :
    collected (past ++ [cycle]) = collected past ++ (run past).collects := by
  exact Register.outputs_concat reset past cycle

/-- What is collected later comes after what is collected first. -/
theorem collected_append (past later : List Cycle) :
    collected (past ++ later) =
      collected past ++
        Register.outputs step (fun trng _ => trng.collects) (run past) later := by
  exact Register.outputs_append reset past later

/-- The entropy register holds the bits that were collected last. -/
theorem entropyReg_run (cycles : List Cycle) :
    (run cycles).entropyReg = shiftBits 0 (collected cycles) := by
  induction cycles using List.reverseRecOn with
  | nil =>
      rfl
  | append_singleton past cycle inductionHypothesis =>
      rw [run_concat, collected_concat, shiftBits_append,
        ← inductionHypothesis]
      unfold step clock collects
      cases (run past).bitCtrInc <;> rfl

/-- The word that is read when the last 32 collected bits are these. -/
theorem readData_entropy
    {past : List Cycle}
    {ports : CorePorts}
    {old word : List Bool}
    (reads : bitCtrRst ports = true)
    (bits : collected past = old ++ word)
    (whole : word.length = 32) :
    (run past).readData ports = shiftBits 0 word := by
  simp only [bitCtrRst, Bool.and_eq_true, beq_iff_eq] at reads
  rcases reads with ⟨access, address⟩
  have other : trngAddrEntropy ≠ trngAddrStatus := by decide
  rw [readData, if_pos (Bool.and_eq_true_iff.mpr access), address, if_neg other,
    if_pos rfl, entropyReg_run, bits, shiftBits_append_word _ _ _ whole]

end Trng

end Collected

section Fresh

namespace Trng

/--
The counter and the status after a read and `count` collected bits.  The
counter may wrap once a word is ready.
-/
def Counted (trng : Trng) (count : Nat) : Prop :=
  if trng.dataReadyReg then
    32 < count
  else
    count ≤ 32 ∧ trng.bitCtrReg = BitVec.ofNat 8 count

theorem counted_reset : reset.Counted 0 := by
  exact ⟨Nat.zero_le 32, rfl⟩

/-- A read of the entropy begins a new word. -/
theorem counted_step_read
    (trng : Trng)
    {cycle : Cycle}
    (reads : bitCtrRst cycle.ports = true) :
    (trng.step cycle).Counted 0 := by
  simp [Counted, step, clock, reads]

/-- Without a read every collected bit counts. -/
theorem Counted.step_quiet
    {trng : Trng}
    {count : Nat}
    {cycle : Cycle}
    (counted : trng.Counted count)
    (quiet : bitCtrRst cycle.ports = false) :
    (trng.step cycle).Counted (count + trng.collects.length) := by
  unfold Counted at *
  cases collecting : trng.bitCtrInc with
  | false =>
      simpa [step, clock, quiet, collects, collecting] using counted
  | true =>
      cases ready : trng.dataReadyReg with
      | true =>
          simp only [ready, ↓reduceIte] at counted
          simp only [step, clock, quiet, collects, collecting, ready]
          simp only [Bool.or_true, Bool.false_eq_true, ↓reduceIte,
            List.length_singleton]
          exact Nat.lt_succ_of_lt counted
      | false =>
          simp only [ready, Bool.false_eq_true, ↓reduceIte] at counted
          rcases counted with ⟨short, counter⟩
          simp only [step, clock, quiet, collects, collecting, ready, counter,
            ↓reduceIte, Bool.false_eq_true, Bool.true_and, Bool.or_false,
            List.length_singleton]
          by_cases last : count = 32
          · subst last
            decide
          · have other : (BitVec.ofNat 8 count == skipBits) = false := by
              rw [beq_eq_false_iff_ne]
              intro same
              have counts : count % 2 ^ 8 = 32 := congrArg BitVec.toNat same
              omega
            rw [other, if_neg Bool.false_ne_true]
            exact ⟨by omega, (BitVec.ofNat_add ..).symm⟩

/-- After a read and `count` collected bits, and perhaps more reads. -/
def CountedWithin (trng : Trng) (count : Nat) : Prop :=
  ∃ since ≤ count, trng.Counted since

theorem CountedWithin.foldl
    {trng : Trng}
    {count : Nat}
    (counted : trng.CountedWithin count)
    (later : List Cycle) :
    (later.foldl step trng).CountedWithin
      (count +
        (Register.outputs step (fun trng _ => trng.collects) trng
          later).length) := by
  induction later generalizing trng count with
  | nil =>
      exact counted
  | cons cycle later inductionHypothesis =>
      rcases counted with ⟨since, within, counted⟩
      have next : (trng.step cycle).CountedWithin
          (count + trng.collects.length) := by
        cases reads : bitCtrRst cycle.ports with
        | true =>
            exact ⟨0, Nat.zero_le _, counted_step_read trng reads⟩
        | false =>
            exact ⟨_, Nat.add_le_add_right within _, counted.step_quiet reads⟩
      have later' := inductionHypothesis next
      rw [List.foldl_cons, Register.outputs, List.length_append, ← Nat.add_assoc]
      exact later'

/-- A word is ready only after enough bits. -/
theorem CountedWithin.of_ready
    {trng : Trng}
    {count : Nat}
    (counted : trng.CountedWithin count)
    (ready : trng.reportsReady = true) :
    32 < count := by
  rcases counted with ⟨since, within, counted⟩
  rw [reportsReady_eq] at ready
  rw [Counted, if_pos ready] at counted
  exact Nat.lt_of_lt_of_le counted within

/-- At least 32 bits are collected between a read and a ready word. -/
theorem collected_since
    {earlier since : List Cycle}
    {previous : Cycle}
    (reads : bitCtrRst previous.ports = true)
    (ready : (run (earlier ++ previous :: since)).reportsReady = true) :
    ∃ new, collected (earlier ++ previous :: since) =
        collected (earlier ++ [previous]) ++ new ∧
      32 < new.length := by
  rw [List.append_cons] at ready ⊢
  refine ⟨_, collected_append _ _, ?_⟩
  have begins : (run (earlier ++ [previous])).CountedWithin 0 := by
    rw [run_concat]
    exact ⟨0, Nat.le_refl 0, counted_step_read _ reads⟩
  have counted := begins.foldl since
  rw [Nat.zero_add] at counted
  apply counted.of_ready
  rw [run, List.foldl_append] at ready
  exact ready

/-- 32 bits are collected before the first word is ready. -/
theorem collected_of_ready
    {past : List Cycle}
    (ready : (run past).reportsReady = true) :
    32 < (collected past).length := by
  have begins : reset.CountedWithin 0 := ⟨0, Nat.le_refl 0, counted_reset⟩
  have counted := begins.foldl past
  rw [Nat.zero_add] at counted
  exact counted.of_ready ready

end Trng

end Fresh

section Progress

namespace Trng

/-- The registers that decide when the next word is ready. -/
structure At
    (trng : Trng)
    (ctrl : TrngCtrl)
    (cycles bits : Nat)
    (ready : Bool) : Prop where
  trngCtrlReg : trng.trngCtrlReg = ctrl
  cycleCtrReg : trng.cycleCtrReg = BitVec.ofNat 16 cycles
  bitCtrReg : trng.bitCtrReg = BitVec.ofNat 8 bits
  dataReadyReg : trng.dataReadyReg = ready

variable {trng : Trng} {ctrl : TrngCtrl} {cycles bits : Nat} {ready : Bool}
variable {cycle : Cycle}

/-- The cycles before an oscillator is sampled. -/
theorem At.step_wait
    (now : trng.At ctrl cycles bits ready)
    (sampling : ctrl ≠ .dataReady)
    (short : cycles < 0x1000)
    (quiet : bitCtrRst cycle.ports = false) :
    (trng.step cycle).At ctrl (cycles + 1) bits ready := by
  rcases now with ⟨ctrl_eq, cycles_eq, bits_eq, ready_eq⟩
  have open' : trng.cycleCtrDone = false := by
    rw [cycleCtrDone, cycles_eq, beq_eq_false_iff_ne]
    intro same
    have done : cycles % 2 ^ 16 = 0x1000 := congrArg BitVec.toNat same
    omega
  have collecting : trng.bitCtrInc = false := by
    rw [bitCtrInc, ctrl_eq, beq_eq_false_iff_ne]
    exact sampling
  constructor
  · cases ctrl <;> simp_all [step, clock]
  · simp only [step, clock, sampleWe, open', Bool.false_and,
      Bool.false_eq_true, ↓reduceIte, cycles_eq]
    exact (BitVec.ofNat_add ..).symm
  · simp only [step, clock, quiet, collecting, Bool.false_eq_true, ↓reduceIte,
      bits_eq]
  · simp only [step, clock, quiet, collecting, Bool.false_eq_true, ↓reduceIte,
      Bool.false_and, Bool.false_or, ready_eq]

/-- The state that follows a sample. -/
def afterSample : TrngCtrl → TrngCtrl
  | .sample1 => .sample2
  | .sample2 => .dataReady
  | .dataReady => .sample1

/-- The cycle in which the oscillators are sampled. -/
theorem At.step_sample
    (now : trng.At ctrl 0x1000 bits ready)
    (sampling : ctrl ≠ .dataReady)
    (quiet : bitCtrRst cycle.ports = false) :
    (trng.step cycle).At (afterSample ctrl) 0 bits ready := by
  rcases now with ⟨ctrl_eq, cycles_eq, bits_eq, ready_eq⟩
  have done : trng.cycleCtrDone = true := by
    rw [cycleCtrDone, cycles_eq]
    rfl
  have collecting : trng.bitCtrInc = false := by
    rw [bitCtrInc, ctrl_eq, beq_eq_false_iff_ne]
    exact sampling
  constructor
  · cases ctrl <;> simp_all [step, clock, afterSample]
  · simp_all [step, clock, sampleWe]
  · simp only [step, clock, quiet, collecting, Bool.false_eq_true, ↓reduceIte,
      bits_eq]
  · simp only [step, clock, quiet, collecting, Bool.false_eq_true, ↓reduceIte,
      Bool.false_and, Bool.false_or, ready_eq]

/-- The cycle in which a bit is collected. -/
theorem At.step_collect
    (now : trng.At .dataReady 0 bits ready)
    (short : bits ≤ 32)
    (quiet : bitCtrRst cycle.ports = false) :
    (trng.step cycle).At .sample1 1 (bits + 1) (decide (bits = 32) || ready) := by
  rcases now with ⟨ctrl_eq, cycles_eq, bits_eq, ready_eq⟩
  have last : (BitVec.ofNat 8 bits == skipBits) = decide (bits = 32) := by
    rw [Bool.eq_iff_iff, beq_iff_eq, decide_eq_true_eq]
    constructor
    · intro same
      have counts : bits % 2 ^ 8 = 32 := congrArg BitVec.toNat same
      omega
    · intro same
      rw [same]
      rfl
  constructor
  · simp [step, clock, ctrl_eq]
  · simp [step, clock, sampleWe, ctrl_eq, cycles_eq]
  · simp only [step, clock, quiet, bitCtrInc, ctrl_eq, bits_eq,
      Bool.false_eq_true, ↓reduceIte, beq_self_eq_true]
    exact (BitVec.ofNat_add ..).symm
  · simp only [step, clock, quiet, bitCtrInc, ctrl_eq, bits_eq, last, ready_eq,
      Bool.false_eq_true, ↓reduceIte, beq_self_eq_true, Bool.true_and]

/-- The cycles up to the next sample, and this one. -/
theorem At.foldl_sample
    {first : Cycle}
    {rest : List Cycle}
    (now : trng.At ctrl cycles bits ready)
    (sampling : ctrl ≠ .dataReady)
    (last : cycles + rest.length = 0x1000)
    (quiet : ∀ cycle ∈ first :: rest, bitCtrRst cycle.ports = false) :
    ((first :: rest).foldl step trng).At (afterSample ctrl) 0 bits ready := by
  induction rest generalizing trng cycles first with
  | nil =>
      have due : cycles = 0x1000 := last
      subst due
      exact now.step_sample sampling (quiet first (by simp))
  | cons second rest inductionHypothesis =>
      rw [List.length_cons] at last
      have next := now.step_wait sampling (by omega) (quiet first (by simp))
      exact inductionHypothesis next (by omega)
        fun other member => quiet other (List.mem_cons_of_mem _ member)

/-- Both samples and the cycle in which their bit is collected. -/
theorem At.foldl_bit
    {later : List Cycle}
    (now : trng.At .sample1 cycles bits ready)
    (started : cycles ≤ 2)
    (short : bits ≤ 32)
    (long : cycles + later.length = 0x2003)
    (quiet : ∀ cycle ∈ later, bitCtrRst cycle.ports = false) :
    (later.foldl step trng).At .sample1 1 (bits + 1)
      (decide (bits = 32) || ready) := by
  obtain ⟨first, second, third, split, firstLength, secondLength, thirdLength⟩ :
      ∃ first second third, later = first ++ (second ++ third) ∧
        cycles + first.length = 0x1001 ∧ second.length = 0x1001 ∧
        third.length = 1 := by
    refine ⟨later.take (0x1001 - cycles),
      (later.drop (0x1001 - cycles)).take 0x1001,
      (later.drop (0x1001 - cycles)).drop 0x1001, ?_, ?_, ?_, ?_⟩
    · rw [List.take_append_drop, List.take_append_drop]
    all_goals simp only [List.length_take, List.length_drop]
    all_goals omega
  subst split
  rcases first with _ | ⟨sample1, wait1⟩
  · simp only [List.length_nil] at firstLength
    omega
  rcases second with _ | ⟨sample2, wait2⟩
  · simp at secondLength
  rcases List.length_eq_one_iff.mp thirdLength with ⟨collect, single⟩
  subst single
  rw [List.length_cons] at firstLength secondLength
  have afterFirst := now.foldl_sample (by decide) (by omega)
    fun cycle member => quiet cycle (List.mem_append_left _ member)
  have afterSecond := afterFirst.foldl_sample (by decide) (by omega)
    fun cycle member => quiet cycle
      (List.mem_append_right _ (List.mem_append_left _ member))
  rw [List.foldl_append, List.foldl_append]
  exact afterSecond.step_collect short (quiet collect (by simp))

/-- Number of cycles in which some bits are collected after reset. -/
def bitCycles (bits : Nat) : Nat :=
  0x2002 * bits + 1

/-- The bits of a word, one after the other. -/
theorem At.foldl_bits
    (bits : Nat)
    (short : bits ≤ 32)
    (now : trng.At .sample1 cycles 0 false)
    (started : cycles ≤ 2)
    {later : List Cycle}
    (long : cycles + later.length = bitCycles (bits + 1))
    (quiet : ∀ cycle ∈ later, bitCtrRst cycle.ports = false) :
    (later.foldl step trng).At .sample1 1 (bits + 1) (decide (bits = 32)) := by
  induction bits generalizing later with
  | zero =>
      exact now.foldl_bit started (by decide) long quiet
  | succ bits inductionHypothesis =>
      unfold bitCycles at long
      have before :=
        @inductionHypothesis (Nat.le_of_succ_le short)
          (later.take (bitCycles (bits + 1) - cycles))
          (by
            rw [List.length_take, bitCycles]
            omega)
          fun cycle member => quiet cycle (List.mem_of_mem_take member)
      have unready : decide (bits = 32) = false := by
        exact decide_eq_false (by omega)
      rw [unready] at before
      have rest :
          1 + (later.drop (bitCycles (bits + 1) - cycles)).length = 0x2003 := by
        rw [List.length_drop, bitCycles]
        omega
      have next := before.foldl_bit (by decide) short rest
        fun cycle member => quiet cycle (List.mem_of_mem_drop member)
      rw [← List.foldl_append, List.take_append_drop, Bool.or_false] at next
      exact next

/-- A word is ready at the latest after 33 bits. -/
theorem at_run
    {past : List Cycle}
    (long : past.length = bitCycles 33)
    (quiet : ∀ cycle ∈ past, bitCtrRst cycle.ports = false) :
    (run past).At .sample1 1 33 true := by
  have begins : reset.At .sample1 0 0 false := ⟨rfl, rfl, rfl, rfl⟩
  exact
    begins.foldl_bits 32 (Nat.le_refl 32) (by decide)
      ((Nat.zero_add _).trans long) quiet

/-- A read begins a new word, while the sampling goes on. -/
theorem At.step_read
    (now : trng.At .sample1 cycles bits ready)
    (short : cycles < 0x1000)
    (reads : bitCtrRst cycle.ports = true) :
    (trng.step cycle).At .sample1 (cycles + 1) 0 false := by
  rcases now with ⟨ctrl_eq, cycles_eq, bits_eq, ready_eq⟩
  have open' : trng.cycleCtrDone = false := by
    rw [cycleCtrDone, cycles_eq, beq_eq_false_iff_ne]
    intro same
    have done : cycles % 2 ^ 16 = 0x1000 := congrArg BitVec.toNat same
    omega
  constructor
  · simp [step, clock, ctrl_eq, open']
  · simp only [step, clock, sampleWe, open', Bool.false_and,
      Bool.false_eq_true, ↓reduceIte, cycles_eq]
    exact (BitVec.ofNat_add ..).symm
  · simp [step, clock, reads]
  · simp [step, clock, reads]

theorem At.reportsReady (now : trng.At ctrl cycles bits true) :
    trng.reportsReady = true :=
  (reportsReady_eq trng).trans now.dataReadyReg

/-- The next word is ready after as many bits. -/
theorem at_run_read
    {past later : List Cycle}
    {cycle : Cycle}
    (now : (run past).At .sample1 1 bits ready)
    (reads : bitCtrRst cycle.ports = true)
    (long : 2 + later.length = bitCycles 33)
    (quiet : ∀ cycle ∈ later, bitCtrRst cycle.ports = false) :
    (run (past ++ cycle :: later)).At .sample1 1 33 true := by
  rw [run, List.foldl_append, List.foldl_cons]
  exact
    (now.step_read (by decide) reads).foldl_bits 32 (Nat.le_refl 32)
      (Nat.le_refl 2) long quiet

end Trng

end Progress

section Words

namespace Trng

/-- A word that is ready are the last 32 bits. -/
theorem last_bits_of_ready
    {past : List Cycle}
    {ports : CorePorts}
    (reads : bitCtrRst ports = true)
    (ready : (run past).reportsReady = true) :
    ∃ old word,
      collected past = old ++ word ∧
      word.length = 32 ∧
      (run past).readData ports = shiftBits 0 word := by
  have enough := collected_of_ready ready
  have split := (List.take_append_drop ((collected past).length - 32)
    (collected past)).symm
  have whole :
      ((collected past).drop ((collected past).length - 32)).length = 32 := by
    rw [List.length_drop]
    omega
  exact ⟨_, _, split, whole, readData_entropy reads split whole⟩

/--
All bits of a word that is read when the status says that it is ready were
collected after the read before it: no bit is in two such words.
-/
theorem ready_word
    {past : List Cycle}
    {ports : CorePorts}
    (reads : bitCtrRst ports = true)
    (ready : (run past).reportsReady = true) :
    ∃ old word,
      collected past = old ++ word ∧
      word.length = 32 ∧
      (run past).readData ports = shiftBits 0 word ∧
      ∀ earlier previous since,
        past = earlier ++ previous :: since →
        bitCtrRst previous.ports = true →
        collected (earlier ++ [previous]) <+: old ∧
          ((run earlier).reportsReady = true →
            ∃ before previousWord between,
              old = before ++ previousWord ++ between ∧
              previousWord.length = 32 ∧
              (run earlier).readData previous.ports =
                shiftBits 0 previousWord) := by
  rcases last_bits_of_ready reads ready with ⟨old, word, split, whole, value⟩
  refine ⟨old, word, split, whole, value, ?_⟩
  intro earlier previous since same previousReads
  subst same
  have before : collected (earlier ++ [previous]) <+: old := by
    rcases collected_since previousReads ready with ⟨new, bits, long⟩
    have lengths := congrArg List.length (bits.symm.trans split)
    rw [List.length_append, List.length_append, whole] at lengths
    apply List.prefix_of_prefix_length_le (bits ▸ List.prefix_append _ _)
      (split ▸ List.prefix_append _ _)
    omega
  refine ⟨before, ?_⟩
  intro previousReady
  rcases last_bits_of_ready previousReads previousReady with
    ⟨first, previousWord, previousSplit, previousWhole, previousValue⟩
  rcases before with ⟨between, rest⟩
  refine ⟨first, previousWord, (run earlier).collects ++ between, ?_,
    previousWhole, previousValue⟩
  rw [← previousSplit, ← rest, collected_concat, List.append_assoc]

/-- Cycles without access, in which the oscillators change. -/
def noisyCycles (count : Nat) : List Cycle :=
  (List.range count).map fun moment =>
    { xorF := moment.testBit 3
      xorG := moment.testBit 5
      ports := { cs := false, we := false, address := 0, writeData := 0 } }

theorem length_noisyCycles (count : Nat) :
    (noisyCycles count).length = count := by
  rw [noisyCycles, List.length_map, List.length_range]

theorem quiet_noisyCycles (count : Nat) :
    ∀ cycle ∈ noisyCycles count, bitCtrRst cycle.ports = false := by
  intro cycle member
  obtain ⟨moment, _, isCycle⟩ := List.mem_map.mp member
  rw [← isCycle]
  rfl

/-- A read of the entropy. -/
def entropyRead : CorePorts where
  cs := true
  we := false
  address := trngAddrEntropy
  writeData := 0

/-- Two words that are read as soon as they are ready. -/
theorem ready_word_noisy :
    let first := noisyCycles (bitCycles 33)
    let second := noisyCycles (bitCycles 33 - 2)
    let read : Cycle := { xorF := true, xorG := false, ports := entropyRead }
    ∃ old word before previousWord between,
      collected (first ++ read :: second) = old ++ word ∧
      old = before ++ previousWord ++ between ∧
      word.length = 32 ∧
      previousWord.length = 32 ∧
      (run first).readData entropyRead = shiftBits 0 previousWord ∧
      (run (first ++ read :: second)).readData entropyRead =
        shiftBits 0 word := by
  intro first second read
  have reads : bitCtrRst entropyRead = true := by decide
  have firstReady : (run first).At .sample1 1 33 true :=
    at_run (length_noisyCycles _) (quiet_noisyCycles _)
  have secondLength : 2 + second.length = bitCycles 33 :=
    congrArg (2 + ·) (length_noisyCycles _)
  have secondReady : (run (first ++ read :: second)).At .sample1 1 33 true :=
    at_run_read firstReady reads secondLength (quiet_noisyCycles _)
  obtain ⟨old, word, split, whole, value, fresh⟩ :=
    ready_word reads secondReady.reportsReady
  obtain ⟨-, twoWords⟩ := fresh first read second rfl reads
  obtain ⟨before, previousWord, between, isOld, previousWhole,
    previousValue⟩ := twoWords firstReady.reportsReady
  exact
    ⟨old, word, before, previousWord, between, split, isOld, whole,
      previousWhole, previousValue, value⟩

end Trng

end Words

end TKey.Fpga
