import Mathlib.Data.List.Induction
import TKey.Lib.SpiWires

namespace SpiWires

/-!
# A slave on an SPI bus

A slave that works on whole bytes.  What it sends depends on the bytes that it
has received since it was selected, and it acts on all of them when it is
released.
-/

section Slave

/-- What a slave does with bytes. -/
structure Slave (State : Type) where
  /-- The byte that is sent after some have been received. -/
  answer : State → List (BitVec 8) → BitVec 8
  /-- What becomes of the slave when it is released. -/
  release : State → List (BitVec 8) → State

/-- The bytes that have been shifted in, and the bits of the next one. -/
structure Shifted where
  bytes : List (BitVec 8)
  register : BitVec 8
  count : Nat

namespace Shifted

/-- Nothing has been shifted in. -/
def none : Shifted where
  bytes := []
  register := 0
  count := 0

/-- A bit is shifted in. -/
def push (shifted : Shifted) (bit : Bool) : Shifted :=
  let register := shiftLeft shifted.register bit
  if shifted.count = 7 then
    { bytes := shifted.bytes ++ [register]
      register := register
      count := 0 }
  else
    { shifted with
      register := register
      count := shifted.count + 1 }

/-- The bits of the master are shifted in. -/
def pushAll (shifted : Shifted) (bits : List (Bool × Bool)) : Shifted :=
  bits.foldl (fun shifted bit => shifted.push bit.1) shifted

theorem pushAll_append
    (shifted : Shifted)
    (first later : List (Bool × Bool)) :
    shifted.pushAll (first ++ later) =
      (shifted.pushAll first).pushAll later :=
  List.foldl_append ..

end Shifted

/-- The slave at the wires. -/
structure Port (State : Type) where
  state : State
  selected : Bool
  /-- The clock in the last cycle. -/
  sck : Bool
  shifted : Shifted

variable {State : Type}

/-- A slave that is not selected. -/
def Port.idle (state : State) : Port State where
  state := state
  selected := false
  sck := false
  shifted := .none

namespace Slave

variable (slave : Slave State)

/-- The bit that is put out. -/
def bit (state : State) (shifted : Shifted) : Bool :=
  (slave.answer state shifted.bytes).getLsbD (7 - shifted.count)

/-- What is on MISO. -/
def miso (port : Port State) : Bool :=
  slave.bit port.state port.shifted

/-- A cycle. -/
def next (port : Port State) (wires : Wires) : Port State :=
  if wires.ss then
    .idle
      (if port.selected then
        slave.release port.state port.shifted.bytes
      else
        port.state)
  else
    { port with
      selected := true
      sck := wires.sck
      shifted := port.shifted.pushAll (rising port.sck wires) }

/-- Some cycles. -/
def run (port : Port State) (trace : List Wires) : Port State :=
  trace.foldl slave.next port

/-- What the slave puts on MISO in each cycle. -/
def misos (port : Port State) (trace : List Wires) : List Bool :=
  Register.outputs slave.next (fun port _ => [slave.miso port]) port trace

/-- The slave drives MISO at the rising edges while it is selected. -/
def Driven : Port State → List Wires → Prop
  | _, [] => True
  | port, wires :: trace =>
      (wires.ss = false →
        ∀ bits, bits ∈ rising port.sck wires → bits.2 = slave.miso port) ∧
      Driven (slave.next port wires) trace

/-- The bytes that are sent while some are received. -/
def replies (state : State) (sent : List (BitVec 8)) : List (BitVec 8) :=
  (List.range sent.length).map fun count =>
    slave.answer state (sent.take count)

end Slave

end Slave

section Bytes

variable {State : Type} {slave : Slave State} {state : State}

/-- A byte is its bits. -/
theorem highBits_injective
    {first second : BitVec 8}
    (same : highBits 8 first = highBits 8 second) :
    first = second := by
  apply BitVec.eq_of_getLsbD_eq
  intro place inside
  have there :=
    List.map_inj_left.mp same (7 - place) (List.mem_range.mpr (by omega))
  rwa [show 7 - (7 - place) = place by omega] at there

/-- Bits that are shifted in are the lowest ones. -/
theorem lowBits_foldl_shiftLeft
    (register : BitVec 8)
    {bits : List Bool}
    (inside : bits.length ≤ 8) :
    lowBits bits.length (bits.foldl shiftLeft register) = bits := by
  induction bits using List.reverseRecOn with
  | nil => rfl
  | append_singleton bits bit inductionHypothesis =>
      rw [List.length_append, List.length_singleton] at inside ⊢
      rw [List.foldl_concat, lowBits_shiftLeft (by omega),
        inductionHypothesis (by omega)]

/-- Eight bits that are shifted in are a byte. -/
theorem foldl_shiftLeft_highBits (register byte : BitVec 8) :
    (highBits 8 byte).foldl shiftLeft register = byte := by
  apply highBits_injective
  have low :=
    @lowBits_foldl_shiftLeft register (highBits 8 byte)
      (Nat.le_of_eq (length_highBits 8 byte))
  rwa [length_highBits] at low

/-- The bits that are exchanged are answered by the slave. -/
def Slave.Answers (slave : Slave State) (state : State) :
    Shifted → List (Bool × Bool) → Prop
  | _, [] => True
  | shifted, bits :: rest =>
      bits.2 = slave.bit state shifted ∧
        slave.Answers state (shifted.push bits.1) rest

/-- A byte is shifted in. -/
theorem Shifted.push_byte
    (bytes : List (BitVec 8))
    (register byte : BitVec 8) :
    (highBits 8 byte).foldl Shifted.push ⟨bytes, register, 0⟩ =
      ⟨bytes ++ [byte], byte, 0⟩ := by
  have shifts := foldl_shiftLeft_highBits register byte
  conv_rhs => rw [← shifts]
  rfl

/-- What a byte that is exchanged tells. -/
theorem Slave.Answers.byte
    {bytes : List (BitVec 8)}
    {register sent got : BitVec 8}
    {rest : List (Bool × Bool)}
    (answers :
      slave.Answers state ⟨bytes, register, 0⟩
        ((highBits 8 sent).zip (highBits 8 got) ++ rest)) :
    got = slave.answer state bytes ∧
      slave.Answers state ⟨bytes ++ [sent], sent, 0⟩ rest := by
  obtain ⟨bit7, bit6, bit5, bit4, bit3, bit2, bit1, bit0, later⟩ := answers
  have pushed := Shifted.push_byte bytes register sent
  refine ⟨highBits_injective ?_, ?_⟩
  · show [_, _, _, _, _, _, _, _] = [_, _, _, _, _, _, _, _]
    simp only [List.cons.injEq]
    exact ⟨bit7, bit6, bit5, bit4, bit3, bit2, bit1, bit0, trivial⟩
  · rw [← pushed]
    exact later

/-- What bytes that are exchanged tell. -/
theorem Slave.Answers.bytes
    {before sent got : List (BitVec 8)}
    {register : BitVec 8}
    (sameLength : sent.length = got.length)
    (answers :
      slave.Answers state ⟨before, register, 0⟩ (byteBits (sent.zip got))) :
    got =
        (List.range sent.length).map (fun count =>
          slave.answer state (before ++ sent.take count)) ∧
      (Shifted.pushAll ⟨before, register, 0⟩
          (byteBits (sent.zip got))).bytes =
        before ++ sent := by
  induction sent generalizing before got register with
  | nil =>
      obtain rfl := List.eq_nil_of_length_eq_zero sameLength.symm
      exact ⟨rfl, (List.append_nil before).symm⟩
  | cons byte sent inductionHypothesis =>
      obtain _ | ⟨gotByte, got⟩ := got
      · cases sameLength
      obtain ⟨first, later⟩ := Answers.byte answers
      obtain ⟨gotLater, received⟩ :=
        inductionHypothesis (Nat.succ.inj sameLength) later
      have pushed :
          Shifted.pushAll ⟨before, register, 0⟩
              (byteBits ((byte :: sent).zip (gotByte :: got))) =
            Shifted.pushAll ⟨before ++ [byte], byte, 0⟩
              (byteBits (sent.zip got)) := by
        rw [← Shifted.push_byte before register byte]
        rfl
      refine ⟨?_, ?_⟩
      · rw [List.length_cons, List.range_succ_eq_map, List.map_cons,
          List.map_map, List.take_zero, List.append_nil, ← first, gotLater]
        congr 1
        apply List.map_congr_left
        intro count _
        show slave.answer state (before ++ [byte] ++ sent.take count) =
          slave.answer state (before ++ byte :: sent.take count)
        rw [List.append_assoc, List.singleton_append]
      · rw [pushed, received, List.append_assoc, List.singleton_append]

end Bytes

section Trace

variable {State : Type} {slave : Slave State} {port : Port State}
variable {state : State} {trace before window : List Wires}

theorem Slave.run_append (port : Port State) (first later : List Wires) :
    slave.run port (first ++ later) = slave.run (slave.run port first) later :=
  List.foldl_append ..

theorem Slave.driven_append (port : Port State) (first later : List Wires) :
    slave.Driven port (first ++ later) ↔
      slave.Driven port first ∧ slave.Driven (slave.run port first) later := by
  induction first generalizing port with
  | nil => exact ⟨fun driven => ⟨trivial, driven⟩, And.right⟩
  | cons wires first inductionHypothesis =>
      show _ ∧ slave.Driven (slave.next port wires) (first ++ later) ↔
        (_ ∧ _) ∧ _
      rw [inductionHypothesis, and_assoc]
      rfl

/-- A slave that is not selected does nothing. -/
theorem Slave.run_high
    (high : ∀ wires, wires ∈ trace → wires.ss = true)
    (state : State) :
    slave.run (.idle state) trace = .idle state := by
  induction trace with
  | nil => rfl
  | cons wires trace inductionHypothesis =>
      have same : slave.next (.idle state) wires = .idle state := by
        rw [next, if_pos (high wires List.mem_cons_self)]
        rfl
      show slave.run (slave.next (.idle state) wires) trace = _
      rw [same]
      exact inductionHypothesis fun later member =>
        high later (List.mem_cons_of_mem _ member)

/-- The bits that are exchanged, with the clock in the cycle before. -/
def exchangedFrom (sck : Bool) (trace : List Wires) : List (Bool × Bool) :=
  Register.outputs (fun _ wires => wires.sck) rising sck trace

/-- What a slave does while it is selected. -/
theorem Slave.run_low
    (low : ∀ wires, wires ∈ window → wires.ss = false)
    (driven : slave.Driven port window) :
    (slave.run port window).state = port.state ∧
      (slave.run port window).selected =
        (port.selected || !window.isEmpty) ∧
      (slave.run port window).shifted =
        port.shifted.pushAll (exchangedFrom port.sck window) ∧
      slave.Answers port.state port.shifted
        (exchangedFrom port.sck window) := by
  induction window generalizing port with
  | nil =>
      exact ⟨rfl, (Bool.or_false _).symm, rfl, trivial⟩
  | cons wires window inductionHypothesis =>
      have ss := low wires List.mem_cons_self
      obtain ⟨now, later⟩ := driven
      have stepped :
          slave.next port wires =
            { port with
              selected := true
              sck := wires.sck
              shifted := port.shifted.pushAll (rising port.sck wires) } := by
        rw [next, ss]
        rfl
      rw [stepped] at later
      obtain ⟨state, selected, shifted, answers⟩ :=
        inductionHypothesis
          (fun later member => low later (List.mem_cons_of_mem _ member)) later
      have unfolded :
          exchangedFrom port.sck (wires :: window) =
            rising port.sck wires ++ exchangedFrom wires.sck window :=
        rfl
      have started :
          slave.run port (wires :: window) =
            slave.run (slave.next port wires) window :=
        rfl
      rw [started, stepped, unfolded, Shifted.pushAll_append]
      refine ⟨state, ?_, shifted, ?_⟩
      · rw [selected]
        exact (Bool.or_true _).symm
      · -- at most one bit is exchanged in a cycle
        have driven := now ss
        revert driven answers
        rw [rising]
        split
        case isTrue =>
          intro answers driven
          exact ⟨driven _ List.mem_cons_self, answers⟩
        case isFalse =>
          intro answers _
          exact answers

/--
A slave that drives MISO is selected once while whole bytes are exchanged, and
released: the master has got its answers to the bytes before, and it acts on all
of them.
-/
theorem Slave.window_answered
    {sent got : List (BitVec 8)}
    (window : Window trace (byteBits (sent.zip got)))
    (sameLength : sent.length = got.length)
    (notEmpty : sent ≠ [])
    (driven : slave.Driven (.idle state) trace)
    {wires : Wires}
    (released : wires.ss = true) :
    got = slave.replies state sent ∧
      slave.run (.idle state) (trace ++ [wires]) =
        .idle (slave.release state sent) := by
  obtain ⟨before, window, after, rfl, highBefore, low, highAfter, bits⟩ :=
    window
  rw [driven_append, driven_append, run_append, run_high highBefore] at driven
  obtain ⟨⟨-, drivenWindow⟩, -⟩ := driven
  obtain ⟨stateAfter, selected, shifted, answers⟩ :=
    run_low low drivenWindow
  change exchangedFrom false window = _ at bits
  change Answers slave state .none (exchangedFrom false window) at answers
  rw [bits] at answers
  obtain ⟨gotReplies, received⟩ := Answers.bytes sameLength answers
  refine ⟨gotReplies, ?_⟩
  have used : window ≠ [] := by
    rintro rfl
    obtain ⟨byte, sent, rfl⟩ := List.exists_cons_of_ne_nil notEmpty
    obtain _ | ⟨gotByte, got⟩ := got
    · cases sameLength
    · cases bits
  have isSelected : (slave.run (.idle state) window).selected = true := by
    rw [selected]
    cases window with
    | nil => exact absurd rfl used
    | cons => rfl
  have bytes :
      (slave.run (.idle state) window).shifted.bytes = sent := by
    rw [shifted]
    show (Shifted.pushAll .none (exchangedFrom false window)).bytes = sent
    rw [bits]
    exact received
  have releasedBy {later : Wires} (high : later.ss = true) :
      slave.next (slave.run (.idle state) window) later =
        .idle (slave.release state sent) := by
    rw [next, if_pos high, if_pos isSelected, bytes, stateAfter]
    rfl
  rw [run_append, run_append, run_append, run_high highBefore]
  cases after with
  | nil => exact releasedBy released
  | cons later after =>
      show
        slave.run
            (slave.run (slave.next (slave.run (.idle state) window) later)
              after)
            [wires] =
          _
      rw [releasedBy (highAfter later List.mem_cons_self), ← run_append]
      apply run_high
      intro wires' member
      rcases List.mem_append.mp member with old | new
      · exact highAfter wires' (List.mem_cons_of_mem _ old)
      · rw [List.eq_of_mem_singleton new, released]

/-- What is sent while zeros come behind some bytes. -/
theorem Slave.drop_replies
    (state : State)
    (sent : List (BitVec 8))
    (size : Nat) :
    (slave.replies state (sent ++ List.replicate size 0)).drop sent.length =
      (List.range size).map fun count =>
        slave.answer state (sent ++ List.replicate count 0) := by
  rw [replies, List.length_append, List.length_replicate, List.range_add,
    List.map_append,
    List.drop_left' (by rw [List.length_map, List.length_range]),
    List.map_map]
  apply List.map_congr_left
  intro count member
  have inside := List.mem_range.mp member
  show slave.answer state (List.take _ _) = _
  rw [List.take_length_add_append, List.take_replicate,
    Nat.min_eq_left (Nat.le_of_lt inside)]

/-- The wires with other bits on MISO. -/
def withMiso (miso : Nat → Bool) (trace : List Wires) : List Wires :=
  trace.mapIdx fun cycle wires => { wires with miso := miso cycle }

theorem withMiso_concat
    (miso : Nat → Bool)
    (trace : List Wires)
    (wires : Wires) :
    withMiso miso (trace ++ [wires]) =
      withMiso miso trace ++ [{ wires with miso := miso trace.length }] :=
  List.mapIdx_concat

@[simp] theorem length_withMiso (miso : Nat → Bool) (trace : List Wires) :
    (withMiso miso trace).length = trace.length :=
  List.length_mapIdx

/-- A slave does not look at MISO. -/
theorem Slave.next_miso (port : Port State) (wires : Wires) (miso : Bool) :
    slave.next port { wires with miso := miso } = slave.next port wires := by
  have pushes :
      port.shifted.pushAll (rising port.sck { wires with miso := miso }) =
        port.shifted.pushAll (rising port.sck wires) := by
    rw [rising, rising]
    split <;> rfl
  rw [next, next, pushes]

/--
What a slave puts on MISO does not depend on what is there, and so it can be
found from wires that it does not drive.
-/
theorem Slave.driven_withMiso (port : Port State) (trace : List Wires) :
    slave.Driven port
      (withMiso (fun cycle => (slave.misos port trace).getD cycle false)
        trace) := by
  induction trace generalizing port with
  | nil => trivial
  | cons wires trace inductionHypothesis =>
      rw [withMiso, List.mapIdx_cons]
      refine ⟨fun _ bits member => ?_, ?_⟩
      · rw [rising] at member
        split at member
        · rw [List.eq_of_mem_singleton member]
          rfl
        · cases member
      · rw [next_miso]
        exact inductionHypothesis (slave.next port wires)

end Trace

end SpiWires
