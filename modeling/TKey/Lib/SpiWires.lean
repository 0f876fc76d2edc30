import TKey.Lib.Register

namespace SpiWires

/-!
# The wires of an SPI bus

Master and slave exchange a bit at each rising edge of the clock, the most
significant bit of a byte first.  A slave takes part while it is selected.
-/

section Wires

/-- The wires in a cycle; the slave is selected when `ss` is low. -/
structure Wires where
  ss : Bool
  sck : Bool
  mosi : Bool
  miso : Bool

/-- The bits at a rising edge of the clock, after the clock before. -/
def rising (before : Bool) (wires : Wires) : List (Bool × Bool) :=
  if !before && wires.sck then [(wires.mosi, wires.miso)] else []

/-- The clock in the last cycle. -/
def lastSck (trace : List Wires) : Bool :=
  trace.foldl (fun _ wires => wires.sck) false

/-- The bits that are exchanged, those of the master first. -/
def exchanged (trace : List Wires) : List (Bool × Bool) :=
  Register.outputs (fun _ wires => wires.sck) rising false trace

/-- One period in which the slave is selected, and the bits in it. -/
def Window (trace : List Wires) (bits : List (Bool × Bool)) : Prop :=
  ∃ before window after,
    trace = before ++ window ++ after ∧
    (∀ wires ∈ before, wires.ss = true) ∧
    (∀ wires ∈ window, wires.ss = false) ∧
    (∀ wires ∈ after, wires.ss = true) ∧
    exchanged window = bits

end Wires

section Bits

/-- The lowest bits of a byte, most significant bit first. -/
def lowBits (count : Nat) (byte : BitVec 8) : List Bool :=
  (List.range count).map fun bit => byte.getLsbD (count - 1 - bit)

/-- The highest bits of a byte, most significant bit first. -/
def highBits (count : Nat) (byte : BitVec 8) : List Bool :=
  (List.range count).map fun bit => byte.getLsbD (7 - bit)

/-- The bits of exchanged bytes. -/
def byteBits (bytes : List (BitVec 8 × BitVec 8)) : List (Bool × Bool) :=
  bytes.flatMap fun byte => (highBits 8 byte.1).zip (highBits 8 byte.2)

/-- A shift register is shifted, with a bit for the lowest place. -/
def shiftLeft (register : BitVec 8) (bit : Bool) : BitVec 8 :=
  register.extractLsb' 0 7 ++ BitVec.ofBool bit

theorem getLsbD_shiftLeft_zero (register : BitVec 8) (bit : Bool) :
    (shiftLeft register bit).getLsbD 0 = bit := by
  rw [shiftLeft, BitVec.getLsbD_append, if_pos Nat.zero_lt_one]
  exact BitVec.getLsbD_ofBool _ 0

theorem getLsbD_shiftLeft_succ
    (register : BitVec 8)
    (bit : Bool)
    {place : Nat}
    (inside : place < 7) :
    (shiftLeft register bit).getLsbD (place + 1) = register.getLsbD place := by
  rw [shiftLeft, BitVec.getLsbD_append, if_neg (by omega),
    BitVec.getLsbD_extractLsb', Nat.add_sub_cancel, Nat.zero_add,
    decide_eq_true inside, Bool.true_and]

@[simp] theorem length_lowBits (count : Nat) (byte : BitVec 8) :
    (lowBits count byte).length = count := by
  rw [lowBits, List.length_map, List.length_range]

@[simp] theorem length_highBits (count : Nat) (byte : BitVec 8) :
    (highBits count byte).length = count := by
  rw [highBits, List.length_map, List.length_range]

/-- A bit that comes in is the last of the lowest bits. -/
theorem lowBits_shiftLeft
    {count : Nat}
    (inside : count < 8)
    (register : BitVec 8)
    (bit : Bool) :
    lowBits (count + 1) (shiftLeft register bit) =
      lowBits count register ++ [bit] := by
  rw [lowBits, List.range_succ, List.map_append, List.map_singleton,
    Nat.add_sub_cancel, Nat.sub_self, getLsbD_shiftLeft_zero]
  congr 1
  apply List.map_congr_left
  intro place member
  have before := List.mem_range.mp member
  rw [show count - place = count - 1 - place + 1 by omega,
    getLsbD_shiftLeft_succ _ _ (by omega)]

theorem highBits_succ (count : Nat) (byte : BitVec 8) :
    highBits (count + 1) byte =
      highBits count byte ++ [byte.getLsbD (7 - count)] := by
  rw [highBits, List.range_succ, List.map_append]
  rfl

/-- Bits are shifted out; the rest of a byte comes first. -/
def Ahead (register byte : BitVec 8) (count : Nat) : Prop :=
  ∀ place, count + place < 8 →
    register.getLsbD (count + place) = byte.getLsbD place

theorem ahead_zero (byte : BitVec 8) : Ahead byte byte 0 := by
  intro place _
  rw [Nat.zero_add]

/-- The next bit is shifted out. -/
theorem Ahead.shiftLeft
    {register byte : BitVec 8}
    {count : Nat}
    (ahead : Ahead register byte count)
    (bit : Bool) :
    Ahead (shiftLeft register bit) byte (count + 1) := by
  intro place inside
  rw [Nat.add_right_comm, getLsbD_shiftLeft_succ _ _ (by omega),
    ahead place (by omega)]

/-- The bit that is out next. -/
theorem Ahead.top
    {register byte : BitVec 8}
    {count : Nat}
    (ahead : Ahead register byte count)
    (inside : count < 8) :
    register.getLsbD 7 = byte.getLsbD (7 - count) := by
  have same := ahead (7 - count) (by omega)
  rwa [show count + (7 - count) = 7 by omega] at same

end Bits

section Trace

theorem exchanged_concat (trace : List Wires) (wires : Wires) :
    exchanged (trace ++ [wires]) =
      exchanged trace ++ rising (lastSck trace) wires :=
  Register.outputs_concat ..

theorem lastSck_concat (trace : List Wires) (wires : Wires) :
    lastSck (trace ++ [wires]) = wires.sck :=
  List.foldl_concat ..

/-- The bits that are exchanged while the slave is selected. -/
def Selected
    (before trace : List Wires)
    (bits : List (Bool × Bool))
    (sck : Bool) : Prop :=
  ∃ window,
    trace = before ++ window ∧
    (∀ wires ∈ window, wires.ss = false) ∧
    exchanged window = bits ∧
    lastSck window = sck

/-- The slave is selected from now on. -/
theorem selected_nil (before : List Wires) : Selected before before [] false :=
  ⟨[], (List.append_nil _).symm, List.forall_mem_nil _, rfl, rfl⟩

theorem Selected.concat
    {before trace : List Wires}
    {bits : List (Bool × Bool)}
    {sck : Bool}
    {wires : Wires}
    (selected : Selected before trace bits sck)
    (ss : wires.ss = false) :
    Selected before (trace ++ [wires]) (bits ++ rising sck wires) wires.sck := by
  obtain ⟨window, rfl, low, rfl, rfl⟩ := selected
  refine ⟨window ++ [wires], List.append_assoc .., fun later member => ?_,
    exchanged_concat .., lastSck_concat ..⟩
  rcases List.mem_append.mp member with old | new
  · exact low later old
  · rw [List.eq_of_mem_singleton new, ss]

/-- The slave is released. -/
theorem Selected.window
    {before trace : List Wires}
    {bits : List (Bool × Bool)}
    {sck : Bool}
    (selected : Selected before trace bits sck)
    (notBefore : ∀ wires ∈ before, wires.ss = true) :
    Window trace bits := by
  obtain ⟨window, rfl, low, bits, -⟩ := selected
  exact ⟨before, window, [], (List.append_nil _).symm, notBefore, low,
    List.forall_mem_nil _, bits⟩

theorem byteBits_concat
    (bytes : List (BitVec 8 × BitVec 8))
    (byte : BitVec 8 × BitVec 8) :
    byteBits (bytes ++ [byte]) =
      byteBits bytes ++ (highBits 8 byte.1).zip (highBits 8 byte.2) := by
  rw [byteBits, List.flatMap_append, List.flatMap_singleton]
  rfl

end Trace

end SpiWires
