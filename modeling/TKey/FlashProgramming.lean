import TKey.System

namespace TKey

open ByteMemory

/-!
# Programming a buffer

What the page loop of `flash_write_data` sends to the chip, and what the chip
holds then.  A program can only clear bits, and a command that ran over the end
of its page would wrap inside the page.
-/

section PageCommands

/-- The page commands of a buffer that begins on a page boundary. -/
def pageCommands (address : Nat) (data : List UInt8) :
    List NorFlash.Command :=
  (List.range ((data.length + 255) / 256)).map fun page =>
    .program (address + page * 256) ((data.drop (page * 256)).take 256)

theorem pages_eq_pageCommands (address : Nat) (data : List UInt8) :
    NorFlash.pages 256 address data = pageCommands address data := by
  exact NorFlash.pages_eq_map (by decide) address data

/-- A page command begins on a page boundary and carries 1 to 256 bytes. -/
def IsPageProgram : NorFlash.Command → Prop
  | .erase _ _ => False
  | .program first data => first % 256 = 0 ∧ 1 ≤ data.length ∧ data.length ≤ 256

theorem IsPageProgram.inPage
    {command : NorFlash.Command}
    (page : IsPageProgram command) :
    command.InPage 256 := by
  cases command with
  | erase first count =>
      trivial
  | program first data =>
      rcases page with ⟨aligned, -, short⟩
      simp only [NorFlash.Command.InPage, aligned]
      omega

variable {address : Nat} {data : List UInt8}

theorem isPageProgram_of_mem
    (aligned : address % 256 = 0)
    {command : NorFlash.Command}
    (member : command ∈ pageCommands address data) :
    IsPageProgram command := by
  rw [← pages_eq_pageCommands] at member
  rcases NorFlash.mem_pages (by decide) member with ⟨page, more, same⟩
  subst same
  simp only [IsPageProgram, List.length_take, List.length_drop]
  omega

/-- Inside the range the buffer is programmed. -/
theorem run_pageCommands_inside
    (memory : Memory)
    {index : Nat}
    (inside : index < data.length) :
    NorFlash.run (pageCommands address data) memory (address + index) =
      memory (address + index) &&& data[index] := by
  rw [← pages_eq_pageCommands, NorFlash.run, NorFlash.runCell_pages (by decide),
    NorFlash.cell_program_inside inside]

/-- Outside the range nothing changes. -/
theorem run_pageCommands_outside
    (memory : Memory)
    {place : Nat}
    (outside : place < address ∨ address + data.length ≤ place) :
    NorFlash.run (pageCommands address data) memory place = memory place := by
  rw [← pages_eq_pageCommands]
  exact NorFlash.run_of_avoids
    ((NorFlash.within_pages (by decide) address data).avoids outside) memory

/-- The order of two writes does not matter. -/
theorem run_pageCommands_comm
    (address' : Nat)
    (data' : List UInt8)
    (memory : Memory) :
    NorFlash.run (pageCommands address data)
        (NorFlash.run (pageCommands address' data') memory) =
      NorFlash.run (pageCommands address' data')
        (NorFlash.run (pageCommands address data) memory) := by
  funext place
  simp only [← pages_eq_pageCommands, NorFlash.run,
    NorFlash.runCell_pages (show 0 < 256 by decide)]
  exact NorFlash.cell_program_comm ..

end PageCommands

section Writes

/-- The addresses and buffers of a write within the flash that starts at a page. -/
structure Programmable (address : UInt32) (data : List UInt8) : Prop where
  aligned : address.toNat % 256 = 0
  nonempty : data ≠ []
  inFlash : address.toNat + data.length ≤ 2 ^ 24

/-- Two ranges of addresses have no address in common. -/
def DisjointRanges
    (address : UInt32)
    (data : List UInt8)
    (address' : UInt32)
    (data' : List UInt8) : Prop :=
  address.toNat + data.length ≤ address'.toNat ∨
    address'.toNat + data'.length ≤ address.toNat

theorem Programmable.run
    {address : UInt32}
    {data : List UInt8}
    (programmable : Programmable address data)
    (m : Machine) :
    (flashWriteData address data).run m =
      .ok 0 (m.perform (pageCommands address.toNat data)) := by
  rw [← pages_eq_pageCommands]
  exact flashWriteData_run programmable.aligned programmable.nonempty
    programmable.inFlash m

/--
A write sends page commands only, each with its part of the buffer, and the
flash is programmed with the buffer in exactly its range, also if pages wrap;
therefore two writes to disjoint ranges commute.
-/
theorem flashWriteData_programs
    {address : UInt32}
    {data : List UInt8}
    (programmable : Programmable address data)
    (m : Machine) :
    (∃ m',
      (flashWriteData address data).run m = .ok 0 m' ∧
      m'.flash.sent = m.flash.sent ++ pageCommands address.toNat data ∧
      (∀ command ∈ pageCommands address.toNat data, IsPageProgram command) ∧
      (∀ index (inside : index < data.length),
        m'.flash.memory (address.toNat + index) =
          m.flash.memory (address.toNat + index) &&& data[index]) ∧
      (∀ place,
        place < address.toNat ∨ address.toNat + data.length ≤ place →
        m'.flash.memory place = m.flash.memory place) ∧
      NorFlash.runWrapping 256 (pageCommands address.toNat data)
          m.flash.memory =
        m'.flash.memory) ∧
      ∀ address' data',
        Programmable address' data' →
        DisjointRanges address data address' data' →
        ∃ m₁ m₂,
          (do let _ ← flashWriteData address data
              flashWriteData address' data' : Fw Int).run m = .ok 0 m₁ ∧
          (do let _ ← flashWriteData address' data'
              flashWriteData address data : Fw Int).run m = .ok 0 m₂ ∧
          m₁.flash.memory = m₂.flash.memory := by
  constructor
  · refine ⟨_, programmable.run m, rfl, ?_, ?_, ?_, ?_⟩
    · intro command member
      exact isPageProgram_of_mem programmable.aligned member
    · intro index inside
      exact run_pageCommands_inside m.flash.memory inside
    · intro place outside
      exact run_pageCommands_outside m.flash.memory outside
    · apply NorFlash.runWrapping_of_inPage
      intro command member
      exact (isPageProgram_of_mem programmable.aligned member).inPage
  · intro address' data' programmable' _
    refine ⟨(m.perform (pageCommands address.toNat data)).perform
        (pageCommands address'.toNat data'),
      (m.perform (pageCommands address'.toNat data')).perform
        (pageCommands address.toNat data), ?_, ?_, ?_⟩
    · rw [Fw.run_bind_of_ok (programmable.run m), programmable'.run]
    · rw [Fw.run_bind_of_ok (programmable'.run m), programmable.run]
    · exact run_pageCommands_comm ..

theorem flashWriteData_programs_sample :
    ∃ m',
      (flashWriteData 0x30000 [1, 2, 3]).run (.provisioned .sample) = .ok 0 m' ∧
      m'.flash.memory 0x30001 =
        (Machine.provisioned .sample).flash.memory 0x30001 &&& 2 := by
  have programmable : Programmable 0x30000 [1, 2, 3] :=
    ⟨by decide, by decide, by decide⟩
  rcases (flashWriteData_programs programmable (.provisioned .sample)).1 with
    ⟨m', result, -, -, inside, -⟩
  exact ⟨m', result, inside 1 (by decide)⟩

end Writes

end TKey
