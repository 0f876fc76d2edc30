import TKey.StorageView
import TKey.System

namespace TKey

open ByteMemory NorFlash

/-!
# App storage, written and read again

The three operations of `storage.c` on the area of an app: erase whole
sectors, program pages, read any range.  Each checks offset and size on its
own, and none accepts a range that leaves the area.
-/

section Ranges

/-- A place in flash that belongs to a range of an area. -/
def InRange (index : Fin 4) (offset size : UInt32) (place : Nat) : Prop :=
  areaStart index + offset.toNat ≤ place ∧
    place < areaStart index + offset.toNat + size.toNat

instance (index : Fin 4) (offset size : UInt32) (place : Nat) :
    Decidable (InRange index offset size place) :=
  inferInstanceAs (Decidable (_ ∧ _))

/-- A range inside another one. -/
def SubRange (offset size offset' size' : UInt32) : Prop :=
  offset'.toNat ≤ offset.toNat ∧
    offset.toNat + size.toNat ≤ offset'.toNat + size'.toNat

instance (offset size offset' size' : UInt32) :
    Decidable (SubRange offset size offset' size') :=
  inferInstanceAs (Decidable (_ ∧ _))

theorem InRange.of_subRange
    {index : Fin 4}
    {offset size offset' size' : UInt32}
    {place : Nat}
    (inRange : InRange index offset size place)
    (inside : SubRange offset size offset' size') :
    InRange index offset' size' place := by
  unfold InRange SubRange at *
  omega

/-- The first sector of the sectors that cover a range. -/
def coverOffset (offset : UInt32) : UInt32 :=
  offset / 4096 * 4096

/-- Size of the sectors that cover a range. -/
def coverSize (offset size : UInt32) : UInt32 :=
  (offset + size + 4095) / 4096 * 4096 - coverOffset offset

theorem toNat_coverOffset (offset : UInt32) :
    (coverOffset offset).toNat = offset.toNat / 4096 * 4096 := by
  have bound := offset.toNat_lt
  have sector : (4096 : UInt32).toNat = 4096 := rfl
  rw [coverOffset, UInt32.toNat_mul, UInt32.toNat_div, sector]
  omega

theorem toNat_coverSize
    {offset size : UInt32}
    (inArea : InArea offset size) :
    (coverSize offset size).toNat =
      (offset.toNat + size.toNat + 4095) / 4096 * 4096 -
        offset.toNat / 4096 * 4096 := by
  have sector : (4096 : UInt32).toNat = 4096 := rfl
  have last : (4095 : UInt32).toNat = 4095 := rfl
  have start := toNat_coverOffset offset
  simp only [InArea] at inArea
  have stop : ((offset + size + 4095) / 4096 * 4096).toNat =
      (offset.toNat + size.toNat + 4095) / 4096 * 4096 := by
    rw [UInt32.toNat_mul, UInt32.toNat_div, UInt32.toNat_add, UInt32.toNat_add,
      sector, last]
    omega
  rw [coverSize, UInt32.toNat_sub_of_le, stop, start]
  rw [UInt32.le_iff_toNat_le, stop, start]
  omega

/-- The sectors that cover a range of the area can be erased. -/
theorem erasableRange_cover
    {offset size : UInt32}
    (inArea : InArea offset size)
    (nonempty : size.toNat ≠ 0) :
    ErasableRange (coverOffset offset) (coverSize offset size) := by
  have start := toNat_coverOffset offset
  have length := toNat_coverSize inArea
  simp only [InArea] at inArea
  simp only [ErasableRange, InArea]
  omega

theorem subRange_cover
    {offset size : UInt32}
    (inArea : InArea offset size) :
    SubRange offset size (coverOffset offset) (coverSize offset size) := by
  have start := toNat_coverOffset offset
  have length := toNat_coverSize inArea
  simp only [InArea] at inArea
  simp only [SubRange]
  omega

end Ranges

section Operations

variable {m : Machine} {index : Fin 4} {offset data size : UInt32}

/-- What stays the same for an app while it uses its area. -/
structure Machine.SameArea (left right : Machine) : Prop where
  table : left.table = right.table
  cdi : left.cdi = right.cdi

/-- An erase sets exactly its range. -/
theorem storageEraseSector_owner
    (owned : ownedArea m.table m.cdi = some index)
    (erasable : ErasableRange offset size) :
    ∃ erased,
      (storageEraseSector offset size).run m = .ok 0 erased ∧
      erased.SameArea m ∧
      ∀ place,
        erased.flash.memory place =
          if InRange index offset size place then 0xFF
          else m.flash.memory place := by
  refine ⟨m.perform
      (sectorErases (areaStart index + offset.toNat) (size.toNat / 4096)),
    ?_, ⟨rfl, rfl⟩, ?_⟩
  · rw [storageEraseSector_run, owned]
    exact if_pos erasable
  · intro place
    have whole : 4096 * (size.toNat / 4096) = size.toNat := by
      have multiple := erasable.2.2.1
      omega
    rw [Machine.memory_perform, run, runCell_sectorErases, whole]
    rfl

/-- A write programs exactly its range. -/
theorem storageWriteData_owner
    (owned : ownedArea m.table m.cdi = some index)
    (writable : WritableRange offset data size) :
    ∃ written,
      (storageWriteData offset data size).run m = .ok 0 written ∧
      written.SameArea m ∧
      ∀ place,
        written.flash.memory place =
          (Command.program (areaStart index + offset.toNat)
            (read m.ram data.toNat size.toNat)).cell place
            (m.flash.memory place) := by
  refine ⟨m.perform
      (pages 256 (areaStart index + offset.toNat)
        (read m.ram data.toNat size.toNat)),
    ?_, ⟨rfl, rfl⟩, ?_⟩
  · rw [storageWriteData_run, owned]
    exact if_pos writable
  · intro place
    rw [Machine.memory_perform, run, runCell_pages (by decide)]

/-- A write that is accepted has a range in the area and a buffer in app RAM. -/
theorem writableRange_of_accepted
    {written : Machine}
    (accepted : (storageWriteData offset data size).run m = .ok 0 written) :
    WritableRange offset data size := by
  rw [storageWriteData_run] at accepted
  cases owner : ownedArea m.table m.cdi with
  | none =>
      rw [owner] at accepted
      cases accepted
  | some index =>
      rw [owner] at accepted
      by_contra refused
      simp only [if_neg refused] at accepted
      cases accepted

/-- A read stores what flash holds. -/
theorem storageReadData_owner
    (owned : ownedArea m.table m.cdi = some index)
    (readable : ReadableRange offset data size) :
    ∃ loaded,
      (storageReadData offset data size).run m = .ok 0 loaded ∧
      read loaded.ram data.toNat size.toNat =
        read m.flash.memory (areaStart index + offset.toNat) size.toNat := by
  refine ⟨{ m with
      ram :=
        write m.ram data.toNat
          (read m.flash.memory (areaStart index + offset.toNat) size.toNat) },
    ?_, ?_⟩
  · rw [storageReadData_run, owned]
    exact if_pos readable
  · have same := read_write_same m.ram data.toNat
      (read m.flash.memory (areaStart index + offset.toNat) size.toNat)
    rw [length_read] at same
    exact same

/-- A range that leaves the area is refused by all three operations. -/
theorem refused_of_not_inArea
    (outside : 0x20000 < offset.toNat + size.toNat)
    (data : UInt32)
    (m : Machine) :
    (storageEraseSector offset size).run m = .ok (-1) m ∧
      (storageWriteData offset data size).run m = .ok (-1) m ∧
      (storageReadData offset data size).run m = .ok (-1) m := by
  have notInArea : ¬ InArea offset size := Nat.not_le.mpr outside
  have notErasable : ¬ ErasableRange offset size :=
    fun range => notInArea range.2.2.2
  have notWritable : ¬ WritableRange offset data size :=
    fun range => notInArea range.2.2.2
  have notReadable : ¬ ReadableRange offset data size :=
    fun range => notInArea range.2.2
  rw [storageEraseSector_run, storageWriteData_run, storageReadData_run]
  simp only [if_neg notErasable, if_neg notWritable, if_neg notReadable]
  cases ownedArea m.table m.cdi <;> exact ⟨rfl, rfl, rfl⟩

end Operations

section Reading

/-- The app makes read calls, and does anything in its RAM meanwhile. -/
inductive Reading (m : Machine) : Machine → Prop where
  | start : Reading m m
  | compute
      {reached : Machine}
      (before : Reading m reached)
      (ram : Memory) :
      Reading m { reached with ram := ram }
  | call
      {reached loaded : Machine}
      {offset data size : UInt32}
      {result : Int}
      (before : Reading m reached)
      (reads :
        (storageReadData offset data size).run reached = .ok result loaded) :
      Reading m loaded

/-- Reading changes neither flash nor the owner of the area. -/
theorem Reading.same
    {m reached : Machine}
    (reading : Reading m reached) :
    reached.SameArea m ∧ reached.flash = m.flash := by
  induction reading with
  | start =>
      exact ⟨⟨rfl, rfl⟩, rfl⟩
  | compute before ram inductionHypothesis =>
      exact ⟨⟨inductionHypothesis.1.table, inductionHypothesis.1.cdi⟩,
        inductionHypothesis.2⟩
  | @call reached loaded offset data size result before reads
      inductionHypothesis =>
      rw [storageReadData_run] at reads
      have kept : loaded.SameArea reached ∧ loaded.flash = reached.flash := by
        cases owner : ownedArea reached.table reached.cdi with
        | none =>
            rw [owner] at reads
            cases reads
            exact ⟨⟨rfl, rfl⟩, rfl⟩
        | some index =>
            rw [owner] at reads
            by_cases readable : ReadableRange offset data size
            · simp only [if_pos readable] at reads
              cases reads
              exact ⟨⟨rfl, rfl⟩, rfl⟩
            · simp only [if_neg readable] at reads
              cases reads
              exact ⟨⟨rfl, rfl⟩, rfl⟩
      exact ⟨⟨kept.1.table.trans inductionHypothesis.1.table,
        kept.1.cdi.trans inductionHypothesis.1.cdi⟩,
        kept.2.trans inductionHypothesis.2⟩

/-- An owner's read of a part of the range that was written. -/
theorem read_written
    {erased written reached : Machine}
    {index : Fin 4}
    {offset data size offset' data' size' : UInt32}
    (owned : ownedArea erased.table erased.cdi = some index)
    (blank :
      ∀ place,
        InRange index offset size place → erased.flash.memory place = 0xFF)
    (writes :
      (storageWriteData offset data size).run erased = .ok 0 written)
    (reading : Reading written reached)
    (inside : SubRange offset' size' offset size)
    (short : size'.toNat ≤ 4096)
    (inRam : inAppRam data' size' = true) :
    ∃ loaded,
      (storageReadData offset' data' size').run reached = .ok 0 loaded ∧
      read loaded.ram data'.toNat size'.toNat =
        ((read erased.ram data.toNat size.toNat).drop
          (offset'.toNat - offset.toNat)).take size'.toNat := by
  have writable := writableRange_of_accepted writes
  rcases storageWriteData_owner owned writable with
    ⟨other, result, sameArea, memory⟩
  have isWritten : other = written :=
    (EStateM.Result.ok.inj (result.symm.trans writes)).2
  subst isWritten
  rcases reading.same with ⟨sameReached, flash⟩
  have owner : ownedArea reached.table reached.cdi = some index := by
    rw [sameReached.table, sameReached.cdi, sameArea.table, sameArea.cdi]
    exact owned
  have inArea := writable.2.2.2
  simp only [InArea] at inArea
  simp only [SubRange] at inside
  have readable : ReadableRange offset' data' size' := by
    refine ⟨inRam, short, ?_⟩
    simp only [InArea]
    omega
  rcases storageReadData_owner owner readable with ⟨loaded, loads, stored⟩
  refine ⟨loaded, loads, ?_⟩
  -- all of the range that was written
  have whole :
      read other.flash.memory (areaStart index + offset.toNat) size.toNat =
        read erased.ram data.toNat size.toNat := by
    have bytes :
        read other.flash.memory (areaStart index + offset.toNat)
            (read erased.ram data.toNat size.toNat).length =
          read erased.ram data.toNat size.toNat := by
      apply read_eq_of_getElem
      intro position inBounds
      rw [memory, cell_program_inside inBounds, blank, erased_and]
      rw [length_read] at inBounds
      exact ⟨by omega, by omega⟩
    rw [length_read] at bytes
    exact bytes
  have start : areaStart index + offset'.toNat =
      areaStart index + offset.toNat + (offset'.toNat - offset.toNat) := by
    omega
  rw [stored, flash, ← whole, take_drop_read _ (by omega), start]

end Reading

section Erasing

/-- The app makes erase calls, and does anything in its RAM meanwhile. -/
inductive Erasing (m : Machine) : List (UInt32 × UInt32) → Machine → Prop where
  | start : Erasing m [] m
  | compute
      {ranges : List (UInt32 × UInt32)}
      {reached : Machine}
      (before : Erasing m ranges reached)
      (ram : Memory) :
      Erasing m ranges { reached with ram := ram }
  | call
      {ranges : List (UInt32 × UInt32)}
      {reached erased : Machine}
      {offset size : UInt32}
      (before : Erasing m ranges reached)
      (erases : (storageEraseSector offset size).run reached = .ok 0 erased) :
      Erasing m (ranges ++ [(offset, size)]) erased

/-- A place in one of the ranges of an area. -/
def InRanges
    (index : Fin 4)
    (ranges : List (UInt32 × UInt32))
    (place : Nat) : Prop :=
  ∃ range ∈ ranges, InRange index range.1 range.2 place

/-- An erase that is accepted has a range of whole sectors in the area. -/
theorem erasableRange_of_accepted
    {m erased : Machine}
    {offset size : UInt32}
    (accepted : (storageEraseSector offset size).run m = .ok 0 erased) :
    ErasableRange offset size := by
  rw [storageEraseSector_run] at accepted
  cases owner : ownedArea m.table m.cdi with
  | none =>
      rw [owner] at accepted
      cases accepted
  | some index =>
      rw [owner] at accepted
      by_contra refused
      simp only [if_neg refused] at accepted
      cases accepted

/-- What an accepted erase changes. -/
theorem memory_of_erased
    {m erased : Machine}
    {index : Fin 4}
    {offset size : UInt32}
    (owned : ownedArea m.table m.cdi = some index)
    (accepted : (storageEraseSector offset size).run m = .ok 0 erased) :
    erased.SameArea m ∧
      ∀ place,
        erased.flash.memory place =
          if InRange index offset size place then 0xFF
          else m.flash.memory place := by
  rcases storageEraseSector_owner owned (erasableRange_of_accepted accepted) with
    ⟨other, result, sameArea, memory⟩
  have isErased : other = erased :=
    (EStateM.Result.ok.inj (result.symm.trans accepted)).2
  subst isErased
  exact ⟨sameArea, memory⟩

/-- After some erase calls their ranges are erased, and nothing else changed. -/
theorem Erasing.memory
    {m reached : Machine}
    {index : Fin 4}
    {ranges : List (UInt32 × UInt32)}
    (owned : ownedArea m.table m.cdi = some index)
    (erasing : Erasing m ranges reached) :
    reached.SameArea m ∧
      (∀ place,
        InRanges index ranges place → reached.flash.memory place = 0xFF) ∧
      ∀ place,
        ¬ InRanges index ranges place →
        reached.flash.memory place = m.flash.memory place := by
  induction erasing with
  | start =>
      refine ⟨⟨rfl, rfl⟩, ?_, fun place _ => rfl⟩
      rintro place ⟨range, member, -⟩
      cases member
  | compute before ram inductionHypothesis =>
      rcases inductionHypothesis with ⟨sameArea, blank, kept⟩
      exact ⟨⟨sameArea.table, sameArea.cdi⟩, blank, kept⟩
  | @call ranges reached erased offset size before erases inductionHypothesis =>
      rcases inductionHypothesis with ⟨sameArea, blank, kept⟩
      have owner : ownedArea reached.table reached.cdi = some index := by
        rw [sameArea.table, sameArea.cdi]
        exact owned
      rcases memory_of_erased owner erases with ⟨sameErased, memory⟩
      refine ⟨⟨sameErased.table.trans sameArea.table,
        sameErased.cdi.trans sameArea.cdi⟩, ?_, ?_⟩
      · rintro place ⟨range, member, inRange⟩
        rw [memory]
        split
        · rfl
        · rename_i other
          rcases List.mem_append.mp member with earlier | last
          · exact blank place ⟨range, earlier, inRange⟩
          · rw [List.mem_singleton] at last
            subst last
            exact absurd inRange other
      · intro place outside
        have notLast : ¬ InRange index offset size place := by
          intro inRange
          exact outside ⟨(offset, size), by simp, inRange⟩
        rw [memory, if_neg notLast]
        apply kept
        rintro ⟨range, member, inRange⟩
        exact outside ⟨range, by simp [member], inRange⟩

/-- Outside of its range a write changes nothing. -/
theorem memory_of_written
    {m written : Machine}
    {index : Fin 4}
    {offset data size : UInt32}
    (owned : ownedArea m.table m.cdi = some index)
    (accepted : (storageWriteData offset data size).run m = .ok 0 written)
    {place : Nat}
    (outside : ¬ InRange index offset size place) :
    written.flash.memory place = m.flash.memory place := by
  rcases storageWriteData_owner owned (writableRange_of_accepted accepted) with
    ⟨other, result, -, memory⟩
  have isWritten : other = written :=
    (EStateM.Result.ok.inj (result.symm.trans accepted)).2
  subst isWritten
  rw [memory, Command.cell_outside]
  rintro ⟨low, high⟩
  simp only [Command.first, Command.size, length_read] at low high
  exact outside ⟨low, high⟩

end Erasing

section RoundTrip

/--
What the owner of an area can rely on.  An erase sets exactly its range.  What
is written into erased sectors is read back, by any calls in any order, and
nothing outside the erased sectors changes; the sectors that cover a range that
can be written can be erased.  No range that leaves the area is accepted.
-/
theorem storage_roundTrip
    {m : Machine}
    {index : Fin 4}
    (owned : ownedArea m.table m.cdi = some index) :
    (∀ offset size erased,
      (storageEraseSector offset size).run m = .ok 0 erased →
      ∀ place,
        erased.flash.memory place =
          if InRange index offset size place then 0xFF
          else m.flash.memory place) ∧
      (∀ ranges erased offset data size written,
        Erasing m ranges erased →
        (∀ place,
          InRange index offset size place → InRanges index ranges place) →
        (storageWriteData offset data size).run erased = .ok 0 written →
        (∀ place,
          ¬ InRanges index ranges place →
          written.flash.memory place = m.flash.memory place) ∧
          ∀ reached offset' data' size',
            Reading written reached →
            SubRange offset' size' offset size →
            size'.toNat ≤ 4096 →
            inAppRam data' size' = true →
            ∃ loaded,
              (storageReadData offset' data' size').run reached =
                  .ok 0 loaded ∧
                read loaded.ram data'.toNat size'.toNat =
                  ((read erased.ram data.toNat size.toNat).drop
                    (offset'.toNat - offset.toNat)).take size'.toNat) ∧
      (∀ offset data size written,
        (storageWriteData offset data size).run m = .ok 0 written →
        SubRange offset size (coverOffset offset) (coverSize offset size) ∧
          ∃ erased,
            (storageEraseSector (coverOffset offset)
                (coverSize offset size)).run m = .ok 0 erased ∧
              ∀ ram,
                ∃ written',
                  (storageWriteData offset data size).run
                    { erased with ram := ram } = .ok 0 written') ∧
      ∀ offset data size : UInt32,
        0x20000 < offset.toNat + size.toNat →
        (storageEraseSector offset size).run m = .ok (-1) m ∧
          (storageWriteData offset data size).run m = .ok (-1) m ∧
          (storageReadData offset data size).run m = .ok (-1) m := by
  refine ⟨?_, ?_, ?_, ?_⟩
  · intro offset size erased erases
    exact (memory_of_erased owned erases).2
  · intro ranges erased offset data size written erasing covered writes
    rcases erasing.memory owned with ⟨sameArea, blank, kept⟩
    have owner : ownedArea erased.table erased.cdi = some index := by
      rw [sameArea.table, sameArea.cdi]
      exact owned
    constructor
    · intro place outside
      have notWritten : ¬ InRange index offset size place :=
        fun inRange => outside (covered place inRange)
      rw [memory_of_written owner writes notWritten]
      exact kept place outside
    · intro reached offset' data' size' reading inside short inRam
      exact read_written owner
        (fun place inRange => blank place (covered place inRange))
        writes reading inside short inRam
  · intro offset data size written writes
    have writable := writableRange_of_accepted writes
    refine ⟨subRange_cover writable.2.2.2, ?_⟩
    rcases storageEraseSector_owner owned
      (erasableRange_cover writable.2.2.2 writable.2.1) with
      ⟨erased, erases, sameArea, -⟩
    refine ⟨erased, erases, ?_⟩
    intro ram
    have owner : ownedArea
        ({ erased with ram := ram } : Machine).table
        ({ erased with ram := ram } : Machine).cdi = some index := by
      rw [← owned, ← sameArea.table, ← sameArea.cdi]
      rfl
    rcases storageWriteData_owner owner writable with ⟨written', result, -⟩
    exact ⟨written', result⟩
  · intro offset data size outside
    exact refused_of_not_inArea outside data m

/-- The table of a device on which one app has allocated an area. -/
def PartitionTable.allocated (cdi : Vector UInt8 32) : PartitionTable :=
  PartitionTable.sample.setArea 0 (allocatedArea cdi plainWords)

/-- A device on which the running app has an area. -/
def Machine.withArea : Machine :=
  Machine.provisioned (.allocated (Vector.replicate 32 0))

theorem ownedArea_withArea :
    ownedArea Machine.withArea.table Machine.withArea.cdi = some 0 := by
  have cdi : Machine.withArea.cdi = Vector.replicate 32 0 := rfl
  rw [Machine.withArea, Machine.table_provisioned, ← Machine.withArea, cdi]
  exact ownedArea_onlyArea not_inUse_sample ..

/--
The app erases a sector, fills its RAM, writes three bytes behind the first page
of the sector, and reads the last two of them.
-/
theorem storage_roundTrip_withArea :
    ∃ erased written loaded,
      (storageEraseSector 0 4096).run .withArea = .ok 0 erased ∧
        (storageWriteData 256 (ramBase + 0x10) 3).run
            { erased with ram := countingRam } =
          .ok 0 written ∧
        (storageReadData 257 (ramBase + 0x200) 2).run written =
          .ok 0 loaded ∧
        read loaded.ram (ramBase + 0x200).toNat 2 = [0x11, 0x12] := by
  obtain ⟨erased, erases, sameErased, _⟩ :=
    @storageEraseSector_owner .withArea 0 0 4096 ownedArea_withArea (by decide)
  have owned :
      ownedArea ({ erased with ram := countingRam } : Machine).table
          ({ erased with ram := countingRam } : Machine).cdi =
        some 0 := by
    rw [← ownedArea_withArea, ← sameErased.table, ← sameErased.cdi]
    rfl
  obtain ⟨written, writes, _⟩ :=
    @storageWriteData_owner { erased with ram := countingRam } 0 256
      (ramBase + 0x10) 3 owned (by decide)
  have covered (place : Nat) (inRange : InRange 0 256 3 place) :
      InRanges 0 [(0, 4096)] place :=
    ⟨(0, 4096), List.mem_singleton_self _, inRange.of_subRange (by decide)⟩
  have law := (storage_roundTrip ownedArea_withArea).2.1
  obtain ⟨loaded, loads, bytes⟩ :=
    (law [(0, 4096)] _ 256 (ramBase + 0x10) 3 written
      (.compute (.call .start erases) countingRam) covered writes).2 written 257
      (ramBase + 0x200) 2 .start (by decide) (by decide) (by decide)
  exact ⟨erased, written, loaded, erases, writes, loads, bytes⟩

end RoundTrip

end TKey
