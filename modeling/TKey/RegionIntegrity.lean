import TKey.MeasuredStart

namespace TKey

open ByteMemory NorFlash

/-!
# Flash region integrity

Which bytes of flash a system call may touch.  Every command that the firmware
sends works on addresses that the call permits, and no call permits the
bitstream or the slot of the management app.
-/

/-- The bytes that a system call of the running app may touch. -/
inductive Permits (device : Device) (call : Call) (m : Machine)
    (address : Nat) : Prop where
  /-- A table update rewrites the copies of the table. -/
  | table (copy : TableCopy) (inTable : InTable copy address)
  /-- The management app stores a chunk in the empty slot 1. -/
  | store
      (isCall : SyscallNum.ofWord call.number = some .preloadStore)
      (mgmt : m.IsMgmt device)
      (empty : (m.table.app 1).size = 0)
      (inSlot : InSlot 1 address)
  /-- The management app deletes the app in slot 1. -/
  | delete
      (isCall : SyscallNum.ofWord call.number = some .preloadDelete)
      (mgmt : m.IsMgmt device)
      (inSlot : InSlot 1 address)
  /-- The owner of an area writes, erases or frees it. -/
  | owner (index : Fin 4)
      (isCall :
        SyscallNum.ofWord call.number = some .writeData ∨
          SyscallNum.ofWord call.number = some .eraseData ∨
          SyscallNum.ofWord call.number = some .deallocArea)
      (owns : m.table.Owns m.cdi index)
      (inStorage : InStorage index address)
  /-- A free area is allocated. -/
  | allocate (index : Fin 4)
      (isCall : SyscallNum.ofWord call.number = some .allocArea)
      (free : ¬ m.table.InUse index)
      (inStorage : InStorage index address)
  /-- The management app erases all areas. -/
  | eraseAreas (index : Fin 4)
      (isCall : SyscallNum.ofWord call.number = some .eraseAreas)
      (mgmt : m.IsMgmt device)
      (inStorage : InStorage index address)

section Steps

/-- The commands of a table update that follows permitted commands. -/
private theorem permits_update
    {device : Device}
    {call : Call}
    {m : Machine}
    {before after : List Command}
    (table : PartitionTable)
    (first : Confined before (Permits device call m))
    (last : Confined after (Permits device call m)) :
    Confined (before ++ tableCommands table.sealed ++ after)
      (Permits device call m) := by
  have middle :
      Confined (tableCommands table.sealed)
        (Permits device call m) :=
    (confined_tableCommands table.sealed).mono
      fun _ ⟨copy, inTable⟩ => .table copy inTable
  exact (first.append middle).append last

/-- A system call sends only commands that it permits. -/
theorem Outcome.permitted
    {device : Device}
    {call : Call}
    {m : Machine}
    {result : EStateM.Result Stop Machine Int}
    (outcome : Outcome device call m result) :
    ∃ commands,
      FlashChip.After commands m.flash (resultMachine result).flash ∧
        Confined commands (Permits device call m) := by
  have nothing : Confined [] (Permits device call m) := by
    intro command member
    cases member
  cases outcome with
  | quiet value ram =>
      simp only [resultMachine]
      exact ⟨[], .unchanged m.flash, nothing⟩
  | allocate index isCall chosen =>
      have free : ¬ m.table.InUse index := by
        apply not_inUse_of_getFirstEmpty
        simp only [allocation] at chosen
        split at chosen
        · exact chosen
        · cases chosen
      refine ⟨_, .updateTable _ _ _ m, permits_update _ ?_ nothing⟩
      exact (confined_areaErase index).mono
        fun _ inStorage => .allocate index isCall free inStorage
  | deallocate index isCall owned =>
      refine ⟨_, .updateTable _ _ _ m, permits_update _ ?_ nothing⟩
      exact (confined_areaErase index).mono
        fun _ inStorage =>
          .owner index (.inr (.inr isCall)) (owns_of_ownedArea owned)
            inStorage
  | eraseSectors index isCall owned range =>
      refine ⟨_, .perform _ m, ?_⟩
      obtain ⟨_, _, whole, inArea⟩ := range
      simp only [InArea] at inArea
      exact (confined_sectorErases (by omega)).mono
        fun _ inStorage =>
          .owner index (.inr (.inl isCall)) (owns_of_ownedArea owned)
            inStorage
  | writeData index isCall owned range =>
      refine ⟨_, .perform _ m, ?_⟩
      obtain ⟨_, _, _, inArea⟩ := range
      simp only [InArea] at inArea
      exact (confined_pages (by rw [length_read]; exact inArea)).mono
        fun _ inStorage =>
          .owner index (.inl isCall) (owns_of_ownedArea owned) inStorage
  | store isCall accepts =>
      refine ⟨_, .perform _ m, ?_⟩
      obtain ⟨mgmt, empty, _, _, _, inArea⟩ := accepts
      simp only [InArea] at inArea
      exact (confined_pages (by rw [length_read]; exact inArea)).mono
        fun _ inSlot => .store isCall mgmt empty inSlot
  | finalize isCall accepts =>
      exact ⟨_, .updateTable _ _ _ m, permits_update _ nothing nothing⟩
  | delete isCall mgmt present =>
      refine ⟨_, .updateTable _ _ _ m, permits_update _ nothing ?_⟩
      exact (confined_slotErase 1).mono
        fun _ inSlot => .delete isCall mgmt inSlot
  | setPubkey isCall accepts =>
      exact ⟨_, .updateTable _ _ _ m, permits_update _ nothing nothing⟩
  | eraseAreas isCall mgmt =>
      refine ⟨_, .updateTable _ _ _ m, permits_update _ ?_ nothing⟩
      refine confined_allAreasErase.mono ?_
      rintro address ⟨index, inStorage⟩
      exact .eraseAreas index isCall mgmt inStorage
  | systemReset isCall accepts =>
      exact ⟨[], .resetinfo _ m, nothing⟩
  | halted =>
      simp only [resultMachine]
      exact ⟨[], .unchanged m.flash, nothing⟩

/-- Outside of power-ups, only a system call changes the chip. -/
theorem step_permitted
    (device : Device)
    (system : System)
    (event : Event)
    (noPowerUp : ¬ event.IsPowerUp) :
    (System.step device system event).machine.flash =
        system.machine.flash ∨
      ∃ launch m call scrambled commands,
        system = .running launch m ∧
          event = .syscall call scrambled ∧
          FlashChip.After commands m.flash
            (System.step device system event).machine.flash ∧
          Confined commands (Permits device call m) := by
  cases event with
  | powerUp chip scrambled info =>
      exact absurd trivial noPowerUp
  | appWrites ram =>
      left
      cases system <;> rfl
  | iteration incoming =>
      left
      cases system with
      | looping requested heard state ctx m =>
          have same :=
            (iterate_outcome device incoming state ctx m).sameFlash
          rw [System.step, System.machine_afterIteration]
          exact same
      | running launch m =>
          rfl
      | stopped m =>
          rfl
  | syscall call scrambled =>
      cases system with
      | running launch m =>
          right
          obtain ⟨commands, after, confined⟩ :=
            (syscallHandler_outcome device call m).permitted
          refine
            ⟨launch, m, call, scrambled, commands, rfl, rfl, ?_, confined⟩
          rw [System.step, System.flash_afterSyscall]
          exact after
      | looping requested heard state ctx m =>
          exact .inl rfl
      | stopped m =>
          exact .inl rfl

end Steps

/-- The protected regions are permitted to no system call. -/
theorem not_permits_protected
    {device : Device}
    {call : Call}
    {m : Machine}
    {address : Nat}
    (isProtected : InBitstream address ∨ InSlot 0 address) :
    ¬ Permits device call m address := by
  have slot0 : appStart 0 = 0x30000 := rfl
  have slot1 : appStart 1 = 0x50000 := rfl
  have bitstream : addrBitstream + sizeBitstream = 0x20000 := rfl
  simp only [InBitstream, InSlot, bitstream, slot0] at isProtected
  intro permits
  cases permits with
  | table copy inTable =>
      have bounds := inTable.bounds
      omega
  | store isCall mgmt empty inSlot =>
      simp only [InSlot, slot1] at inSlot
      omega
  | delete isCall mgmt inSlot =>
      simp only [InSlot, slot1] at inSlot
      omega
  | owner index isCall owns inStorage =>
      have bounds := inStorage.bounds
      omega
  | allocate index isCall free inStorage =>
      have bounds := inStorage.bounds
      omega
  | eraseAreas index isCall mgmt inStorage =>
      have bounds := inStorage.bounds
      omega

section Integrity

/-- The event is this system call of the app that is running. -/
def Calls
    (system : System)
    (event : Event)
    (call : Call)
    (m : Machine) : Prop :=
  (∃ launch, system = .running launch m) ∧
    ∃ scrambled, event = .syscall call scrambled

/-- The calls that may change app slot 1. -/
def MayChangeSlot1
    (device : Device)
    (call : Call)
    (m : Machine) : Prop :=
  m.IsMgmt device ∧
    (SyscallNum.ofWord call.number = some .preloadStore ∨
      SyscallNum.ofWord call.number = some .preloadDelete) ∧
    ((m.table.app 1).size ≠ 0 →
      SyscallNum.ofWord call.number = some .preloadDelete)

/-- The calls that may change a storage area. -/
def MayChangeArea
    (device : Device)
    (call : Call)
    (m : Machine)
    (index : Fin 4) : Prop :=
  ((SyscallNum.ofWord call.number = some .writeData ∨
        SyscallNum.ofWord call.number = some .eraseData ∨
        SyscallNum.ofWord call.number = some .deallocArea) ∧
      m.table.Owns m.cdi index) ∨
    (SyscallNum.ofWord call.number = some .allocArea ∧
      ¬ m.table.InUse index) ∨
    (SyscallNum.ofWord call.number = some .eraseAreas ∧
      m.IsMgmt device)

/-- A permitted address in slot 1 comes from a call that may change it. -/
theorem Permits.mayChangeSlot1
    {device : Device}
    {call : Call}
    {m : Machine}
    {address : Nat}
    (permits : Permits device call m address)
    (inSlot : InSlot 1 address) :
    MayChangeSlot1 device call m := by
  have slot1 : appStart 1 = 0x50000 := rfl
  simp only [InSlot, slot1] at inSlot
  cases permits with
  | table copy inTable =>
      have bounds := inTable.bounds
      omega
  | store isCall mgmt empty _ =>
      exact ⟨mgmt, .inl isCall, fun present => absurd empty present⟩
  | delete isCall mgmt _ =>
      exact ⟨mgmt, .inr isCall, fun _ => isCall⟩
  | owner index isCall owns inStorage =>
      have bounds := inStorage.bounds
      omega
  | allocate index isCall free inStorage =>
      have bounds := inStorage.bounds
      omega
  | eraseAreas index isCall mgmt inStorage =>
      have bounds := inStorage.bounds
      omega

/-- A permitted address in an area comes from a call that may change it. -/
theorem Permits.mayChangeArea
    {device : Device}
    {call : Call}
    {m : Machine}
    {address : Nat}
    {index : Fin 4}
    (permits : Permits device call m address)
    (inArea : InStorage index address) :
    MayChangeArea device call m index := by
  have slot1 : appStart 1 = 0x50000 := rfl
  have area := inArea.bounds
  cases permits with
  | table copy inTable =>
      have bounds := inTable.bounds
      omega
  | store isCall mgmt empty inSlot =>
      simp only [InSlot, slot1] at inSlot
      omega
  | delete isCall mgmt inSlot =>
      simp only [InSlot, slot1] at inSlot
      omega
  | owner other isCall owns inStorage =>
      cases inStorage.unique inArea
      exact .inl ⟨isCall, owns⟩
  | allocate other isCall free inStorage =>
      cases inStorage.unique inArea
      exact .inr (.inl ⟨isCall, free⟩)
  | eraseAreas other isCall mgmt inStorage =>
      exact .inr (.inr ⟨isCall, mgmt⟩)

/-- The log of the chip grows only by commands outside the protected regions. -/
private theorem log_run
    (device : Device)
    (chip : FlashChip)
    (scrambled : Memory)
    (info : Reset)
    (events : List Event)
    (noPowerUp : ∀ event, event ∈ events → ¬ event.IsPowerUp) :
    ∃ commands,
      (System.fromBoot device chip scrambled info
          events).machine.flash.sent = chip.sent ++ commands ∧
        Confined commands fun address =>
          ¬ (InBitstream address ∨ InSlot 0 address) := by
  induction events using List.reverseRecOn with
  | nil =>
      refine ⟨[], ?_, fun command member => absurd member (by simp)⟩
      rw [System.fromBoot, System.run_nil, flash_boot, List.append_nil]
  | append_singleton earlier event inductionHypothesis =>
      obtain ⟨commands, logged, confined⟩ :=
        inductionHypothesis fun other member =>
          noPowerUp other (by simp [member])
      rw [System.fromBoot_append_singleton]
      rcases step_permitted device
          (System.fromBoot device chip scrambled info earlier) event
          (noPowerUp event (by simp)) with
        same | ⟨launch, m, call, words, more, isRunning, _, after, permitted⟩
      · exact ⟨commands, by rw [same, logged], confined⟩
      · refine ⟨commands ++ more, ?_, confined.append ?_⟩
        · rw [isRunning, System.machine] at logged
          rw [after.2, logged, List.append_assoc]
        · exact permitted.mono fun address permits isProtected =>
            not_permits_protected isProtected permits

/-- A byte that a step changes belongs to a call that may change it. -/
private theorem changed_step
    {device : Device}
    {system : System}
    {event : Event}
    {address : Nat}
    (soft : ¬ event.IsPowerUp)
    (changed :
      (System.step device system event).machine.flash.memory address ≠
        system.machine.flash.memory address) :
    ∃ call m, Calls system event call m ∧
      Permits device call m address := by
  rcases step_permitted device system event soft with
    same | ⟨launch, m, call, scrambled, commands, isRunning, isCall,
      after, confined⟩
  · exact absurd (by rw [same]) changed
  · refine ⟨call, m, ⟨⟨launch, isRunning⟩, scrambled, isCall⟩, ?_⟩
    apply confined.of_changed m.flash.memory
    rw [← after.1]
    rw [isRunning] at changed ⊢
    exact changed

/--
Flash region integrity: from a boot on, no command touches the bitstream or
app slot 0, and app slot 1 and the storage areas change only during the system
calls that may change them.
-/
theorem flash_region_integrity
    (device : Device)
    (chip : FlashChip)
    (scrambled : Memory)
    (info : Reset)
    (events : List Event)
    (noPowerUp : ∀ event, event ∈ events → ¬ event.IsPowerUp) :
    (∃ commands,
      (System.fromBoot device chip scrambled info
          events).machine.flash.sent = chip.sent ++ commands ∧
        ∀ command, command ∈ commands →
          ∀ address, InBitstream address ∨ InSlot 0 address →
            ¬ command.Touches address) ∧
      ∀ earlier event later,
        events = earlier ++ event :: later →
        ∀ address,
          (System.fromBoot device chip scrambled info
              (earlier ++ [event])).machine.flash.memory address ≠
            (System.fromBoot device chip scrambled info
              earlier).machine.flash.memory address →
          (InSlot 1 address →
            ∃ call m,
              Calls
                  (System.fromBoot device chip scrambled info earlier)
                  event call m ∧
                MayChangeSlot1 device call m) ∧
            ∀ index, InStorage index address →
              ∃ call m,
                Calls
                    (System.fromBoot device chip scrambled info earlier)
                    event call m ∧
                  MayChangeArea device call m index := by
  constructor
  · obtain ⟨commands, logged, confined⟩ :=
      log_run device chip scrambled info events noPowerUp
    refine ⟨commands, logged, ?_⟩
    intro command member address isProtected touches
    exact confined command member address touches isProtected
  · intro earlier event later split address changed
    have soft : ¬ event.IsPowerUp :=
      noPowerUp event (by simp [split])
    rw [System.fromBoot_append_singleton] at changed
    obtain ⟨call, m, calls, permits⟩ := changed_step soft changed
    exact
      ⟨fun inSlot => ⟨call, m, calls, permits.mayChangeSlot1 inSlot⟩,
        fun index inArea =>
          ⟨call, m, calls, permits.mayChangeArea inArea⟩⟩

/-- The byte that the management app stores was blank before. -/
theorem memory_abandonedStore :
    (System.fromBoot .managed (.provisioned (.withApp 0)) (fun _ => 0) .zero
          (writerStart ++ [.syscall (storeCall 0 1) fun _ => 0])
        ).machine.flash.memory (appStart 1) ≠
      (System.fromBoot .managed (.provisioned (.withApp 0)) (fun _ => 0) .zero
          writerStart).machine.flash.memory (appStart 1) := by
  obtain ⟨launch, writer, boots, _, _, _, memory⟩ := run_writer
  obtain ⟨_, stored, stores, _, cleared⟩ := run_abandonedStore
  have blank := @memory_provisioned_slot (.withApp 0) 1 0 (by decide)
  rw [abandonedStore] at stores
  rw [boots, stores, System.machine, System.machine, cleared, memory]
  exact fun same => absurd (same.trans blank) (by decide)

/-- The management app stores a byte in slot 1 and then allocates an area. -/
theorem flash_region_integrity_sample :
    let reached :=
      System.fromBoot .managed (.provisioned (.withApp 0)) (fun _ => 0) .zero
    let store := Event.syscall (storeCall 0 1) fun _ => 0
    let allocate := Event.syscall (.plain .allocArea) fun _ => 0
    (∃ commands,
      (reached (writerStart ++ store :: [allocate])).machine.flash.sent =
          [] ++ commands ∧
        ∀ command, command ∈ commands →
          ∀ address, InBitstream address ∨ InSlot 0 address →
            ¬ command.Touches address) ∧
      (reached (writerStart ++ [store])).machine.flash.memory (appStart 1) ≠
        (reached writerStart).machine.flash.memory (appStart 1) ∧
      ∃ call m,
        Calls (reached writerStart) store call m ∧
          MayChangeSlot1 .managed call m := by
  dsimp only
  have integrity :=
    flash_region_integrity .managed (.provisioned (.withApp 0)) (fun _ => 0)
      .zero
      (writerStart ++ .syscall (storeCall 0 1) (fun _ => 0) ::
        [.syscall (.plain .allocArea) fun _ => 0])
      (by simp [writerStart, flashBoot, Event.IsPowerUp])
  have inSlot : InSlot 1 (appStart 1) :=
    ⟨Nat.le_refl _, Nat.lt_add_of_pos_right (by decide)⟩
  exact
    ⟨integrity.1, memory_abandonedStore,
      (integrity.2 writerStart _ _ rfl (appStart 1)
        memory_abandonedStore).1 inSlot⟩

end Integrity

end TKey
