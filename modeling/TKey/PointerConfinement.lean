import TKey.System

namespace TKey

open ByteMemory NorFlash

/-!
# Confinement of pointers

An app passes pointers to the firmware, which runs with access to everything.
Whatever the arguments of a system call are, the firmware uses the pointers for
nothing outside app RAM: it stops before an access that would go elsewhere,
what it does depends on no byte elsewhere, and it changes no byte elsewhere.
-/

section Outside

/-- The address of a byte of app RAM. -/
def IsAppRam (address : Nat) : Prop :=
  ramBase.toNat ≤ address ∧
    address < ramBase.toNat + ramSize.toNat

instance (address : Nat) : Decidable (IsAppRam address) :=
  inferInstanceAs (Decidable (_ ∧ _))

/-- The same app RAM with other contents of the memory around it. -/
def withOutside (outside ram : Memory) : Memory := fun address =>
  if IsAppRam address then ram address else outside address

/-- A machine with other contents of the memory around app RAM. -/
def Machine.withOutside (outside : Memory) (m : Machine) : Machine :=
  { m with ram := TKey.withOutside outside m.ram }

/-- The result of a system call with other contents around app RAM. -/
def resultWithOutside (outside : Memory) :
    EStateM.Result Stop Machine Int → EStateM.Result Stop Machine Int
  | .ok value m => .ok value (m.withOutside outside)
  | .error stop m => .error stop (m.withOutside outside)

variable {outside ram : Memory} {p : UInt32}

/-- Bytes of a range in app RAM are bytes of app RAM. -/
theorem isAppRam_of_inRam
    {size index : Nat}
    (inRam : InRam p size)
    (inside : index < size) :
    IsAppRam (p.toNat + index) :=
  ⟨Nat.le_trans inRam.1 (Nat.le_add_right _ _),
    Nat.lt_of_lt_of_le (Nat.add_lt_add_left inside _) inRam.2⟩

/-- What is read in app RAM does not depend on the memory around it. -/
theorem read_withOutside
    {size : Nat}
    (inRam : InRam p size) :
    read (withOutside outside ram) p.toNat size =
      read ram p.toNat size := by
  apply read_congr
  intro index inside
  exact if_pos (isAppRam_of_inRam inRam inside)

/-- What is written in app RAM leaves the memory around it as it is. -/
theorem write_withOutside
    {data : List UInt8}
    (inRam : InRam p data.length) :
    write (withOutside outside ram) p.toNat data =
      withOutside outside (write ram p.toNat data) := by
  funext address
  rw [withOutside]
  by_cases inside :
      p.toNat ≤ address ∧ address - p.toNat < data.length
  · obtain ⟨index, rfl⟩ := Nat.exists_eq_add_of_le inside.1
    have inData : index < data.length := by
      rw [← Nat.add_sub_cancel_left p.toNat index]
      exact inside.2
    rw [if_pos (isAppRam_of_inRam inRam inData), write, write,
      dif_pos inside, dif_pos inside]
  · rw [write, dif_neg inside, withOutside, write, dif_neg inside]

/-- The condition that a system call checks does not look at memory. -/
theorem resultWithOutside_ite
    {condition condition' : Prop}
    [Decidable condition]
    [Decidable condition']
    (same : condition' ↔ condition)
    {yes no yes' no' : EStateM.Result Stop Machine Int}
    (accepted : condition → yes' = resultWithOutside outside yes)
    (refused : no' = resultWithOutside outside no) :
    (if condition' then yes' else no') =
      resultWithOutside outside (if condition then yes else no) := by
  by_cases holds : condition
  · rw [if_pos holds, if_pos (same.mpr holds)]
    exact accepted holds
  · rw [if_neg holds, if_neg fun holds' => holds (same.mp holds')]
    exact refused

end Outside

section Calls

theorem ram_withOutside (outside : Memory) (m : Machine) :
    (m.withOutside outside).ram = withOutside outside m.ram :=
  rfl

/-- A call that returns after it has written app RAM. -/
theorem ok_withOutside
    {outside ram ram' : Memory}
    {m : Machine}
    (same : ram' = withOutside outside ram)
    {value : Int} :
    EStateM.Result.ok value
        { m.withOutside outside with ram := ram' } =
      resultWithOutside outside (.ok value { m with ram := ram }) := by
  rw [same]
  rfl

/-- A call that returns after it has updated the table. -/
theorem updateTable_withOutside
    (outside : Memory)
    (before : List Command)
    (table : PartitionTable)
    (after : List Command)
    (m : Machine) :
    EStateM.Result.ok 0
        ((m.withOutside outside).updateTable before table after) =
      resultWithOutside outside
        (.ok 0 (m.updateTable before table after)) := by
  have kept :
      (m.withOutside outside).updateTable before table after =
        (m.updateTable before table after).withOutside outside := by
    unfold Machine.updateTable
    rfl
  rw [resultWithOutside, kept]

variable {device : Device} {call : Call} (outside : Memory) (m : Machine)

/-- A storage call that does not write app RAM. -/
theorem withOutside_storage
    (isCall :
      SyscallNum.ofWord call.number = some .allocArea ∨
        SyscallNum.ofWord call.number = some .deallocArea ∨
        SyscallNum.ofWord call.number = some .eraseData) :
    (syscallHandler device call).run (m.withOutside outside) =
      resultWithOutside outside ((syscallHandler device call).run m) := by
  have table : (m.withOutside outside).table = m.table := rfl
  have cdi : (m.withOutside outside).cdi = m.cdi := rfl
  rcases isCall with isAlloc | isDealloc | isErase
  · rw [syscallHandler_allocArea isAlloc, syscallHandler_allocArea isAlloc,
      table, cdi]
    cases allocation m.table m.cdi with
    | none =>
        rfl
    | some index =>
        exact updateTable_withOutside outside _ _ _ m
  · rw [syscallHandler_deallocArea isDealloc,
      syscallHandler_deallocArea isDealloc, table, cdi]
    cases ownedArea m.table m.cdi with
    | none =>
        rfl
    | some index =>
        exact updateTable_withOutside outside _ _ _ m
  · rw [syscallHandler_eraseData isErase, syscallHandler_eraseData isErase,
      table, cdi]
    cases ownedArea m.table m.cdi with
    | none =>
        rfl
    | some index =>
        exact resultWithOutside_ite .rfl (fun _ => rfl) rfl

theorem withOutside_writeData
    (isCall : SyscallNum.ofWord call.number = some .writeData) :
    (syscallHandler device call).run (m.withOutside outside) =
      resultWithOutside outside ((syscallHandler device call).run m) := by
  have table : (m.withOutside outside).table = m.table := rfl
  have cdi : (m.withOutside outside).cdi = m.cdi := rfl
  rw [syscallHandler_writeData isCall, syscallHandler_writeData isCall,
    table, cdi]
  cases ownedArea m.table m.cdi with
  | none =>
      rfl
  | some index =>
      refine resultWithOutside_ite .rfl (fun range => ?_) rfl
      rw [ram_withOutside, read_withOutside (inRam_of_inAppRam range.1)]
      rfl

theorem withOutside_readData
    (isCall : SyscallNum.ofWord call.number = some .readData) :
    (syscallHandler device call).run (m.withOutside outside) =
      resultWithOutside outside ((syscallHandler device call).run m) := by
  have table : (m.withOutside outside).table = m.table := rfl
  have cdi : (m.withOutside outside).cdi = m.cdi := rfl
  rw [syscallHandler_readData isCall, syscallHandler_readData isCall,
    table, cdi]
  cases ownedArea m.table m.cdi with
  | none =>
      rfl
  | some index =>
      refine resultWithOutside_ite .rfl (fun range => ?_) rfl
      have inRam :
          InRam call.arg2
            (read m.flash.memory (areaStart index + call.arg1.toNat)
              call.arg3.toNat).length := by
        rw [length_read]
        exact inRam_of_inAppRam range.1
      exact ok_withOutside (write_withOutside inRam)

theorem withOutside_reset
    (isCall : SyscallNum.ofWord call.number = some .reset) :
    (syscallHandler device call).run (m.withOutside outside) =
      resultWithOutside outside ((syscallHandler device call).run m) := by
  rw [syscallHandler, isCall]
  simp only
  rw [reset_run, reset_run]
  refine resultWithOutside_ite .rfl (fun accepts => ?_) rfl
  have inRam : InRam call.arg1 256 := inRam_of_inAppRam accepts.1
  rw [userRequest, ram_withOutside, read_withOutside inRam,
    ← userRequest]
  rfl

theorem withOutside_getAppData
    (isCall : SyscallNum.ofWord call.number = some .getAppData) :
    (syscallHandler device call).run (m.withOutside outside) =
      resultWithOutside outside ((syscallHandler device call).run m) := by
  rw [syscallHandler, isCall]
  simp only
  rw [resetData_run, resetData_run]
  refine resultWithOutside_ite .rfl (fun accepts => ?_) rfl
  have inRam : InRam call.arg1 m.resetinfo.nextAppData.toList.length := by
    rw [Vector.length_toList]
    exact inRam_of_inAppRam accepts
  exact ok_withOutside (write_withOutside inRam)

theorem withOutside_preloadStore
    (isCall : SyscallNum.ofWord call.number = some .preloadStore) :
    (syscallHandler device call).run (m.withOutside outside) =
      resultWithOutside outside ((syscallHandler device call).run m) := by
  have slot : (1 : UInt8) = slotByte 1 := rfl
  rw [syscallHandler, isCall]
  simp only
  rw [slot, preloadStore_run, preloadStore_run]
  refine resultWithOutside_ite .rfl (fun accepts => ?_) rfl
  rw [ram_withOutside,
    read_withOutside (inRam_of_inAppRam accepts.2.2.1)]
  rfl

theorem withOutside_preloadStoreFin
    (isCall : SyscallNum.ofWord call.number = some .preloadStoreFin) :
    (syscallHandler device call).run (m.withOutside outside) =
      resultWithOutside outside ((syscallHandler device call).run m) := by
  have slot : (1 : UInt8) = slotByte 1 := rfl
  rw [syscallHandler, isCall]
  simp only
  rw [slot, preloadStoreFinalize_run, preloadStoreFinalize_run]
  refine resultWithOutside_ite .rfl (fun accepts => ?_) rfl
  have digest : InRam call.arg2 32 := inRam_of_inAppRam accepts.1
  have signature : InRam call.arg3 64 := inRam_of_inAppRam accepts.2.1
  rw [storedApp, ram_withOutside, read_withOutside digest,
    read_withOutside signature]
  exact updateTable_withOutside outside _ _ _ m

theorem withOutside_preloadSetPubkey
    (isCall : SyscallNum.ofWord call.number = some .preloadSetPubkey) :
    (syscallHandler device call).run (m.withOutside outside) =
      resultWithOutside outside ((syscallHandler device call).run m) := by
  have slot : (1 : UInt8) = slotByte 1 := rfl
  rw [syscallHandler, isCall]
  simp only
  rw [slot, preloadSetPubkey_run, preloadSetPubkey_run]
  refine resultWithOutside_ite .rfl (fun accepts => ?_) rfl
  have pubkey : InRam call.arg1 32 := inRam_of_inAppRam accepts.1
  rw [keyedApp, ram_withOutside, read_withOutside pubkey]
  exact updateTable_withOutside outside _ _ _ m

theorem withOutside_preloadGetMetadata
    (isCall : SyscallNum.ofWord call.number = some .preloadGetMetadata) :
    (syscallHandler device call).run (m.withOutside outside) =
      resultWithOutside outside ((syscallHandler device call).run m) := by
  have slot : (1 : UInt8) = slotByte 1 := rfl
  rw [syscallHandler, isCall]
  simp only
  rw [slot, preloadGetMetadata_run, preloadGetMetadata_run]
  refine resultWithOutside_ite .rfl (fun accepts => ?_) rfl
  obtain ⟨digestInRam, signatureInRam, pubkeyInRam, mgmt⟩ := accepts
  have digest :
      InRam call.arg1 (m.table.app 1).digest.toList.length := by
    rw [Vector.length_toList]
    exact inRam_of_inAppRam digestInRam
  have signature :
      InRam call.arg2 (m.table.app 1).signature.toList.length := by
    rw [Vector.length_toList]
    exact inRam_of_inAppRam signatureInRam
  have pubkey :
      InRam call.arg3 (m.table.app 1).pubkey.toList.length := by
    rw [Vector.length_toList]
    exact inRam_of_inAppRam pubkeyInRam
  apply ok_withOutside
  have table : (m.withOutside outside).table = m.table := rfl
  rw [table, metadataRam, ram_withOutside, write_withOutside digest,
    write_withOutside signature, write_withOutside pubkey, metadataRam]

/-- A management call that does not use a pointer. -/
theorem withOutside_management
    (isCall :
      SyscallNum.ofWord call.number = some .preloadDelete ∨
        SyscallNum.ofWord call.number = some .eraseAreas) :
    (syscallHandler device call).run (m.withOutside outside) =
      resultWithOutside outside ((syscallHandler device call).run m) := by
  have slot : (1 : UInt8) = slotByte 1 := rfl
  rcases isCall with isDelete | isErase
  · rw [syscallHandler, isDelete]
    simp only
    rw [slot, preloadDelete_run, preloadDelete_run]
    refine resultWithOutside_ite .rfl (fun _ => ?_) rfl
    exact
      resultWithOutside_ite .rfl (fun _ => rfl)
        (updateTable_withOutside outside _ _ _ m)
  · rw [syscallHandler, isErase]
    simp only
    rw [storageEraseAreas_run, storageEraseAreas_run]
    refine resultWithOutside_ite .rfl (fun _ => ?_) rfl
    exact updateTable_withOutside outside _ _ _ m

/-- What is around app RAM has no influence on a system call. -/
theorem syscallHandler_withOutside :
    (syscallHandler device call).run (m.withOutside outside) =
      resultWithOutside outside ((syscallHandler device call).run m) := by
  cases isCall : SyscallNum.ofWord call.number with
  | none =>
      rw [syscallHandler, isCall]
      rfl
  | some num =>
      cases num with
      | reset =>
          exact withOutside_reset outside m isCall
      | allocArea =>
          exact withOutside_storage outside m (.inl isCall)
      | deallocArea =>
          exact withOutside_storage outside m (.inr (.inl isCall))
      | writeData =>
          exact withOutside_writeData outside m isCall
      | readData =>
          exact withOutside_readData outside m isCall
      | eraseData =>
          exact withOutside_storage outside m (.inr (.inr isCall))
      | preloadStore =>
          exact withOutside_preloadStore outside m isCall
      | preloadStoreFin =>
          exact withOutside_preloadStoreFin outside m isCall
      | preloadDelete =>
          exact withOutside_management outside m (.inl isCall)
      | preloadGetMetadata =>
          exact withOutside_preloadGetMetadata outside m isCall
      | getAppData =>
          exact withOutside_getAppData outside m isCall
      | preloadSetPubkey =>
          exact withOutside_preloadSetPubkey outside m isCall
      | eraseAreas =>
          exact withOutside_management outside m (.inr isCall)
      | getVidpid | regMgmt | status =>
          rw [syscallHandler, isCall]
          rfl

end Calls

section Confinement

/-- The bytes of a range, as a set of addresses. -/
theorem inRam_iff_isAppRam
    {p : UInt32}
    {size : Nat}
    (positive : 0 < size) :
    InRam p size ↔
      ∀ address,
        p.toNat ≤ address →
        address < p.toNat + size →
        IsAppRam address := by
  constructor
  · intro inRam address low high
    exact
      ⟨Nat.le_trans inRam.1 low, Nat.lt_of_lt_of_le high inRam.2⟩
  · intro inside
    have first :=
      inside p.toNat (Nat.le_refl _) (Nat.lt_add_of_pos_right positive)
    have last :=
      inside (p.toNat + (size - 1)) (Nat.le_add_right _ _)
        (Nat.add_lt_add_left (Nat.sub_lt positive Nat.one_pos) _)
    refine ⟨first.1, ?_⟩
    have bound := last.2
    omega

/-- The pointer check accepts a range of bytes if all of them are app RAM. -/
theorem inAppRam_iff_isAppRam
    {p size : UInt32}
    (positive : 0 < size.toNat) :
    inAppRam p size = true ↔
      ∀ address,
        p.toNat ≤ address →
        address < p.toNat + size.toNat →
        IsAppRam address := by
  rw [inAppRam_iff, inRam_iff_isAppRam positive]
  constructor
  · rintro ⟨inside, _⟩
    exact inside
  · intro inside
    have first :=
      inside p.toNat (Nat.le_refl _) (Nat.lt_add_of_pos_right positive)
    exact ⟨inside, first.2⟩

/-- For an empty range it checks that the pointer points into app RAM. -/
theorem inAppRam_zero_iff (p : UInt32) :
    inAppRam p 0 = true ↔ IsAppRam p.toNat := by
  have zero : (0 : UInt32).toNat = 0 := rfl
  rw [inAppRam_iff, zero, InRam, Nat.add_zero]
  constructor
  · rintro ⟨⟨low, _⟩, high⟩
    exact ⟨low, high⟩
  · rintro ⟨low, high⟩
    exact ⟨⟨low, Nat.le_of_lt high⟩, high⟩

/-- No pointer is used outside app RAM. -/
theorem no_fault
    (device : Device)
    (call : Call)
    (m m' : Machine) :
    (syscallHandler device call).run m ≠ .error .fault m' := by
  intro faults
  have outcome := syscallHandler_outcome device call m
  rw [faults] at outcome
  cases outcome

/-- The memory around app RAM is left as it is. -/
theorem ram_outside
    (device : Device)
    (call : Call)
    (m : Machine)
    {address : Nat}
    (isOutside : ¬ IsAppRam address) :
    (resultMachine ((syscallHandler device call).run m)).ram address =
      m.ram address := by
  have same : m.withOutside m.ram = m := by
    have ram : withOutside m.ram m.ram = m.ram := by
      funext other
      exact ite_self _
    rw [Machine.withOutside, ram]
  have result := @syscallHandler_withOutside device call m.ram m
  rw [same] at result
  rw [result]
  cases (syscallHandler device call).run m <;> exact if_neg isOutside

/--
Confinement of the pointers of system calls: the pointer check accepts exactly
the ranges that lie in app RAM, no system call uses a pointer outside app RAM,
none changes a byte outside app RAM, and none depends on one.
-/
theorem pointer_confinement (device : Device) :
    (∀ p size : UInt32,
        (0 < size.toNat →
          (inAppRam p size = true ↔
            ∀ address,
              p.toNat ≤ address →
              address < p.toNat + size.toNat →
              IsAppRam address)) ∧
          (inAppRam p 0 = true ↔ IsAppRam p.toNat)) ∧
      ∀ call m,
        (∀ m', (syscallHandler device call).run m ≠ .error .fault m') ∧
          (∀ address,
            ¬ IsAppRam address →
            (resultMachine ((syscallHandler device call).run m)).ram
                address =
              m.ram address) ∧
          ∀ outside,
            (syscallHandler device call).run (m.withOutside outside) =
              resultWithOutside outside
                ((syscallHandler device call).run m) := by
  constructor
  · intro p size
    exact ⟨inAppRam_iff_isAppRam, inAppRam_zero_iff p⟩
  · intro call m
    refine ⟨no_fault device call m, ?_, ?_⟩
    · intro address isOutside
      exact ram_outside device call m isOutside
    · intro outside
      exact syscallHandler_withOutside outside m

end Confinement

end TKey
